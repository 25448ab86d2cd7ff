/-
  CodexRemoteBridge.Listing — following `nextCursor`, while the ledger goes on.

  The rows of the ledger file are the rows of the table.  One that a call has
  inserted holds the text of its receipt; any other was there from the start
  or came with an import, and stays as it is.  So a row that is eligible stays
  eligible, and the pages go through the rows of the first read.

  Main results:
    • `listThreads_covers` — what following `nextCursor` lists, with any
      calls, crashes and imports between the pages, where SQLite reads the
      receipts as Python does;
    • `listThreads_surrogate` — a creation no page ever lists.
-/
import CodexRemoteBridge.Inventory

namespace CodexRemoteBridge

open Interaction

section Between

variable [Hashlib] [Endpoint]

/-! ## §1. The ledger in between. -/

/-- What can happen to the ledger between two reads: anything bridges do, and
the import of a legacy ledger. -/
inductive System.Advance (S : System) (t : Table) : System → Table → Prop
  | calls {S' : System} {t' : Table} : System.Texts S t S' t' →
      (∀ c ∈ S'.clients, ∀ e ∈ c.history, WireAnswered e) → System.Advance S t S' t'
  | imported (path : String) {legacy t' : Table} {r : Except PyExc Unit} {store : Store}
      {added : List Row} : importInto path legacy t = (r, t') →
      store.rows = S.store.rows ++ added → t'.Lists store →
      System.Advance S t { S with store := store } t'

/-- Any number of such events. -/
inductive System.Advances (S₀ : System) (t₀ : Table) : System → Table → Prop
  | refl : System.Advances S₀ t₀ S₀ t₀
  | next {S S' : System} {t t' : Table} : System.Advances S₀ t₀ S t → S.Advance t S' t' →
      System.Advances S₀ t₀ S' t'

variable {store₀ : Store} {S S' : System} {t t' : Table}

theorem System.Advances.trans {S₀ : System} {t₀ : Table} (h : System.Advances S₀ t₀ S t)
    (h' : System.Advances S t S' t') : System.Advances S₀ t₀ S' t' := by
  induction h' with
  | refl => exact h
  | next _ hadvance ih => exact ih.next hadvance

/-- An import takes no row from a call that has inserted it. -/
theorem Owned.imported (h : Owned store₀ S) {store : Store} {added : List Row}
    (hrows : store.rows = S.store.rows ++ added) :
    ∃ store₁, store₁.rows = store₀.rows ++ added ∧ Owned store₁ { S with store := store } := by
  have hfind : ∀ {requestId : String} {row : Row}, S.store.find? requestId = some row →
      store.find? requestId = some row := by
    intro requestId row hrow
    obtain ⟨hmem, rfl⟩ := Store.mem_of_find? hrow
    exact Store.find?_of_mem (by rw [hrows]; exact List.mem_append_left _ hmem)
  have hnodup := store.primaryKey
  rw [hrows, List.map_append] at hnodup
  have hdisjoint := (List.nodup_append'.mp hnodup).2.2
  -- the table as if the imported rows had been there from the start
  refine ⟨⟨store₀.rows ++ added, ?_⟩, rfl, ?_⟩
  · rw [List.map_append]
    refine store₀.primaryKey.append (List.nodup_append'.mp hnodup).2.1 ?_
    intro requestId hid hid'
    obtain ⟨row, hrow, rfl⟩ := List.mem_map.mp hid
    exact hdisjoint (List.mem_map_of_mem (h.kept row hrow)) hid'
  · refine ⟨h.runs, ?_, h.alone, ?_, ?_, ?_⟩
    · intro c hc hf
      obtain ⟨⟨row, hrow, hdurable, hfp⟩, hhead⟩ := h.holds c hc hf
      exact ⟨⟨row, hfind hrow, hdurable, hfp⟩, hhead⟩
    · intro c hc hf row hrow
      rcases List.mem_append.mp hrow with hrow | hrow
      · exact h.new c hc hf row hrow
      · obtain ⟨⟨row', hrow', -⟩, -⟩ := h.holds c hc hf
        obtain ⟨hmem, hid⟩ := Store.mem_of_find? hrow'
        rw [← hid]
        exact fun e => hdisjoint (List.mem_map_of_mem hmem) (e ▸ List.mem_map_of_mem hrow)
    · intro row hrow
      show row ∈ store.rows
      rw [hrows]
      rcases List.mem_append.mp hrow with hrow | hrow
      · exact List.mem_append_left _ (h.kept row hrow)
      · exact List.mem_append_right _ hrow
    · intro row hrow
      have hrow : row ∈ store.rows := hrow
      rw [hrows] at hrow
      rcases List.mem_append.mp hrow with hrow | hrow
      · rcases h.origin row hrow with h0 | hc
        · exact .inl (List.mem_append_left _ h0)
        · exact .inr hc
      · exact .inl (List.mem_append_right _ hrow)

/-! ## §2. Eligible receipts stay eligible. -/

/-- The receipt a run inserted says which tool it is. -/
theorem ToolCall.inserted_operation (t : ToolCall) (requestId : String)
    {h : List (Event WireAns)} {rest : Prog WireOp WireAns (Except PyExc Dict × Dict)}
    (hrun : Run (t.wire requestId) h rest) {fresh : Dict}
    (hfresh : h.foldl (onBase inserted) none = some fresh) :
    fresh.get? "operation" = some (.str t.method) := by
  induction hrun with
  | start => cases hfresh
  | @step h op k r hrun ih =>
      have hown : OwnWireOp t requestId (h.foldl (onBase inserted) none) op :=
        wp_run_head (t.owns_wire requestId) hrun rfl
      rw [List.foldl_append] at hfresh
      have hfresh : onBase inserted (h.foldl (onBase inserted) none) ⟨op, r⟩ = some fresh := hfresh
      cases op with
      | net op => exact ih hfresh
      | base op =>
          have hstep : inserted (h.foldl (onBase inserted) none) ⟨op, r⟩ = some fresh := hfresh
          unfold inserted at hstep
          split at hstep
          · rename_i he
            cases he
            obtain ⟨-, -, -, startedAt, rfl⟩ := hown.row _ _ _ rfl
            obtain rfl := Option.some.inj hstep
            rfl
          · exact ih hstep

/-- **The step lemma.**  A save leaves a creation a creation. -/
theorem Owned.isCreation_save (h : Owned store₀ S) {i : Nat} {c : Client} {receipt : Dict}
    {requestId : String}
    {k : WireAns (.base (.update (.str requestId) receipt)) →
      Prog WireOp WireAns (Except PyExc Dict × Dict)}
    (hi : S.clients[i]? = some c) (hrest : c.rest = .op (.base (.update (.str requestId) receipt)) k)
    {row : Row} (hrow : row ∈ S.store.rows) (hid : row.requestId = requestId)
    (hcreation : row.isCreation = true) :
    ({ row with receipt := receipt } : Row).isCreation = true := by
  have hc := List.mem_of_getElem? hi
  have hrun := h.runs c hc
  have hown : OwnWireOp c.tool c.requestId c.fresh (.base (.update (.str requestId) receipt)) :=
    wp_run_head (c.tool.owns_wire c.requestId) hrun (by rw [hrest]; rfl)
  obtain ⟨hkey, fresh, hfresh, hsame⟩ := hown.update _ _ rfl
  cases hkey
  -- the row is the one the call holds, and still has the operation it began with
  obtain ⟨⟨row', hrow', hdurable, -⟩, hhead⟩ := h.holds c hc (by rw [hfresh]; rfl)
  have hfind := Store.find?_of_mem hrow
  rw [hid, hrow'] at hfind
  obtain rfl := Option.some.inj hfind
  have hoperation := c.tool.inserted_operation c.requestId hrun hfresh
  have hold : row'.receipt.get? "operation" = some (.str c.tool.method) := by
    rw [hhead fresh _ hfresh hdurable "operation" (by simp [headKeys]) (by simp), hoperation]
  have hnew : receipt.get? "operation" = some (.str c.tool.method) := by
    rw [hsame "operation" (by simp [headKeys]) (by simp), hoperation]
  show isCreationReceipt (.obj receipt) = true
  have hcreation : isCreationReceipt (.obj row'.receipt) = true := hcreation
  unfold isCreationReceipt receiptField at hcreation ⊢
  dsimp only at hcreation ⊢
  rw [hold] at hcreation
  cases hname : Dict.get? row'.receipt "threadId" with
  | none =>
      rw [hname] at hcreation
      cases hcreation
  | some name =>
      rw [hname] at hcreation
      cases name with
      | str threadId =>
          have hmethod : c.tool.method ∈ creationOperations := by
            simp only [Bool.and_eq_true, List.contains_iff_mem] at hcreation
            exact hcreation.1
          have hat := wp_run_head (c.tool.names_once hmethod c.requestId) hrun
            (by rw [hrest]; rfl) _ _ rfl
          have hkept : Dict.get? receipt "threadId" = some (.str threadId) :=
            hat row'.receipt _ hdurable hname
          rw [hnew, hkept]
          exact hcreation
      | _ => cases hcreation

/-- What is known of a row of the file: no call has inserted it, or it is the
text of the receipt. -/
def Told (store₀ : Store) (text : TextRow) (row : Row) : Prop :=
  row.requestId = text.requestId ∧
    (row ∈ store₀.rows ∨ Json.loads text.receipt = some (.obj row.receipt))

omit [Hashlib] [Endpoint] in
/-- A text and its receipt are eligible alike. -/
theorem isCreation_of_loads {text : TextRow} {row : Row}
    (h : Json.loads text.receipt = some (.obj row.receipt)) :
    text.isCreation = row.isCreation := by
  have hkey : ∀ key ∈ ["operation", "threadId"], Json.spelling key = key := by
    have hall : (["operation", "threadId"].all fun key =>
        key.toList.all fun c => decide (c.toNat < 0xd800)) = true := by decide
    intro key hkey
    apply Json.spelling_plain
    intro c hc
    have hchars := List.all_eq_true.mp (List.all_eq_true.mp hall key hkey) c hc
    exact of_decide_eq_true hchars
  have hfield : ∀ key ∈ ["operation", "threadId"],
      receiptField (Json.rename Json.spelling (.obj row.receipt)) key
        = (receiptField (.obj row.receipt) key).map (Json.rename Json.spelling) := by
    intro key hmem
    have hget := Json.get?_renameFields Json.spelling_injective row.receipt key
    rwa [hkey key hmem] at hget
  have hname : ∀ operation, creationOperations.contains (Json.spelling operation)
      = creationOperations.contains operation := by
    intro operation
    have hplain : ∀ o ∈ creationOperations, Json.spelling o = o :=
      fun o ho => Json.spelling_plain (toNat_creationOperations o ho)
    rw [Bool.eq_iff_iff, List.contains_iff_mem, List.contains_iff_mem]
    constructor
    · intro hmem
      have hsame := Json.spelling_injective (hplain _ hmem)
      rwa [hsame] at hmem
    · intro hmem
      rwa [hplain operation hmem]
  have hempty : ∀ threadId, (Json.spelling threadId != "") = (threadId != "") := by
    intro threadId
    have hnil : Json.spelling "" = "" := Json.spelling_plain (by simp)
    have hiff : Json.spelling threadId = "" ↔ threadId = "" := by
      constructor
      · intro he
        exact Json.spelling_injective (he.trans hnil.symm)
      · rintro rfl
        exact hnil
    rw [bne, bne, Bool.eq_iff_iff, Bool.not_eq_true', Bool.not_eq_true', beq_eq_false_iff_ne,
      beq_eq_false_iff_ne]
    exact not_congr hiff
  unfold TextRow.isCreation Row.isCreation
  rw [Json.decode_of_loads h]
  show isCreationReceipt (Json.rename Json.spelling (.obj row.receipt)) = _
  unfold isCreationReceipt
  rw [hfield "operation" (by simp), hfield "threadId" (by simp)]
  generalize receiptField (.obj row.receipt) "operation" = operation
  generalize receiptField (.obj row.receipt) "threadId" = threadId
  cases operation with
  | none => rfl
  | some operation =>
      cases operation with
      | str operation =>
          cases threadId with
          | none => rfl
          | some threadId =>
              cases threadId with
              | str threadId =>
                  show (creationOperations.contains (Json.spelling operation) &&
                    Json.spelling threadId != "") = _
                  rw [hname, hempty]
              | _ => rfl
      | _ => rfl

/-- The file and the table. -/
structure Chronicled (store₀ : Store) (S : System) (t : Table) : Prop where
  owned : Owned store₀ S
  rows : List.Forall₂ (Told store₀) t.rows S.store.rows

/-- The later file has the rows of the earlier one, and lists them if it did. -/
abbrev Table.Grows (t t' : Table) : Prop :=
  Keyset.Grows TextRow.requestId TextRow.isCreation t.rows t'.rows

theorem Chronicled.find?_eq_none (h : Chronicled store₀ S t) {requestId : String}
    (hnone : S.store.find? requestId = none) : t.find? requestId = none := by
  rw [Table.find?_eq_none]
  intro text htext heq
  obtain ⟨i, hi, rfl⟩ := List.mem_iff_getElem.mp htext
  have hlen := h.rows.length_eq
  have htold := h.rows.get hi (by omega)
  have hrow : S.store.rows[i] ∈ S.store.rows := List.getElem_mem _
  have hfind := Store.find?_of_mem hrow
  have hid : S.store.rows[i].requestId = requestId := htold.1.trans heq
  rw [hid, hnone] at hfind
  cases hfind

/-- The row of a text. -/
theorem Chronicled.mem (h : Chronicled store₀ S t) {text : TextRow} (htext : text ∈ t.rows) :
    ∃ row ∈ S.store.rows, Told store₀ text row := by
  obtain ⟨i, hi, rfl⟩ := List.mem_iff_getElem.mp htext
  have hlen := h.rows.length_eq
  exact ⟨S.store.rows[i], List.getElem_mem _, h.rows.get hi (by omega)⟩

/-- **The step lemma.**  What an answered operation does to the file. -/
theorem Chronicled.follow (h : Chronicled store₀ S t) {i : Nat} {c : Client} {op : WireOp}
    {k : WireAns op → Prog WireOp WireAns (Except PyExc Dict × Dict)} {r : WireAns op}
    {store : Store} (hi : S.clients[i]? = some c) (hrest : c.rest = .op op k)
    (hserve : Serves S.store op r store) (hwrites : op.Writes) :
    List.Forall₂ (Told store₀) (t.follow ⟨op, r⟩).rows store.rows ∧
      t.Grows (t.follow ⟨op, r⟩) := by
  cases hserve with
  | insert hnone =>
      rename_i requestId fp receipt
      have htnone : t.find? requestId = none := h.find?_eq_none hnone
      have hrows : (t.follow ⟨.base (.beginRow requestId fp receipt), .ok none⟩).rows
          = t.rows ++ [⟨requestId, fp, jsonDumps receipt⟩] := by
        show ((t.insert ⟨requestId, fp, jsonDumps receipt⟩).getD t).rows = _
        rw [Table.rows_insert, htnone]
        rfl
      show List.Forall₂ _ (t.follow _).rows _ ∧ Keyset.Grows _ _ _ (t.follow _).rows
      rw [hrows, Store.rows_insertOrIgnore hnone]
      exact ⟨List.rel_append h.rows (.cons ⟨rfl, .inr (loads_jsonDumps hwrites)⟩ .nil),
        Keyset.Grows.append _ _⟩
  | update requestId receipt =>
      have hc := List.mem_of_getElem? hi
      have hown : OwnWireOp c.tool c.requestId c.fresh (.base (.update (.str requestId) receipt)) :=
        wp_run_head (c.tool.owns_wire c.requestId) (h.owned.runs c hc) (by rw [hrest]; rfl)
      obtain ⟨hkey, fresh, hfresh, -⟩ := hown.update _ _ rfl
      have hid := Json.str.inj hkey
      refine ⟨?_, _, [], (List.append_nil _).symm, ?_⟩
      · show List.Forall₂ _ (t.rows.map _) (S.store.rows.map _)
        rw [List.forall₂_map_left_iff, List.forall₂_map_right_iff]
        refine h.rows.imp fun text row htold => ?_
        by_cases heq : text.requestId = requestId
        · rw [if_pos heq, if_pos (htold.1.trans heq)]
          exact ⟨htold.1, .inr (loads_jsonDumps hwrites)⟩
        · rw [if_neg heq, if_neg fun e => heq (htold.1.symm.trans e)]
          exact htold
      · show List.Forall₂ _ t.rows (t.rows.map _)
        rw [List.forall₂_map_right_iff, List.forall₂_same]
        intro text htext
        by_cases heq : text.requestId = requestId
        · rw [if_pos heq]
          refine ⟨rfl, fun hcreation => ?_⟩
          -- a call writes no row that was there before it
          obtain ⟨row, hrow, hrowid, hold | hloads⟩ := h.mem htext
          · have hne := h.owned.new c hc (by rw [hfresh]; rfl) row hold
            exact absurd (hrowid.trans (heq.trans hid)) hne
          · rw [isCreation_of_loads hloads] at hcreation
            have hsaved := h.owned.isCreation_save hi hrest hrow (hrowid.trans heq) hcreation
            have htext' : Json.loads (jsonDumps receipt) = some (.obj receipt) :=
              loads_jsonDumps hwrites
            rw [← hsaved]
            exact @isCreation_of_loads { text with receipt := jsonDumps receipt }
              { row with receipt := receipt } htext'
        · rw [if_neg heq]
          exact Keyset.Kept.refl text
  | updateNothing receipt hkey =>
      rename_i key
      cases key with
      | str requestId => exact absurd rfl (hkey requestId)
      | _ => exact ⟨h.rows, Keyset.Grows.refl _⟩
  | updateFails key receipt f =>
      cases key <;> exact ⟨h.rows, Keyset.Grows.refl _⟩
  | other r hselect hbegin hupdate =>
      unfold Table.follow
      split
      · rename_i heq
        cases heq
        exact absurd rfl (hbegin _ _ _)
      · rename_i heq
        cases heq
        exact absurd rfl (hupdate _ _)
      · exact ⟨h.rows, Keyset.Grows.refl _⟩
  | _ => exact ⟨h.rows, Keyset.Grows.refl _⟩

/-- **The run lemma**, without imports. -/
theorem Chronicled.calls (h : Chronicled store₀ S t) (htexts : System.Texts S t S' t') :
    (∀ c ∈ S'.clients, ∀ e ∈ c.history, WireAnswered e) →
      Chronicled store₀ S' t' ∧ t.Grows t' := by
  induction htexts with
  | init => exact fun _ => ⟨h, Keyset.Grows.refl _⟩
  | call bridge requestId tool _ ih =>
      intro hanswered
      obtain ⟨hbefore, hgrows⟩ := ih fun c hc => hanswered c (List.mem_append_left _ hc)
      exact ⟨⟨hbefore.owned.step (.call bridge requestId tool), hbefore.rows⟩, hgrows⟩
  | @act S₁ t₁ i c op k r store' locked _ hc hlive hrest hserve hlock ih =>
      intro hanswered
      have hlt := (List.getElem?_eq_some_iff.mp hc).1
      have hafter := hanswered _ (List.mem_set hlt _)
      have hanswered₀ : ∀ d ∈ S₁.clients, ∀ e ∈ d.history, WireAnswered e := by
        intro d hd e he
        obtain ⟨j, hj⟩ := List.mem_iff_getElem?.mp hd
        by_cases hij : i = j
        · subst hij
          obtain rfl := Option.some.inj (hc.symm.trans hj)
          exact hafter e (List.mem_append_left _ he)
        · refine hanswered d (List.mem_iff_getElem?.mpr ⟨j, ?_⟩) e he
          rw [List.getElem?_set_ne hij]
          exact hj
      obtain ⟨hbefore, hgrows⟩ := ih hanswered₀
      have hruns := hbefore.owned.runs c (List.mem_of_getElem? hc)
      have hwrites : op.Writes := by
        have hat := wp_run_on (c.tool.writes_wire c.requestId) hruns fun pre e post he =>
          hafter e (by rw [he]; simp)
        rw [hrest] at hat
        exact hat.1
      obtain ⟨hrows, hmore⟩ := hbefore.follow hc hrest hserve hwrites
      exact ⟨⟨hbefore.owned.step (.act hc hlive hrest hserve hlock), hrows⟩, hgrows.trans hmore⟩
  | crash bridge _ ih =>
      intro hanswered
      obtain ⟨hbefore, hgrows⟩ := ih fun c hc e he => hanswered _ (List.mem_map_of_mem hc) e
        (by split <;> exact he)
      exact ⟨⟨hbefore.owned.step (.crash bridge), hbefore.rows⟩, hgrows⟩

omit [Hashlib] [Endpoint] in
/-- **What an import does to the file**: rows are added at its end, if any. -/
theorem import_appends {path : String} {legacy : Table} {r : Except PyExc Unit}
    (himport : importInto path legacy t = (r, t')) : ∃ new, t'.rows = t.rows ++ new := by
  rcases importInto_cases path legacy t with ⟨-, hdone⟩ | ⟨-, e, -, hdone⟩
  · rw [hdone] at himport
    obtain rfl := (Prod.mk.inj himport).2
    exact ⟨_, Table.rows_merge legacy.rows legacy.primaryKey t⟩
  · rw [hdone] at himport
    obtain rfl := (Prod.mk.inj himport).2
    exact ⟨[], (List.append_nil _).symm⟩

theorem Chronicled.advance (h : Chronicled store₀ S t) (hadvance : S.Advance t S' t') :
    ∃ store₁, Chronicled store₁ S' t' ∧ t.Grows t' := by
  cases hadvance with
  | calls htexts hanswered => exact ⟨store₀, h.calls htexts hanswered⟩
  | imported path himport hstore hlists =>
      rename_i store added
      obtain ⟨new, hnew⟩ := import_appends himport
      obtain ⟨store₁, hrows₁, hown⟩ := h.owned.imported hstore
      refine ⟨store₁, ⟨hown, ?_⟩, ?_⟩
      · have hlength := h.rows.length_eq
        have hids : List.Forall₂ (fun text row => row.requestId = text.requestId) t'.rows
            store.rows := hlists.imp fun text row hrow => hrow.1
        show List.Forall₂ _ t'.rows store.rows
        rw [hnew, hstore] at hids ⊢
        have hnewids := List.forall₂_drop t.rows.length hids
        rw [List.drop_left, hlength, List.drop_left] at hnewids
        refine List.rel_append (h.rows.imp fun text row htold => ?_) ?_
        · refine ⟨htold.1, htold.2.imp_left fun hold => ?_⟩
          rw [hrows₁]
          exact List.mem_append_left _ hold
        · refine (List.forall₂_iff_get.mpr ⟨hnewids.length_eq, fun j hj hj' => ?_⟩)
          refine ⟨hnewids.get hj hj', .inl ?_⟩
          rw [hrows₁]
          exact List.mem_append_right _ (List.getElem_mem _)
      · show Keyset.Grows _ _ t.rows t'.rows
        rw [hnew]
        exact Keyset.Grows.append _ _

/-- **The run lemma.** -/
theorem Chronicled.advances (h : Chronicled store₀ S t) (hadvances : System.Advances S t S' t') :
    ∃ store₁, Chronicled store₁ S' t' ∧ t.Grows t' := by
  induction hadvances with
  | refl => exact ⟨store₀, h, Keyset.Grows.refl _⟩
  | next _ hadvance ih =>
      obtain ⟨store₁, hbefore, hgrows⟩ := ih
      obtain ⟨store₂, hafter, hmore⟩ := hbefore.advance hadvance
      exact ⟨store₂, hafter, hgrows.trans hmore⟩

theorem Chronicled.init {t₀ : Table} (h : t₀.Lists store₀) :
    Chronicled store₀ (System.init store₀) t₀ where
  owned := Owned.init store₀
  rows := by
    refine List.forall₂_iff_get.mpr ⟨h.length_eq, fun j hj hj' => ?_⟩
    exact ⟨(h.get hj hj').1, .inl (List.getElem_mem _)⟩

/-! ## §3. Following the cursor. -/

/-- The receipts the pages list, in the order they list them. -/
def listedIds (pages : List Page) : List String :=
  pages.flatMap fun page => page.data.map Item.requestId

omit [Hashlib] [Endpoint] in
theorem listedIds_append (pages : List Page) (page : Page) :
    listedIds (pages ++ [page]) = listedIds pages ++ page.data.map Item.requestId := by
  simp [listedIds]

variable [Sqlite]

/-- The pages that have been read, the state the last one was read in, and
its `nextCursor`: the first is read without a cursor from `S₁`, every other
with the cursor of the page before, after the ledger has moved on.  SQLite
reads alike what it is asked to read. -/
inductive Listing (S₁ : System) (t₁ : Table) :
    System → Table → List Page → Option String → Prop
  | first {limit : Json} {page : Page} : t₁.ReadAlike → listThreads t₁ limit .null = .ok page →
      Listing S₁ t₁ S₁ t₁ [page] page.nextCursor
  | next {S S' : System} {t t' : Table} {pages : List Page} {cursor : String} {limit : Json}
      {page : Page} : Listing S₁ t₁ S t pages (some cursor) → System.Advances S t S' t' →
      t'.ReadAlike → listThreads t' limit (.str cursor) = .ok page →
      Listing S₁ t₁ S' t' (pages ++ [page]) page.nextCursor

/-- How far the pages have got: either through all rows of the first read, or
down to the row whose cursor was handed out last. -/
def ListedTo (t : Table) (pages : List Page) : Option String → Prop
  | none => Keyset.Covered TextRow.requestId TextRow.isCreation t.rows 0 (listedIds pages)
  | some cursor => ∃ k, k < t.rows.length ∧ cursor = encodeCursor (k + 1) ∧
      Keyset.Covered TextRow.requestId TextRow.isCreation t.rows k (listedIds pages)

omit [Hashlib] [Endpoint] in
/-- A row keeps its name in the inventory. -/
theorem TextRow.requestId_item {row : TextRow} {item : Item} (h : row.item = .ok item) :
    item.requestId = row.requestId := by
  unfold TextRow.item at h
  obtain ⟨threadId, -, h⟩ := bind_eq_ok.mp h
  obtain ⟨operation, -, h⟩ := bind_eq_ok.mp h
  obtain ⟨status, -, h⟩ := bind_eq_ok.mp h
  obtain ⟨startedAt, -, h⟩ := bind_eq_ok.mp h
  cases h
  rfl

omit [Hashlib] [Endpoint] in
theorem requestIds_of_items {items : List Item} {rows : List TextRow}
    (h : items.map Except.ok = rows.map TextRow.item) :
    items.map Item.requestId = rows.map TextRow.requestId := by
  induction rows generalizing items with
  | nil => rw [List.map_eq_nil_iff.mp h]; rfl
  | cons row rest ih =>
      cases items with
      | nil => cases h
      | cons item items =>
          obtain ⟨hitem, hitems⟩ := List.cons.inj h
          rw [List.map_cons, List.map_cons, TextRow.requestId_item hitem.symm, ih hitems]

omit [Hashlib] [Endpoint] in
/-- One more page. -/
theorem ListedTo.page {t now : Table} {pages : List Page} {k : Nat} {limit cursor : Json}
    {before : Option Nat} {page : Page}
    (h : Keyset.Covered TextRow.requestId TextRow.isCreation t.rows k (listedIds pages))
    (hgrows : t.Grows now) (hparse : parseCursor cursor = .ok before)
    (hbound : Keyset.Bound t.rows k before now.rows) (halike : now.ReadAlike)
    (hpage : listThreads now limit cursor = .ok page) :
    ListedTo t (pages ++ [page]) page.nextCursor ∧ (page.nextCursor ≠ none → page.data ≠ []) := by
  have hk : k ≤ t.rows.length := by
    rcases hbound with ⟨-, hk⟩ | ⟨-, rfl, -⟩
    · exact hk
    · exact Nat.le_refl _
  obtain ⟨n, before', hn, hparse', hdata, hnext⟩ := listThreads_ok hpage
  rw [hparse] at hparse'
  obtain rfl := Except.ok.inj hparse'
  -- the rows SQLite selects are the eligible ones
  have halikePage : Keyset.page TextRow.listed now.rows before n
      = Keyset.page TextRow.isCreation now.rows before n := by
    unfold Keyset.page
    rw [halike.query]
  rw [halikePage] at hdata hnext
  have hids := requestIds_of_items hdata
  rcases h.page hgrows hbound hn with ⟨hlast, hcovered⟩ | ⟨j, hj, hmore, hne, hcovered⟩
  · rw [hlast] at hnext
    rw [hnext]
    refine ⟨?_, fun hsome => absurd rfl hsome⟩
    show Keyset.Covered _ _ _ _ _
    rw [listedIds_append, hids]
    exact hcovered
  · rw [hmore] at hnext
    rw [hnext]
    refine ⟨⟨j, by omega, rfl, ?_⟩, fun _ hempty => hne ?_⟩
    · rw [listedIds_append, hids]
      exact hcovered
    · rw [hempty] at hdata
      exact List.map_eq_nil_iff.mp hdata.symm

/-- What the pages from `t₁` on list, and what becomes of the cursor of the
last one. -/
structure Inventoried (t₁ : Table) (S : System) (t : Table) (pages : List Page)
    (next : Option String) : Prop where
  /-- In decreasing order of insertion, and nothing inserted after the first read. -/
  order : (listedIds pages).Sublist (t₁.rows.map TextRow.requestId).reverse
  once : (listedIds pages).Nodup
  /-- When there is no next page, every creation of the first read has been listed. -/
  complete : next = none → ∀ row ∈ t₁.rows, row.isCreation = true →
    (listedIds pages).count row.requestId = 1
  /-- Otherwise the cursor is understood, whatever happens before it is used; the page
  is returned if no row it fetches has a lone surrogate, and only then. -/
  accepted : ∀ cursor, next = some cursor →
    ∃ before, parseCursor (.str cursor) = .ok (some before) ∧
      ∀ S' t', System.Advances S t S' t' → t'.ReadAlike → ∀ n : Int, 1 ≤ n → n ≤ 100 →
      ((∃ page, listThreads t' (.int n) (.str cursor) = .ok page) ↔
        ∀ x ∈ t'.fetched (some before) n.toNat, x.1.Utf8)
  /-- Every page but the last lists something, so there is a last one. -/
  ends : pages.length ≤ t₁.rows.length + 1

/-- The pages of a listing, one after another. -/
theorem Listing.listedTo {S₁ : System} {t₁ : Table} {pages : List Page} {next : Option String}
    (hstart : Chronicled store₀ S₁ t₁) (hrows : t₁.rows.length ≤ maxRowid)
    (h : Listing S₁ t₁ S t pages next) :
    ListedTo t₁ pages next ∧ System.Advances S₁ t₁ S t ∧
      pages.length ≤ (listedIds pages).length + 1 ∧
      (next ≠ none → pages.length ≤ (listedIds pages).length) := by
  induction h with
  | @first limit page halike hpage =>
      have hnone : Keyset.Covered TextRow.requestId TextRow.isCreation t₁.rows
          t₁.rows.length (listedIds []) := Keyset.Covered.start _
      have hparse : parseCursor .null = .ok none := rfl
      obtain ⟨hlisted, hsome⟩ := ListedTo.page hnone (Keyset.Grows.refl _) hparse
        (.inr ⟨rfl, rfl, rfl⟩) halike hpage
      refine ⟨hlisted, .refl, by simp, fun hnext => ?_⟩
      have hpos := List.length_pos_of_ne_nil (hsome hnext)
      simp only [listedIds, List.flatMap_cons, List.flatMap_nil, List.append_nil, List.length_map,
        List.length_singleton]
      omega
  | @next S S' t t' pages cursor limit page _ hadvances halike hpage ih =>
      obtain ⟨⟨k, hk, hcursor, hcovered⟩, hbefore, -, hlength⟩ := ih
      have hlength := hlength (by simp)
      have hall := hbefore.trans hadvances
      obtain ⟨store₁, -, hgrows⟩ := hstart.advances hall
      have hparse : parseCursor (.str cursor) = .ok (some (k + 1)) := by
        rw [hcursor]
        exact parseCursor_encodeCursor (by omega)
      obtain ⟨hlisted, hsome⟩ := ListedTo.page hcovered hgrows hparse
        (.inl ⟨rfl, Nat.le_of_lt hk⟩) halike hpage
      refine ⟨hlisted, hall, ?_, fun hnext => ?_⟩
      · rw [listedIds_append, List.length_append, List.length_append, List.length_singleton]
        omega
      · have hpos := List.length_pos_of_ne_nil (hsome hnext)
        rw [listedIds_append, List.length_append, List.length_append, List.length_singleton,
          List.length_map]
        omega

/-- **Following the cursor.**  From any state of any execution, and with any
execution between the pages, where SQLite reads the receipts alike: a ledger
has no more rows than SQLite has `rowid`s. -/
theorem listThreads_covers {t₀ t₁ : Table} {S₁ : System} (hlists : t₀.Lists store₀)
    (hreach : System.Advances (System.init store₀) t₀ S₁ t₁) (hrows : t₁.rows.length ≤ maxRowid) :
    (t₁.ReadAlike → ∀ n : Int, 1 ≤ n → n ≤ 100 →
      ((∃ page, listThreads t₁ (.int n) .null = .ok page) ↔
        ∀ x ∈ t₁.fetched none n.toNat, x.1.Utf8)) ∧
    ∀ S t pages next, Listing S₁ t₁ S t pages next → Inventoried t₁ S t pages next := by
  obtain ⟨store₁, hstart, -⟩ := (Chronicled.init hlists).advances hreach
  refine ⟨fun halike n hone hmax => listThreads_returns halike rfl ⟨hone, hmax⟩, ?_⟩
  intro S t pages next h
  obtain ⟨hlisted, -, hlength, -⟩ := h.listedTo hstart hrows
  have hnodup : (t₁.rows.map TextRow.requestId).reverse.Nodup :=
    List.nodup_reverse.mpr t₁.primaryKey
  have horder : (listedIds pages).Sublist (t₁.rows.map TextRow.requestId).reverse := by
    cases next with
    | none => exact hlisted.listed
    | some cursor =>
        obtain ⟨k, -, -, hcovered⟩ := hlisted
        exact hcovered.listed.trans (((List.drop_sublist k _).map _).reverse)
  constructor
  · exact horder
  · exact hnodup.sublist horder
  · rintro rfl row hrow hcreation
    exact List.count_eq_one_of_mem (hnodup.sublist horder) (hlisted.complete row hrow hcreation)
  · rintro cursor rfl
    obtain ⟨k, hk, rfl, -⟩ := hlisted
    have hparse : parseCursor (.str (encodeCursor (k + 1))) = .ok (some (k + 1)) :=
      parseCursor_encodeCursor (by omega)
    refine ⟨k + 1, hparse, fun S' t' _ halike n hone hmax => ?_⟩
    exact listThreads_returns halike hparse ⟨hone, hmax⟩
  · have hcount := horder.length_le
    rw [List.length_reverse, List.length_map] at hcount
    omega

end Between

/-! ## §4. A JSON reader for SQLite. -/

/-- An SQL value of a value of JSON. -/
def sqlValue : Option Json → SqlValue
  | none => .null
  | some .null => .null
  | some (.bool b) => .integer (if b then 1 else 0)
  | some (.int n) => .integer n
  | some (.float repr) => .real repr
  | some (.str s) => .text (Json.unspell s.toList)
  | some v => .text ((Json.dumpsText v).map Char.toNat)

theorem sqlReads_sqlValue (field : Option Json) : SqlReads field (sqlValue field) := by
  have hplain : ∀ (c : Char) (cs : List Char),
      (Json.plainName (c.toNat :: cs.map Char.toNat)).isSome = true := by
    intro c cs
    have hname := Json.plainName_toNat (c :: cs)
    rw [List.map_cons] at hname
    rw [hname]
    rfl
  cases field with
  | none => exact .absent
  | some v =>
      cases v with
      | null => exact .null
      | bool b => exact .bool b
      | int n => exact .int n
      | float repr => exact .float repr
      | str s => exact .str s
      | arr items =>
          cases items with
          | nil => exact .arr _ (hplain _ [']'])
          | cons v items => exact .arr _ (hplain '[' _)
      | obj fields =>
          cases fields with
          | nil => exact .obj _ (hplain _ ['\x7d'])
          | cons kv fields => exact .obj _ (hplain '\x7b' _)

/-- An SQLite that reads every receipt as `json.loads` does. -/
abbrev Sqlite.sample : Sqlite where
  jsonExtract := fun receipt key => (Json.decode receipt).map fun v => sqlValue (receiptField v key)
  jsonType := fun receipt key => (Json.decode receipt).map fun v => sqlTypeName (receiptField v key)

theorem TextRow.readAlike_sample {row : TextRow} {receipt : Json}
    (h : Json.decode row.receipt = some receipt) :
    @TextRow.ReadAlike Sqlite.sample row receipt := by
  let _ := Sqlite.sample
  refine ⟨h, fun key _ => ⟨sqlValue (receiptField receipt key), ?_, sqlReads_sqlValue _⟩, ?_⟩
  · show (Json.decode row.receipt).map _ = _
    rw [h, Option.map_some]
  · show (Json.decode row.receipt).map _ = _
    rw [h, Option.map_some]

theorem TextRow.extract_sample {row : TextRow} {receipt : Json}
    (h : Json.decode row.receipt = some receipt) (key : String) :
    @TextRow.extract Sqlite.sample row key = .ok (sqlValue (receiptField receipt key)) := by
  show wellFormed ((Json.decode row.receipt).map _) = _
  rw [h]
  rfl

/-! ## §5. A creation no page lists. -/

/-- `{"operation": "create_thread", "threadId": "\ud800"}`. -/
def surrogateReceipt : String :=
  String.ofList ('\x7b' :: (Json.quote "operation" ++ [':', ' '] ++ Json.quote "create_thread"
    ++ [',', ' '] ++ Json.quote "threadId" ++ [':', ' ']
    ++ ['"', '\\', 'u', 'd', '8', '0', '0', '"', '\x7d']))

theorem decode_surrogateReceipt : Json.decode surrogateReceipt = some (.obj
    [("operation", .str "create_thread"), ("threadId", .str (Json.spell [0xd800]))]) :=
  Json.loadsAs_ofList _ _

/-- The row is eligible, and every page that would list it is refused. -/
theorem listThreads_surrogate :
    let _ := Sqlite.sample
    let t : Table := ⟨[⟨"a", "digest", surrogateReceipt⟩], List.nodup_singleton _⟩
    t.ReadAlike ∧ (∀ row ∈ t.rows, row.isCreation = true) ∧
    ∀ n : Int, 1 ≤ n → n ≤ 100 → ¬ ∃ page, listThreads t (.int n) .null = .ok page := by
  intro _ t
  have halike : t.ReadAlike := by
    intro row hrow
    obtain rfl := List.mem_singleton.mp hrow
    exact ⟨_, TextRow.readAlike_sample decode_surrogateReceipt⟩
  have hcreation : ∀ row ∈ t.rows, row.isCreation = true := by
    intro row hrow
    obtain rfl := List.mem_singleton.mp hrow
    unfold TextRow.isCreation
    rw [decode_surrogateReceipt]
    decide
  refine ⟨halike, hcreation, fun n hone hmax hpage => ?_⟩
  have hutf8 := (listThreads_returns halike rfl ⟨hone, hmax⟩).mp hpage
  have hfetched : (⟨"a", "digest", surrogateReceipt⟩, 1) ∈ t.fetched none n.toNat := by
    have hcreation := hcreation _ List.mem_cons_self
    show _ ∈ (List.filter _ [(_, 1)]).take (n.toNat + 1)
    rw [List.filter_cons_of_pos (by rw [hcreation]; rfl)]
    exact List.mem_cons_self
  have hplain := hutf8 _ hfetched _ decode_surrogateReceipt "threadId" (by simp [inventoryKeys])
    (Json.spell [0xd800]) rfl
  rw [Json.unspell_spell (by decide)] at hplain
  exact absurd hplain (by decide)

/-- The pages of a table of two creations, one each. -/
theorem listThreads_two [Sqlite] {x y : TextRow} {i j : Item} {t : Table} (ht : t.rows = [x, y])
    (hx : x.selected = .ok true) (hi : x.item = .ok i) (hy : y.selected = .ok true)
    (hj : y.item = .ok j) :
    listThreads t (.int 1) .null
        = .ok ⟨[j], some (encodeCursor 2), false, inventoryScope⟩ ∧
    listThreads t (.int 1) (.str (encodeCursor 2)) = .ok ⟨[i], none, false, inventoryScope⟩ := by
  have hfirst : t.select none 2 = .ok [(j, 2), (i, 1)] := by
    rw [Table.select, ht]
    show selectRows _ 2 [(y, 2), (x, 1)] = _
    simp [selectRows, hx, hy, hi, hj, bind, Except.bind]
  have hsecond : t.select (some 2) 2 = .ok [(i, 1)] := by
    rw [Table.select, ht]
    show selectRows _ 2 [(y, 2), (x, 1)] = _
    simp [selectRows, hx, hy, hi, bind, Except.bind]
  have hcursor : parseCursor (.str (encodeCursor 2)) = .ok (some 2) :=
    parseCursor_encodeCursor (by decide)
  constructor
  · show (t.select none 2 >>= _) = _
    rw [hfirst]
    rfl
  · unfold listThreads
    rw [hcursor]
    show (t.select (some 2) 2 >>= _) = _
    rw [hsecond]
    rfl

/-- Two pages, with a call that starts in between. -/
theorem listThreads_covers_two_pages :
    let _ := Hashlib.verbatim
    let _ := Endpoint.sample
    let _ := Sqlite.sample
    ∃ (t : Table) (S : System) (pages : List Page),
      listedIds pages = ["b", "a"] ∧ S.clients.length = 1 ∧ Inventoried t S t pages none := by
  intro _ _ _
  let a : Dict := [("operation", .str "create_thread"), ("threadId", .str "t")]
  let b : Dict := [("operation", .str "fork_thread"), ("threadId", .str "u")]
  let store : Store := ⟨[⟨"a", "digest", a⟩, ⟨"b", "digest", b⟩], by decide⟩
  let t : Table := ⟨[⟨"a", "digest", jsonDumps a⟩, ⟨"b", "digest", jsonDumps b⟩], by decide⟩
  have ha : Json.decode (jsonDumps a) = some (.obj a) := Json.loadsAs_ofList _ _
  have hb : Json.decode (jsonDumps b) = some (.obj b) := Json.loadsAs_ofList _ _
  have hreads : t.Reads store :=
    .cons ⟨rfl, rfl, loads_jsonDumps rfl⟩ (.cons ⟨rfl, rfl, loads_jsonDumps rfl⟩ .nil)
  have halikeA : TextRow.ReadAlike ⟨"a", "digest", jsonDumps a⟩ (.obj a) :=
    TextRow.readAlike_sample ha
  have halikeB : TextRow.ReadAlike ⟨"b", "digest", jsonDumps b⟩ (.obj b) :=
    TextRow.readAlike_sample hb
  have halike : t.ReadAlike := by
    intro row hrow
    rcases List.mem_cons.mp hrow with rfl | hrow
    · exact ⟨_, halikeA⟩
    · obtain rfl := List.mem_singleton.mp hrow
      exact ⟨_, halikeB⟩
  have hselectedA : TextRow.selected ⟨"a", "digest", jsonDumps a⟩ = .ok true := by
    rw [halikeA.selected, TextRow.isCreation, ha]
    rfl
  have hselectedB : TextRow.selected ⟨"b", "digest", jsonDumps b⟩ = .ok true := by
    rw [halikeB.selected, TextRow.isCreation, hb]
    rfl
  have hextractA : ∀ key, TextRow.extract ⟨"a", "digest", jsonDumps a⟩ key
      = .ok (sqlValue (receiptField (.obj a) key)) := TextRow.extract_sample ha
  have hitemA : TextRow.item ⟨"a", "digest", jsonDumps a⟩
      = .ok ⟨"a", .str "t", .str "create_thread", .null, .null⟩ := by
    unfold TextRow.item
    rw [hextractA, hextractA, hextractA, hextractA]
    rfl
  have hextractB : ∀ key, TextRow.extract ⟨"b", "digest", jsonDumps b⟩ key
      = .ok (sqlValue (receiptField (.obj b) key)) := TextRow.extract_sample hb
  have hitemB : TextRow.item ⟨"b", "digest", jsonDumps b⟩
      = .ok ⟨"b", .str "u", .str "fork_thread", .null, .null⟩ := by
    unfold TextRow.item
    rw [hextractB, hextractB, hextractB, hextractB]
    rfl
  obtain ⟨hfirst, hsecond⟩ := listThreads_two (t := t) rfl hselectedA hitemA hselectedB hitemB
  have hstart : System.Advances (System.init store) t (System.init store) t := .refl
  have hinit : System.Texts (System.init store) t (System.init store) t := .init
  have hbetween := hstart.next
    (.calls (hinit.call 0 "c" (.setThreadTitle ⟨"t", "x"⟩)) (by
      intro c hc e he
      obtain rfl := List.mem_singleton.mp hc
      exact absurd he List.not_mem_nil))
  have hlisting := (Listing.first halike hfirst).next hbetween halike hsecond
  exact ⟨t, _, _, rfl, rfl, (listThreads_covers hreads.lists hstart (by decide)).2 _ _ _ _ hlisting⟩

end CodexRemoteBridge

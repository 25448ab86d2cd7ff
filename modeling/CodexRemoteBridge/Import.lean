/-
  CodexRemoteBridge.Import — `Ledger.import_legacy`: merging the ledger of an
  alias into the canonical one.

  Here a receipt is the text in its row.  The import is one transaction, so
  what it has inserted before it meets a conflict never shows; and no call
  ever writes an imported row, so importing the same ledger again finds its
  rows as they were.

  Main result:
    • `importLegacy_merges` — when the import succeeds, what the table is
      then, and that it succeeds again after any execution.
-/
import CodexRemoteBridge.System
import CodexRemoteBridge.Written
import CodexRemoteBridge.Lib.JsonEq

namespace CodexRemoteBridge

open Interaction

/-! ## §1. The table as text. -/

/-- A row of `operations`, as it is stored. -/
structure TextRow where
  requestId : String
  fingerprint : String
  receipt : String

/-- The table: no two rows have one `request_id`. -/
structure Table where
  rows : List TextRow
  primaryKey : (rows.map (·.requestId)).Nodup

namespace Table

/-- `SELECT … WHERE request_id = ?`. -/
def find? (t : Table) (requestId : String) : Option TextRow :=
  t.rows.find? fun row => row.requestId = requestId

theorem find?_eq_none {t : Table} {requestId : String} :
    t.find? requestId = none ↔ ∀ row ∈ t.rows, row.requestId ≠ requestId := by
  simp [find?]

theorem mem_of_find? {t : Table} {requestId : String} {row : TextRow}
    (h : t.find? requestId = some row) : row ∈ t.rows ∧ row.requestId = requestId :=
  ⟨List.mem_of_find?_eq_some h, by simpa using List.find?_some h⟩

theorem find?_of_mem {t : Table} {row : TextRow} (h : row ∈ t.rows) :
    t.find? row.requestId = some row := by
  cases hf : t.find? row.requestId with
  | none => exact absurd rfl (find?_eq_none.mp hf row h)
  | some row' =>
      obtain ⟨hmem, hid⟩ := mem_of_find? hf
      rw [List.inj_on_of_nodup_map t.primaryKey hmem h hid]

/-- The table with a row that is not in it yet. -/
def append (t : Table) (row : TextRow) (h : t.find? row.requestId = none) : Table where
  rows := t.rows ++ [row]
  primaryKey := by
    rw [List.map_append, List.map_singleton]
    refine t.primaryKey.append (List.nodup_singleton _) ?_
    simpa [eq_comm] using find?_eq_none.mp h

/-- `INSERT`: a second row with one primary key is refused. -/
def insert (t : Table) (row : TextRow) : Option Table :=
  if h : t.find? row.requestId = none then some (t.append row h) else none

/-- The table with the rows of `other` that it lacks. -/
def merge (t : Table) (rows : List TextRow) : Table :=
  rows.foldl (fun t row => (t.insert row).getD t) t

theorem find?_insert {t t' : Table} {row : TextRow} (h : t.insert row = some t')
    {requestId : String} (hne : requestId ≠ row.requestId) :
    t'.find? requestId = t.find? requestId := by
  unfold insert at h
  split at h
  · cases h
    simp [find?, append, List.find?_append, Ne.symm hne]
  · cases h

theorem rows_insert {t : Table} {row : TextRow} :
    ((t.insert row).getD t).rows
      = t.rows ++ if (t.find? row.requestId).isNone then [row] else [] := by
  unfold insert
  by_cases h : t.find? row.requestId = none
  · simp [h, append]
  · obtain ⟨row', hrow'⟩ := Option.ne_none_iff_exists'.mp h
    simp [hrow']

/-- **The union**: the rows of the one, then those of the other it lacked. -/
theorem rows_merge (rows : List TextRow) (hrows : (rows.map (·.requestId)).Nodup) (t : Table) :
    (t.merge rows).rows = t.rows ++ rows.filter fun row => (t.find? row.requestId).isNone := by
  induction rows generalizing t with
  | nil => simp [merge]
  | cons row rest ih =>
      obtain ⟨hnot, hrest⟩ := List.nodup_cons.mp hrows
      have hfind : ∀ r ∈ rest, ((t.insert row).getD t).find? r.requestId = t.find? r.requestId := by
        intro r hr
        cases hins : t.insert row with
        | none => rfl
        | some t' =>
            exact find?_insert hins fun heq => hnot (List.mem_map.mpr ⟨r, hr, heq⟩)
      have hfilter : rest.filter (fun r => (((t.insert row).getD t).find? r.requestId).isNone)
          = rest.filter fun r => (t.find? r.requestId).isNone :=
        List.filter_congr fun r hr => by rw [hfind r hr]
      show (((t.insert row).getD t).merge rest).rows = _
      rw [ih hrest, rows_insert, hfilter, List.append_assoc]
      congr 1
      cases hnone : (t.find? row.requestId).isNone <;> simp [hnone]

end Table

/-! ## §2. `import_legacy`. -/

/-- The statements of a start, and the ends of its transaction. -/
inductive SqlOp where
  /-- `CREATE TABLE IF NOT EXISTS`, committed. -/
  | create
  | select (requestId : String)
  | insert (row : TextRow)
  | commit
  | rollback

/-- What a statement is answered with. -/
abbrev SqlAns : SqlOp → Type
  | .create => Unit
  | .select _ => Option TextRow
  | .insert _ => Except PyExc Unit
  | .commit => Unit
  | .rollback => Unit

/-- A coroutine over one connection. -/
abbrev Sql : Type → Type := Co SqlOp SqlAns PyExc Unit

/-- `json.loads`, of a text that may hold lone surrogates. -/
def jsonLoads (text : String) : Except PyExc Json :=
  match Json.decode text with
  | some v => .ok v
  | none => .error (.exception "JSONDecodeError" "Expecting value")

/-- The refusal of a legacy ledger. -/
def legacyConflict (path requestId : String) : PyExc :=
  .valueError ("Conflicting retained request " ++ reprStr requestId ++ " in legacy socket ledger "
    ++ path ++ "; no requests will be dispatched. Preserve both ledgers.")

/-- The refusal of a second row with one primary key. -/
def integrityError : PyExc :=
  .exception "IntegrityError" "UNIQUE constraint failed: operations.request_id"

/-- What the loop does with a legacy row whose `request_id` is taken. -/
def compareRow (path : String) (row existing : TextRow) : Except PyExc Unit :=
  if existing.fingerprint ≠ row.fingerprint then .error (legacyConflict path row.requestId)
  else do
    let retained ← jsonLoads existing.receipt
    let receipt ← jsonLoads row.receipt
    if !retained.pyEq receipt then .error (legacyConflict path row.requestId) else .ok ()

/-- The body of the loop. -/
def importRow (path : String) (row : TextRow) : Sql Unit := do
  let existing ← Co.ask (SqlOp.select row.requestId)
  match existing with
  | some existing => Co.ofExcept (compareRow path row existing)
  | none => do
      let inserted ← Co.ask (SqlOp.insert row)
      Co.ofExcept inserted

/-- The loop. -/
def importRows (path : String) : List TextRow → Sql Unit
  | [] => pure ()
  | row :: rest => do
      importRow path row
      importRows path rest

/-- `import_legacy`, with the rows it has read from the legacy ledger: `with
self.db` commits, or rolls back what it raises. -/
def importLegacy (path : String) (rows : List TextRow) : Sql Unit := do
  Co.tryCatch (importRows path rows) fun error => do
    Co.ask SqlOp.rollback
    Co.throw error
  Co.ask SqlOp.commit

/-! ## §3. One connection. -/

/-- A connection: what is committed, and the table of its own transaction. -/
structure Connection where
  committed : Table
  pending : Option Table

namespace Connection

/-- What its statements see. -/
def visible (s : Connection) : Table := s.pending.getD s.committed

/-- The answer to a statement; the first `INSERT` opens the transaction.  A
ledger file without its table is one without rows. -/
def serve (s : Connection) : (op : SqlOp) → SqlAns op × Connection
  | .create => ((), s)
  | .select requestId => (s.visible.find? requestId, s)
  | .insert row =>
      match s.visible.insert row with
      | some t => (.ok (), ⟨s.committed, some t⟩)
      | none => (.error integrityError, ⟨s.committed, some s.visible⟩)
  | .commit => ((), ⟨s.visible, none⟩)
  | .rollback => ((), ⟨s.committed, none⟩)

/-- Run a program to its end over the connection. -/
def exec {α : Type} : Prog SqlOp SqlAns α → Connection → α × Connection
  | .ret a, s => (a, s)
  | .op op k, s => exec (k (s.serve op).1) (s.serve op).2

/-- The specification of the connection. -/
def serving : OpSpec SqlAns Connection := fun op Q s => Q (s.serve op).1 (s.serve op).2

theorem serving_mono : OpSpec.Mono serving := fun _ _ _ hQ _ h => hQ _ _ h

theorem wp_serving {α : Type} (p : Prog SqlOp SqlAns α) (Q : α → Connection → Prop) :
    ∀ s, wp serving p Q s ↔ Q (exec p s).1 (exec p s).2 := by
  induction p with
  | ret a => exact fun _ => Iff.rfl
  | op op k ih => exact fun s => ih _ _

end Connection

/-- `import_legacy` into a table: how it ends, and the table afterwards. -/
def importInto (path : String) (legacy canonical : Table) : Except PyExc Unit × Table :=
  let done := Connection.exec (importLegacy path legacy.rows ()) ⟨canonical, none⟩
  (done.1.1, done.2.committed)

/-! ## §4. The course of an import. -/

/-- The legacy row is not in the table, or agrees with the row that is. -/
def Agrees (t : Table) (row : TextRow) : Prop :=
  ∀ existing, t.find? row.requestId = some existing → ∃ path, compareRow path row existing = .ok ()

section Course

variable {path : String}

/-- Whether two rows agree does not depend on where the legacy ledger is. -/
theorem compareRow_ok {path' : String} {row existing : TextRow}
    (h : compareRow path' row existing = .ok ()) : compareRow path row existing = .ok () := by
  unfold compareRow at h ⊢
  split at h
  · cases h
  · rename_i hfp
    rw [if_neg hfp]
    obtain ⟨retained, hretained, h⟩ := bind_eq_ok.mp h
    obtain ⟨receipt, hreceipt, h⟩ := bind_eq_ok.mp h
    split at h
    · cases h
    · rename_i hne
      rw [hretained, hreceipt]
      simpa [bind, Except.bind] using hne

theorem isValueError_compareRow {row existing : TextRow} {e : PyExc}
    (h : compareRow path row existing = .error e) : e.isValueError = true := by
  have hloads : ∀ {text : String} {e : PyExc}, jsonLoads text = .error e → e.isValueError = true := by
    intro text e h
    unfold jsonLoads at h
    split at h <;> cases h
    rfl
  unfold compareRow at h
  split at h
  · cases h
    rfl
  · cases hretained : jsonLoads existing.receipt with
    | error e' =>
        rw [hretained] at h
        cases h
        exact hloads hretained
    | ok retained =>
        rw [hretained] at h
        cases hreceipt : jsonLoads row.receipt with
        | error e' =>
            rw [hreceipt] at h
            cases h
            exact hloads hreceipt
        | ok receipt =>
            rw [hreceipt] at h
            simp only [bind, Except.bind] at h
            split at h <;> cases h
            rfl

/-- **The loop.**  It ends with the union in the open transaction, or raises
at a row that does not agree; nothing is committed before its end. -/
theorem wp_importRows (rows : List TextRow) (hrows : (rows.map (·.requestId)).Nodup) :
    ∀ s : Connection, Co.wp Connection.serving (importRows path rows)
      (fun _ _ s' => (∀ row ∈ rows, Agrees s.visible row) ∧ s'.visible = s.visible.merge rows ∧
        s'.committed = s.committed)
      (fun e _ s' => (¬ ∀ row ∈ rows, Agrees s.visible row) ∧ e.isValueError = true ∧
        s'.committed = s.committed) () s := by
  induction rows with
  | nil => exact fun s => ⟨by simp, rfl, rfl⟩
  | cons row rest ih =>
      intro s
      obtain ⟨hnot, hrest⟩ := List.nodup_cons.mp hrows
      have hne : ∀ r ∈ rest, r.requestId ≠ row.requestId :=
        fun r hr heq => hnot (List.mem_map.mpr ⟨r, hr, heq⟩)
      unfold importRows importRow
      rw [Co.wp_bind, Co.wp_bind, Co.wp_ask]
      simp only [Connection.serving, Connection.serve]
      cases hfind : s.visible.find? row.requestId with
      | some existing =>
          dsimp only
          rw [Co.wp_ofExcept]
          cases hcompare : compareRow path row existing with
          | error e =>
              refine ⟨fun hall => ?_, isValueError_compareRow hcompare, rfl⟩
              obtain ⟨path', hok⟩ := hall row List.mem_cons_self existing hfind
              rw [compareRow_ok hok] at hcompare
              cases hcompare
          | ok _ =>
              have hhead : Agrees s.visible row := by
                intro existing' hfind'
                rw [hfind] at hfind'
                obtain rfl := Option.some.inj hfind'
                exact ⟨path, hcompare⟩
              have hmerge : s.visible.merge (row :: rest) = s.visible.merge rest := by
                show ((s.visible.insert row).getD s.visible).merge rest = _
                rw [Table.insert, dif_neg (by rw [hfind]; simp)]
                rfl
              rw [hmerge]
              refine Co.wp_conseq Connection.serving_mono (ih hrest s) ?_ ?_
              · rintro _ _ s' ⟨hall, hs'⟩
                exact ⟨List.forall_mem_cons.mpr ⟨hhead, hall⟩, hs'⟩
              · rintro e _ s' ⟨hall, hs'⟩
                exact ⟨fun h => hall (List.forall_mem_cons.mp h).2, hs'⟩
      | none =>
          have hhead : Agrees s.visible row := by
            intro existing hfind'
            rw [hfind] at hfind'
            cases hfind'
          have hinsert : s.visible.insert row = some (s.visible.append row hfind) := dif_pos hfind
          have hsame : ∀ r ∈ rest,
              Agrees (s.visible.append row hfind) r ↔ Agrees s.visible r := by
            intro r hr
            unfold Agrees
            rw [Table.find?_insert hinsert (hne r hr)]
          dsimp only
          rw [Co.wp_bind, Co.wp_ask]
          show Co.wp _ (Co.ofExcept (s.serve (.insert row)).1) _ _ _ (s.serve (.insert row)).2
          have hserve : s.serve (.insert row)
              = (.ok (), ⟨s.committed, some (s.visible.append row hfind)⟩) := by
            simp only [Connection.serve, hinsert]
          rw [hserve, Co.wp_ofExcept]
          have hmerge : s.visible.merge (row :: rest) = (s.visible.append row hfind).merge rest := by
            show ((s.visible.insert row).getD s.visible).merge rest = _
            rw [hinsert]
            rfl
          rw [hmerge]
          refine Co.wp_conseq Connection.serving_mono
            (ih hrest ⟨s.committed, some (s.visible.append row hfind)⟩) ?_ ?_
          · rintro _ _ s' ⟨hall, hs'⟩
            exact ⟨List.forall_mem_cons.mpr ⟨hhead, fun r hr => (hsame r hr).mp (hall r hr)⟩, hs'⟩
          · rintro e _ s' ⟨hall, hs'⟩
            exact ⟨fun h => hall fun r hr => (hsame r hr).mpr ((List.forall_mem_cons.mp h).2 r hr),
              hs'⟩

/-- **All or nothing.**  An import whose rows all agree commits the union;
any other raises and leaves the table as it was. -/
theorem importInto_cases (path : String) (legacy canonical : Table) :
    ((∀ row ∈ legacy.rows, Agrees canonical row) ∧
      importInto path legacy canonical = (.ok (), canonical.merge legacy.rows)) ∨
    ((¬ ∀ row ∈ legacy.rows, Agrees canonical row) ∧
      ∃ e, e.isValueError = true ∧ importInto path legacy canonical = (.error e, canonical)) := by
  have h : Co.wp Connection.serving (importLegacy path legacy.rows)
      (fun _ _ s' => (∀ row ∈ legacy.rows, Agrees canonical row) ∧
        s'.committed = canonical.merge legacy.rows)
      (fun e _ s' => (¬ ∀ row ∈ legacy.rows, Agrees canonical row) ∧ e.isValueError = true ∧
        s'.committed = canonical) () ⟨canonical, none⟩ := by
    unfold importLegacy
    rw [Co.wp_bind, Co.wp_tryCatch]
    refine Co.wp_conseq Connection.serving_mono
      (wp_importRows legacy.rows legacy.primaryKey ⟨canonical, none⟩) ?_ ?_
    · rintro _ _ s' ⟨hall, hmerge, -⟩
      exact ⟨hall, hmerge⟩
    · rintro e _ s' hraised
      exact hraised
  rw [Co.wp, Connection.wp_serving] at h
  unfold importInto
  generalize Connection.exec (importLegacy path legacy.rows ()) ⟨canonical, none⟩ = done at h ⊢
  obtain ⟨⟨r, _⟩, s'⟩ := done
  cases r with
  | ok _ =>
      obtain ⟨hall, hcommitted⟩ := h
      have hcommitted : s'.committed = canonical.merge legacy.rows := hcommitted
      exact .inl ⟨hall, Prod.ext rfl hcommitted⟩
  | error e =>
      obtain ⟨hall, he, hcommitted⟩ := h
      have hcommitted : s'.committed = canonical := hcommitted
      exact .inr ⟨hall, e, he, Prod.ext rfl hcommitted⟩

end Course

/-! ## §5. The calls in between. -/

/-- `json.dumps(receipt)`. -/
def jsonDumps (receipt : Dict) : String := String.ofList (Json.dumpsText (.obj receipt))

namespace Table

/-- `UPDATE operations SET receipt = ? WHERE request_id = ?`. -/
def update (t : Table) (requestId receipt : String) : Table where
  rows := t.rows.map fun row =>
    if row.requestId = requestId then { row with receipt := receipt } else row
  primaryKey := by
    rw [List.map_map, show ((·.requestId) ∘ fun row : TextRow =>
        if row.requestId = requestId then { row with receipt := receipt } else row)
          = (·.requestId) from by
      funext row
      simp only [Function.comp]
      split <;> rfl]
    exact t.primaryKey

/-- What an answered operation does to the text. -/
def follow (t : Table) : Event WireAns → Table
  | ⟨.base (.beginRow requestId fp receipt), .ok none⟩ =>
      (t.insert ⟨requestId, fp, jsonDumps receipt⟩).getD t
  | ⟨.base (.update (.str requestId) receipt), .ok ()⟩ => t.update requestId (jsonDumps receipt)
  | _ => t

/-- The text is a table of these rows. -/
def Reads (t : Table) (store : Store) : Prop :=
  List.Forall₂ (fun text row => row.requestId = text.requestId ∧
    row.fingerprint = text.fingerprint ∧ Json.loads text.receipt = some (.obj row.receipt))
    t.rows store.rows

/-- The rows are those of the text, as far as their receipts are objects. -/
def Lists (t : Table) (store : Store) : Prop :=
  List.Forall₂ (fun text row => row.requestId = text.requestId ∧
    row.fingerprint = text.fingerprint ∧
    ∀ receipt, Json.loads text.receipt = some (.obj receipt) → row.receipt = receipt)
    t.rows store.rows

/-- A row of the text is a row of the table. -/
theorem Lists.mem {t : Table} {store : Store} (h : t.Lists store) {text : TextRow}
    (htext : text ∈ t.rows) : ∃ row ∈ store.rows, row.requestId = text.requestId := by
  obtain ⟨i, hi, rfl⟩ := List.mem_iff_getElem.mp htext
  have hlen := h.length_eq
  exact ⟨store.rows[i], List.getElem_mem _, (h.get hi (by omega)).1⟩

theorem Reads.lists {t : Table} {store : Store} (h : t.Reads store) : t.Lists store := by
  refine h.imp fun text row hrow => ?_
  obtain ⟨hid, hfp, htext⟩ := hrow
  refine ⟨hid, hfp, fun receipt hreceipt => ?_⟩
  rw [htext] at hreceipt
  cases hreceipt
  rfl

/-- Text and table have the same identifiers. -/
theorem Reads.find?_eq_none {t : Table} {store : Store} (h : t.Reads store) {requestId : String}
    (hnone : store.find? requestId = none) : t.find? requestId = none := by
  rw [Table.find?_eq_none]
  intro text htext heq
  obtain ⟨row, hrow, hid⟩ := h.lists.mem htext
  have hfind := Store.find?_of_mem hrow
  rw [hid, heq, hnone] at hfind
  cases hfind

theorem mem_insert {t : Table} {row text : TextRow} (h : text ∈ t.rows) :
    text ∈ ((t.insert row).getD t).rows := by
  rw [rows_insert]
  exact List.mem_append_left _ h

theorem mem_update {t : Table} {requestId receipt : String} {text : TextRow} (h : text ∈ t.rows)
    (hne : text.requestId ≠ requestId) : text ∈ (t.update requestId receipt).rows :=
  List.mem_map.mpr ⟨text, h, if_neg hne⟩

end Table

section Runs

variable [Hashlib] [Endpoint]

/-- An execution over a ledger file, with the text in the file. -/
inductive System.Texts (S₀ : System) (t₀ : Table) : System → Table → Prop
  | init : System.Texts S₀ t₀ S₀ t₀
  | call {S : System} {t : Table} (bridge : Nat) (requestId : String) (tool : ToolCall) :
      System.Texts S₀ t₀ S t →
      System.Texts S₀ t₀
        { S with clients := S.clients ++ [Client.start bridge requestId tool] } t
  | act {S : System} {t : Table} {i : Nat} {c : Client} {op : WireOp}
      {k : WireAns op → Prog WireOp WireAns (Except PyExc Dict × Dict)}
      {r : WireAns op} {store : Store} {locked : Nat → Bool} :
      System.Texts S₀ t₀ S t →
      S.clients[i]? = some c → c.stopped = false → c.rest = .op op k →
      Serves S.store op r store → Locks c.bridge S.locked op r locked →
      System.Texts S₀ t₀
        { store := store
          clients := S.clients.set i
            { c with history := c.history ++ [⟨op, r⟩], rest := k r }
          locked := locked } (t.follow ⟨op, r⟩)
  | crash {S : System} {t : Table} (bridge : Nat) : System.Texts S₀ t₀ S t →
      System.Texts S₀ t₀
        { S with
          clients := S.clients.map fun c =>
            if c.bridge = bridge then { c with stopped := true } else c
          locked := Function.update S.locked bridge false } t

variable {store : Store} {t₀ t : Table} {S₀ S : System}

theorem System.Texts.reach (h : System.Texts S₀ t₀ S t) : System.Reach S₀ S := by
  induction h with
  | init => exact .init
  | call bridge requestId tool _ ih => exact ih.step (.call bridge requestId tool)
  | act _ hc hlive hrest hserve hlock ih => exact ih.step (.act hc hlive hrest hserve hlock)
  | crash bridge _ ih => exact ih.step (.crash bridge)

/-- An answered operation leaves the rows alone that were there before. -/
theorem Owned.mem_follow (hown : Owned store S) (hlists : t₀.Lists store) {i : Nat} {c : Client}
    {op : WireOp} {k : WireAns op → Prog WireOp WireAns (Except PyExc Dict × Dict)}
    (r : WireAns op) (hc : S.clients[i]? = some c) (hrest : c.rest = .op op k)
    {text : TextRow} (htext₀ : text ∈ t₀.rows) (htext : text ∈ t.rows) :
    text ∈ (t.follow ⟨op, r⟩).rows := by
  have hmem := List.mem_of_getElem? hc
  have hop : OwnWireOp c.tool c.requestId c.fresh op :=
    wp_run_head (c.tool.owns_wire c.requestId) (hown.runs c hmem) (by rw [hrest]; rfl)
  unfold Table.follow
  split
  · exact Table.mem_insert htext
  · -- the row a call writes is one it has inserted, so not one of these
    rename_i requestId receipt heq
    cases heq
    obtain ⟨hid, fresh, hfresh, -⟩ := hop.update _ _ rfl
    obtain ⟨row, hrow, hrowid⟩ := hlists.mem htext₀
    refine Table.mem_update htext ?_
    rw [Json.str.inj hid, ← hrowid]
    exact hown.new c hmem (by rw [hfresh]; rfl) row hrow
  · exact htext

/-- **The run lemma**: the rows of the ledger file stay, byte for byte. -/
theorem System.Texts.kept (hlists : t₀.Lists store)
    (h : System.Texts (System.init store) t₀ S t) : ∀ text ∈ t₀.rows, text ∈ t.rows := by
  induction h with
  | init => exact fun _ htext => htext
  | call _ _ _ _ ih => exact ih
  | act hbefore hc _ hrest _ _ ih =>
      intro text htext
      exact (Owned.of_reach hbefore.reach).mem_follow hlists _ hc hrest htext (ih text htext)
  | crash _ _ ih => exact ih

omit [Hashlib] [Endpoint] in
/-- A receipt Python can hold is read back from its text. -/
theorem loads_jsonDumps {receipt : Dict} (h : Json.valid (.obj receipt) = true) :
    Json.loads (jsonDumps receipt) = some (.obj receipt) := Json.loads_dumpsText h

omit [Hashlib] [Endpoint] in
/-- What an answered operation does to the text it does to the table. -/
theorem Table.Reads.follow (h : t.Reads store) {op : WireOp} {r : WireAns op} {store' : Store}
    (hserve : Serves store op r store') (hwrites : op.Writes) :
    (t.follow ⟨op, r⟩).Reads store' := by
  cases hserve with
  | insert hnone =>
      rename_i requestId fp receipt
      have htnone : t.find? requestId = none := h.find?_eq_none hnone
      unfold Table.Reads
      rw [Store.rows_insertOrIgnore hnone]
      show List.Forall₂ _ ((t.insert ⟨requestId, fp, jsonDumps receipt⟩).getD t).rows _
      rw [Table.rows_insert, htnone]
      exact List.rel_append h (.cons ⟨rfl, rfl, loads_jsonDumps hwrites⟩ .nil)
  | update requestId receipt =>
      show List.Forall₂ _ (t.rows.map _) (store.rows.map _)
      rw [List.forall₂_map_left_iff, List.forall₂_map_right_iff]
      refine h.imp fun text row hrow => ?_
      obtain ⟨hid, hfp, htext⟩ := hrow
      by_cases heq : text.requestId = requestId
      · rw [if_pos heq, if_pos (hid.trans heq)]
        exact ⟨hid, hfp, loads_jsonDumps hwrites⟩
      · rw [if_neg heq, if_neg fun e => heq (hid.symm.trans e)]
        exact ⟨hid, hfp, htext⟩
  | updateNothing receipt hkey =>
      rename_i key
      cases key with
      | str requestId => exact absurd rfl (hkey requestId)
      | _ => exact h
  | updateFails key receipt f =>
      cases key <;> exact h
  | other r hselect hbegin hupdate =>
      unfold Table.follow
      split
      · rename_i heq
        cases heq
        exact absurd rfl (hbegin _ _ _)
      · rename_i heq
        cases heq
        exact absurd rfl (hupdate _ _)
      · exact h
  | _ => exact h

/-- **The text stays the text of the table**, as long as every answer is a
value Python can hold. -/
theorem System.Texts.reads (hreads : t₀.Reads store)
    (h : System.Texts (System.init store) t₀ S t) :
    (∀ c ∈ S.clients, ∀ e ∈ c.history, WireAnswered e) → t.Reads S.store := by
  induction h with
  | init => exact fun _ => hreads
  | call bridge requestId tool _ ih =>
      exact fun hanswered => ih fun c hc => hanswered c (List.mem_append_left _ hc)
  | @act S t i c op k r store' locked hbefore hc _ hrest hserve _ ih =>
      intro hanswered
      have hlt := (List.getElem?_eq_some_iff.mp hc).1
      have hafter := hanswered _ (List.mem_set hlt _)
      have hruns := (Owned.of_reach hbefore.reach).runs c (List.mem_of_getElem? hc)
      have hanswered₀ : ∀ d ∈ S.clients, ∀ e ∈ d.history, WireAnswered e := by
        intro d hd e he
        obtain ⟨j, hj⟩ := List.mem_iff_getElem?.mp hd
        by_cases hij : i = j
        · subst hij
          obtain rfl := Option.some.inj (hc.symm.trans hj)
          exact hafter e (List.mem_append_left _ he)
        · refine hanswered d (List.mem_iff_getElem?.mpr ⟨j, ?_⟩) e he
          rw [List.getElem?_set_ne hij]
          exact hj
      have hwrites : op.Writes := by
        have hat := wp_run_on (c.tool.writes_wire c.requestId) hruns fun pre e post he =>
          hafter e (by rw [he]; simp)
        rw [hrest] at hat
        exact hat.1
      exact (ih hanswered₀).follow hserve hwrites
  | crash bridge _ ih =>
      intro hanswered
      refine ih fun c hc e he => hanswered _ (List.mem_map_of_mem hc) e ?_
      split <;> exact he

end Runs

/-! ## §6. The import as a merge. -/

/-- The receipts are JSON, and none is the bare constant `NaN`. -/
def Table.Retained (t : Table) : Prop :=
  ∀ row ∈ t.rows, ∃ receipt, Json.decode row.receipt = some receipt ∧ receipt ≠ .float "NaN"

/-- A request of both tables has one fingerprint, and receipts that are the
same JSON with `true` and `false` read as `1` and `0`. -/
def Table.Compatible (canonical legacy : Table) : Prop :=
  ∀ row ∈ legacy.rows, ∀ existing ∈ canonical.rows, existing.requestId = row.requestId →
    existing.fingerprint = row.fingerprint ∧
    ∀ retained receipt, Json.decode existing.receipt = some retained →
      Json.decode row.receipt = some receipt →
      Json.same (Json.unbool retained) (Json.unbool receipt) = true

section Merge

variable {path : String} {canonical legacy : Table}

theorem jsonLoads_of_decode {text : String} {v : Json} (h : Json.decode text = some v) :
    jsonLoads text = .ok v := by
  unfold jsonLoads
  rw [h]

/-- What the comparison of two rows comes to. -/
theorem compareRow_iff {row existing : TextRow} {retained receipt : Json}
    (hretained : Json.decode existing.receipt = some retained) (hne : retained ≠ .float "NaN")
    (hreceipt : Json.decode row.receipt = some receipt) :
    compareRow path row existing = .ok () ↔ existing.fingerprint = row.fingerprint ∧
      Json.same (Json.unbool retained) (Json.unbool receipt) = true := by
  unfold compareRow
  rw [jsonLoads_of_decode hretained, jsonLoads_of_decode hreceipt, ← Json.pyEq_eq_same hne]
  by_cases hfp : existing.fingerprint = row.fingerprint
  · rw [if_neg (not_not.mpr hfp)]
    cases heq : retained.pyEq receipt <;> simp [bind, Except.bind, hfp, heq]
  · simp [hfp]

theorem agrees_iff (hcanonical : canonical.Retained) (hlegacy : legacy.Retained) :
    (∀ row ∈ legacy.rows, Agrees canonical row) ↔ canonical.Compatible legacy := by
  constructor
  · intro hall row hrow existing hexisting hid
    obtain ⟨path, hok⟩ := hall row hrow existing (hid ▸ Table.find?_of_mem hexisting)
    obtain ⟨retained, hretained, hne⟩ := hcanonical existing hexisting
    obtain ⟨receipt, hreceipt, -⟩ := hlegacy row hrow
    obtain ⟨hfp, hsame⟩ := (compareRow_iff hretained hne hreceipt).mp hok
    refine ⟨hfp, fun retained' receipt' hretained' hreceipt' => ?_⟩
    rw [hretained] at hretained'
    rw [hreceipt] at hreceipt'
    cases hretained'
    cases hreceipt'
    exact hsame
  · intro hcompatible row hrow existing hfind
    obtain ⟨hexisting, hid⟩ := Table.mem_of_find? hfind
    obtain ⟨hfp, hsame⟩ := hcompatible row hrow existing hexisting hid
    obtain ⟨retained, hretained, hne⟩ := hcanonical existing hexisting
    obtain ⟨receipt, hreceipt, -⟩ := hlegacy row hrow
    exact ⟨"", (compareRow_iff hretained hne hreceipt).mpr
      ⟨hfp, hsame retained receipt hretained hreceipt⟩⟩

/-- A row agrees with itself, unless its receipt is `NaN`. -/
theorem compareRow_self {row : TextRow} {receipt : Json}
    (hreceipt : Json.decode row.receipt = some receipt) :
    compareRow path row row = .ok () ↔ receipt ≠ .float "NaN" := by
  rw [← Json.pyEq_self (Json.distinct_loadsAs hreceipt)]
  unfold compareRow
  rw [jsonLoads_of_decode hreceipt]
  cases heq : receipt.pyEq receipt <;> simp [bind, Except.bind, heq]

/-- Importing rows whose identifiers are all taken changes nothing. -/
theorem merge_taken {t : Table} {rows : List TextRow} (hrows : (rows.map (·.requestId)).Nodup)
    (h : ∀ row ∈ rows, t.find? row.requestId ≠ none) : t.merge rows = t := by
  have hnone : rows.filter (fun row => (t.find? row.requestId).isNone) = [] := by
    refine List.filter_eq_nil_iff.mpr fun row hrow => ?_
    simpa using h row hrow
  have hrows := Table.rows_merge rows hrows t
  rw [hnone, List.append_nil] at hrows
  cases t
  cases hmerge : Table.merge _ rows
  rw [hmerge] at hrows
  cases hrows
  rfl

/-- The row a merged table has for a legacy row. -/
theorem mem_merge (canonical : Table) {row : TextRow} (hrow : row ∈ legacy.rows) :
    ∃ text ∈ (canonical.merge legacy.rows).rows, text.requestId = row.requestId ∧
      (canonical.find? row.requestId = some text ∨
        canonical.find? row.requestId = none ∧ text = row) := by
  rw [Table.rows_merge legacy.rows legacy.primaryKey]
  cases hfind : canonical.find? row.requestId with
  | some text =>
      obtain ⟨htext, hid⟩ := Table.mem_of_find? hfind
      exact ⟨text, List.mem_append_left _ htext, hid, .inl rfl⟩
  | none =>
      refine ⟨row, List.mem_append_right _ (List.mem_filter.mpr ⟨hrow, ?_⟩), rfl, .inr ⟨rfl, rfl⟩⟩
      rw [hfind]
      rfl

/-- **Importing again**: into any table that still has the merged rows. -/
theorem importInto_again (hlegacy : legacy.Retained) (hagree : ∀ row ∈ legacy.rows,
    Agrees canonical row) {t : Table}
    (hkept : ∀ text ∈ (canonical.merge legacy.rows).rows, text ∈ t.rows) :
    importInto path legacy t = (.ok (), t) := by
  have htaken : ∀ row ∈ legacy.rows, ∃ text, t.find? row.requestId = some text ∧
      compareRow path row text = .ok () := by
    intro row hrow
    obtain ⟨text, htext, hid, hcases⟩ := mem_merge canonical hrow
    have hfind := Table.find?_of_mem (hkept text htext)
    rw [hid] at hfind
    refine ⟨text, hfind, ?_⟩
    rcases hcases with hexisting | ⟨-, rfl⟩
    · obtain ⟨path', hok⟩ := hagree row hrow text hexisting
      exact compareRow_ok hok
    · obtain ⟨receipt, hreceipt, hne⟩ := hlegacy _ hrow
      exact (compareRow_self hreceipt).mpr hne
  have hall : ∀ row ∈ legacy.rows, Agrees t row := by
    intro row hrow existing hfind
    obtain ⟨text, htext, hok⟩ := htaken row hrow
    rw [hfind] at htext
    cases htext
    exact ⟨path, hok⟩
  rcases importInto_cases path legacy t with ⟨-, hdone⟩ | ⟨hnot, -⟩
  · rw [hdone, merge_taken legacy.primaryKey]
    intro row hrow hnone
    obtain ⟨text, htext, -⟩ := htaken row hrow
    rw [hnone] at htext
    cases htext
  · exact absurd hall hnot

variable [Hashlib] [Endpoint]

/-- **The import is an all-or-nothing merge, and may be repeated.**  Equal
means Python's `==`: that of JSON values, booleans read as numbers. -/
theorem importLegacy_merges (path : String) (hcanonical : canonical.Retained)
    (hlegacy : legacy.Retained) :
    ((importInto path legacy canonical).1 = .ok () ↔ canonical.Compatible legacy) ∧
    (∀ merged, importInto path legacy canonical = (.ok (), merged) →
      (merged.rows = canonical.rows ++
        legacy.rows.filter fun row => (canonical.find? row.requestId).isNone) ∧
      ∀ store S t, merged.Lists store → System.Texts (System.init store) merged S t →
        importInto path legacy t = (.ok (), t)) ∧
    ∀ e after, importInto path legacy canonical = (.error e, after) →
      e.isValueError = true ∧ after = canonical := by
  rw [← agrees_iff hcanonical hlegacy]
  rcases importInto_cases path legacy canonical with
    ⟨hall, hdone⟩ | ⟨hnot, error, hvalue, hdone⟩
  · rw [hdone]
    refine ⟨⟨fun _ => hall, fun _ => rfl⟩, fun merged hmerged => ?_, nofun⟩
    obtain rfl := (Prod.mk.inj hmerged).2
    refine ⟨Table.rows_merge _ legacy.primaryKey canonical, fun store S t hlists htexts => ?_⟩
    exact importInto_again hlegacy hall (htexts.kept hlists)
  · rw [hdone]
    refine ⟨⟨nofun, fun hall => absurd hall hnot⟩, nofun, ?_⟩
    intro e after h
    obtain ⟨he, rfl⟩ := Prod.mk.inj h
    cases he
    exact ⟨hvalue, rfl⟩

end Merge

/-- A ledger with one receipt. -/
def oneRow (requestId : String) (receipt : Dict) : Table where
  rows := [⟨requestId, "digest", jsonDumps receipt⟩]
  primaryKey := List.nodup_singleton _

theorem retained_oneRow (requestId : String) {receipt : Dict}
    (hdecode : Json.decode (jsonDumps receipt) = some (.obj receipt)) :
    (oneRow requestId receipt).Retained := by
  intro row hrow
  obtain rfl := List.mem_singleton.mp hrow
  exact ⟨.obj receipt, hdecode, nofun⟩

theorem decode_empty : Json.decode (jsonDumps []) = some (.obj []) :=
  Json.loadsAs_ofList _ (Json.dumpsText (.obj []))

theorem importLegacy_merges_after_call :
    let _ := Hashlib.verbatim
    let _ := Endpoint.sample
    ∃ merged store S,
      importInto "operations.sqlite3" (oneRow "b" []) (oneRow "a" []) = (.ok (), merged) ∧
      merged.rows = [⟨"a", "digest", jsonDumps []⟩, ⟨"b", "digest", jsonDumps []⟩] ∧
      System.Texts (System.init store) merged S merged ∧ S.clients.length = 1 ∧
      importInto "operations.sqlite3" (oneRow "b" []) merged = (.ok (), merged) := by
  intro _ _
  have ha : (oneRow "a" []).Retained := retained_oneRow "a" decode_empty
  have hb : (oneRow "b" []).Retained := retained_oneRow "b" decode_empty
  have hmerges := importLegacy_merges "operations.sqlite3" ha hb
  have hcompatible : (oneRow "a" []).Compatible (oneRow "b" []) := by
    intro row hrow existing hexisting hid
    obtain rfl := List.mem_singleton.mp hrow
    obtain rfl := List.mem_singleton.mp hexisting
    exact absurd hid (by decide)
  have hdone : importInto "operations.sqlite3" (oneRow "b" []) (oneRow "a" [])
      = (.ok (), (importInto "operations.sqlite3" (oneRow "b" []) (oneRow "a" [])).2) :=
    Prod.ext (hmerges.1.mpr hcompatible) rfl
  obtain ⟨hrows, hagain⟩ := hmerges.2.1 _ hdone
  have hrows : _ = [(⟨"a", "digest", jsonDumps []⟩ : TextRow), ⟨"b", "digest", jsonDumps []⟩] := hrows
  -- the two receipts as the bridges read them, and a call that reuses `b`
  let store : Store := ⟨[⟨"a", "digest", []⟩, ⟨"b", "digest", []⟩], by decide⟩
  have hreads : (importInto "operations.sqlite3" (oneRow "b" []) (oneRow "a" [])).2.Reads store := by
    unfold Table.Reads
    rw [hrows]
    exact .cons ⟨rfl, rfl, loads_jsonDumps rfl⟩ (.cons ⟨rfl, rfl, loads_jsonDumps rfl⟩ .nil)
  have hinit : System.Texts (System.init store)
      (importInto "operations.sqlite3" (oneRow "b" []) (oneRow "a" [])).2 (System.init store)
      (importInto "operations.sqlite3" (oneRow "b" []) (oneRow "a" [])).2 := .init
  have htexts := hinit.call 0 "b" (.setThreadTitle ⟨"thread", "title"⟩)
  exact ⟨_, store, _, hdone, hrows, htexts, rfl, hagain store _ _ hreads.lists htexts⟩

/-- Receipts that are not the same JSON, and are merged. -/
theorem importLegacy_merges_true_and_one :
    let canonical := oneRow "a" [("x", .bool true)]
    let legacy := oneRow "a" [("x", .int 1)]
    canonical.Retained ∧ legacy.Retained ∧
    (∀ row ∈ legacy.rows, ∀ existing ∈ canonical.rows, ∃ retained receipt,
      Json.decode existing.receipt = some retained ∧ Json.decode row.receipt = some receipt ∧
      Json.same retained receipt = false) ∧
    importInto "operations.sqlite3" legacy canonical = (.ok (), canonical) := by
  intro canonical legacy
  have htrue : Json.decode (jsonDumps [("x", .bool true)]) = some (.obj [("x", .bool true)]) :=
    Json.loadsAs_ofList _ (Json.dumpsText (.obj [("x", .bool true)]))
  have hone : Json.decode (jsonDumps [("x", .int 1)]) = some (.obj [("x", .int 1)]) :=
    Json.loadsAs_ofList _ (Json.dumpsText (.obj [("x", .int 1)]))
  have hcanonical : canonical.Retained := retained_oneRow "a" htrue
  have hlegacy : legacy.Retained := retained_oneRow "a" hone
  refine ⟨hcanonical, hlegacy, ?_, ?_⟩
  · intro row hrow existing hexisting
    obtain rfl := List.mem_singleton.mp hrow
    obtain rfl := List.mem_singleton.mp hexisting
    exact ⟨_, _, htrue, hone, rfl⟩
  · have hcompatible : canonical.Compatible legacy := by
      intro row hrow existing hexisting _
      obtain rfl := List.mem_singleton.mp hrow
      obtain rfl := List.mem_singleton.mp hexisting
      refine ⟨rfl, fun retained receipt hretained hreceipt => ?_⟩
      cases htrue.symm.trans hretained
      cases hone.symm.trans hreceipt
      rfl
    have hagree := (agrees_iff hcanonical hlegacy).mpr hcompatible
    rcases importInto_cases "operations.sqlite3" legacy canonical with
      ⟨-, hdone⟩ | ⟨hnot, -⟩
    · rw [hdone, merge_taken legacy.primaryKey]
      intro row hrow
      obtain rfl := List.mem_singleton.mp hrow
      exact nofun
    · exact absurd hagree hnot

end CodexRemoteBridge

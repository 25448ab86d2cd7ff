/-
  CodexRemoteBridge.Finality — receipts stay what the run that began them
  left.

  Only the run that inserted a row ever writes it, so a row whose run has
  ended is settled: it is in the table of every later state as it is, and
  every later call under its `request_id` reads it.

  Main result:
    • `System.receipt_final` — rows, fingerprints and settled receipts along
      any execution, and what replays and `get_operation` return.
-/
import CodexRemoteBridge.Raises
import CodexRemoteBridge.Replay
import CodexRemoteBridge.Written

namespace CodexRemoteBridge

open Interaction

/-! ## §1. Who writes a row. -/

section Writers

variable [Hashlib] [Endpoint]

/-- The run has returned or raised, or its process has died. -/
def Client.Ended (c : Client) : Prop := c.stopped = true ∨ ∃ r, c.rest = .ret r

omit [Hashlib] [Endpoint] in
/-- A call that is answered has not ended. -/
theorem Client.not_ended {c : Client} {op : WireOp}
    {k : WireAns op → Prog WireOp WireAns (Except PyExc Dict × Dict)} (hlive : c.stopped = false)
    (hrest : c.rest = .op op k) : ¬ c.Ended := by
  rintro (hstopped | ⟨r, hret⟩)
  · rw [hlive] at hstopped
    cases hstopped
  · rw [hrest] at hret
    cases hret

/-- The step from `S` to `S'` is the write of `receipt` by the call at `i`:
the one that began the row, and still under way. -/
structure System.Writes (S S' : System) (requestId : String) (receipt : Dict) (i : Nat) : Prop where
  run : ∃ c c', S.clients[i]? = some c ∧ S'.clients[i]? = some c' ∧ c.requestId = requestId ∧
    c.fresh.isSome = true ∧ ¬ c.Ended ∧
    c'.history = c.history ++ [⟨.base (.update (.str requestId) receipt), .ok ()⟩]
  single : ∀ (j : Nat) (d : Client), S.clients[j]? = some d → d.requestId = requestId →
    d.fresh.isSome = true → j = i

/-- The run that began the row has ended. -/
def System.Settled (S : System) (row : Row) : Prop :=
  ∀ c ∈ S.clients, c.requestId = row.requestId → c.fresh.isSome = true → c.Ended

section Steps

variable {store₀ : Store} {S S' : System}

/-- **The step lemma.**  A row keeps its fingerprint, and its receipt unless
the run that began it writes it. -/
theorem Owned.step_row (h : Owned store₀ S) (hstep : S.Step S') {row : Row}
    (hrow : row ∈ S.store.rows) :
    row ∈ S'.store.rows ∨ ∃ receipt i, { row with receipt := receipt } ∈ S'.store.rows ∧
      S.Writes S' row.requestId receipt i := by
  cases hstep with
  | call bridge requestId tool => exact .inl hrow
  | crash bridge => exact .inl hrow
  | @act i c op k r store locked hi hlive hrest hserve _ =>
      have hc : c ∈ S.clients := List.mem_of_getElem? hi
      have hown : OwnWireOp c.tool c.requestId c.fresh op :=
        wp_run_head (c.tool.owns_wire c.requestId) (h.runs c hc) (by rw [hrest]; rfl)
      rcases hserve.effect with ⟨requestId, fp, receipt, -, hnone, rfl⟩ |
        ⟨requestId, receipt, he, rfl⟩ | ⟨key, receipt, rfl, hkey⟩ | ⟨rfl, -, -⟩
      · -- another row is inserted
        left
        show row ∈ (S.store.insertOrIgnore ⟨requestId, fp, receipt⟩).2.rows
        rw [Store.rows_insertOrIgnore hnone]
        exact List.mem_append_left _ hrow
      · -- a row is written
        cases he
        obtain ⟨hrid, fresh, hfresh, -⟩ := hown.update _ _ rfl
        cases hrid
        have hf : c.fresh.isSome = true := by rw [hfresh]; rfl
        by_cases hid : row.requestId = c.requestId
        · refine .inr ⟨receipt, i, ?_, ?_, ?_⟩
          · refine List.mem_map.mpr ⟨row, hrow, ?_⟩
            rw [if_pos hid]
          · refine ⟨c, _, hi, List.getElem?_set_self (List.getElem?_eq_some_iff.mp hi).1,
              hid.symm, hf, Client.not_ended hlive hrest, ?_⟩
            rw [hid]
          · intro j d hj hdid hdf
            exact h.alone j i d c hj hi (hdid.trans hid) hdf hf
        · refine .inl (List.mem_map.mpr ⟨row, hrow, ?_⟩)
          rw [if_neg hid]
      · obtain ⟨hrid, -⟩ := hown.update _ _ rfl
        exact absurd hrid (hkey _)
      · exact .inl hrow

/-- A settled row stays, and stays settled. -/
theorem Owned.step_settled (h : Owned store₀ S) (hstep : S.Step S') {row : Row}
    (hrow : row ∈ S.store.rows) (hsettled : S.Settled row) :
    row ∈ S'.store.rows ∧ S'.Settled row := by
  constructor
  · rcases h.step_row hstep hrow with hrow' | ⟨receipt, i, -, hwrites⟩
    · exact hrow'
    · obtain ⟨c, -, hc, -, hid, hf, hlive, -⟩ := hwrites.run
      exact absurd (hsettled c (List.mem_of_getElem? hc) hid hf) hlive
  · intro d hd hid hf
    cases hstep with
    | call bridge requestId tool =>
        rcases List.mem_append.mp hd with hd | hd
        · exact hsettled d hd hid hf
        · obtain rfl := List.mem_singleton.mp hd
          cases hf
    | crash bridge =>
        obtain ⟨c, hc, rfl⟩ := List.mem_map.mp hd
        by_cases hbridge : c.bridge = bridge
        · rw [if_pos hbridge]
          exact .inl rfl
        · rw [if_neg hbridge] at hid hf ⊢
          exact hsettled c hc hid hf
    | @act i c op k r store locked hi hlive hrest hserve _ =>
        rcases List.mem_or_eq_of_mem_set hd with hd | rfl
        · exact hsettled d hd hid hf
        · -- the call that moves did not begin the row, nor does it now
          have hc := List.mem_of_getElem? hi
          have hnone : c.fresh = none := by
            rw [← Option.not_isSome_iff_eq_none]
            exact fun hcf => Client.not_ended hlive hrest (hsettled c hc hid hcf)
          have hfresh : onBase inserted c.fresh ⟨op, r⟩ = none := by
            rcases hserve.effect with ⟨requestId, fp, receipt, he, hfind, -⟩ |
              ⟨requestId, receipt, he, -⟩ | ⟨key, receipt, rfl, -⟩ | ⟨-, hins, -⟩
            · cases he
              have hown : OwnWireOp c.tool c.requestId c.fresh _ :=
                wp_run_head (c.tool.owns_wire c.requestId) (h.runs c hc) (by rw [hrest]; rfl)
              obtain ⟨rfl, -⟩ := hown.row _ _ _ rfl
              have hid : c.requestId = row.requestId := hid
              rw [hid, Store.find?_of_mem hrow] at hfind
              cases hfind
            · cases he
              exact hnone
            · exact hnone
            · rw [hins]
              exact hnone
          have hd' : (onBase inserted c.fresh ⟨op, r⟩).isSome = true := by
            rw [Client.fresh, List.foldl_append] at hf
            exact hf
          rw [hfresh] at hd'
          cases hd'

end Steps

/-! ## §2. One replay of a row. -/

/-- The table holds `stored` under the identifier. -/
def Reads (requestId : String) (stored : StoredRow) : Event WireAns → Prop
  | ⟨.base (.select key), r⟩ => key = requestId → ∀ found, r = .ok found → found = some stored
  | _ => True

/-- The runs that read `stored` wherever they read that row. -/
abbrev ReadSpec (requestId : String) (stored : StoredRow) :
    OpSpec WireAns (List (Event WireAns)) :=
  observeOn (fun _ => Reads requestId stored) remember fun _ _ => True

/-- The exception is the one that the claim of the slot or the look-up of the
row was answered with. -/
def LookupFailed (requestId : String) (h : List (Event WireAns)) (e : PyExc) : Prop :=
  ∃ f : Fault, (⟨.base .acquire, .error f⟩ ∈ h ∨ ⟨.base (.select requestId), .error f⟩ ∈ h) ∧
    e = f.raised

omit [Hashlib] [Endpoint] in
theorem LookupFailed.mono {requestId : String} {h h' : List (Event WireAns)} {e : PyExc}
    (he : LookupFailed requestId h e) (hsub : h ⊆ h') : LookupFailed requestId h' e := by
  obtain ⟨f, hf, rfl⟩ := he
  exact ⟨f, hf.imp (fun hf => hsub hf) fun hf => hsub hf, rfl⟩

/-- How a replay ends: with the receipt marked as replayed, or, where the
arguments are those of the row, with what the look-up raised. -/
def ReplayEnd (t : ToolCall) (requestId : String) (stored : StoredRow) :
    Except PyExc Dict → List (Event WireAns) → Prop
  | .ok receipt, _ => receipt = stored.2.update [("replayed", .bool true)]
  | .error e, h => t.check = .ok () → fingerprint requestId t.method t.params = .ok stored.1 →
      LookupFailed requestId h e

omit [Endpoint] in
/-- What happens after the end changes nothing. -/
theorem ReplayEnd.append {t : ToolCall} {requestId : String} {stored : StoredRow}
    {r : Except PyExc Dict} {h : List (Event WireAns)} (hend : ReplayEnd t requestId stored r h)
    (e : Event WireAns) : ReplayEnd t requestId stored r (h ++ [e]) := by
  cases r with
  | ok receipt => exact hend
  | error err =>
      exact fun hcheck hfp => (hend hcheck hfp).mono (List.subset_append_left _ _)

/-- A row that matches is handed on as it is. -/
theorem leads_matchRow (t : ToolCall) (requestId fp : String) (stored : StoredRow)
    (key : String) (row : StoredRow) (s : Dict) (m : List (Event WireAns)) :
    Co.Leads ((ReadSpec key row).through wire)
      (Ledger.matchRow requestId t.method fp t.legacyParams stored)
      (fun receipt _ _ => receipt = stored.2) s m := by
  obtain ⟨fp₀, receipt⟩ := stored
  unfold Ledger.matchRow
  have hmono : OpSpec.Mono ((ReadSpec key row).through wire) := (observeOn_mono _ _ _).through _
  dsimp only
  split
  · rfl
  · split
    · rename_i legacyParams _ hlegacy
      cases t with
      | createThread a =>
          cases hlegacy
          have hresolve : Co.Leads ((ReadSpec key row).through wire) a.legacyParams
              (fun _ _ _ => True) s m := by
            refine Co.Leads.bind (P := fun _ _ _ => True) hmono ?_ fun _ _ _ _ => trivial
            show Co.wp _ (Act.perform _ _) _ _ _ _
            rw [Act.wp_perform]
            refine ⟨trivial, fun r _ => ?_⟩
            cases r <;> trivial
          refine Co.Leads.bind hmono hresolve fun params s' m' _ => ?_
          refine Co.Leads.ofExcept_bind fun fp' _ => ?_
          split
          · rfl
          · trivial
      | _ => cases hlegacy
    · trivial

/-- **A replay returns the row's receipt.** -/
theorem ToolCall.replay_run (t : ToolCall) (requestId : String) (stored : StoredRow) :
    Interaction.wp (ReadSpec requestId stored) (t.wire requestId)
      (fun r h => ReplayEnd t requestId stored r.1 h) [] := by
  have hmono : OpSpec.Mono ((ReadSpec requestId stored).through CodexRemoteBridge.wire) :=
    (observeOn_mono _ _ _).through _
  unfold ToolCall.wire
  rw [Interaction.wp_handle]
  suffices h : Co.wp ((ReadSpec requestId stored).through CodexRemoteBridge.wire) (t.run requestId)
      (fun receipt _ h => ReplayEnd t requestId stored (.ok receipt) h)
      (fun e _ h => ReplayEnd t requestId stored (.error e) h) [] [] by
    refine Interaction.wp_mono hmono _ ?_ [] h
    rintro ⟨e | receipt, s⟩ _ hend <;> exact hend
  have hlocked : ∀ m, Co.wp ((ReadSpec requestId stored).through CodexRemoteBridge.wire)
      (mutateLocked requestId t.method t.params t.legacyParams t.validateFresh t.action)
      (fun receipt _ h => ReplayEnd t requestId stored (.ok receipt) h)
      (fun e _ h => ReplayEnd t requestId stored (.error e) h) [] m := by
    intro m
    unfold mutateLocked Ledger.lookup
    rw [Co.wp_bind, Co.wp_bind, Co.wp_ofExcept]
    cases hfp : fingerprint requestId t.method t.params with
    | error e =>
        intro _ hfp'
        rw [hfp] at hfp'
        cases hfp'
    | ok fp =>
        dsimp only
        rw [Co.wp_bind, Act.wp_perform]
        refine ⟨trivial, fun r hr => ?_⟩
        cases r with
        | error f =>
            intro _ _
            exact ⟨f, .inr (List.mem_append_right _ (List.mem_singleton_self _)), rfl⟩
        | ok found =>
            obtain rfl := hr rfl found rfl
            show Co.wp _ (Ledger.matchRow requestId t.method fp t.legacyParams stored >>= _) _ _ _ _
            rw [Co.wp_bind]
            by_cases heq : stored.1 = fp
            · obtain ⟨fp₀, receipt⟩ := stored
              obtain rfl : fp₀ = fp := heq
              rw [matchRow_self]
              exact rfl
            · refine Co.wp_conseq hmono (leads_matchRow t requestId fp stored _ _ _ _) ?_ ?_
              · rintro receipt _ _ rfl
                exact rfl
              · intro e _ _ _ _ hfp'
                rw [hfp] at hfp'
                exact absurd (Except.ok.inj hfp').symm heq
  unfold ToolCall.run mutate
  rw [Co.wp_bind, Co.wp_ofExcept]
  cases hcheck : t.check with
  | error e =>
      intro hok
      rw [hcheck] at hok
      cases hok
  | ok _ =>
      dsimp only
      rw [Co.wp_bind, Act.wp_perform]
      refine ⟨trivial, fun r _ => ?_⟩
      cases r with
      | error f =>
          intro _ _
          exact ⟨f, .inl (List.mem_append_right _ (List.mem_singleton_self _)), rfl⟩
      | ok _ =>
          show Co.wp _ (Co.tryFinally _ _) _ _ _ _
          rw [Co.wp_tryFinally]
          exact Co.wp_conseq hmono (hlocked _)
            (fun _ _ _ hend => ⟨trivial, fun r _ => hend.append ⟨.base .release, r⟩⟩)
            fun _ _ _ hend => ⟨trivial, fun r _ => hend.append ⟨.base .release, r⟩⟩

/-- `Ledger.get`, which is all that `get_operation` does. -/
def Ledger.get (requestId : String) : Act Dict := do
  let row ← Act.perform (.select requestId) lift
  match row with
  | none => Act.raise (.valueError "Unknown request_id")
  | some (_, receipt) => pure receipt

/-! ## §3. Every execution. -/

variable {store : Store} {S S' : System}

theorem System.Reach.trans {S₀ : System} (h : System.Reach S₀ S) (h' : System.Reach S S') :
    System.Reach S₀ S' := by
  induction h' with
  | init => exact h
  | step _ hstep ih => exact ih.step hstep

/-- An execution that goes on from where another one has got to. -/
theorem System.Reach.onward {S₀ : System} (_ : System.Reach S₀ S) : System.Reach S S := .init

/-- Rows and their fingerprints along an execution. -/
theorem System.rows_kept (h : System.Reach (System.init store) S) (h' : System.Reach S S')
    {row : Row} (hrow : row ∈ S.store.rows) :
    ∃ receipt, { row with receipt := receipt } ∈ S'.store.rows := by
  induction h' with
  | init => exact ⟨row.receipt, hrow⟩
  | step hreach hstep ih =>
      obtain ⟨receipt, hmem⟩ := ih
      rcases (Owned.of_reach (h.trans hreach)).step_row hstep hmem with hmem | ⟨receipt', _, hmem, -⟩
      · exact ⟨receipt, hmem⟩
      · exact ⟨receipt', hmem⟩

/-- **The run lemma.**  A settled row is settled for good. -/
theorem System.settled_kept (h : System.Reach (System.init store) S) (h' : System.Reach S S')
    {row : Row} (hrow : row ∈ S.store.rows) (hsettled : S.Settled row) :
    row ∈ S'.store.rows ∧ S'.Settled row := by
  induction h' with
  | init => exact ⟨hrow, hsettled⟩
  | step hreach hstep ih =>
      exact (Owned.of_reach (h.trans hreach)).step_settled hstep ih.1 ih.2

omit [Hashlib] [Endpoint] in
/-- Whatever reads a row of the table reads that row. -/
theorem Serves.reads {s s' : Store} {op : WireOp} {r : WireAns op} (h : Serves s op r s') {row : Row}
    (hrow : row ∈ s.rows) : Reads row.requestId row.stored ⟨op, r⟩ := by
  cases h with
  | select requestId =>
      rintro rfl found hfound
      rw [Store.find?_of_mem hrow] at hfound
      exact (Except.ok.inj hfound).symm
  | selectFails requestId f =>
      intro _ found hfound
      cases hfound
  | other r hselect _ _ =>
      cases op with
      | net op => trivial
      | base op =>
          cases op with
          | select requestId => exact absurd rfl (hselect requestId)
          | _ => trivial
  | _ => trivial

omit [Hashlib] [Endpoint] in
/-- Asked of a table that holds the row, `get` returns its receipt, or raises
what its own query raised. -/
theorem Ledger.wp_get {table : Store} {row : Row} (hrow : row ∈ table.rows) (s : Dict) :
    Interaction.wp
      (observeOn (fun _ e => ∃ table', Serves table (.base e.1) e.2 table') remember
        fun _ _ => True) (Ledger.get row.requestId s)
      (fun r h => r.1 = .ok row.receipt ∨
        ∃ f : Fault, ⟨.select row.requestId, .error f⟩ ∈ h ∧ r.1 = .error f.raised) [] := by
  refine ⟨trivial, fun r hr => ?_⟩
  obtain ⟨table', hserve⟩ := hr
  cases r with
  | error f => exact .inr ⟨f, List.mem_singleton_self _, rfl⟩
  | ok found =>
      obtain rfl := hserve.reads hrow rfl found rfl
      exact .inl rfl

/-- The client at `j` has not begun by `S`. -/
def System.Later (S : System) (j : Nat) : Prop := ∀ d, S.clients[j]? = some d → d.history = []

/-- Who starts after a row is settled reads that row. -/
theorem System.reads_settled (h : System.Reach (System.init store) S) (h' : System.Reach S S')
    {row : Row} (hrow : row ∈ S.store.rows) (hsettled : S.Settled row) {j : Nat}
    (hlater : S.Later j) {d : Client} (hd : S'.clients[j]? = some d) :
    ∀ e ∈ d.history, Reads row.requestId row.stored e := by
  induction h' generalizing d with
  | init =>
      rw [hlater d hd]
      exact fun _ he => absurd he List.not_mem_nil
  | @step T T' hreach hstep ih =>
      have hmem := (System.settled_kept h hreach hrow hsettled).1
      cases hstep with
      | call bridge requestId tool =>
          rw [List.getElem?_append] at hd
          split at hd
          · exact ih hd
          · obtain rfl := List.mem_singleton.mp (List.mem_of_getElem? hd)
            exact fun _ he => absurd he List.not_mem_nil
      | crash bridge =>
          rw [List.getElem?_map] at hd
          obtain ⟨c, hc, rfl⟩ := Option.map_eq_some_iff.mp hd
          have hhistory : (if c.bridge = bridge then { c with stopped := true } else c).history
              = c.history := by
            split <;> rfl
          rw [hhistory]
          exact ih hc
      | @act i c op k r table locked hi hlive hrest hserve _ =>
          by_cases hij : i = j
          · subst hij
            rw [List.getElem?_set_self (List.getElem?_eq_some_iff.mp hi).1] at hd
            obtain rfl := Option.some.inj hd
            intro e he
            rcases List.mem_append.mp he with he | he
            · exact ih hi e he
            · obtain rfl := List.mem_singleton.mp he
              exact hserve.reads hmem
          · rw [List.getElem?_set_ne hij] at hd
            exact ih hd

/-! ## §4. What the receipt of a row reads back as. -/

omit [Hashlib] [Endpoint] in
/-- The receipt a run has saved last is one of those it wrote. -/
theorem written_of_savedLast {h : List (Event WireAns)} {receipt : Dict}
    (hsaved : savedLast h = some receipt) :
    ∃ pre e post, h = pre ++ e :: post ∧
      (WireOp.Writes e.1 → Json.valid (.obj receipt) = true) := by
  induction h using List.reverseRecOn with
  | nil => cases hsaved
  | append_singleton h e ih =>
      rw [savedLast, List.foldl_append] at hsaved
      have hkeep : savedLast h = some receipt → ∃ pre e' post, h ++ [e] = pre ++ e' :: post ∧
          (WireOp.Writes e'.1 → Json.valid (.obj receipt) = true) := by
        intro hsaved
        obtain ⟨pre, e', post, rfl, hwrites⟩ := ih hsaved
        exact ⟨pre, e', post ++ [e], by simp, hwrites⟩
      obtain ⟨op | op, r⟩ := e
      · have hstep : durableStep (savedLast h) ⟨op, r⟩ = some receipt := hsaved
        unfold durableStep at hstep
        split at hstep
        · rename_i heq
          cases heq
          cases hstep
          exact ⟨h, _, [], rfl, fun hwrites => hwrites⟩
        · rename_i heq
          cases heq
          cases hstep
          exact ⟨h, _, [], rfl, fun hwrites => hwrites⟩
        · exact hkeep hstep
      · exact hkeep hsaved

/-- **What a run saved last can be read back**, if it was answered with values
Python can hold. -/
theorem Client.loads_savedLast {c : Client}
    (hrun : Run (c.tool.wire c.requestId) c.history c.rest)
    (hanswered : ∀ e ∈ c.history, WireAnswered e) {receipt : Dict}
    (hsaved : savedLast c.history = some receipt) :
    Json.loads (String.ofList (Json.dumpsText (.obj receipt))) = some (.obj receipt) := by
  refine Json.loads_dumpsText ?_
  obtain ⟨pre, e, post, he, hwrites⟩ := written_of_savedLast hsaved
  obtain ⟨k, hpre, -⟩ := hrun.split he
  have hat := wp_run_on (c.tool.writes_wire c.requestId) hpre fun pre' e' post' he' =>
    hanswered e' (by rw [he, he']; simp)
  exact hwrites hat.1

/-! ## §5. Finality. -/

/-- What holds of a call that began its row and has returned `receipt` by `S`,
in the later state `S'`. -/
structure System.Returned (S S' : System) (c : Client) (receipt : Dict) : Prop where
  /-- The row holds what the call returned. -/
  row : ∃ row ∈ S'.store.rows, row.requestId = c.requestId ∧ row.receipt = receipt
  /-- A later call under the identifier returns that receipt with `replayed`
  set; with the same arguments only a fault of its own look-up keeps it from
  returning, and that fault is what it raises. -/
  replays : ∀ (j : Nat) (d : Client) (r : Except PyExc Dict) (s : Dict), S.Later j →
    S'.clients[j]? = some d → d.requestId = c.requestId → d.rest = .ret (r, s) →
    (∀ out, r = .ok out → out = receipt.update [("replayed", .bool true)]) ∧
    (d.tool = c.tool → ∀ e, r = .error e → LookupFailed c.requestId d.history e)
  /-- `get_operation` returns that receipt, unless its query raises. -/
  get : ∀ (h : History) (r : Except PyExc Dict) (s : Dict),
    Run (Ledger.get c.requestId []) h (.ret (r, s)) →
    (∀ e ∈ h, ∃ table, Serves S'.store (.base e.1) e.2 table) →
    r = .ok receipt ∨
      ∃ f : Fault, ⟨.select c.requestId, .error f⟩ ∈ h ∧ r = .error f.raised
  /-- The text in the row reads back as that receipt. -/
  text : (∀ e ∈ c.history, WireAnswered e) →
    Json.loads (String.ofList (Json.dumpsText (.obj receipt))) = some (.obj receipt)

/-- What stays as it was from `S` to the later state `S'`. -/
structure System.Final (S S' : System) : Prop where
  /-- No row is removed, and none changes its fingerprint. -/
  rows : ∀ row ∈ S.store.rows, ∃ receipt, { row with receipt := receipt } ∈ S'.store.rows
  /-- A receipt is only ever written by the run that began its row. -/
  writer : ∀ T, S'.Step T → ∀ row ∈ S'.store.rows, row ∈ T.store.rows ∨
    ∃ receipt i, { row with receipt := receipt } ∈ T.store.rows ∧
      S'.Writes T row.requestId receipt i
  /-- Once that run has ended the row never changes again. -/
  settled : ∀ row ∈ S.store.rows, S.Settled row → row ∈ S'.store.rows
  returned : ∀ c ∈ S.clients, ∀ (receipt s : Dict), c.fresh.isSome = true →
    c.rest = .ret (.ok receipt, s) → S.Returned S' c receipt

theorem System.returned_of_settled (h : System.Reach (System.init store) S)
    (h' : System.Reach S S') {c : Client} (hc : c ∈ S.clients) {receipt s : Dict}
    (hfresh : c.fresh.isSome = true) (hret : c.rest = .ret (.ok receipt, s)) :
    S.Returned S' c receipt := by
  have howned := Owned.of_reach h
  -- the row holds what the run saved last, which is what it returned
  have hend := (System.raise_without_effect h hc hret).2 hfresh
  have hrow : ∃ row, S.store.find? c.requestId = some row ∧ row.receipt = receipt := by
    rcases hend with ⟨row, hfind, hreceipt⟩ | hcancel | ⟨e, he, -⟩
    · exact ⟨row, hfind, (Except.ok.inj hreceipt).symm⟩
    · cases hcancel
    · cases he
  obtain ⟨row, hfind, hreceipt⟩ := hrow
  obtain ⟨hmem, hid⟩ := Store.mem_of_find? hfind
  have hsettled : S.Settled row := by
    intro d hd hdid hdf
    obtain ⟨i, hi⟩ := List.mem_iff_getElem?.mp hc
    obtain ⟨j, hj⟩ := List.mem_iff_getElem?.mp hd
    obtain rfl := howned.alone i j c d hi hj (hid.symm.trans hdid.symm) hfresh hdf
    obtain rfl : c = d := Option.some.inj (hi.symm.trans hj)
    exact .inr ⟨_, hret⟩
  have hmem' := (System.settled_kept h h' hmem hsettled).1
  obtain ⟨row₁, hrow₁, hdurable, hfp⟩ := (howned.holds c hc hfresh).row
  obtain rfl : row = row₁ := Option.some.inj (hfind.symm.trans hrow₁)
  constructor
  · exact ⟨row, hmem', hid, hreceipt⟩
  · intro j d r s' hlater hd hdid hdret
    have hreads := System.reads_settled h h' hmem hsettled hlater hd
    have hdrun := (Owned.of_reach (h.trans h')).runs d (List.mem_of_getElem? hd)
    rw [hdret] at hdrun
    have hreplay : ReplayEnd d.tool d.requestId row.stored r d.history := by
      have hend := wp_run_on (d.tool.replay_run d.requestId row.stored) hdrun
        fun pre e post he => by
          rw [hdid, ← hid]
          exact hreads e (by rw [he]; simp)
      rw [foldl_remember, List.nil_append] at hend
      exact hend
    constructor
    · rintro out rfl
      rw [← hreceipt]
      exact hreplay
    · rintro htool e rfl
      rw [← hdid]
      apply hreplay
      · rw [htool]
        exact Client.check_ok (howned.runs c hc) hfresh
      · rw [htool, hdid]
        exact hfp
  · intro hist r s' hrun hserved
    have hget := Ledger.wp_get hmem' []
    rw [hid, hreceipt] at hget
    have hend := wp_run_on hget hrun fun pre e post he => hserved e (by rw [he]; simp)
    rw [foldl_remember, List.nil_append] at hend
    exact hend
  · intro hanswered
    refine Client.loads_savedLast (howned.runs c hc) hanswered ?_
    rw [← hreceipt]
    exact hdurable

/-- **Finality of receipts.** -/
theorem System.receipt_final (h : System.Reach (System.init store) S) (h' : System.Reach S S') :
    S.Final S' where
  rows := fun _ hrow => System.rows_kept h h' hrow
  writer := fun _ hstep _ hrow => (Owned.of_reach (h.trans h')).step_row hstep hrow
  settled := fun _ hrow hsettled => (System.settled_kept h h' hrow hsettled).1
  returned := fun _ hc _ _ hfresh hret => System.returned_of_settled h h' hc hfresh hret

end Writers

/-- A retitling that could not connect has returned when the next one starts. -/
theorem System.receipt_final_retitle :
    let _ := Hashlib.verbatim
    let _ := Endpoint.sample
    ∃ (S S' : System) (c : Client) (receipt s : Dict),
      S.clients[0]? = some c ∧ c.fresh.isSome = true ∧ c.rest = .ret (.ok receipt, s) ∧
      S.Final S' := by
  intro _ _
  have h := (System.Reach.init : System.Reach (System.init Store.empty) _)
    |>.step (.call 0 "r" (.setThreadTitle ⟨"t", "x"⟩))
    |>.answer 0 (.base .acquire) (.ok ()) rfl rfl rfl (.other _ (by simp) (by simp) (by simp))
        (.acquire rfl)
    |>.answer 0 (.base (.select "r")) (.ok none) rfl rfl rfl (.select "r")
        (.other _ (by simp) (by simp))
    |>.answer 0 (.base .now) "1.5" rfl rfl rfl (.other _ (by simp) (by simp) (by simp))
        (.other _ (by simp) (by simp))
    |>.answer 0 (.base (.beginRow "r" _ _)) (.ok none) rfl rfl rfl (.insert rfl)
        (.other _ (by simp) (by simp))
    |>.answer 0 (.base (.enter "r")) () rfl rfl rfl (.other _ (by simp) (by simp) (by simp))
        (.other _ (by simp) (by simp))
    |>.answer 0 (.net .lock) (.error (.exception "RuntimeError" "no loop")) rfl rfl rfl
        (.other _ (by simp) (by simp) (by simp)) (.other _ (by simp) (by simp))
    |>.answer 0 (.base .now) "2.5" rfl rfl rfl (.other _ (by simp) (by simp) (by simp))
        (.other _ (by simp) (by simp))
    |>.answer 0 (.base (.update (.str "r") _)) (.ok ()) rfl rfl rfl (.update "r" _)
        (.other _ (by simp) (by simp))
    |>.answer 0 (.base .release) () rfl rfl rfl (.other _ (by simp) (by simp) (by simp)) .release
  have h' := h.onward
    |>.step (.call 0 "r" (.setThreadTitle ⟨"t", "x"⟩))
    |>.answer 1 (.base .acquire) (.ok ()) rfl rfl rfl (.other _ (by simp) (by simp) (by simp))
        (.acquire rfl)
    |>.answer 1 (.base (.select "r")) (.ok (some _)) rfl rfl rfl (.select "r")
        (.other _ (by simp) (by simp))
  exact ⟨_, _, _, _, _, rfl, rfl, rfl, System.receipt_final h h'⟩

end CodexRemoteBridge

/-
  CodexRemoteBridge.Startup — two bridges that start at once on one ledger,
  and both import the same legacy ledger.

  The statements of the two interleave; a transaction opens with the first
  `INSERT`, which waits until the other has none open.  The look-up of a row
  comes before that, so a row that both have looked up in vain is inserted
  by one and refused to the other.

  Main result:
    • `Startup.both_import_iff` — when both starts succeed.
-/
import CodexRemoteBridge.Import

namespace CodexRemoteBridge

open Interaction

/-! ## §1. Two processes over one ledger file. -/

/-- `open_endpoint_ledger`: `legacy` is the ledger of the alias that was
supplied, if it has one of its own. -/
def openEndpointLedger (path : String) (legacy : Option Table) : Sql Unit := do
  Co.ask SqlOp.create
  match legacy with
  | some legacy => importLegacy path legacy.rows
  | none => pure ()

/-- A process that starts: what is left of `open_endpoint_ledger`, and the
table of its transaction. -/
structure Process where
  rest : Prog SqlOp SqlAns (Except PyExc Unit × Unit)
  pending : Option Table

/-- The ledger file, the two processes, and their statements so far. -/
structure Startup where
  committed : Table
  procs : Bool → Process
  log : List (Bool × SqlOp)

namespace Startup

/-- Neither has done anything. -/
def init (path : String) (legacy canonical : Table) : Startup where
  committed := canonical
  procs := fun _ => ⟨openEndpointLedger path (some legacy) (), none⟩
  log := []

/-- Process `i` performs the statement it stands at. -/
def after (S : Startup) (i : Bool) (op : SqlOp)
    (k : SqlAns op → Prog SqlOp SqlAns (Except PyExc Unit × Unit)) : Startup :=
  let served := (Connection.mk S.committed (S.procs i).pending).serve op
  { committed := served.2.committed
    procs := Function.update S.procs i ⟨k served.1, served.2.pending⟩
    log := S.log ++ [(i, op)] }

/-- A statement of one of the two; an `INSERT` waits for the transaction of
the other. -/
inductive Step (S : Startup) : Startup → Prop
  | run (i : Bool) {op : SqlOp}
      {k : SqlAns op → Prog SqlOp SqlAns (Except PyExc Unit × Unit)} :
      (S.procs i).rest = .op op k →
      (∀ row, op = .insert row → (S.procs !i).pending = none) →
      Step S (S.after i op k)

/-- The states the statements lead through. -/
inductive Reach (S₀ : Startup) : Startup → Prop
  | init : Reach S₀ S₀
  | step {S S' : Startup} : Reach S₀ S → S.Step S' → Reach S₀ S'

/-- Both have returned or raised. -/
def Complete (S : Startup) : Prop := ∀ i, ∃ r, (S.procs i).rest = .ret r

/-- Process `i` has returned. -/
def Returned (S : Startup) (i : Bool) : Prop := (S.procs i).rest = .ret (.ok (), ())

/-- One looks a row up that the ledger lacks, when the other has looked it up
already and nothing is committed yet. -/
def Clash (canonical : Table) (log : List (Bool × SqlOp)) : Prop :=
  ∃ pre i requestId post, log = pre ++ (i, .select requestId) :: post ∧
    canonical.find? requestId = none ∧ (!i, .select requestId) ∈ pre ∧ ∀ j, (j, .commit) ∉ pre

end Startup

/-! ## §2. What is left of an import. -/

section Residual

variable (path : String)

/-- After a refusal. -/
def undone (e : PyExc) : Prog SqlOp SqlAns (Except PyExc Unit × Unit) :=
  .op .rollback fun _ => .ret (.error e, ())

/-- At the `INSERT` of a row. -/
def inserting (row : TextRow) (rest : List TextRow) :
    Prog SqlOp SqlAns (Except PyExc Unit × Unit) :=
  .op (.insert row) fun
    | .ok _ => importLegacy path rest ()
    | .error e => undone e

theorem importLegacy_nil :
    importLegacy path [] () = .op .commit fun _ => .ret (.ok (), ()) := rfl

theorem importLegacy_cons (row : TextRow) (rest : List TextRow) :
    importLegacy path (row :: rest) () = .op (.select row.requestId) fun
      | some existing =>
          match compareRow path row existing with
          | .ok _ => importLegacy path rest ()
          | .error e => undone e
      | none => inserting path row rest := by
  have hofExcept : ∀ r : Except PyExc Unit,
      ((Co.tryCatch (do Co.ofExcept r; importRows path rest) fun error => do
          Co.ask SqlOp.rollback
          Co.throw error) >>= fun _ => Co.ask SqlOp.commit : Sql Unit) ()
        = match r with
          | .ok _ => importLegacy path rest ()
          | .error e => undone e := by
    intro r
    cases r with
    | ok _ => rfl
    | error e => rfl
  show Prog.op _ _ = Prog.op _ _
  congr 1
  funext existing
  cases existing with
  | none =>
      show Prog.op _ _ = Prog.op _ _
      congr 1
      funext inserted
      cases inserted with
      | ok _ => rfl
      | error e => rfl
  | some existing => exact hofExcept (compareRow path row existing)

end Residual

/-! ## §3. The end of every run. -/

/-- At most `n` operations are left, whatever they are answered with. -/
inductive Within {α : Type} : Nat → Prog SqlOp SqlAns α → Prop
  | ret (n : Nat) (a : α) : Within n (.ret a)
  | op {n : Nat} {op : SqlOp} {k : SqlAns op → Prog SqlOp SqlAns α} :
      (∀ r, Within n (k r)) → Within (n + 1) (.op op k)

theorem Within.more {α : Type} {n m : Nat} {p : Prog SqlOp SqlAns α} (h : Within n p)
    (hnm : n ≤ m) : Within m p := by
  induction h generalizing m with
  | ret n a => exact .ret m a
  | @op n op k _ ih =>
      obtain ⟨m, rfl⟩ := Nat.exists_eq_add_of_lt hnm
      exact .op fun r => ih r (by omega)

theorem within_importLegacy (path : String) (rows : List TextRow) :
    Within (2 * rows.length + 1) (importLegacy path rows ()) := by
  induction rows with
  | nil =>
      rw [importLegacy_nil]
      exact .op fun _ => .ret _ _
  | cons row rest ih =>
      have hundone : ∀ e, Within (2 * rest.length + 1) (undone e) :=
        fun e => .op fun _ => .ret _ _
      rw [importLegacy_cons, List.length_cons]
      refine .op fun existing => ?_
      cases existing with
      | some existing =>
          dsimp only
          cases compareRow path row existing with
          | ok _ => exact ih.more (by omega)
          | error e => exact (hundone e).more (by omega)
      | none =>
          refine .op fun inserted => ?_
          cases inserted with
          | ok _ => exact ih
          | error e => exact hundone e

namespace Startup

variable {path : String} {legacy canonical : Table} {S S' : Startup}

/-- **Every run ends**: the statements are bounded by the legacy ledger. -/
theorem length_log (h : Reach (init path legacy canonical) S) :
    ∃ n : Bool → Nat, (∀ i, Within (n i) (S.procs i).rest) ∧
      S.log.length + n false + n true ≤ 4 * legacy.rows.length + 4 := by
  induction h with
  | init =>
      refine ⟨fun _ => 2 * legacy.rows.length + 2, fun _ => ?_, ?_⟩
      · exact .op fun _ => within_importLegacy path legacy.rows
      · show 0 + (2 * legacy.rows.length + 2) + (2 * legacy.rows.length + 2) ≤ _
        omega
  | step _ hstep ih =>
      obtain ⟨n, hwithin, hle⟩ := ih
      obtain ⟨i, hrest, -⟩ := hstep
      have hi := hwithin i
      rw [hrest] at hi
      generalize hni : n i = m at hi
      cases hi with
      | op hk =>
          rename_i m
          refine ⟨Function.update n i m, fun j => ?_, ?_⟩
          · by_cases hij : j = i
            · subst hij
              simpa [after] using hk _
            · simpa [after, Function.update_of_ne hij] using hwithin j
          · cases i <;> simp [after] <;> omega

/-! ## §4. Look-ups in the order of the statements. -/

/-- What one more statement adds. -/
theorem clash_append {log : List (Bool × SqlOp)} {i : Bool} {op : SqlOp} :
    Clash canonical (log ++ [(i, op)]) ↔ Clash canonical log ∨
      ∃ requestId, op = .select requestId ∧ canonical.find? requestId = none ∧
        (!i, .select requestId) ∈ log ∧ ∀ j, (j, .commit) ∉ log := by
  constructor
  · rintro ⟨pre, j, requestId, post, heq, hlacks, hother, hcommit⟩
    rcases List.eq_nil_or_concat post with rfl | ⟨post, e, rfl⟩
    · obtain ⟨rfl, he⟩ := List.append_inj' heq rfl
      cases he
      exact .inr ⟨requestId, rfl, hlacks, hother, hcommit⟩
    · rw [List.concat_eq_append, ← List.cons_append, ← List.append_assoc] at heq
      obtain ⟨rfl, -⟩ := List.append_inj' heq rfl
      exact .inl ⟨pre, j, requestId, post, rfl, hlacks, hother, hcommit⟩
  · rintro (⟨pre, j, requestId, post, rfl, hclash⟩ | ⟨requestId, rfl, hlacks, hother, hcommit⟩)
    · exact ⟨pre, j, requestId, post ++ [(i, op)], by simp, hclash⟩
    · exact ⟨log, i, requestId, [], rfl, hlacks, hother, hcommit⟩

/-- Before anything is committed: both have looked the row up. -/
theorem clash_iff {log : List (Bool × SqlOp)} (hcommit : ∀ j, (j, .commit) ∉ log) :
    Clash canonical log ↔
      ∃ requestId, canonical.find? requestId = none ∧ ∀ i, (i, .select requestId) ∈ log := by
  induction log using List.reverseRecOn with
  | nil =>
      constructor
      · rintro ⟨pre, i, requestId, post, heq, -⟩
        simp at heq
      · rintro ⟨requestId, -, hboth⟩
        exact absurd (hboth true) (by simp)
  | append_singleton log e ih =>
      obtain ⟨i, op⟩ := e
      have hbefore : ∀ j, (j, .commit) ∉ log := fun j hj => hcommit j (List.mem_append_left _ hj)
      rw [clash_append, ih hbefore]
      constructor
      · rintro (⟨requestId, hlacks, hboth⟩ | ⟨requestId, rfl, hlacks, hother, -⟩)
        · exact ⟨requestId, hlacks, fun j => List.mem_append_left _ (hboth j)⟩
        · refine ⟨requestId, hlacks, fun j => ?_⟩
          by_cases hij : j = i
          · simp [hij]
          · rw [Bool.eq_not_of_ne hij]
            exact List.mem_append_left _ hother
      · rintro ⟨requestId, hlacks, hboth⟩
        by_cases hop : op = .select requestId
        · have hother := hboth !i
          rw [List.mem_append] at hother
          refine .inr ⟨requestId, hop, hlacks, hother.resolve_right ?_, hbefore⟩
          simp
        · refine .inl ⟨requestId, hlacks, fun j => ?_⟩
          have hj := hboth j
          rw [List.mem_append] at hj
          refine hj.resolve_right fun hmem => hop ?_
          simp only [List.mem_singleton, Prod.mk.injEq] at hmem
          exact hmem.2.symm

/-- One process alone does not clash. -/
theorem not_clash_alone {log : List (Bool × SqlOp)} {i : Bool} (h : ∀ e ∈ log, e.1 = i) :
    ¬ Clash canonical log := by
  rintro ⟨pre, j, requestId, post, rfl, -, hother, -⟩
  have hj : j = i := h (j, .select requestId) (by simp)
  have hnot : (!j) = i := h (!j, .select requestId) (List.mem_append_left _ hother)
  rw [← hj] at hnot
  exact Bool.not_ne_self j hnot

/-- Once something is committed, nothing more clashes. -/
theorem clash_committed {log : List (Bool × SqlOp)} {i j : Bool} {op : SqlOp}
    (hcommit : (j, .commit) ∈ log) :
    Clash canonical (log ++ [(i, op)]) ↔ Clash canonical log := by
  rw [clash_append]
  constructor
  · rintro (hclash | ⟨-, -, -, -, hnone⟩)
    · exact hclash
    · exact absurd hcommit (hnone j)
  · exact .inl

/-! ## §5. Where the two processes can be. -/

/-- The receipt is JSON, and not the bare constant `NaN`. -/
def Repeats (row : TextRow) : Prop :=
  ∃ receipt, Json.decode row.receipt = some receipt ∧ receipt ≠ .float "NaN"

theorem repeats_iff {row : TextRow} : Repeats row ↔ compareRow path row row = .ok () := by
  cases hdecode : Json.decode row.receipt with
  | none => simp [Repeats, compareRow, jsonLoads, hdecode, bind, Except.bind]
  | some receipt =>
      rw [compareRow_self hdecode, Repeats, hdecode]
      simp

/-- The order in which both starts succeed. -/
def Succeeds (legacy canonical : Table) (log : List (Bool × SqlOp)) : Prop :=
  ¬ Clash canonical log ∧
  ∀ row ∈ legacy.rows, canonical.find? row.requestId = none → Repeats row

/-- The transaction after these rows. -/
def opened (canonical : Table) (done : List TextRow) : Option Table :=
  if ∀ row ∈ done, canonical.find? row.requestId ≠ none then none
  else some (canonical.merge done)

/-- The rows a process has looked up. -/
def LookedUp (log : List (Bool × SqlOp)) (i : Bool) (rows : List TextRow) : Prop :=
  ∀ requestId, (i, .select requestId) ∈ log ↔ requestId ∈ rows.map (·.requestId)

/-- Where a process is before anything is committed. -/
inductive Early (path : String) (legacy canonical : Table) (log : List (Bool × SqlOp)) (i : Bool) :
    Process → Prop
  | start : LookedUp log i [] →
      Early path legacy canonical log i ⟨openEndpointLedger path (some legacy) (), none⟩
  | looking (done rest : List TextRow) : legacy.rows = done ++ rest → LookedUp log i done →
      Early path legacy canonical log i ⟨importLegacy path rest (), opened canonical done⟩
  | inserting (done : List TextRow) (row : TextRow) (rest : List TextRow) :
      legacy.rows = done ++ row :: rest → LookedUp log i (done ++ [row]) →
      canonical.find? row.requestId = none →
      Early path legacy canonical log i ⟨inserting path row rest, opened canonical done⟩

/-- Where a process is after the other has committed. -/
inductive Late (path : String) (legacy canonical : Table) (log : List (Bool × SqlOp)) :
    Process → Prop
  | start : ¬ Clash canonical log →
      Late path legacy canonical log ⟨openEndpointLedger path (some legacy) (), none⟩
  | looking (done rest : List TextRow) : ¬ Clash canonical log → legacy.rows = done ++ rest →
      (∀ row ∈ done, canonical.find? row.requestId = none → Repeats row) →
      Late path legacy canonical log ⟨importLegacy path rest (), none⟩
  | inserting {row : TextRow} (rest : List TextRow) : Clash canonical log → row ∈ legacy.rows →
      Late path legacy canonical log ⟨inserting path row rest, none⟩
  | undone (e : PyExc) (pending : Option Table) : ¬ Succeeds legacy canonical log →
      Late path legacy canonical log ⟨undone e, pending⟩
  | raised (e : PyExc) : ¬ Succeeds legacy canonical log →
      Late path legacy canonical log ⟨.ret (.error e, ()), none⟩
  | returned : Succeeds legacy canonical log →
      Late path legacy canonical log ⟨.ret (.ok (), ()), none⟩

/-- The invariant. -/
inductive Course (path : String) (legacy canonical : Table) (S : Startup) : Prop
  | before : S.committed = canonical → (∀ j, (j, .commit) ∉ S.log) →
      (∀ i, Early path legacy canonical S.log i (S.procs i)) →
      (∃ i, (S.procs i).pending = none) → Course path legacy canonical S
  | after (j : Bool) : S.committed = canonical.merge legacy.rows → (j, .commit) ∈ S.log →
      S.procs j = ⟨.ret (.ok (), ()), none⟩ →
      Late path legacy canonical S.log (S.procs !j) → Course path legacy canonical S

/-! ## §6. The table of a transaction. -/

theorem merge_append (t : Table) (done rest : List TextRow) :
    t.merge (done ++ rest) = (t.merge done).merge rest := List.foldl_append

theorem find?_merge {t : Table} {rows : List TextRow} {requestId : String}
    (h : requestId ∉ rows.map (·.requestId)) : (t.merge rows).find? requestId = t.find? requestId := by
  induction rows generalizing t with
  | nil => rfl
  | cons row rest ih =>
      rw [List.map_cons, List.mem_cons, not_or] at h
      show (((t.insert row).getD t).merge rest).find? requestId = _
      rw [ih h.2]
      cases hins : t.insert row with
      | none => rfl
      | some t' => exact Table.find?_insert hins h.1

theorem merge_singleton {t : Table} {row : TextRow} :
    t.merge [row] = (t.insert row).getD t := rfl

/-- A row and the rows before it. -/
theorem split_fresh {done rest : List TextRow} {row : TextRow}
    (hsplit : legacy.rows = done ++ row :: rest) :
    ((done ++ [row]).map (·.requestId)).Nodup ∧ row.requestId ∉ done.map (·.requestId) := by
  have hids := legacy.primaryKey
  rw [hsplit, List.append_cons, List.map_append] at hids
  have hone := hids.of_append_left
  refine ⟨hone, fun hmem => ?_⟩
  rw [List.map_append, List.nodup_append] at hone
  exact hone.2.2 _ hmem _ (by simp) rfl

theorem serve_insert {s : Connection} {row : TextRow} {t : Table}
    (h : s.visible.insert row = some t) :
    s.serve (.insert row) = (.ok (), ⟨s.committed, some t⟩) := by
  simp only [Connection.serve, h]

theorem serve_insert_taken {s : Connection} {row : TextRow}
    (h : s.visible.find? row.requestId ≠ none) :
    s.serve (.insert row) = (.error integrityError, ⟨s.committed, some s.visible⟩) := by
  simp only [Connection.serve, Table.insert, dif_neg h]

/-- What a process sees after these rows. -/
theorem opened_getD {done : List TextRow} (hdone : (done.map (·.requestId)).Nodup) :
    (opened canonical done).getD canonical = canonical.merge done := by
  unfold opened
  split
  · rename_i hfound
    exact (merge_taken hdone hfound).symm
  · rfl

theorem opened_found {done : List TextRow} {row : TextRow}
    (hnodup : ((done ++ [row]).map (·.requestId)).Nodup)
    (hfound : canonical.find? row.requestId ≠ none) :
    opened canonical (done ++ [row]) = opened canonical done := by
  rw [List.map_append, List.nodup_append] at hnodup
  have hnot : row.requestId ∉ done.map (·.requestId) :=
    fun hmem => hnodup.2.2 _ hmem _ (by simp) rfl
  have hmerge : canonical.merge (done ++ [row]) = canonical.merge done := by
    rw [merge_append]
    refine merge_taken (List.nodup_singleton _) fun r hr => ?_
    obtain rfl := List.mem_singleton.mp hr
    rwa [find?_merge hnot]
  unfold opened
  simp [hmerge, or_imp, forall_and, hfound]

theorem opened_lacking {done : List TextRow} {row : TextRow} (hmem : row ∈ done)
    (hlacks : canonical.find? row.requestId = none) :
    opened canonical done = some (canonical.merge done) :=
  if_neg fun hall => hall row hmem hlacks

theorem opened_eq_none {done : List TextRow} (h : opened canonical done = none) :
    ∀ row ∈ done, canonical.find? row.requestId ≠ none := by
  unfold opened at h
  split at h
  · assumption
  · cases h

/-! ## §7. The invariant is kept. -/

theorem LookedUp.other {log : List (Bool × SqlOp)} {i : Bool} {op : SqlOp} {rows : List TextRow}
    (h : LookedUp log (!i) rows) : LookedUp (log ++ [(i, op)]) (!i) rows := by
  intro requestId
  rw [← h requestId]
  simp

theorem LookedUp.quiet {log : List (Bool × SqlOp)} {i : Bool} {op : SqlOp} {rows : List TextRow}
    (h : LookedUp log i rows) (hop : ∀ requestId, op ≠ .select requestId) :
    LookedUp (log ++ [(i, op)]) i rows := by
  intro requestId
  rw [← h requestId]
  simp [(hop requestId).symm]

theorem LookedUp.select {log : List (Bool × SqlOp)} {i : Bool} {done : List TextRow}
    (h : LookedUp log i done) (row : TextRow) :
    LookedUp (log ++ [(i, .select row.requestId)]) i (done ++ [row]) := by
  intro requestId
  have hbefore := h requestId
  simp only [List.mem_map] at hbefore
  simp [hbefore]

theorem importLegacy_ne_ret (rest : List TextRow) (r : Except PyExc Unit × Unit) :
    importLegacy path rest () ≠ .ret r := by
  cases rest with
  | nil => exact nofun
  | cons row rest =>
      rw [importLegacy_cons]
      exact nofun

/-- Before the first commit no process has ended. -/
theorem Early.unfinished {log : List (Bool × SqlOp)} {i : Bool} {p : Process}
    (h : Early path legacy canonical log i p) (r : Except PyExc Unit × Unit) : p.rest ≠ .ret r := by
  cases h with
  | start => exact nofun
  | looking done rest => exact importLegacy_ne_ret rest r
  | inserting => exact nofun

/-- What the other does leaves a process where it is. -/
theorem Early.other {log : List (Bool × SqlOp)} {i : Bool} {op : SqlOp} {p : Process}
    (h : Early path legacy canonical log (!i) p) :
    Early path legacy canonical (log ++ [(i, op)]) (!i) p := by
  cases h with
  | start hlooked => exact .start hlooked.other
  | looking done rest hsplit hlooked => exact .looking done rest hsplit hlooked.other
  | inserting done row rest hsplit hlooked hlacks =>
      exact .inserting done row rest hsplit hlooked.other hlacks

section Steps

variable {i : Bool} {op : SqlOp} {k : SqlAns op → Prog SqlOp SqlAns (Except PyExc Unit × Unit)}

/-- How the statement is answered. -/
abbrev served (S : Startup) (i : Bool) (op : SqlOp) : SqlAns op × Connection :=
  (Connection.mk S.committed (S.procs i).pending).serve op

@[simp] theorem after_self : (S.after i op k).procs i
    = ⟨k (S.served i op).1, (S.served i op).2.pending⟩ := by
  simp [after, served]

@[simp] theorem after_other : (S.after i op k).procs (!i) = S.procs !i := by
  simp [after]

/-- A statement that commits nothing. -/
theorem Course.onward (hnone : ∀ j, (j, .commit) ∉ S.log)
    (hother : Early path legacy canonical S.log (!i) (S.procs !i)) (hop : op ≠ .commit)
    (hserved : (S.served i op).2.committed = canonical)
    (hself : Early path legacy canonical (S.log ++ [(i, op)]) i
      ⟨k (S.served i op).1, (S.served i op).2.pending⟩)
    (hfree : (S.served i op).2.pending = none ∨ (S.procs !i).pending = none) :
    Course path legacy canonical (S.after i op k) := by
  refine .before hserved ?_ ?_ ?_
  · intro j hj
    rcases List.mem_append.mp hj with hj | hj
    · exact hnone j hj
    · simp only [List.mem_singleton, Prod.mk.injEq] at hj
      exact hop hj.2.symm
  · intro j
    by_cases hij : j = i
    · subst hij
      rw [after_self]
      exact hself
    · obtain rfl := Bool.eq_not_of_ne hij
      rw [after_other]
      exact hother.other
  · rcases hfree with hfree | hfree
    · exact ⟨i, by rw [after_self]; exact hfree⟩
    · exact ⟨!i, by rw [after_other]; exact hfree⟩

/-- **The first commit**: the other process is at a look-up, or it has looked
up a row that is there now. -/
theorem Course.commit (hcommitted : S.committed = canonical) (hnone : ∀ j, (j, .commit) ∉ S.log)
    (hfree : ∃ i, (S.procs i).pending = none)
    (hother : Early path legacy canonical S.log (!i) (S.procs !i))
    (hlooked : LookedUp S.log i legacy.rows)
    (hpending : (S.procs i).pending = opened canonical legacy.rows)
    {k : Unit → Prog SqlOp SqlAns (Except PyExc Unit × Unit)}
    (hk : ∀ u, k u = .ret (.ok (), ())) : Course path legacy canonical (S.after i .commit k) := by
  have hvisible : (S.served i .commit).2.committed = canonical.merge legacy.rows := by
    show ((S.procs i).pending).getD S.committed = _
    rw [hpending, hcommitted, opened_getD legacy.primaryKey]
  have hclash : Clash canonical (S.log ++ [(i, .commit)]) ↔
      ∃ row ∈ legacy.rows, canonical.find? row.requestId = none ∧
        (!i, .select row.requestId) ∈ S.log := by
    rw [clash_append, clash_iff hnone]
    constructor
    · rintro (⟨requestId, hlacks, hboth⟩ | ⟨_, he, -⟩)
      · obtain ⟨row, hrow, rfl⟩ := List.mem_map.mp ((hlooked requestId).mp (hboth i))
        exact ⟨row, hrow, hlacks, hboth _⟩
      · cases he
    · rintro ⟨row, hrow, hlacks, hother⟩
      refine .inl ⟨row.requestId, hlacks, fun j => ?_⟩
      by_cases hij : j = i
      · subst hij
        exact (hlooked _).mpr (List.mem_map_of_mem hrow)
      · rw [Bool.eq_not_of_ne hij]
        exact hother
  -- a transaction of the other leaves this one without, and so without a row to insert
  have hidle : ∀ row ∈ legacy.rows, canonical.find? row.requestId = none →
      (S.procs !i).pending = none := by
    intro row hrow hlacks
    obtain ⟨j, hj⟩ := hfree
    by_cases hij : j = i
    · subst hij
      rw [hpending, opened_lacking hrow hlacks] at hj
      cases hj
    · rwa [Bool.eq_not_of_ne hij] at hj
  refine .after i hvisible (List.mem_append_right _ (List.mem_singleton_self _)) ?_ ?_
  · rw [after_self, hk]
    rfl
  · rw [after_other]
    show Late path legacy canonical (S.log ++ [(i, .commit)]) _
    generalize S.procs (!i) = p at hother hidle
    cases hother with
    | start hlooked' =>
        refine .start fun h => ?_
        obtain ⟨row, -, -, hmem⟩ := hclash.mp h
        exact absurd ((hlooked' _).mp hmem) (by simp)
    | looking done rest hsplit hlooked' =>
        have hopened : opened canonical done = none := by
          by_contra hne
          obtain ⟨row, hrow, hlacks⟩ : ∃ row ∈ done, canonical.find? row.requestId = none := by
            by_contra hall
            refine hne (if_pos fun row hrow hlacks => hall ⟨row, hrow, hlacks⟩)
          exact hne (hidle row (by rw [hsplit]; exact List.mem_append_left _ hrow) hlacks)
        rw [hopened]
        have hfound := opened_eq_none hopened
        refine .looking done rest (fun h => ?_) hsplit
          fun row hrow hlacks => absurd hlacks (hfound row hrow)
        obtain ⟨row, -, hlacks, hmem⟩ := hclash.mp h
        obtain ⟨row', hrow', hid⟩ := List.mem_map.mp ((hlooked' _).mp hmem)
        rw [← hid] at hlacks
        exact hfound row' hrow' hlacks
    | inserting done row rest hsplit hlooked' hlacks =>
        have hrow : row ∈ legacy.rows := by rw [hsplit]; simp
        have hopened : opened canonical done = none := hidle row hrow hlacks
        rw [hopened]
        refine .inserting rest (hclash.mpr ⟨row, hrow, hlacks, ?_⟩) hrow
        exact (hlooked' _).mpr (by simp)

/-- **A statement before the first commit.** -/
theorem Course.step_before (hagree : ∀ row ∈ legacy.rows, Agrees canonical row)
    (hcommitted : S.committed = canonical) (hnone : ∀ j, (j, .commit) ∉ S.log)
    (hearly : ∀ i, Early path legacy canonical S.log i (S.procs i))
    (hfree : ∃ i, (S.procs i).pending = none) (hrest : (S.procs i).rest = .op op k)
    (hwait : ∀ row, op = .insert row → (S.procs !i).pending = none) :
    Course path legacy canonical (S.after i op k) := by
  have hself := hearly i
  have hother := hearly !i
  -- no look-up or `CREATE` touches a transaction
  have hquiet : (S.procs i).pending = none ∨ (S.procs !i).pending = none := by
    obtain ⟨j, hj⟩ := hfree
    by_cases hij : j = i
    · exact .inl (hij ▸ hj)
    · exact .inr (Bool.eq_not_of_ne hij ▸ hj)
  obtain ⟨p, hp⟩ : ∃ p, S.procs i = p := ⟨_, rfl⟩
  rw [hp] at hself hrest
  cases hself with
  | start hlooked =>
      cases hrest
      refine Course.onward hnone hother (fun h => by cases h) hcommitted ?_ hquiet
      have hnothing : opened canonical [] = none := if_pos (by simp)
      have hlooking : Early path legacy canonical (S.log ++ [(i, .create)]) i
          ⟨importLegacy path legacy.rows (), opened canonical []⟩ :=
        .looking [] legacy.rows rfl (hlooked.quiet fun _ h => by cases h)
      rw [hnothing] at hlooking
      show Early path legacy canonical _ i ⟨importLegacy path legacy.rows (), (S.procs i).pending⟩
      rw [hp]
      exact hlooking
  | looking done rest hsplit hlooked =>
      have hnodup : (done.map (·.requestId)).Nodup := by
        have h := legacy.primaryKey
        rw [hsplit, List.map_append] at h
        exact h.of_append_left
      have hvisible : (Connection.mk S.committed (S.procs i).pending).visible
          = canonical.merge done := by
        rw [hp, hcommitted]
        exact opened_getD hnodup
      cases rest with
      | nil =>
          rw [List.append_nil] at hsplit
          cases hrest
          refine Course.commit hcommitted hnone hfree hother ?_ ?_ fun _ => rfl
          · rw [hsplit]
            exact hlooked
          · rw [hp, hsplit]
      | cons row rest =>
          rw [importLegacy_cons] at hrest
          cases hrest
          refine Course.onward hnone hother (fun h => by cases h) hcommitted ?_ hquiet
          obtain ⟨hone, hnot⟩ := split_fresh hsplit
          have hfind : (S.served i (.select row.requestId)).1 = canonical.find? row.requestId := by
            show (Connection.mk S.committed (S.procs i).pending).visible.find? _ = _
            rw [hvisible, find?_merge hnot]
          have hpending : (S.served i (.select row.requestId)).2.pending = opened canonical done := by
            show (S.procs i).pending = _
            rw [hp]
          rw [hfind, hpending]
          cases hexisting : canonical.find? row.requestId with
          | none =>
              exact .inserting done row rest hsplit (hlooked.select row) hexisting
          | some existing =>
              have hrow : row ∈ legacy.rows := by rw [hsplit]; simp
              obtain ⟨path', hok⟩ := hagree row hrow existing hexisting
              dsimp only
              rw [compareRow_ok hok, ← opened_found hone (by rw [hexisting]; simp)]
              exact .looking (done ++ [row]) rest (by rw [hsplit]; simp) (hlooked.select row)
  | inserting done row rest hsplit hlooked hlacks =>
      cases hrest
      obtain ⟨hone, hnot⟩ := split_fresh hsplit
      have hnodup : (done.map (·.requestId)).Nodup := by
        rw [List.map_append] at hone
        exact hone.of_append_left
      have hinsert : (canonical.merge done).insert row
          = some (canonical.merge (done ++ [row])) := by
        rw [merge_append, merge_singleton, Table.insert, dif_pos (by rw [find?_merge hnot, hlacks])]
        rfl
      have hvisible : (Connection.mk S.committed (S.procs i).pending).visible
          = canonical.merge done := by
        rw [hp, hcommitted]
        exact opened_getD hnodup
      have hserved : S.served i (.insert row)
          = (.ok (), ⟨canonical, some (canonical.merge (done ++ [row]))⟩) := by
        rw [served, serve_insert (by rw [hvisible, hinsert]), hcommitted]
      refine Course.onward hnone hother (fun h => by cases h) (by rw [hserved]) ?_
        (.inr (hwait row rfl))
      have hopened : opened canonical (done ++ [row]) = some (canonical.merge (done ++ [row])) :=
        opened_lacking (by simp) hlacks
      rw [hserved, ← hopened]
      exact .looking (done ++ [row]) rest (by rw [hsplit]; simp) (hlooked.quiet fun _ h => by cases h)

/-- A statement of the process that has not committed. -/
theorem Course.late {j : Bool} (hcommit : (j, .commit) ∈ S.log)
    (hdone : S.procs j = ⟨.ret (.ok (), ()), none⟩)
    (hserved : (S.served (!j) op).2.committed = canonical.merge legacy.rows)
    (hlate : Late path legacy canonical (S.log ++ [(!j, op)])
      ⟨k (S.served (!j) op).1, (S.served (!j) op).2.pending⟩) :
    Course path legacy canonical (S.after (!j) op k) := by
  refine .after j hserved (List.mem_append_left _ hcommit) ?_ ?_
  · rw [← hdone]
    have h : (S.after (!j) op k).procs (!!j) = S.procs (!!j) := after_other
    rwa [Bool.not_not] at h
  · rw [after_self]
    exact hlate

/-- **A statement after the first commit.** -/
theorem Course.step_after (hagree : ∀ row ∈ legacy.rows, Agrees canonical row) {j : Bool}
    (hcommitted : S.committed = canonical.merge legacy.rows) (hcommit : (j, .commit) ∈ S.log)
    (hdone : S.procs j = ⟨.ret (.ok (), ()), none⟩)
    (hlate : Late path legacy canonical S.log (S.procs !j))
    (hrest : (S.procs i).rest = .op op k) : Course path legacy canonical (S.after i op k) := by
  obtain rfl : i = !j := by
    refine Bool.eq_not_of_ne fun hij => ?_
    rw [hij, hdone] at hrest
    cases hrest
  have hkeeps : Clash canonical (S.log ++ [(!j, op)]) ↔ Clash canonical S.log :=
    clash_committed hcommit
  have hsucceeds : Succeeds legacy canonical (S.log ++ [(!j, op)])
      ↔ Succeeds legacy canonical S.log := by
    unfold Succeeds
    rw [hkeeps]
  obtain ⟨p, hp⟩ : ∃ p, S.procs (!j) = p := ⟨_, rfl⟩
  rw [hp] at hlate hrest
  cases hlate with
  | start hclash =>
      cases hrest
      refine Course.late hcommit hdone hcommitted ?_
      show Late path legacy canonical _
        ⟨importLegacy path legacy.rows (), (S.procs !j).pending⟩
      rw [hp]
      exact .looking [] legacy.rows (mt hkeeps.mp hclash) rfl (by simp)
  | looking done rest hclash hsplit hrepeats =>
      have hvisible : (Connection.mk S.committed (S.procs !j).pending).visible
          = canonical.merge legacy.rows := by
        rw [hp, hcommitted]
        rfl
      cases rest with
      | nil =>
          cases hrest
          refine Course.late hcommit hdone hvisible (.returned (hsucceeds.mpr ⟨hclash, ?_⟩))
          rw [hsplit, List.append_nil]
          exact hrepeats
      | cons row rest =>
          rw [importLegacy_cons] at hrest
          cases hrest
          have hrow : row ∈ legacy.rows := by rw [hsplit]; simp
          obtain ⟨text, htext, hid, hcases⟩ := mem_merge canonical hrow
          have hfind : (S.served (!j) (.select row.requestId)).1 = some text := by
            show (Connection.mk S.committed (S.procs !j).pending).visible.find? _ = _
            rw [hvisible, ← hid]
            exact Table.find?_of_mem htext
          have hpending : (S.served (!j) (.select row.requestId)).2.pending = none := by
            show (S.procs !j).pending = _
            rw [hp]
          refine Course.late hcommit hdone hcommitted ?_
          rw [hfind, hpending]
          dsimp only
          -- the row is looked at again: it passes if it did before, or repeats
          cases hcompare : compareRow path row text with
          | ok _ =>
              refine .looking (done ++ [row]) rest (mt hkeeps.mp hclash) (by rw [hsplit]; simp) ?_
              intro r hr hlacks
              rcases List.mem_append.mp hr with hr | hr
              · exact hrepeats r hr hlacks
              · obtain rfl := List.mem_singleton.mp hr
                rcases hcases with hfound | ⟨-, rfl⟩
                · rw [hlacks] at hfound
                  cases hfound
                · exact repeats_iff.mpr hcompare
          | error e =>
              refine .undone e none (mt hsucceeds.mp fun hall => ?_)
              have hok : compareRow path row text = .ok () := by
                rcases hcases with hfound | ⟨hlacks, rfl⟩
                · obtain ⟨path', hok⟩ := hagree row hrow text hfound
                  exact compareRow_ok hok
                · exact repeats_iff.mp (hall.2 _ hrow hlacks)
              rw [hok] at hcompare
              cases hcompare
  | inserting rest hclash hrow =>
      cases hrest
      obtain ⟨text, htext, hid, -⟩ := mem_merge canonical hrow
      have htaken : (Connection.mk S.committed (S.procs !j).pending).visible.find?
          text.requestId ≠ none := by
        rw [hp, hcommitted]
        show (canonical.merge legacy.rows).find? _ ≠ none
        rw [Table.find?_of_mem htext]
        exact nofun
      rw [hid] at htaken
      have hserved := serve_insert_taken htaken
      refine Course.late hcommit hdone (by rw [served, hserved]; exact hcommitted) ?_
      rw [served, hserved]
      exact .undone _ _ fun h => (hsucceeds.mp h).1 hclash
  | undone e pending hnot =>
      cases hrest
      exact Course.late hcommit hdone hcommitted (.raised e (mt hsucceeds.mp hnot))
  | raised e hnot => cases hrest
  | returned hall => cases hrest

/-- **The run lemma.** -/
theorem course (hagree : ∀ row ∈ legacy.rows, Agrees canonical row)
    (h : Reach (init path legacy canonical) S) : Course path legacy canonical S := by
  induction h with
  | init =>
      refine .before rfl (by simp [init]) (fun i => .start ?_) ⟨true, rfl⟩
      intro requestId
      simp [init]
  | step _ hstep ih =>
      obtain ⟨i, hrest, hwait⟩ := hstep
      cases ih with
      | before hcommitted hnone hearly hfree =>
          exact Course.step_before hagree hcommitted hnone hearly hfree hrest hwait
      | after j hcommitted hcommit hdone hlate =>
          exact Course.step_after hagree hcommitted hcommit hdone hlate hrest

end Steps

/-! ## §8. When both succeed. -/

/-- Nothing but the transaction of the other keeps a process waiting. -/
theorem Step.of_pending {i : Bool} (hrest : ∀ r, (S.procs i).rest ≠ .ret r)
    (hfree : (S.procs !i).pending = none) : ∃ S', S.Step S' := by
  cases hop : (S.procs i).rest with
  | ret r => exact absurd hop (hrest r)
  | op op k => exact ⟨_, .run i hop fun _ _ => hfree⟩

/-- **No run gets stuck.** -/
theorem Course.progress (h : Course path legacy canonical S) (hnot : ¬ S.Complete) :
    ∃ S', S.Step S' := by
  cases h with
  | before hcommitted hnone hearly hfree =>
      obtain ⟨i, hi⟩ := hfree
      exact Step.of_pending (hearly !i).unfinished (by rw [Bool.not_not]; exact hi)
  | after j hcommitted hcommit hdone hlate =>
      have hrest : ∀ r, (S.procs !j).rest ≠ .ret r := by
        intro r hr
        refine hnot fun i => ?_
        by_cases hij : i = j
        · exact ⟨_, by rw [hij, hdone]⟩
        · exact ⟨r, by rw [Bool.eq_not_of_ne hij, hr]⟩
      exact Step.of_pending hrest (by rw [Bool.not_not, hdone])

/-- **Both starts succeed exactly when** no row the ledger lacks is looked up
by both before one has committed, and every such row can be read again.
Every run comes to its end. -/
theorem both_import_iff (path : String) (hagree : ∀ row ∈ legacy.rows, Agrees canonical row)
    (h : Reach (init path legacy canonical) S) :
    (S.Complete ∨ ∃ S', S.Step S') ∧
    S.log.length ≤ 4 * legacy.rows.length + 4 ∧
    (S.Complete →
      ((∀ i, S.Returned i) ∧ S.committed.rows = canonical.rows ++
          legacy.rows.filter (fun row => (canonical.find? row.requestId).isNone) ↔
        ¬ Clash canonical S.log ∧
        ∀ row ∈ legacy.rows, canonical.find? row.requestId = none → Repeats row)) := by
  have hcourse := course hagree h
  refine ⟨?_, ?_, fun hcomplete => ?_⟩
  · by_cases hcomplete : S.Complete
    · exact .inl hcomplete
    · exact .inr (hcourse.progress hcomplete)
  · obtain ⟨n, -, hle⟩ := length_log h
    omega
  · show _ ↔ Succeeds legacy canonical S.log
    cases hcourse with
    | before hcommitted hnone hearly hfree =>
        obtain ⟨r, hr⟩ := hcomplete true
        exact absurd hr ((hearly true).unfinished r)
    | after j hcommitted hcommit hdone hlate =>
        have hunion : S.committed.rows = canonical.rows ++
            legacy.rows.filter fun row => (canonical.find? row.requestId).isNone := by
          rw [hcommitted, Table.rows_merge legacy.rows legacy.primaryKey]
        have hboth : (∀ i, S.Returned i) ↔ S.Returned !j := by
          refine ⟨fun hall => hall _, fun hother i => ?_⟩
          by_cases hij : i = j
          · rw [hij, Returned, hdone]
          · rwa [Bool.eq_not_of_ne hij]
        rw [hboth, and_iff_left hunion, Returned]
        obtain ⟨r, hr⟩ := hcomplete !j
        generalize S.procs (!j) = p at hr hlate
        cases hlate with
        | start => cases hr
        | looking done rest => exact absurd hr (importLegacy_ne_ret rest r)
        | inserting => cases hr
        | undone => cases hr
        | raised e hnot => exact ⟨nofun, fun hall => absurd hall hnot⟩
        | returned hall => exact ⟨fun _ => hall, fun _ => rfl⟩

/-- A new ledger file. -/
def noRows : Table := ⟨[], List.nodup_nil⟩

theorem agrees_noRows (row : TextRow) : Agrees noRows row := nofun

/-- One starts after the other: both succeed. -/
theorem both_import_in_turn :
    ∃ S, Reach (init "operations.sqlite3" (oneRow "a" []) noRows) S ∧ S.Complete ∧
      (∀ i, S.Returned i) ∧ S.committed.rows = (oneRow "a" []).rows := by
  have hagain : compareRow "operations.sqlite3" ⟨"a", "digest", jsonDumps []⟩
      ⟨"a", "digest", jsonDumps []⟩ = .ok () :=
    repeats_iff.mp ⟨.obj [], decode_empty, nofun⟩
  have hnew : Reach (init "operations.sqlite3" (oneRow "a" []) noRows)
      (init "operations.sqlite3" (oneRow "a" []) noRows) := .init
  have hwon := (((hnew.step (.run true rfl nofun)).step (.run true rfl nofun)).step
    (.run true rfl fun _ _ => rfl)).step (.run true rfl nofun)
  obtain ⟨S, hlooked, hlog, htrue, hfalse⟩ :
      ∃ S, Reach (init "operations.sqlite3" (oneRow "a" []) noRows) S ∧
        S.log = [(true, .create), (true, .select "a"),
          (true, .insert ⟨"a", "digest", jsonDumps []⟩), (true, .commit),
          (false, .create), (false, .select "a")] ∧
        (S.procs true).rest = .ret (.ok (), ()) ∧
        (S.procs false).rest = importLegacy "operations.sqlite3" [] () := by
    refine ⟨_, (hwon.step (.run false rfl nofun)).step (.run false rfl nofun), rfl, rfl, ?_⟩
    show (match compareRow "operations.sqlite3" ⟨"a", "digest", jsonDumps []⟩
        ⟨"a", "digest", jsonDumps []⟩ with
      | .ok _ => importLegacy "operations.sqlite3" [] ()
      | .error e => undone e) = _
    rw [hagain]
  have hboth := hlooked.step (.run false (hfalse.trans (importLegacy_nil _)) nofun)
  have hcomplete : (S.after false .commit fun _ => .ret (.ok (), ())).Complete := by
    intro i
    cases i with
    | false => exact ⟨_, by rw [after_self]⟩
    | true => exact ⟨_, htrue⟩
  have hclash : ¬ Clash noRows (S.after false .commit fun _ => .ret (.ok (), ())).log := by
    show ¬ Clash noRows (S.log ++ [(false, .commit)])
    have hcommitted : (true, SqlOp.commit) ∈ S.log := by rw [hlog]; simp
    rw [clash_committed hcommitted, hlog]
    show ¬ Clash noRows ([(true, .create), (true, .select "a"),
      (true, .insert ⟨"a", "digest", jsonDumps []⟩), (true, .commit)] ++ [(false, .create)]
        ++ [(false, .select "a")])
    rw [clash_committed (j := true) (by simp), clash_committed (j := true) (by simp)]
    exact not_clash_alone (i := true) (by simp)
  have hrepeats : ∀ row ∈ (oneRow "a" []).rows, noRows.find? row.requestId = none → Repeats row := by
    intro row hrow _
    obtain rfl := List.mem_singleton.mp hrow
    exact ⟨.obj [], decode_empty, nofun⟩
  obtain ⟨hreturned, hunion⟩ := ((both_import_iff "operations.sqlite3"
    (fun row _ => agrees_noRows row) hboth).2.2 hcomplete).mpr ⟨hclash, hrepeats⟩
  exact ⟨_, hboth, hcomplete, hreturned, hunion⟩

/-- Both look the row up before either inserts it: one start fails. -/
theorem both_import_clash :
    ∃ S, Reach (init "operations.sqlite3" (oneRow "a" []) noRows) S ∧ S.Complete ∧
      (∀ row ∈ (oneRow "a" []).rows, Agrees noRows row ∧ Repeats row) ∧
      (S.procs false).rest = .ret (.error integrityError, ()) := by
  have hnew : Reach (init "operations.sqlite3" (oneRow "a" []) noRows)
      (init "operations.sqlite3" (oneRow "a" []) noRows) := .init
  have hstart := hnew.step (.run true rfl nofun)
  have hlooked := ((hstart.step (.run false rfl nofun)).step (.run true rfl nofun)).step
    (.run false rfl nofun)
  have hwon := (hlooked.step (.run true rfl fun _ _ => rfl)).step (.run true rfl nofun)
  have hlost := (hwon.step (.run false rfl fun _ _ => rfl)).step (.run false rfl nofun)
  refine ⟨_, hlost, ?_, ?_, rfl⟩
  · intro i
    cases i <;> exact ⟨_, rfl⟩
  · intro row hrow
    obtain rfl := List.mem_singleton.mp hrow
    exact ⟨agrees_noRows _, .obj [], decode_empty, nofun⟩

end Startup

end CodexRemoteBridge

/-
  CodexRemoteBridge.Raises — what a mutation call that raises has done.

  Five layers check a call before its row is inserted, and what they raise
  leaves the tool; everything raised after the insertion is turned into a
  receipt.  The boundary between the two is the insertion itself.

  Main results:
    • `ToolCall.ends_run` — a run either left no trace, or ends with what
      it saved last, with a cancellation, or with the failure of its last
      write;
    • `System.raise_without_effect` — the same of any call of any execution.
-/
import CodexRemoteBridge.System

namespace CodexRemoteBridge

open Interaction

/-! ## §1. The end of a run. -/

/-- The event changes nothing: neither the ledger, nor the filesystem, nor
anything at the server. -/
def harmless : Event WireAns → Bool
  | ⟨.base (.beginRow _ _ _), r⟩ =>
      match r with
      | .ok none => false
      | _ => true
  | ⟨.base op, _⟩ => op.isPreparatory
  | ⟨.net _, _⟩ => false

/-- How the last write to the ledger failed, if it did. -/
def unwrittenStep (m : Option Fault) (e : Event Ans) : Option Fault :=
  match e with
  | ⟨.update _ _, .error f⟩ => some f
  | ⟨.update _ _, .ok ()⟩ => none
  | _ => m

/-- The exception is that of the last write to the ledger, which failed. -/
def LedgerFailed (h : List (Event WireAns)) (e : PyExc) : Prop :=
  ∃ f, h.foldl (onBase unwrittenStep) none = some f ∧ e = f.raised

/-- The receipt a run has saved last. -/
def savedLast (h : List (Event WireAns)) : Option Dict := h.foldl (onBase durableStep) none

/-- How a run with an inserted row ends: with the receipt it saved last,
unless it was cancelled or that save failed. -/
def EndsSaved (r : Except PyExc Dict) (h : List (Event WireAns)) : Prop :=
  match r with
  | .ok receipt => savedLast h = some receipt
  | .error e => e = .cancelledError ∨ LedgerFailed h e

/-- A run has left no trace, or it ends as one with an inserted row does. -/
def EndsClean (r : Except PyExc Dict) (h : List (Event WireAns)) : Prop :=
  (∀ e ∈ h, harmless e = true) ∨ EndsSaved r h

theorem EndsSaved.release {r : Except PyExc Dict} {h : List (Event WireAns)} (hr : EndsSaved r h) :
    EndsSaved r (h ++ [⟨.base .release, ()⟩]) := by
  cases r with
  | ok receipt =>
      show savedLast _ = some receipt
      rw [savedLast, List.foldl_append]
      exact hr
  | error e =>
      rcases hr with hr | ⟨f, hf, he⟩
      · exact .inl hr
      · refine .inr ⟨f, ?_, he⟩
        rw [List.foldl_append, hf]
        rfl

theorem harmless_append {h : List (Event WireAns)} (hh : ∀ e ∈ h, harmless e = true)
    {e : Event WireAns} (he : harmless e = true) : ∀ x ∈ h ++ [e], harmless x = true := by
  intro x hx
  rcases List.mem_append.mp hx with hx | hx
  · exact hh x hx
  · obtain rfl := List.mem_singleton.mp hx
    exact he

theorem harmless_of_isPreparatory {op : Op} (hop : op.isPreparatory = true) (r : Ans op) :
    harmless ⟨.base op, r⟩ = true := by
  cases op with
  | beginRow key fp receipt => cases hop
  | _ => exact hop

section Run

variable [Hashlib] [Endpoint]

/-- The history of a run, with nothing asked of its operations. -/
abbrev FreeSpec : OpSpec WireAns (List (Event WireAns)) := history fun _ _ => True

omit [Hashlib] in
theorem free_through (op : Op) (h : List (Event WireAns)) :
    (FreeSpec.through wire) op (fun _ _ => True) h :=
  wp_of_stable (P := fun _ => True) (fun _ _ _ => trivial) (fun _ _ _ => trivial) _ trivial

omit [Hashlib] in
/-- The last save of a run. -/
theorem saves_free {requestId : String} {receipt : Dict} {Q : Dict → Except PyExc Dict}
    (hQ : ∀ w, Q w = .ok w ∨ Q w = .error .cancelledError) (h : List (Event WireAns)) :
    Saves (FreeSpec.through wire) requestId receipt (fun w h => EndsClean (Q w) h)
      (fun e h => EndsClean (.error e) h) h := by
  refine ⟨trivial, fun time => ⟨trivial, fun r => ?_⟩⟩
  show match r with
    | .ok _ => EndsClean (Q (stamped receipt time)) _
    | .error fault => EndsClean (.error fault.raised) _
  cases r with
  | error f =>
      refine .inr (.inr ⟨f, ?_, rfl⟩)
      rw [List.foldl_append]
      rfl
  | ok _ =>
      refine .inr ?_
      rcases hQ (stamped receipt time) with hw | hw
      · rw [hw]
        show savedLast _ = some (stamped receipt time)
        rw [savedLast, List.foldl_append]
        rfl
      · rw [hw]
        exact .inl rfl

/-- **A call leaves no trace, or it ends with what it saved last**, with a
cancellation, or with the failure of its last write. -/
theorem ToolCall.ends_run (t : ToolCall) (requestId : String) :
    Interaction.wp FreeSpec (t.wire requestId) (fun r h => EndsClean r.1 h) [] := by
  have hΦ : Indifferent (FreeSpec.through CodexRemoteBridge.wire)
      (fun h => ∀ e ∈ h, harmless e = true) := by
    refine ⟨(observe_mono _ _).through _, fun op h hop hh => ?_⟩
    show Interaction.wp FreeSpec (CodexRemoteBridge.wire op) _ h
    rw [wp_wire_base _ (by rintro method params rfl; cases hop) (by rintro rfl; cases hop)]
    exact ⟨trivial, fun r => harmless_append hh (harmless_of_isPreparatory hop r)⟩
  have hhosts : ∀ fresh : Dict, fresh.get? "requestId" = some (.str requestId) →
      HostsHead (FreeSpec.through CodexRemoteBridge.wire) fresh (fun _ => True)
        (fun _ _ => True) := by
    intro fresh hid
    refine HostsHead.mk hid ((observe_mono _ _).through _) ?_ ?_ ?_ ?_ ?_ ?_
    · exact fun op h _ _ => free_through op h
    · exact fun receipt h _ _ => free_through _ h
    · intro method params h _
      refine (observe_mono _ _).through _ _ (fun r _ _ => ?_) h (free_through _ h)
      cases r <;> trivial
    · intro h _
      refine (observe_mono _ _).through _ _ (fun r _ _ => ?_) h (free_through _ h)
      cases r <;> trivial
    · exact fun _ _ _ => trivial
    · exact fun _ _ _ _ => trivial
  unfold ToolCall.wire
  rw [Interaction.wp_handle]
  refine hΦ.wp_tool (P := EndsClean) t requestId nofun (fun _ _ hh => .inl hh) ?_ ?_
  · intro r h hr
    refine ⟨trivial, fun _ => ?_⟩
    rcases hr with hh | hr
    · exact .inl (harmless_append hh rfl)
    · exact .inr hr.release
  intro cwd fp startedAt h hfp hh
  refine ⟨trivial, fun r => ?_⟩
  rcases r with f | _ | row
  · exact harmless_append hh rfl
  · refine HostsHead.wp_attempt t cwd (hhosts _ rfl) rfl ⟨trivial, fun _ => trivial⟩ ?_ ?_
    · exact fun s h _ _ => saves_free (Q := .ok) (fun w => .inl rfl) h
    · intro e s h _ _
      refine saves_free (fun w => ?_) h
      cases e with
      | cancelledError => exact .inr rfl
      | _ => exact .inl rfl
  · exact harmless_append hh rfl

/-! ## §2. Every execution. -/

omit [Hashlib] [Endpoint] in
/-- A harmless event leaves the table as it was. -/
theorem Serves.of_harmless {s s' : Store} {op : WireOp} {r : WireAns op} (h : Serves s op r s')
    (he : harmless ⟨op, r⟩ = true) : s' = s := by
  cases h with
  | insert _ => cases he
  | update _ _ => cases he
  | _ => rfl

omit [Hashlib] [Endpoint] in
/-- A harmless event begins no effect. -/
theorem effect_of_harmless {e : Event WireAns} (he : harmless e = true) : e.1.effect = none := by
  obtain ⟨op | op, r⟩ := e
  · show op.effect = none
    cases op with
    | beginRow key fp receipt => rfl
    | _ => simp_all [harmless, Op.isPreparatory, Op.isLook, Op.effect]
  · cases he

omit [Hashlib] [Endpoint] in
/-- A harmless history has inserted nothing. -/
theorem fresh_of_harmless {h : List (Event WireAns)} (hh : ∀ e ∈ h, harmless e = true) :
    h.foldl (onBase inserted) none = none := by
  induction h using List.reverseRecOn with
  | nil => rfl
  | append_singleton h e ih =>
      rw [List.foldl_append, ih fun x hx => hh x (List.mem_append_left _ hx)]
      have he := hh e (by simp)
      obtain ⟨op | op, r⟩ := e
      · show inserted none ⟨op, r⟩ = none
        unfold inserted
        split
        · rename_i heq
          cases heq
          cases he
        · rfl
      · rfl

/-- A call that has ended with `r` changed nothing: no request went out, no
command ran, nothing was written. -/
structure Client.Unfelt (c : Client) : Prop where
  begun : c.begun = []
  frames : ∀ e ∈ c.history, ∀ op : NetOp, e.1 ≠ .net op
  table : ∀ e ∈ c.history, ∀ s s' : Store, Serves s e.1 e.2 s' → s' = s
  fresh : c.fresh = none

omit [Hashlib] [Endpoint] in
theorem Client.unfelt_of_harmless {c : Client} {r : Except PyExc Dict × Dict}
    (hend : c.rest = .ret r) (hh : ∀ e ∈ c.history, harmless e = true) : c.Unfelt where
  begun := by
    have hlabels : labels WireOp.effect c.history = [] := by
      refine List.filterMap_eq_nil_iff.mpr fun e he => ?_
      exact effect_of_harmless (hh e he)
    rw [Client.begun, hlabels, hend]
    rfl
  frames := by
    intro e he op hop
    obtain ⟨eop, r⟩ := e
    subst hop
    cases hh _ he
  table := fun e he s s' hs => hs.of_harmless (hh e he)
  fresh := fresh_of_harmless hh

/-- **A raised call has no effect.**  A call that has ended with an
exception, other than its cancellation or the failure of its last write, has
sent nothing, run nothing and written nothing, and a `request_id` that has
no row is free for the next call.  A call that has inserted its row ends
with the receipt the row holds, or in one of these two ways. -/
theorem System.raise_without_effect {store : Store} {S : System}
    (h : System.Reach (System.init store) S) {c : Client} (hc : c ∈ S.clients)
    {r : Except PyExc Dict} {s : Dict} (hend : c.rest = .ret (r, s)) :
    (∀ e, r = .error e → e ≠ .cancelledError → ¬ LedgerFailed c.history e →
      c.Unfelt ∧
      (S.store.find? c.requestId = none → ∀ fp receipt, ∃ store',
        Serves S.store (.base (.beginRow c.requestId fp receipt)) (.ok none) store' ∧
        (store'.find? c.requestId).map Row.stored = some (fp, receipt))) ∧
    (c.fresh.isSome = true →
      (∃ row, S.store.find? c.requestId = some row ∧ r = .ok row.receipt) ∨
      r = .error .cancelledError ∨ ∃ e, r = .error e ∧ LedgerFailed c.history e) := by
  have howned := Owned.of_reach h
  have hrun := howned.runs c hc
  rw [hend] at hrun
  have hclean := wp_run_ret (c.tool.ends_run c.requestId) hrun
  rw [foldl_remember, List.nil_append] at hclean
  constructor
  · intro e he hcancel hledger
    subst he
    refine ⟨?_, fun hnone fp receipt => ⟨_, .insert hnone, ?_⟩⟩
    · rcases hclean with hh | hsaved | hsaved
      · exact Client.unfelt_of_harmless hend hh
      · exact absurd hsaved hcancel
      · exact absurd hsaved hledger
    · rw [Store.find?_insertOrIgnore, if_pos ⟨hnone, rfl⟩]
      rfl
  · intro hfresh
    rcases hclean with hh | hsaved
    · rw [Client.fresh, fresh_of_harmless hh] at hfresh
      cases hfresh
    obtain ⟨row, hrow, hdurable, -⟩ := (howned.holds c hc hfresh).row
    cases r with
    | ok receipt =>
        refine .inl ⟨row, hrow, ?_⟩
        have heq : some receipt = some row.receipt := hsaved.symm.trans hdurable
        rw [Option.some.inj heq]
    | error e =>
        rcases hsaved with hsaved | hsaved
        · exact .inr (.inl (by rw [hsaved]))
        · exact .inr (.inr ⟨e, rfl, hsaved⟩)

end Run

/-- A retitling under an identifier that is taken. -/
theorem System.raise_without_effect_conflict :
    let _ := Hashlib.verbatim
    let _ := Endpoint.sample
    ∃ (S : System) (c : Client), System.Reach (System.init ⟨[⟨"r", "", []⟩], by simp⟩) S ∧
      c ∈ S.clients ∧ c.rest = .ret (.error Ledger.conflict, []) ∧ c.Unfelt := by
  intro _ _
  have h := (System.Reach.init : System.Reach (System.init ⟨[⟨"r", "", []⟩], by simp⟩) _)
    |>.step (.call 0 "r" (.setThreadTitle ⟨"t", "x"⟩))
    |>.answer 0 (.base .acquire) (.ok ()) rfl rfl rfl (.other _ (by simp) (by simp) (by simp))
        (.acquire rfl)
    |>.answer 0 (.base (.select "r")) (.ok (some ("", []))) rfl rfl rfl (.select "r")
        (.other _ (by simp) (by simp))
    |>.answer 0 (.base .release) () rfl rfl rfl (.other _ (by simp) (by simp) (by simp)) .release
  refine ⟨_, _, h, List.mem_singleton.mpr rfl, rfl, ?_⟩
  refine ((System.raise_without_effect h (List.mem_singleton.mpr rfl) rfl).1 Ledger.conflict rfl
    nofun ?_).1
  rintro ⟨f, hf, -⟩
  cases hf

end CodexRemoteBridge

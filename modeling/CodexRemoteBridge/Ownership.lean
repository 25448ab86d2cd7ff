/-
  CodexRemoteBridge.Ownership — a run writes its own row, and acts only
  after it has inserted it.

  §2 carries this down to the frames: a tool that has transmitted anything
  has inserted its row.
-/
import CodexRemoteBridge.Receipts
import CodexRemoteBridge.Wire

namespace CodexRemoteBridge

open Interaction

/-- Two receipts of one row: they may differ in their status only, as far as
the head goes. -/
def SameRow (fresh receipt : Dict) : Prop :=
  ∀ key ∈ headKeys, key ≠ "status" → receipt.get? key = fresh.get? key

theorem SameHead.sameRow {fresh receipt : Dict} (h : SameHead fresh receipt) :
    SameRow fresh receipt := fun key hkey _ => h key hkey

theorem SameRow.update {fresh receipt fields : Dict} (h : SameRow fresh receipt)
    (hkeys : ∀ key ∈ fields.keys, key ∉ headKeys ∨ key = "status") :
    SameRow fresh (receipt.update fields) := by
  intro key hkey hstatus
  rw [Dict.get?_update_of_notMem fields receipt fun hmem =>
    (hkeys key hmem).elim (fun h => h hkey) hstatus]
  exact h key hkey hstatus

/-! ## §1. The receipt a run has inserted. -/

/-- Follow a run for the row it inserts. -/
def inserted (fresh : Option Dict) (e : Event Ans) : Option Dict :=
  match e with
  | ⟨.beginRow _ _ receipt, .ok none⟩ => some receipt
  | _ => fresh

/-- The receipt of the row a run has inserted, as it was last saved. -/
def durableStep (durable : Option Dict) (e : Event Ans) : Option Dict :=
  match e with
  | ⟨.beginRow _ _ receipt, .ok none⟩ => some receipt
  | ⟨.update _ receipt, .ok ()⟩ => some receipt
  | _ => durable

/-- The receipt in the row a run has inserted. -/
def durable (h : History) : Option Dict := h.foldl durableStep none

theorem durable_append (h : History) (e : Event Ans) :
    durable (h ++ [e]) = durableStep (durable h) e := by
  rw [durable, List.foldl_append]
  rfl

/-- What a tool may do when it has inserted `fresh`, or nothing yet. -/
structure OwnOp [Hashlib] (t : ToolCall) (requestId : String) (fresh : Option Dict)
    (op : Op) : Prop where
  /-- Effects begin after the insertion. -/
  effect : op.effect.isSome = true → fresh.isSome = true
  /-- Only the inserted row is written. -/
  update : ∀ key receipt, op = .update key receipt →
    key = .str requestId ∧ ∃ receipt₀, fresh = some receipt₀ ∧ SameRow receipt₀ receipt
  /-- The row is inserted once, with the fingerprint of the request. -/
  row : ∀ key fp receipt, op = .beginRow key fp receipt →
    key = requestId ∧ fresh = none ∧ fingerprint requestId t.method t.params = .ok fp ∧
      ∃ startedAt, receipt = Ledger.freshReceipt requestId t.method startedAt

theorem inserted_of_effectless {fresh : Option Dict} {op : Op} {r : Ans op}
    (h : ∀ key fp receipt, op ≠ .beginRow key fp receipt) : inserted fresh ⟨op, r⟩ = fresh := by
  unfold inserted
  split
  · rename_i he
    cases he
    exact absurd rfl (h _ _ _)
  · rfl

section

variable [Hashlib] (t : ToolCall) (requestId : String)

/-- An operation that begins no effect and leaves the ledger alone. -/
theorem OwnOp.of_isPreparatory (fresh : Option Dict) {op : Op}
    (h : op.isPreparatory = true) : OwnOp t requestId fresh op := by
  have heffect : op.effect = none := by
    cases op <;> simp_all [Op.isPreparatory, Op.isLook, Op.effect]
  refine ⟨fun he => ?_, ?_, ?_⟩
  · rw [heffect] at he
    cases he
  all_goals
    intros
    subst op
    cases h

/-- After the insertion every effect is allowed. -/
theorem OwnOp.of_inserted {fresh : Dict} {op : Op}
    (h : ∀ key receipt, op ≠ .update key receipt)
    (h' : ∀ key fp receipt, op ≠ .beginRow key fp receipt) :
    OwnOp t requestId (some fresh) op :=
  ⟨fun _ => rfl, fun _ _ e => absurd e (h _ _), fun _ _ _ e => absurd e (h' _ _ _)⟩

/-- A receipt of the inserted row may be saved. -/
theorem OwnOp.of_sameRow {fresh receipt : Dict} (h : SameRow fresh receipt) :
    OwnOp t requestId (some fresh) (.update (.str requestId) receipt) :=
  ⟨fun _ => rfl, fun _ _ e => by cases e; exact ⟨rfl, fresh, rfl, h⟩,
    fun _ _ _ e => by cases e⟩

theorem hosts_inserted (fresh : Dict) (hid : fresh.get? "requestId" = some (.str requestId)) :
    HostsHead (observe inserted (OwnOp t requestId)) fresh
      (fun m => m = some fresh) (fun _ m => m = some fresh) := by
  refine HostsHead.mk hid (observe_mono _ _) ?_ ?_ ?_ ?_ (fun _ _ h => h) (fun _ _ _ h => h)
  · rintro op _ hop rfl
    have hins : ∀ r, inserted (some fresh) ⟨op, r⟩ = some fresh := by
      intro r
      refine inserted_of_effectless ?_
      rintro key fp receipt rfl
      cases hop
    refine ⟨?_, hins⟩
    cases op with
    | mkdir path => exact OwnOp.of_inserted t requestId (by simp) (by simp)
    | git cwd args => exact OwnOp.of_inserted t requestId (by simp) (by simp)
    | _ => exact OwnOp.of_isPreparatory t requestId _ (Op.isPreparatory_of_isLook hop)
  · rintro receipt _ hhead rfl
    exact ⟨OwnOp.of_sameRow t requestId hhead.sameRow, fun _ => rfl⟩
  · rintro method params _ rfl
    refine ⟨OwnOp.of_inserted t requestId (by simp) (by simp), fun r => ?_⟩
    cases r <;> rfl
  · rintro _ rfl
    refine ⟨OwnOp.of_inserted t requestId (by simp) (by simp), fun r => ?_⟩
    cases r <;> rfl

/-- **A run acts on its own row only, and only after inserting it.** -/
theorem ToolCall.owns :
    Interaction.wp (observe inserted (OwnOp t requestId)) (t.prog requestId)
      (fun _ _ => True) none := by
  have hignores : ∀ (m : Option Dict) op r, op.isPreparatory = true →
      inserted m ⟨op, r⟩ = m := by
    intro m op r h
    refine inserted_of_effectless ?_
    rintro key fp receipt rfl
    cases h
  have hΦ : Indifferent (observe inserted (OwnOp t requestId)) (fun m => m = none) := by
    refine ⟨observe_mono _ _, ?_⟩
    rintro op _ hop rfl
    exact ⟨OwnOp.of_isPreparatory t requestId none hop, fun r => hignores none op r hop⟩
  have hsave : ∀ (fresh receipt : Dict) (P : Ends (Option Dict)), SameRow fresh receipt →
      (∀ r m, P r m) → ∀ Q : Dict → Except PyExc Dict,
      Saves (observe inserted (OwnOp t requestId)) requestId receipt
        (fun w m => P (Q w) m) (fun e m => P (.error e) m) (some fresh) := by
    intro fresh receipt P hsame hP Q
    refine ⟨OwnOp.of_isPreparatory t requestId _ rfl, fun updatedAt => ?_⟩
    show observe inserted (OwnOp t requestId) _ _ (some fresh)
    refine ⟨OwnOp.of_sameRow t requestId ?_, fun r => ?_⟩
    · exact hsame.update (by simp [Dict.keys, headKeys])
    · cases r <;> exact hP _ _
  refine hΦ.wp_tool (P := fun _ _ => True) t requestId rfl (fun _ _ _ => trivial)
    (fun _ m _ => ⟨OwnOp.of_isPreparatory t requestId m rfl, fun _ => trivial⟩) ?_
  rintro cwd fp startedAt _ hfp rfl
  refine ⟨⟨fun he => (by cases he), fun _ _ e => (by cases e), ?_⟩, fun r => ?_⟩
  · intro _ _ _ e
    cases e
    exact ⟨rfl, rfl, hfp, startedAt, rfl⟩
  · rcases r with f | _ | row
    · rfl
    · refine HostsHead.wp_attempt (P := fun _ _ => True) t cwd (hosts_inserted t requestId _ rfl) rfl
        ⟨OwnOp.of_inserted t requestId (by simp) (by simp), fun _ => rfl⟩ ?_ ?_
      · rintro s _ hs rfl
        exact hsave _ _ _ (hs.sameRow.update (by simp [Dict.keys])) (fun _ _ => trivial) .ok
      · rintro e s _ hs rfl
        refine hsave _ _ _ (hs.sameRow.update ?_) (fun _ _ => trivial) (settled e)
        cases e <;> simp [outcome, Dict.keys, headKeys]
    · rfl

end

/-! ## §2. Down to the frames. -/

/-- Follow the operations of a tool call that are no part of a request. -/
def onBase {M : Type} (step : M → Event Ans → M) (m : M) (e : Event WireAns) : M :=
  match e with
  | ⟨.base op, r⟩ => step m ⟨op, r⟩
  | ⟨.net _, _⟩ => m

/-- `OwnOp` of a frame-level operation: a request is transmitted after the
insertion. -/
def OwnWireOp [Hashlib] (t : ToolCall) (requestId : String) (fresh : Option Dict) :
    WireOp → Prop
  | .base op => OwnOp t requestId fresh op
  | .net op => op.effect.isSome = true → fresh.isSome = true

theorem wp_ofNet {M α : Type} {step : M → Event Ans → M} {I : M → WireOp → Prop} {m : M}
    {c : Net α} {L : List Effect} (h : Transmits c L)
    (hI : ∀ op : NetOp, (op.effect = none ∨ L ≠ []) → I m (.net op)) :
    Interaction.wp (observe (onBase step) I) (ofNet c) (fun _ m' => m' = m) m := by
  have hn : Interaction.wp (observe (fun m _ => m) fun m op => I m (.net op)) (c ())
      (fun _ m' => m' = m) m := (h ()).wp hI fun _ _ => rfl
  unfold ofNet
  rw [Interaction.wp_bind]
  have himp : ∀ (op : NetOp) (Q : NetAns op → M → Prop) (m : M),
      observe (fun m _ => m) (fun m op => I m (.net op)) op Q m →
      Interaction.wp (observe (onBase step) I)
        (.op (.net op) .ret : Prog WireOp WireAns (NetAns op)) Q m := fun _ _ _ h => h
  exact wp_handle_of (observe_mono _ _) _ himp _ hn

variable [Hashlib] [Endpoint] (t : ToolCall) (requestId : String)

/-- **Nothing is transmitted before the insertion**, and the row stays the
run's own, frame by frame. -/
theorem ToolCall.owns_wire :
    Interaction.wp (observe (onBase inserted) (OwnWireOp t requestId)) (t.wire requestId)
      (fun _ _ => True) none := by
  refine wp_handle_of (observe_mono _ _) _ ?_ _ (t.owns requestId)
  intro op Q m h
  have hrpc : ∀ {α : Type} {c : Net α} {L : List Effect} {Q : Except PyExc α → Option Dict → Prop},
      Transmits c L → (L ≠ [] → m.isSome = true) → (∀ r, Q r m) →
      Interaction.wp (observe (onBase inserted) (OwnWireOp t requestId)) (ofNet c) Q m := by
    intro α c L Q hc hL hQ
    refine Interaction.wp_mono (observe_mono _ _) _ ?_ m (wp_ofNet hc fun op hop he => ?_)
    · rintro r m' rfl
      exact hQ r
    · rcases hop with hop | hop
      · rw [hop] at he
        cases he
      · exact hL hop
  cases op with
  | call method params =>
      refine hrpc (AppServer.transmits_call method params) (fun hne => ?_) h.2
      refine h.1.effect ?_
      show (requestEffect method).isSome = true
      cases he : requestEffect method with
      | none => simp [he] at hne
      | some e => rfl
  | close => exact hrpc AppServer.transmits_close (fun hne => absurd rfl hne) h.2
  | _ => exact h

end CodexRemoteBridge

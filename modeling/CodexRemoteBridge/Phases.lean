/-
  CodexRemoteBridge.Phases — what the receipt of a worktree launch tells
  after a crash.

  A launch records each phase before the effect of that phase.  Wherever it
  stops, the phase in its row brackets the effects: those of earlier phases
  have completed, those of later phases have not begun.

  Main result: `CreateWorktreeThread.crash_consistent`.
-/
import CodexRemoteBridge.Ownership
import CodexRemoteBridge.Withholding
import Mathlib.Data.Fintype.Defs

namespace CodexRemoteBridge

open Interaction

/-! ## §1. What a receipt tells. -/

/-- The effects of a worktree launch. -/
inductive LaunchEffect where
  | mkdir
  | worktreeAdd
  | checkout
  | threadStart
  | threadName
  | turnStart
  deriving DecidableEq

namespace LaunchEffect

instance : Fintype LaunchEffect where
  elems := ⟨([mkdir, worktreeAdd, checkout, threadStart, threadName, turnStart] :
    List LaunchEffect), by decide⟩
  complete := by
    intro e
    cases e <;> decide

/-- What the effect consists of. -/
def parts : LaunchEffect → List Effect
  | .mkdir => [.mkdir]
  | .worktreeAdd => [.worktreeAdd]
  | .checkout => [.readTree, .checkoutIndex]
  | .threadStart => [.request "thread/start"]
  | .threadName => [.request "thread/name/set"]
  | .turnStart => [.request "turn/start"]

/-- The phase in which the effect takes place. -/
def phase : LaunchEffect → String
  | .mkdir => "reserving_destination"
  | .worktreeAdd => "creating_worktree"
  | .checkout => "checking_out_worktree"
  | .threadStart => "creating_thread"
  | .threadName => "naming_thread"
  | .turnStart => "dispatching_initial_prompt"

/-- The state of the worktree that claims the effect. -/
def worktreeState : LaunchEffect → Option String
  | .mkdir => some "reserved"
  | .worktreeAdd => some "registered"
  | .checkout => some "created"
  | _ => none

/-- Whether the arguments ask for the effect. -/
def Requested (a : CreateWorktreeThread) : LaunchEffect → Prop
  | .threadName => a.title.isSome = true
  | .turnStart => a.prompt.isSome = true
  | _ => True

end LaunchEffect

/-- The phases of a launch, in order. -/
def launchPhases : List String :=
  ["validating", "reserving_destination", "creating_worktree", "checking_out_worktree",
   "checking_worktree", "worktree_checked", "creating_thread", "checking_environment",
   "naming_thread", "thread_named", "checking_before_dispatch", "dispatching_initial_prompt",
   "initial_prompt_accepted", "complete"]

/-- The effect is ordered before the phase. -/
abbrev LaunchEffect.Precedes (e : LaunchEffect) (phase : String) : Prop :=
  launchPhases.idxOf e.phase < launchPhases.idxOf phase

/-- The effect is ordered after the phase. -/
abbrev LaunchEffect.Follows (e : LaunchEffect) (phase : String) : Prop :=
  launchPhases.idxOf phase < launchPhases.idxOf e.phase

/-- The operation was answered with success. -/
def Succeeded : Event Ans → Prop
  | ⟨.mkdir _, r⟩ => r = .ok ()
  | ⟨.git _ _, r⟩ => ∃ exited : Exited, r = .ok exited ∧ exited.returncode = 0
  | ⟨.call _ _, r⟩ => ∃ reply, r = .ok reply
  | _ => False

/-- A part of an effect was performed with success. -/
def Done (h : History) (part : Effect) : Prop :=
  ∃ x ∈ h, x.1.effect = some part ∧ Succeeded x

/-- All of the effect has been performed. -/
def LaunchEffect.Completed (h : History) (e : LaunchEffect) : Prop := ∀ part ∈ e.parts, Done h part

/-- Some of the effect has been performed, or is what the run stands at. -/
def LaunchEffect.Begun (h : History) (next : Option Op) (e : LaunchEffect) : Prop :=
  ∃ part ∈ e.parts, part ∈ labels Op.effect h ∨ next.bind Op.effect = some part

/-- `receipt[outer][inner]`, where there is one. -/
def nested (outer inner : String) (receipt : Dict) : Option Json :=
  match receipt.get? outer with
  | some (.obj fields) => Dict.get? fields inner
  | _ => none

/-- What a receipt of a launch says about its effects is true. -/
structure Tells (a : CreateWorktreeThread) (h : History) (next : Option Op) (receipt : Dict) :
    Prop where
  phase : ∀ value, receipt.get? "phase" = some value → ∃ phase ∈ launchPhases,
    value = .str phase ∧
    (∀ e : LaunchEffect, e.Requested a → e.Precedes phase → e.Completed h) ∧
    (∀ e : LaunchEffect, e.Follows phase → ¬ e.Begun h next)
  unphased : receipt.get? "phase" = none → ∀ e : LaunchEffect, ¬ e.Begun h next
  state : ∀ (e : LaunchEffect) name, e.worktreeState = some name →
    nested "worktree" "state" receipt = some (.str name) → e.Completed h
  notSent : nested "initialPrompt" "state" receipt = some (.str "not_sent") →
    ¬ LaunchEffect.turnStart.Begun h next
  accepted : nested "initialPrompt" "state" receipt = some (.str "accepted") →
    LaunchEffect.turnStart.Completed h
  recovery : receipt.get? "recoveryRequired" = some (.bool false) →
    ∀ e : LaunchEffect, e.Requested a → e.Completed h

/-- What the row of a launch says is true, and without a row nothing has
begun. -/
def CrashSafe (a : CreateWorktreeThread) (h : History) (next : Option Op) : Prop :=
  match durable h with
  | none => ∀ e : LaunchEffect, ¬ e.Begun h next
  | some receipt => Tells a h next receipt

/-- A save commits, if the process survives it. -/
def commits : Event Ans → Bool
  | ⟨.update _ _, .error _⟩ => false
  | _ => true

/-! ## §2. Progress. -/

/-- The place of an effect in the order of the code. -/
def LaunchEffect.index : LaunchEffect → Nat
  | .mkdir => 0
  | .worktreeAdd => 1
  | .checkout => 2
  | .threadStart => 3
  | .threadName => 4
  | .turnStart => 5

/-- The requested effects below `c` have completed; those from `b` on have
not begun. -/
structure Progress (a : CreateWorktreeThread) (c b : Nat) (h : History) (next : Option Op) :
    Prop where
  completed : ∀ e : LaunchEffect, e.Requested a → e.index < c → e.Completed h
  unbegun : ∀ e : LaunchEffect, b ≤ e.index → ¬ e.Begun h next

/-- The fields of a receipt that speak about effects. -/
structure View where
  phase : Option Json
  state : Option Json
  prompt : Option Json
  recovery : Option Json

def view (receipt : Dict) : View :=
  ⟨receipt.get? "phase", nested "worktree" "state" receipt,
    nested "initialPrompt" "state" receipt, receipt.get? "recoveryRequired"⟩

/-- A phase that fits the progress made. -/
abbrev PhaseSuits (phase : String) (c b : Nat) : Prop :=
  phase ∈ launchPhases ∧
    ∀ e : LaunchEffect, (e.Precedes phase → e.index < c) ∧ (e.Follows phase → b ≤ e.index)

/-- What a receipt may say when the progress is `c` and `b`. -/
structure Suits (a : CreateWorktreeThread) (c b : Nat) (v : View) : Prop where
  phase : ∀ value, v.phase = some value → ∃ phase, value = .str phase ∧ PhaseSuits phase c b
  unphased : v.phase = none → b = 0
  state : ∀ (e : LaunchEffect) name, e.worktreeState = some name →
    v.state = some (.str name) → e.index < c
  notSent : v.prompt = some (.str "not_sent") → b ≤ 5
  accepted : v.prompt = some (.str "accepted") → 5 < c ∧ a.prompt.isSome = true
  recovery : v.recovery = some (.bool false) → 6 ≤ c

section Progress

variable {a : CreateWorktreeThread} {c b : Nat} {h : History} {next : Option Op}

theorem Done.mono {h' : History} {part : Effect} (hd : Done h part) (hsub : h ⊆ h') :
    Done h' part := by
  obtain ⟨x, hx, hpart⟩ := hd
  exact ⟨x, hsub hx, hpart⟩

theorem LaunchEffect.index_lt (e : LaunchEffect) : e.index < 6 := by cases e <;> decide

/-- A receipt that suits the progress tells the truth. -/
theorem Suits.tells {receipt : Dict} (hs : Suits a c b (view receipt))
    (hp : Progress a c b h next) : Tells a h next receipt where
  phase := by
    intro value hvalue
    obtain ⟨phase, rfl, hmem, horder⟩ := hs.phase value hvalue
    refine ⟨phase, hmem, rfl, fun e he hlt => ?_, fun e hlt => ?_⟩
    · exact hp.completed e he ((horder e).1 hlt)
    · exact hp.unbegun e ((horder e).2 hlt)
  unphased := by
    intro hnone e
    have hb : b = 0 := hs.unphased hnone
    exact hp.unbegun e (by omega)
  state := by
    intro e name hname hstate
    have hrequested : e.Requested a := by cases e <;> trivial
    exact hp.completed e hrequested (hs.state e name hname hstate)
  notSent := fun hsent => hp.unbegun .turnStart (hs.notSent hsent)
  accepted := by
    intro haccepted
    obtain ⟨hlt, hprompt⟩ := hs.accepted haccepted
    exact hp.completed .turnStart hprompt hlt
  recovery := by
    intro hrecovery e he
    have hall : 6 ≤ c := hs.recovery hrecovery
    exact hp.completed e he (Nat.lt_of_lt_of_le e.index_lt hall)

/-- Progress with more effects completed. -/
theorem Suits.mono {c' : Nat} {v : View} (hs : Suits a c b v) (hc : c ≤ c') : Suits a c' b v where
  phase := by
    intro value hvalue
    obtain ⟨phase, hphase, hmem, horder⟩ := hs.phase value hvalue
    exact ⟨phase, hphase, hmem, fun e =>
      ⟨fun hlt => Nat.lt_of_lt_of_le ((horder e).1 hlt) hc, (horder e).2⟩⟩
  unphased := hs.unphased
  state := fun e name hname hstate => Nat.lt_of_lt_of_le (hs.state e name hname hstate) hc
  notSent := hs.notSent
  accepted := fun haccepted =>
    ⟨Nat.lt_of_lt_of_le (hs.accepted haccepted).1 hc, (hs.accepted haccepted).2⟩
  recovery := fun hrecovery => Nat.le_trans (hs.recovery hrecovery) hc

/-- Recording another phase. -/
theorem Suits.setPhase {v : View} (hs : Suits a c b v) {phase : String}
    (hphase : PhaseSuits phase c b) : Suits a c b { v with phase := some (.str phase) } where
  phase := by
    intro value hvalue
    obtain rfl := Option.some.inj hvalue
    exact ⟨phase, rfl, hphase⟩
  unphased := nofun
  state := hs.state
  notSent := hs.notSent
  accepted := hs.accepted
  recovery := hs.recovery

/-- Recording the state of the worktree. -/
theorem Suits.setState {v : View} (hs : Suits a c b v) {name : String}
    (hname : ∀ e : LaunchEffect, e.worktreeState = some name → e.index < c) :
    Suits a c b { v with state := some (.str name) } where
  phase := hs.phase
  unphased := hs.unphased
  state := by
    intro e name' hname' hstate
    obtain rfl : name = name' := Json.str.inj (Option.some.inj hstate)
    exact hname e hname'
  notSent := hs.notSent
  accepted := hs.accepted
  recovery := hs.recovery

/-- An operation other than the effects from `b` on leaves them unbegun. -/
theorem Progress.stand {op : Op} (hp : Progress a c b h none)
    (hop : ∀ e : LaunchEffect, b ≤ e.index → ∀ part ∈ e.parts, op.effect ≠ some part) :
    Progress a c b h (some op) := by
  refine ⟨hp.completed, ?_⟩
  rintro e he ⟨part, hpart, hmem | hmem⟩
  · exact hp.unbegun e he ⟨part, hpart, .inl hmem⟩
  · exact hop e he part hpart hmem

theorem Progress.append {op : Op} (hp : Progress a c b h none)
    (hop : ∀ e : LaunchEffect, b ≤ e.index → ∀ part ∈ e.parts, op.effect ≠ some part)
    (r : Ans op) : Progress a c b (h ++ [⟨op, r⟩]) none := by
  refine ⟨fun e he hlt part hpart => ?_, ?_⟩
  · exact (hp.completed e he hlt part hpart).mono (List.subset_append_left _ _)
  · rintro e he ⟨part, hpart, hmem | hmem⟩
    · rw [labels_append] at hmem
      rcases List.mem_append.mp hmem with hmem | hmem
      · exact hp.unbegun e he ⟨part, hpart, .inl hmem⟩
      · obtain ⟨x, hx, hlabel⟩ := List.mem_filterMap.mp hmem
        obtain rfl := List.mem_singleton.mp hx
        exact hop e he part hpart hlabel
    · cases hmem

theorem Progress.mono {b' : Nat} (hp : Progress a c b h next) (hb : b ≤ b') :
    Progress a c b' h next :=
  ⟨hp.completed, fun e he => hp.unbegun e (Nat.le_trans hb he)⟩

/-- The next effect has completed, or was not asked for. -/
theorem Progress.succ (hp : Progress a c b h next)
    (hnext : ∀ e : LaunchEffect, e.index = c → e.Requested a → e.Completed h) :
    Progress a (c + 1) b h next := by
  refine ⟨fun e he hlt => ?_, hp.unbegun⟩
  by_cases heq : e.index = c
  · exact hnext e heq he
  · exact hp.completed e he (by omega)

end Progress

/-! ## §3. Steps. -/

/-- The history semantics of the runs whose saves commit. -/
abbrev CrashSpec (a : CreateWorktreeThread) : OpSpec Ans History :=
  observeOn (fun _ x => commits x = true) remember fun h op => CrashSafe a h (some op)

/-- The progress of a launch, with what its receipt and its row say. -/
structure At (a : CreateWorktreeThread) (v w : View) (c b : Nat) (s : Dict) (h : History) :
    Prop where
  progress : Progress a c b h none
  memory : view s = v
  memorySuits : Suits a c b v
  row : ∃ receipt, durable h = some receipt ∧ view receipt = w
  rowSuits : Suits a c b w

/-- Some progress, told truly. -/
def Safe (a : CreateWorktreeThread) (s : Dict) (h : History) : Prop :=
  ∃ v w c b, At a v w c b s h

/-- Coroutines of a launch that end in `Q`, or raise somewhere safe. -/
abbrev Steps {α : Type} (a : CreateWorktreeThread) (c : Act α) (Q : α → Dict → History → Prop)
    (s : Dict) (h : History) : Prop :=
  Co.wp (CrashSpec a) c Q (fun _ s h => Safe a s h) s h

/-- An operation that is no part of an effect and writes no row. -/
structure Aside (op : Op) : Prop where
  effect : ∀ e : LaunchEffect, ∀ part ∈ e.parts, op.effect ≠ some part
  row : ∀ (r : Ans op) d, durableStep d ⟨op, r⟩ = d

theorem aside_of_effectless {op : Op} (heffect : op.effect = none)
    (hrow : ∀ (r : Ans op) d, durableStep d ⟨op, r⟩ = d) : Aside op :=
  ⟨fun _ _ _ => by rw [heffect]; exact nofun, hrow⟩

theorem aside_of_isLook {op : Op} (hop : op.isLook = true) : Aside op := by
  refine aside_of_effectless (Op.effect_of_isLook hop) fun r d => ?_
  cases op with
  | beginRow key fp receipt => cases hop
  | update key receipt => cases hop
  | _ => rfl

section Steps

variable {a : CreateWorktreeThread} {v w : View} {c b : Nat} {s : Dict} {h : History}
variable {α β : Type}

theorem steps_bind {x : Act α} {f : α → Act β} {P : α → Dict → History → Prop}
    {Q : β → Dict → History → Prop} (hx : Steps a x P s h)
    (hf : ∀ r s' h', P r s' h' → Steps a (f r) Q s' h') : Steps a (x >>= f) Q s h := by
  show Co.wp _ _ _ _ _ _
  rw [Co.wp_bind]
  exact Co.wp_conseq (observeOn_mono _ _ _) hx hf fun _ _ _ hX => hX

theorem steps_ofExcept_bind {r : Except PyExc α} {f : α → Act β}
    {Q : β → Dict → History → Prop} (hs : At a v w c b s h)
    (hf : ∀ x, r = .ok x → Steps a (f x) Q s h) : Steps a (Act.ofExcept r >>= f) Q s h := by
  cases r with
  | error e => exact ⟨v, w, c, b, hs⟩
  | ok x => exact hf x rfl

/-- The row tells the truth, whatever the run stands at next. -/
theorem At.crashSafe {next : Option Op} (hs : At a v w c b s h)
    (hnext : Progress a c b h next) : CrashSafe a h next := by
  obtain ⟨receipt, hrow, rfl⟩ := hs.row
  unfold CrashSafe
  rw [hrow]
  exact hs.rowSuits.tells hnext

theorem At.append (hs : At a v w c b s h) {op : Op}
    (hop : ∀ e : LaunchEffect, b ≤ e.index → ∀ part ∈ e.parts, op.effect ≠ some part)
    (hrow : ∀ (r : Ans op) d, durableStep d ⟨op, r⟩ = d) (r : Ans op) :
    At a v w c b s (h ++ [⟨op, r⟩]) := by
  refine ⟨hs.progress.append hop r, hs.memory, hs.memorySuits, ?_, hs.rowSuits⟩
  rw [durable_append, hrow]
  exact hs.row

theorem At.aside (hs : At a v w c b s h) {op : Op} (hop : Aside op) :
    CrashSafe a h (some op) ∧ ∀ r : Ans op, At a v w c b s (h ++ [⟨op, r⟩]) :=
  ⟨hs.crashSafe (hs.progress.stand fun e _ => hop.effect e),
    hs.append (fun e _ => hop.effect e) hop.row⟩

/-- The next effect is behind the launch. -/
theorem At.complete (hs : At a v w c b s h)
    (hnext : ∀ e : LaunchEffect, e.index = c → e.Requested a → e.Completed h) :
    At a v w (c + 1) b s h :=
  ⟨hs.progress.succ hnext, hs.memory, hs.memorySuits.mono (Nat.le_succ c), hs.row,
    hs.rowSuits.mono (Nat.le_succ c)⟩

theorem steps_looks {x : Act α} (hx : Looks x) (hs : At a v w c b s h) :
    Steps a x (fun _ s' h' => At a v w c b s' h') s h := by
  have hkeeps : x.Keeps (CrashSpec a) (fun s h => At a v w c b s h) fun _ s h => Safe a s h :=
    hx.keeps (observeOn_mono _ _ _)
      (fun op s h hop hs => ⟨(hs.aside (aside_of_isLook hop)).1,
        fun r _ => (hs.aside (aside_of_isLook hop)).2 r⟩)
      fun _ _ _ hs => ⟨v, w, c, b, hs⟩
  exact hkeeps s h hs

/-- A request that is no effect of the launch. -/
theorem steps_call_ {method : String} (params : Dict) (hop : Aside (.call method params))
    (hs : At a v w c b s h) :
    Steps a (do let _ ← Act.call method params; pure ()) (fun _ s' h' => At a v w c b s' h')
      s h := by
  refine steps_bind (P := fun _ s' h' => At a v w c b s' h') ?_ fun _ _ _ hs => hs
  show Co.wp _ _ _ _ _ _
  unfold Act.call
  rw [Act.wp_perform]
  refine ⟨(hs.aside hop).1, fun r _ => ?_⟩
  have hs' := (hs.aside hop).2 r
  cases r with
  | error e => exact ⟨v, w, c, b, hs'⟩
  | ok reply => exact hs'

/-! ### The receipt and the row. -/

/-- The fields that `view` reads. -/
def viewKeys : List String := ["phase", "worktree", "initialPrompt", "recoveryRequired"]

theorem view_update {fields : Dict} (hkeys : ∀ key ∈ fields.keys, key ∉ viewKeys) (s : Dict) :
    view (s.update fields) = view s := by
  have hget : ∀ key ∈ viewKeys, (s.update fields).get? key = s.get? key := fun key hkey =>
    Dict.get?_update_of_notMem fields s fun hmem => hkeys key hmem hkey
  unfold view nested
  rw [hget "phase" (by decide), hget "worktree" (by decide), hget "initialPrompt" (by decide),
    hget "recoveryRequired" (by decide)]

theorem view_stamped (receipt : Dict) (updatedAt : String) :
    view (stamped receipt updatedAt) = view receipt :=
  view_update (by simp [Dict.keys, viewKeys]) receipt

/-- Once a save has returned, the row says what the saved receipt says. -/
theorem steps_save (receipt : Dict) (hs : At a v w c b s h)
    (hsuits : Suits a c b (view receipt)) :
    Steps a (Ledger.save receipt) (fun _ s' h' => At a v (view receipt) c b s' h') s h := by
  show Co.wp _ _ _ _ _ _
  unfold Ledger.save Act.now
  rw [Co.wp_bind, Act.wp_perform]
  have hnow : Aside .now := aside_of_isLook rfl
  refine ⟨(hs.aside hnow).1, fun time _ => ?_⟩
  have hs := (hs.aside hnow).2 time
  show Co.wp (CrashSpec a) (do
    let key ← Act.ofExcept (Json.index "requestId" (.obj (stamped receipt time)))
    Act.perform (.update key (stamped receipt time)) lift
    pure (stamped receipt time)) _ _ _ _
  rw [Co.wp_bind, Co.wp_ofExcept]
  generalize Json.index "requestId" _ = key
  cases key with
  | error e => exact ⟨v, w, c, b, hs⟩
  | ok key =>
      dsimp only
      rw [Co.wp_bind, Act.wp_perform]
      have hop : ∀ e : LaunchEffect, b ≤ e.index → ∀ part ∈ e.parts,
          (Op.update key (stamped receipt time)).effect ≠ some part := fun _ _ _ _ => nofun
      refine ⟨hs.crashSafe (hs.progress.stand hop), fun r hr => ?_⟩
      cases r with
      | error fault => cases hr
      | ok _ =>
          exact ⟨hs.progress.append hop (.ok ()), hs.memory, hs.memorySuits,
            ⟨stamped receipt time, by rw [remember, durable_append]; rfl, view_stamped _ _⟩, hsuits⟩

theorem steps_saveReceipt (hs : At a v w c b s h) :
    Steps a saveReceipt (fun _ s' h' => At a v v c b s' h') s h := by
  show Co.wp _ _ _ _ _ _
  unfold saveReceipt
  rw [Co.wp_bind, Co.wp_get]
  have hsave := steps_save s hs (hs.memory ▸ hs.memorySuits)
  rwa [hs.memory] at hsave

/-- The receipt says something else. -/
theorem At.update {s' : Dict} {v' : View} (hs : At a v w c b s h) (hview : view s' = v')
    (hsuits : Suits a c b v') : At a v' w c b s' h :=
  ⟨hs.progress, hview, hsuits, hs.row, hs.rowSuits⟩

/-- A checkpoint that changes more than the phase. -/
theorem steps_checkpoint {phase : String} {fields : Dict} (v' : View)
    (hs : At a v w c b s h) (hview : view (s.update (("phase", .str phase) :: fields)) = v')
    (hsuits : Suits a c b v') :
    Steps a (checkpoint phase fields) (fun _ s' h' => At a v' v' c b s' h') s h := by
  unfold checkpoint
  refine steps_bind (P := fun _ s' h' => At a v' w c b s' h') (hs.update hview hsuits)
    fun _ s h hs => ?_
  exact steps_bind (steps_saveReceipt hs) fun _ _ _ hs => hs

/-- A checkpoint whose other fields say nothing about effects. -/
theorem steps_phase {phase : String} {fields : Dict} (hs : At a v w c b s h)
    (hphase : PhaseSuits phase c b) (hkeys : ∀ key ∈ fields.keys, key ∉ viewKeys) :
    Steps a (checkpoint phase fields) (fun _ s' h' =>
      At a { v with phase := some (.str phase) } { v with phase := some (.str phase) }
        c b s' h') s h := by
  refine steps_checkpoint _ hs ?_ (hs.memorySuits.setPhase hphase)
  rw [Dict.update_cons, view_update hkeys, ← hs.memory]
  simp [view, nested, Dict.get?_set]

/-- The worktree's entry in the receipt changes. -/
theorem steps_updateWorktree {fields : Dict} {v' : View} (hs : At a v w c b s h)
    (hview : ∀ worktree, s.get? "worktree" = some (.obj worktree) →
      v' = { v with state := (Dict.update worktree fields).get? "state" })
    (hsuits : Suits a c b v') :
    Steps a (updateWorktree fields) (fun _ s' h' => At a v' w c b s' h') s h := by
  show Co.wp _ _ _ _ _ _
  unfold updateWorktree
  rw [Co.wp_bind, Co.wp_get]
  split
  · rename_i worktree hworktree
    refine hs.update ?_ hsuits
    rw [hview worktree hworktree, ← hs.memory]
    simp [view, nested, Dict.get?_set]
  · exact ⟨v, w, c, b, hs⟩
  · exact ⟨v, w, c, b, hs⟩

theorem steps_setState {name : String} (hs : At a v w c b s h)
    (hname : ∀ e : LaunchEffect, e.worktreeState = some name → e.index < c) :
    Steps a (updateWorktree [("state", .str name)]) (fun _ s' h' =>
      At a { v with state := some (.str name) } w c b s' h') s h :=
  steps_updateWorktree hs (fun _ _ => by simp) (hs.memorySuits.setState hname)

theorem steps_keepState {fields : Dict} (hs : At a v w c b s h)
    (hkeys : "state" ∉ fields.keys) :
    Steps a (updateWorktree fields) (fun _ s' h' => At a v w c b s' h') s h := by
  refine steps_updateWorktree hs (fun worktree hworktree => ?_) hs.memorySuits
  have hstate : v.state = Dict.get? worktree "state" := by
    rw [← hs.memory]
    simp [view, nested, hworktree]
  rw [Dict.get?_update_of_notMem fields worktree hkeys, ← hstate]

/-! ### Effects. -/

/-- No two effects share a part. -/
theorem LaunchEffect.eq_of_parts {e e' : LaunchEffect} {part : Effect} (he : part ∈ e.parts)
    (he' : part ∈ e'.parts) : e = e' := by
  cases e <;> cases e' <;> simp_all [LaunchEffect.parts]

/-- The launch is in the phase of an effect, and performs a part of it. -/
theorem steps_effect (e : LaunchEffect) (op : Op) (hs : At a v v e.index b s h)
    (hb : b ≤ e.index + 1) (hv : Suits a e.index (e.index + 1) v) {part : Effect} (hpart : part ∈ e.parts)
    (hop : op.effect = some part) (hrow : ∀ (r : Ans op) d, durableStep d ⟨op, r⟩ = d)
    (read : Ans op → Except PyExc α) :
    Steps a (Act.perform op read) (fun x s' h' => ∃ r, read r = .ok x ∧
      h' = h ++ [⟨op, r⟩] ∧ At a v v e.index (e.index + 1) s' h') s h := by
  have hs' : At a v v e.index (e.index + 1) s h :=
    ⟨hs.progress.mono hb, hs.memory, hv, hs.row, hv⟩
  have hother : ∀ e' : LaunchEffect, e.index + 1 ≤ e'.index → ∀ part ∈ e'.parts,
      op.effect ≠ some part := by
    intro e' he' part' hpart' heffect
    rw [hop] at heffect
    obtain rfl := Option.some.inj heffect
    obtain rfl := LaunchEffect.eq_of_parts hpart hpart'
    omega
  show Co.wp _ _ _ _ _ _
  rw [Act.wp_perform]
  refine ⟨hs'.crashSafe (hs'.progress.stand hother), fun r _ => ?_⟩
  have hafter := hs'.append hother hrow r
  dsimp only [remember]
  split
  · rename_i x hx
    exact ⟨r, hx, rfl, hafter⟩
  · exact ⟨v, v, _, _, hafter⟩

/-- A `git` command that is a part of an effect. -/
theorem steps_git (e : LaunchEffect) (hs : At a v v e.index b s h) (hb : b ≤ e.index + 1)
    (hv : Suits a e.index (e.index + 1) v) {cwd : PyPath} {args : List String} {part : Effect}
    (hpart : part ∈ e.parts) (hop : gitEffect args = some part) :
    Steps a (git cwd args) (fun _ s' h' => h ⊆ h' ∧ Done h' part ∧
      At a v v e.index (e.index + 1) s' h') s h := by
  unfold git
  refine steps_bind (steps_effect e (.git cwd args) hs hb hv  hpart hop
    (fun _ _ => rfl) lift) ?_
  rintro exited s' h' ⟨r, hr, rfl, hs'⟩
  have hheld : Safe a s' (h ++ [⟨.git cwd args, r⟩]) := ⟨v, v, _, _, hs'⟩
  cases r with
  | error f => cases hr
  | ok exited' =>
      obtain rfl : exited' = exited := Except.ok.inj hr
      split
      · exact hheld
      · rename_i hcode
        split
        · exact hheld
        · exact ⟨List.subset_append_left _ _, ⟨_, List.mem_append_right _
            (List.mem_singleton_self _), hop, exited', rfl, not_not.mp hcode⟩, hs'⟩

/-- A request that is an effect. -/
theorem steps_request (e : LaunchEffect) (hs : At a v v e.index b s h) (hb : b ≤ e.index + 1)
    (hv : Suits a e.index (e.index + 1) v) {method : String} (params : Dict)
    (hparts : e.parts = [.request method]) (hop : requestEffect method = some (.request method)) :
    Steps a (Act.call method params) (fun _ s' h' =>
      At a v v (e.index + 1) (e.index + 1) s' h' ∧ e.Completed h') s h := by
  unfold Act.call
  refine Co.wp_conseq (observeOn_mono _ _ _)
    (steps_effect e (.call method params) hs hb hv ?_ hop
      (fun _ _ => rfl) fun r => r) ?_ fun _ _ _ hX => hX
  · rw [hparts]
    exact List.mem_singleton_self _
  rintro reply s' h' ⟨r, rfl, rfl, hs'⟩
  have hdone : e.Completed (h ++ [⟨.call method params, .ok reply⟩]) := by
    intro part hpart
    rw [hparts] at hpart
    obtain rfl := List.mem_singleton.mp hpart
    exact ⟨_, List.mem_append_right _ (List.mem_singleton_self _), hop, reply, rfl⟩
  refine ⟨hs'.complete fun e' he' _ => ?_, hdone⟩
  obtain rfl : e' = e := by
    revert he'
    cases e' <;> cases e <;> simp [LaunchEffect.index]
  exact hdone

end Steps

/-! ## §4. The launch. -/

namespace CreateWorktreeThread

/-- What a receipt says of the prompt before it is dispatched. -/
def withheldPrompt (a : CreateWorktreeThread) : Json :=
  .str (if a.prompt.isSome then "not_sent" else "not_requested")

/-- What a receipt says while a launch prepares its dispatch. -/
abbrev preparing (a : CreateWorktreeThread) (phase state : String) : View :=
  ⟨some (.str phase), some (.str state), some a.withheldPrompt, some (.bool true)⟩

variable {a : CreateWorktreeThread} {v w : View} {c b : Nat} {s : Dict} {h : History}

theorem suits_preparing {phase state : String} (hphase : PhaseSuits phase c b)
    (hstate : ∀ e : LaunchEffect, e.worktreeState = some state → e.index < c) (hb : b ≤ 5) :
    Suits a c b (a.preparing phase state) where
  phase := by
    intro value hvalue
    obtain rfl := Option.some.inj hvalue
    exact ⟨phase, rfl, hphase⟩
  unphased := nofun
  state := by
    intro e name hname hsame
    obtain rfl : state = name := Json.str.inj (Option.some.inj hsame)
    exact hstate e hname
  notSent := fun _ => hb
  accepted := by
    intro haccepted
    have htext := Json.str.inj (Option.some.inj haccepted)
    split at htext <;> simp at htext
  recovery := by
    intro hrecovery
    cases hrecovery

/-- The next phase, with nothing else said about effects. -/
theorem steps_enter {old state : String} (phase : String) {fields : Dict}
    (hs : At a (a.preparing old state) w c b s h) (hphase : PhaseSuits phase c b)
    (hkeys : ∀ key ∈ fields.keys, key ∉ viewKeys) :
    Steps a (checkpoint phase fields) (fun _ s' h' =>
      At a (a.preparing phase state) (a.preparing phase state) c b s' h') s h :=
  steps_phase hs hphase hkeys

theorem steps_mark {phase old : String} (state : String)
    (hs : At a (a.preparing phase old) w c b s h)
    (hstate : ∀ e : LaunchEffect, e.worktreeState = some state → e.index < c) :
    Steps a (updateWorktree [("state", .str state)]) (fun _ s' h' =>
      At a (a.preparing phase state) w c b s' h') s h :=
  steps_setState hs hstate

/-- What a receipt says before it has a worktree. -/
abbrev validating (a : CreateWorktreeThread) : View :=
  ⟨some (.str "validating"), none, some a.withheldPrompt, some (.bool true)⟩

theorem steps_open (hs : At a ⟨none, none, none, none⟩ w 0 0 s h) :
    Steps a (checkpoint "validating" a.openingFields) (fun _ s' h' =>
      At a a.validating a.validating 0 0 s' h') s h := by
  have hsuits : Suits a 0 0 (a.preparing "validating" "planned") :=
    suits_preparing (by decide) (by decide) (by decide)
  refine steps_checkpoint _ hs ?_ ⟨hsuits.phase, hsuits.unphased, nofun, hsuits.notSent,
    hsuits.accepted, hsuits.recovery⟩
  have hstate := congrArg View.state hs.memory
  simp only [view, nested] at hstate ⊢
  simp [openingFields, withheldPrompt, Dict.get?_set, hstate]

theorem steps_reserving (worktree : Worktree) (hs : At a a.validating w 0 0 s h) :
    Steps a (checkpoint "reserving_destination" [("worktree", .obj worktree.receipt)])
      (fun _ s' h' => At a (a.preparing "reserving_destination" "planned")
        (a.preparing "reserving_destination" "planned") 0 0 s' h') s h := by
  refine steps_checkpoint _ hs ?_ (suits_preparing (by decide) (by decide) (by decide))
  have hprompt := congrArg View.prompt hs.memory
  have hrecovery := congrArg View.recovery hs.memory
  simp only [view, nested] at hprompt hrecovery ⊢
  simp [Dict.get?_set, Worktree.receipt, hprompt, hrecovery]

theorem steps_project (hs : At a v w c b s h) :
    Steps a (whenGiven a.appServerProjectId fun project => do
      let _ ← Act.call "project/read" [("projectId", .str project)]
      pure ()) (fun _ s' h' => At a v w c b s' h') s h := by
  cases a.appServerProjectId with
  | none => exact hs
  | some project =>
      refine steps_call_ _ ⟨fun e => ?_, fun _ _ => rfl⟩ hs
      cases e <;> simp [LaunchEffect.parts, Op.effect, requestEffect]

theorem steps_reserve (worktree : Worktree)
    (hs : At a (a.preparing "reserving_destination" "planned")
      (a.preparing "reserving_destination" "planned") 0 0 s h) :
    Steps a worktree.reserve (fun _ s' h' =>
      At a (a.preparing "reserving_destination" "planned")
        (a.preparing "reserving_destination" "planned") 1 1 s' h') s h := by
  refine Co.wp_conseq (observeOn_mono _ _ _)
    (steps_effect .mkdir (.mkdir worktree.destination) hs (by decide)
      (suits_preparing (by decide) (by decide) (by decide)) (List.mem_singleton_self _) rfl
      (fun _ _ => rfl) lift) ?_ fun _ _ _ hX => hX
  rintro _ s' h' ⟨r, hr, rfl, hs'⟩
  cases r with
  | error f => cases hr
  | ok _ =>
      refine hs'.complete fun e he _ part hpart => ?_
      have hmkdir : e = .mkdir := by revert he; cases e <;> simp [LaunchEffect.index]
      subst hmkdir
      obtain rfl := List.mem_singleton.mp hpart
      exact ⟨_, List.mem_append_right _ (List.mem_singleton_self _), rfl, rfl⟩

theorem steps_create (worktree : Worktree)
    (hs : At a (a.preparing "creating_worktree" "reserved")
      (a.preparing "creating_worktree" "reserved") 1 1 s h) :
    Steps a worktree.create (fun _ s' h' =>
      At a (a.preparing "creating_worktree" "reserved")
        (a.preparing "creating_worktree" "reserved") 2 2 s' h') s h := by
  refine steps_bind (steps_git .worktreeAdd hs (by decide)
    (suits_preparing (by decide) (by decide) (by decide)) (List.mem_singleton_self _) rfl) ?_
  rintro _ s' h' ⟨-, hdone, hs'⟩
  refine hs'.complete fun e he _ part hpart => ?_
  have hadd : e = .worktreeAdd := by revert he; cases e <;> simp [LaunchEffect.index]
  subst hadd
  obtain rfl := List.mem_singleton.mp hpart
  exact hdone

/-- A checkout has two parts; the phase covers both. -/
theorem steps_checkout (worktree : Worktree)
    (hs : At a (a.preparing "checking_out_worktree" "registered")
      (a.preparing "checking_out_worktree" "registered") 2 2 s h) :
    Steps a worktree.checkout (fun _ s' h' =>
      At a (a.preparing "checking_out_worktree" "registered")
        (a.preparing "checking_out_worktree" "registered") 3 3 s' h') s h := by
  have hduring : Suits a 2 3 (a.preparing "checking_out_worktree" "registered") :=
    suits_preparing (by decide) (by decide) (by decide)
  unfold Worktree.checkout
  rw [checkoutFilterConfig_bind]
  refine steps_bind (steps_looks (looks_git rfl) hs) fun config s h hs => ?_
  refine steps_bind (steps_git .checkout hs (by decide) hduring (List.mem_cons_self) rfl) ?_
  rintro _ s h ⟨-, hread, hs⟩
  refine steps_bind (steps_git .checkout hs (by decide) hduring
    (List.mem_cons_of_mem _ (List.mem_singleton_self _))
    (Worktree.gitEffect_checkoutIndex config)) ?_
  rintro _ s h ⟨hsub, hindex, hs⟩
  refine hs.complete fun e he _ part hpart => ?_
  have hcheckout : e = .checkout := by revert he; cases e <;> simp [LaunchEffect.index]
  subst hcheckout
  rcases List.mem_cons.mp hpart with rfl | hpart
  · exact hread.mono hsub
  · obtain rfl := List.mem_singleton.mp hpart
    exact hindex

theorem steps_prepare (hs : At a ⟨none, none, none, none⟩ w 0 0 s h) :
    Steps a a.prepare (fun _ s' h' =>
      At a (a.preparing "worktree_checked" "created") (a.preparing "worktree_checked" "created")
        3 3 s' h') s h := by
  have plain : ∀ key ∈ Dict.keys [], key ∉ viewKeys := by simp [Dict.keys]
  unfold prepare
  refine steps_bind (steps_open hs) fun _ s h hs => ?_
  refine steps_bind (steps_looks (Worktree.looks_validate _ _ _) hs) fun worktree s h hs => ?_
  refine steps_bind (steps_project hs) fun _ s h hs => ?_
  refine steps_bind (steps_reserving worktree hs) fun _ s h hs => ?_
  refine steps_bind (steps_reserve worktree hs) fun _ s h hs => ?_
  refine steps_bind (steps_mark "reserved" hs (by decide)) fun _ s h hs => ?_
  refine steps_bind (steps_enter "creating_worktree" hs (by decide) plain) fun _ s h hs => ?_
  refine steps_bind (steps_create worktree hs) fun _ s h hs => ?_
  refine steps_bind (steps_mark "registered" hs (by decide)) fun _ s h hs => ?_
  refine steps_bind (steps_enter "checking_out_worktree" hs (by decide) plain)
    fun _ s h hs => ?_
  refine steps_bind (steps_checkout worktree hs) fun _ s h hs => ?_
  refine steps_bind (steps_mark "created" hs (by decide)) fun _ s h hs => ?_
  refine steps_bind (steps_enter "checking_worktree" hs (by decide) plain) fun _ s h hs => ?_
  refine steps_bind (steps_looks (Worktree.looks_inspect _) hs) fun actual s h hs => ?_
  refine steps_bind (steps_keepState hs (by simp [Inspection.toDict, Dict.keys]))
    fun _ s h hs => ?_
  refine steps_bind (steps_enter "worktree_checked" hs (by decide) plain) fun _ s h hs => ?_
  refine steps_bind (steps_looks (Worktree.looks_matches _ _) hs) fun good s h hs => ?_
  split
  · exact ⟨_, _, _, _, hs⟩
  · exact hs

theorem steps_start (worktree : Worktree)
    (hs : At a (a.preparing "worktree_checked" "created") w 3 3 s h) :
    Steps a (a.start worktree) (fun _ s' h' =>
      At a (a.preparing "checking_environment" "created")
        (a.preparing "checking_environment" "created") 4 4 s' h') s h := by
  unfold start
  refine steps_bind (steps_enter "creating_thread" hs (by decide) (by simp [Dict.keys]))
    fun _ s h hs => ?_
  refine steps_bind (steps_request .threadStart hs (by decide)
    (suits_preparing (by decide) (by decide) (by decide)) _ rfl rfl) ?_
  rintro created s h ⟨hs, -⟩
  refine steps_ofExcept_bind hs fun fields hfields => ?_
  refine steps_bind (steps_enter "checking_environment" hs (by decide) ?_) fun _ s h hs => ?_
  · obtain ⟨_, _, _, -, rfl⟩ := environmentFields_ok hfields
    simp [Dict.keys, viewKeys]
  refine steps_ofExcept_bind hs fun mismatch _ => ?_
  split
  · exact ⟨_, _, _, _, hs⟩
  · exact hs

theorem steps_receiptThreadId (hs : At a v w c b s h) :
    Steps a receiptThreadId (fun _ s' h' => At a v w c b s' h') s h := by
  show Co.wp _ _ _ _ _ _
  unfold receiptThreadId
  rw [Co.wp_bind, Co.wp_get, Co.wp_ofExcept]
  cases Json.index "threadId" (.obj s) with
  | ok id => exact hs
  | error e => exact ⟨v, w, c, b, hs⟩

/-- Past the naming, a title that was asked for has been set. -/
theorem steps_name (hs : At a (a.preparing "checking_environment" "created")
      (a.preparing "checking_environment" "created") 4 4 s h) :
    Steps a (whenGiven a.title name) (fun _ s' h' => ∃ phase, ∃ b ≤ 5,
      At a (a.preparing phase "created") (a.preparing phase "created") 5 b s' h') s h := by
  cases htitle : a.title with
  | none =>
      refine ⟨_, 4, by decide, hs.complete fun e he hrequested => ?_⟩
      have hname : e = .threadName := by revert he; cases e <;> simp [LaunchEffect.index]
      subst hname
      simp [LaunchEffect.Requested, htitle] at hrequested
  | some title =>
      show Steps a (name title) _ s h
      unfold name
      refine steps_bind (steps_enter "naming_thread" hs (by decide) (by simp [Dict.keys]))
        fun _ s h hs => ?_
      refine steps_bind (steps_receiptThreadId hs) fun threadId s h hs => ?_
      refine steps_bind (steps_request .threadName hs (by decide)
        (suits_preparing (by decide) (by decide) (by decide)) _ rfl rfl) ?_
      rintro _ s h ⟨hs, -⟩
      refine Co.wp_conseq (observeOn_mono _ _ _)
        (steps_enter "thread_named" hs (by decide) (by simp [Dict.keys, viewKeys]))
        (fun _ s h hs => ⟨_, 5, by decide, hs⟩) fun _ _ _ hX => hX

theorem steps_recheck (worktree : Worktree) {phase : String} (hb : b ≤ 5)
    (hs : At a (a.preparing phase "created") w 5 b s h) :
    Steps a (recheck worktree) (fun _ s' h' =>
      At a (a.preparing "checking_before_dispatch" "created")
        (a.preparing "checking_before_dispatch" "created") 5 5 s' h') s h := by
  have hphase : PhaseSuits "checking_before_dispatch" 5 5 := by decide
  have hsuits : Suits a 5 5 (a.preparing "checking_before_dispatch" "created") :=
    suits_preparing hphase (by decide) (by decide)
  unfold recheck
  refine steps_bind (steps_looks (Worktree.looks_inspect _) hs) fun actual s h hs => ?_
  refine steps_bind (steps_enter "checking_before_dispatch" hs
    ⟨hphase.1, fun e => ⟨(hphase.2 e).1, fun hf => Nat.le_trans hb ((hphase.2 e).2 hf)⟩⟩
    (by simp [Dict.keys, viewKeys])) fun _ s h hs => ?_
  have hs : At a (a.preparing "checking_before_dispatch" "created")
      (a.preparing "checking_before_dispatch" "created") 5 5 s h :=
    ⟨hs.progress.mono hb, hs.memory, hsuits, hs.row, hsuits⟩
  refine steps_bind (steps_looks (Worktree.looks_matches _ _) hs) fun good s h hs => ?_
  split
  · exact ⟨_, _, _, _, hs⟩
  · exact hs

/-- What a receipt says once the dispatch is recorded. -/
abbrev dispatching (phase prompt : String) : View :=
  ⟨some (.str phase), some (.str "created"), some (.str prompt), some (.bool true)⟩

theorem suits_dispatching {phase prompt : String} (hphase : PhaseSuits phase c b) (hc : 5 ≤ c)
    (hnotSent : prompt ≠ "not_sent")
    (haccepted : prompt = "accepted" → 5 < c ∧ a.prompt.isSome = true) :
    Suits a c b (dispatching phase prompt) where
  phase := by
    intro value hvalue
    obtain rfl := Option.some.inj hvalue
    exact ⟨phase, rfl, hphase⟩
  unphased := nofun
  state := by
    intro e name hname hsame
    have hlt : e.index < 3 := by
      cases e <;> first | decide | cases hname
    omega
  notSent := fun h => absurd (Json.str.inj (Option.some.inj h)) hnotSent
  accepted := fun h => haccepted (Json.str.inj (Option.some.inj h))
  recovery := nofun

theorem steps_dispatch {prompt : String} (hprompt : a.prompt = some prompt)
    (hs : At a (a.preparing "checking_before_dispatch" "created") w 5 5 s h) :
    Steps a (dispatch prompt) (fun _ s' h' =>
      At a (dispatching "initial_prompt_accepted" "accepted")
        (dispatching "initial_prompt_accepted" "accepted") 6 6 s' h') s h := by
  have hsuits : ∀ b, b ≤ 6 → PhaseSuits "dispatching_initial_prompt" 5 b →
      Suits a 5 b (dispatching "dispatching_initial_prompt" "outcome_unknown") :=
    fun b _ hphase => suits_dispatching hphase (by decide) (by decide) (fun h => by simp at h)
  unfold dispatch
  refine steps_bind (steps_checkpoint (dispatching "dispatching_initial_prompt" "outcome_unknown")
    hs ?_ (hsuits 5 (by decide) (by decide))) fun _ s h hs => ?_
  · have hstate := congrArg View.state hs.memory
    have hrecovery := congrArg View.recovery hs.memory
    simp only [view, nested] at hstate hrecovery ⊢
    simp [Dict.get?_set, hstate, hrecovery]
  refine steps_bind (steps_receiptThreadId hs) fun threadId s h hs => ?_
  refine steps_bind (steps_request .turnStart hs (by decide) (hsuits 6 (by decide) (by decide))
    _ rfl rfl) ?_
  rintro turn s h ⟨hs, -⟩
  refine steps_ofExcept_bind hs fun turnId _ => ?_
  refine steps_checkpoint (dispatching "initial_prompt_accepted" "accepted") hs ?_
    (suits_dispatching (by decide) (by decide) (by decide) fun _ => ⟨by decide, by simp [hprompt]⟩)
  have hstate := congrArg View.state hs.memory
  have hrecovery := congrArg View.recovery hs.memory
  simp only [view, nested] at hstate hrecovery ⊢
  simp [Dict.get?_set, hstate, hrecovery]

/-- The last checkpoint, when all that was requested is done. -/
theorem steps_complete (hs : At a v w 6 b s h) :
    Steps a (checkpoint "complete" [("recoveryRequired", .bool false)]) (fun _ s' h' =>
      Safe a s' h') s h := by
  have hphase : PhaseSuits "complete" 6 b :=
    ⟨by decide, fun e => ⟨fun _ => e.index_lt, fun hf => absurd hf (by cases e <;> decide)⟩⟩
  have hsuits := hs.memorySuits.setPhase hphase
  refine Co.wp_conseq (observeOn_mono _ _ _) (steps_checkpoint
    { v with phase := some (.str "complete"), recovery := some (.bool false) } hs ?_
    ⟨hsuits.phase, hsuits.unphased, hsuits.state, hsuits.notSent, hsuits.accepted,
      fun _ => Nat.le_refl 6⟩) (fun _ s h hs => ⟨_, _, _, _, hs⟩) fun _ _ _ hX => hX
  rw [← hs.memory]
  simp [view, nested, Dict.get?_set]

theorem steps_action (hs : At a ⟨none, none, none, none⟩ w 0 0 s h) :
    Steps a a.action (fun _ s' h' => Safe a s' h') s h := by
  unfold action
  refine steps_bind (steps_prepare hs) fun worktree s h hs => ?_
  refine steps_bind (steps_start worktree hs) fun _ s h hs => ?_
  refine steps_bind (steps_name hs) ?_
  rintro _ s h ⟨phase, b, hb, hs⟩
  refine steps_bind (steps_recheck worktree hb hs) fun _ s h hs => ?_
  refine steps_bind (P := fun _ s h => ∃ v w b, At a v w 6 b s h) ?_ ?_
  · cases hprompt : a.prompt with
    | none =>
        refine ⟨_, _, _, hs.complete fun e he hrequested => ?_⟩
        have hturn : e = .turnStart := by revert he; cases e <;> simp [LaunchEffect.index]
        subst hturn
        simp [LaunchEffect.Requested, hprompt] at hrequested
    | some prompt =>
        exact Co.wp_conseq (observeOn_mono _ _ _) (steps_dispatch hprompt hs)
          (fun _ s h hs => ⟨_, _, _, hs⟩) fun _ _ _ hX => hX
  · rintro _ s h ⟨v, w, b, hs⟩
    exact steps_complete hs

end CreateWorktreeThread

/-! ## §5. Whole runs. -/

/-- No row of this launch, and no effect of it. -/
structure Untouched (a : CreateWorktreeThread) (h : History) : Prop where
  row : durable h = none
  progress : Progress a 0 0 h none

/-- Nothing is under way. -/
def Resting (a : CreateWorktreeThread) (h : History) : Prop :=
  Untouched a h ∨ ∃ s, Safe a s h

section Whole

variable {a : CreateWorktreeThread} {v w : View} {c b : Nat} {s : Dict} {h : History}

theorem Untouched.crashSafe {next : Option Op} (hu : Untouched a h)
    (hnext : Progress a 0 0 h next) : CrashSafe a h next := by
  unfold CrashSafe
  rw [hu.row]
  exact fun e => hnext.unbegun e (Nat.zero_le _)

theorem Untouched.aside (hu : Untouched a h) {op : Op} (hop : Aside op) :
    CrashSafe a h (some op) ∧ ∀ r : Ans op, Untouched a (h ++ [⟨op, r⟩]) := by
  refine ⟨hu.crashSafe (hu.progress.stand fun e _ => hop.effect e), fun r => ⟨?_, ?_⟩⟩
  · rw [durable_append, hop.row, hu.row]
  · exact hu.progress.append (fun e _ => hop.effect e) r

theorem Resting.aside (hr : Resting a h) {op : Op} (hop : Aside op) :
    CrashSafe a h (some op) ∧ ∀ r : Ans op, Resting a (h ++ [⟨op, r⟩]) := by
  rcases hr with hu | ⟨s, v, w, c, b, hs⟩
  · exact ⟨(hu.aside hop).1, fun r => .inl ((hu.aside hop).2 r)⟩
  · exact ⟨(hs.aside hop).1, fun r => .inr ⟨s, v, w, c, b, (hs.aside hop).2 r⟩⟩

theorem Resting.crashSafe (hr : Resting a h) : CrashSafe a h none := by
  rcases hr with hu | ⟨s, v, w, c, b, hs⟩
  · exact hu.crashSafe hu.progress
  · exact hs.crashSafe hs.progress

/-- The fields that record how a launch ended say nothing about effects. -/
theorem view_outcome (e : PyExc) (s : Dict) : view (s.update (outcome e)) = view s :=
  view_update (by cases e <;> simp [outcome, Dict.keys, viewKeys]) s

theorem steps_settle (e : PyExc) (hs : At a v w c b s h) :
    Steps a (settle e) (fun _ s' h' => At a v w c b s' h') s h := by
  have hupdate : At a v w c b (s.update (outcome e)) h :=
    hs.update ((view_outcome e s).trans hs.memory) hs.memorySuits
  cases e with
  | cancelledError =>
      show Co.wp _ _ _ _ _ _
      unfold settle
      rw [Co.wp_bind, Co.wp_get]
      refine steps_bind (steps_save _ hs ?_) fun _ _ _ hs => ⟨_, _, _, _, hs⟩
      rw [view_outcome, hs.memory]
      exact hs.memorySuits
  | rpcError method error => exact hupdate
  | worktreeError message => exact hupdate
  | exception cls message => exact hupdate

theorem steps_attempt (requestId cwd : String) (hs : At a ⟨none, none, none, none⟩ w 0 0 s h) :
    Co.wp (CrashSpec a) (attempt requestId ((ToolCall.createWorktreeThread a).action cwd))
      (fun _ _ h' => Resting a h') (fun _ _ h' => Resting a h') s h := by
  have hsave : ∀ {s h}, Safe a s h → Co.wp (CrashSpec a) saveReceipt
      (fun _ _ h' => Resting a h') (fun _ _ h' => Resting a h') s h := by
    rintro s h ⟨v, w, c, b, hs⟩
    exact Co.wp_conseq (observeOn_mono _ _ _) (steps_saveReceipt hs)
      (fun _ s _ hs => .inr ⟨s, _, _, _, _, hs⟩) fun _ s _ hX => .inr ⟨s, hX⟩
  have henter : Aside (.enter requestId) :=
    ⟨fun e => by cases e <;> simp [LaunchEffect.parts, Op.effect], fun _ _ => rfl⟩
  rw [wp_attempt]
  refine ⟨(hs.aside henter).1, fun r _ => ?_⟩
  refine Co.wp_conseq (observeOn_mono _ _ _)
    (CreateWorktreeThread.steps_action ((hs.aside henter).2 r)) ?_ ?_
  · rintro _ s h ⟨v, w, c, b, hs⟩
    exact hsave ⟨_, _, _, _, hs.update (view_update (by simp [Dict.keys, viewKeys]) s)
      (hs.memory.symm ▸ hs.memorySuits)⟩
  · rintro e s h ⟨v, w, c, b, hs⟩
    exact Co.wp_conseq (observeOn_mono _ _ _) (steps_settle e hs)
      (fun _ s h hs => hsave ⟨_, _, _, _, hs⟩) fun _ s _ hX => .inr ⟨s, hX⟩

variable [Hashlib]

omit [Hashlib] in
theorem aside_of_isPreparatory {op : Op} (hop : op.isPreparatory = true) : Aside op := by
  by_cases hlook : op.isLook = true
  · exact aside_of_isLook hlook
  · cases op <;> first
      | exact aside_of_effectless rfl fun _ _ => rfl
      | exact absurd hop (by simp_all [Op.isPreparatory, Op.isLook])

omit [Hashlib] in
theorem untouched_nil (a : CreateWorktreeThread) : Untouched a [] :=
  ⟨rfl, fun e _ hlt => absurd hlt (Nat.not_lt_zero _), fun e _ => by simp [LaunchEffect.Begun]⟩

theorem CreateWorktreeThread.crashSafe_run (a : CreateWorktreeThread) (requestId : String) :
    Interaction.wp (CrashSpec a) ((ToolCall.createWorktreeThread a).prog requestId)
      (fun _ h => Resting a h) [] := by
  have hΦ : Indifferent (CrashSpec a) (Untouched a) :=
    ⟨observeOn_mono _ _ _, fun op h hop hu => ⟨(hu.aside (aside_of_isPreparatory hop)).1,
      fun r _ => (hu.aside (aside_of_isPreparatory hop)).2 r⟩⟩
  refine hΦ.wp_tool (P := fun _ h => Resting a h) _ requestId (untouched_nil a)
    (fun _ _ hu => .inl hu) (fun _ h hr => ?_) ?_
  · have hrelease := hr.aside (aside_of_isPreparatory (show Op.release.isPreparatory = true from rfl))
    exact ⟨hrelease.1, fun r _ => hrelease.2 r⟩
  intro cwd fp startedAt h _ hu
  have hop : ∀ e : LaunchEffect, 0 ≤ e.index → ∀ part ∈ e.parts,
      (Op.beginRow requestId fp (Ledger.freshReceipt requestId
        (ToolCall.createWorktreeThread a).method startedAt)).effect ≠ some part :=
    fun _ _ _ _ => nofun
  refine ⟨hu.crashSafe (hu.progress.stand hop), fun r _ => ?_⟩
  have hprogress := hu.progress.append hop r
  have hsuits : Suits a 0 0 ⟨none, none, none, none⟩ :=
    ⟨nofun, fun _ => rfl, fun _ _ _ => nofun, nofun, nofun, nofun⟩
  rcases r with f | _ | row
  · exact ⟨by rw [remember, durable_append, hu.row]; rfl, hprogress⟩
  · exact steps_attempt (w := ⟨none, none, none, none⟩) requestId cwd ⟨hprogress, rfl, hsuits,
      ⟨_, by rw [remember, durable_append]; rfl, rfl⟩, hsuits⟩
  · exact ⟨by rw [remember, durable_append, hu.row]; rfl, hprogress⟩

/-- **Crash consistency.**  Wherever a launch stops, as long as its saves
commit, its row tells the truth about what has been done. -/
theorem CreateWorktreeThread.crash_consistent (a : CreateWorktreeThread) (requestId : String)
    {h : History} {rest : Residual Dict}
    (hrun : Run ((ToolCall.createWorktreeThread a).prog requestId) h rest)
    (hcommits : ∀ x ∈ h, commits x = true) : CrashSafe a h rest.head? := by
  have hrest := wp_run_on (a.crashSafe_run requestId) hrun fun pre x post hh =>
    hcommits x (hh ▸ List.mem_append_right _ List.mem_cons_self)
  rw [foldl_remember, List.nil_append] at hrest
  cases rest with
  | ret result => exact hrest.crashSafe
  | op op k => exact hrest.1

end Whole

/-- A launch that runs to its end. -/
theorem CreateWorktreeThread.crash_consistent_complete :
    let _ := Hashlib.verbatim
    ∃ (h : History) (rest : Residual Dict),
      Run ((ToolCall.createWorktreeThread sampleLaunch).prog "r") h rest ∧
      rest.head? = none ∧ (∀ x ∈ h, commits x = true) ∧ CrashSafe sampleLaunch h rest.head? := by
  intro _
  have hrun := Run.follow (fun _ => launchSite) 80
    (Run.start (p := (ToolCall.createWorktreeThread sampleLaunch).prog "r"))
  generalize hend : ((ToolCall.createWorktreeThread sampleLaunch).prog "r").follow
    (fun _ => launchSite) 80 [] = ended at hrun
  have hcommits : ended.1.all commits = true := by
    rw [← hend]
    decide +kernel
  have hdone : ended.2.head?.isNone = true := by
    rw [← hend]
    decide +kernel
  rw [List.all_eq_true] at hcommits
  exact ⟨ended.1, ended.2, hrun, Option.isNone_iff_eq_none.mp hdone, hcommits,
    CreateWorktreeThread.crash_consistent sampleLaunch "r" hrun hcommits⟩

end CodexRemoteBridge

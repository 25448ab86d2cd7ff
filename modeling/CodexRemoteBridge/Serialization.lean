/-
  CodexRemoteBridge.Serialization — mutations of one bridge come one after
  another.

  Everything a mutation tool does it does between entering and leaving
  `async with self._mutation_lock`.  The lock goes with the call that holds
  it, however that call ends, and with the process.

  Main result: `System.serialized`.
-/
import CodexRemoteBridge.System

namespace CodexRemoteBridge

open Interaction

/-! ## §1. One call and the lock. -/

/-- Where a call is relative to `async with self._mutation_lock`. -/
inductive LockStage where
  | waiting
  | holding
  | left
  deriving DecidableEq

/-- Follow a call for the lock. -/
def lockStep (stage : LockStage) (e : Event Ans) : LockStage :=
  match stage, e with
  | .waiting, ⟨.acquire, .ok _⟩ => .holding
  | .waiting, ⟨.acquire, .error _⟩ => .left
  | .holding, ⟨.release, _⟩ => .left
  | stage, _ => stage

/-- What a call may do at a stage: ask for the lock first, then anything
else, and nothing once it has left. -/
def LockOp (stage : LockStage) (op : Op) : Prop :=
  match stage with
  | .waiting => op = .acquire
  | .holding => op ≠ .acquire
  | .left => False

/-- Nothing but `release` ends the holding of the lock. -/
theorem lockStep_holding {op : Op} (h : op ≠ .release) (r : Ans op) :
    lockStep .holding ⟨op, r⟩ = .holding := by
  cases op with
  | release => exact absurd rfl h
  | _ => rfl

/-- Operations that neither take the lock nor give it back. -/
def Op.isInner : Op → Bool
  | .acquire | .release => false
  | _ => true

/-- The observer of the lock. -/
abbrev lockSpec : OpSpec Ans LockStage := observe lockStep LockOp

theorem lockSpec_inner {op : Op} (h : op.isInner = true) {Q : Ans op → LockStage → Prop}
    (hQ : ∀ r, Q r .holding) : lockSpec op Q .holding := by
  have hacquire : op ≠ .acquire := by
    rintro rfl
    cases h
  have hrelease : op ≠ .release := by
    rintro rfl
    cases h
  refine ⟨hacquire, fun r => ?_⟩
  rw [lockStep_holding hrelease]
  exact hQ r

/-- The coroutine holds the lock from its start to its end. -/
abbrev UnderLock {α : Type} (c : Act α) : Prop :=
  c.Keeps lockSpec (fun _ stage => stage = .holding) fun _ _ stage => stage = .holding

theorem UnderLock.bind {α β : Type} {c : Act α} {f : α → Act β} (hc : UnderLock c)
    (hf : ∀ a, UnderLock (f a)) : UnderLock (c >>= f) :=
  Co.Keeps.bind (observe_mono _ _) hc hf

theorem underLock_only {α : Type} {c : Act α} (hc : c.Only fun op => op.isInner = true) :
    UnderLock c := by
  refine hc.keeps (observe_mono _ _) (fun op s stage hop hstage => ?_) fun _ _ _ h => h
  subst hstage
  exact lockSpec_inner hop fun _ => rfl

theorem underLock_looks {α : Type} {c : Act α} (hc : Looks c) : UnderLock c := by
  refine underLock_only (hc.weaken fun op hop => ?_)
  cases op <;> simp_all [Op.isLook, Op.isInner]

theorem underLock_perform {α : Type} {op : Op} (hop : op.isInner = true)
    (view : Ans op → Except PyExc α) : UnderLock (Act.perform op view) :=
  underLock_only (Act.only_perform (G := fun op => op.isInner = true) hop view)

theorem underLock_pure {α : Type} (a : α) : UnderLock (pure a) := Co.keeps_pure a

theorem underLock_raise {α : Type} (e : PyExc) : UnderLock (Act.raise e : Act α) :=
  Co.keeps_throw fun _ _ h => h

theorem underLock_ofExcept {α : Type} (r : Except PyExc α) : UnderLock (Act.ofExcept r) :=
  Co.keeps_ofExcept fun _ _ _ h => h

theorem underLock_updateReceipt (fields : Dict) : UnderLock (updateReceipt fields) :=
  Co.keeps_modify fun _ _ h => h

theorem underLock_save (receipt : Dict) : UnderLock (Ledger.save receipt) :=
  (underLock_looks looks_now).bind fun _ => (underLock_ofExcept _).bind fun _ =>
    (underLock_perform rfl _).bind fun _ => underLock_pure _

theorem underLock_saveReceipt : UnderLock saveReceipt :=
  Co.Keeps.get_bind fun receipt stage h => underLock_save receipt receipt stage h

/-- What an action may do it does under the lock. -/
theorem lock_hosts : Hosts lockSpec (fun _ => True) (fun _ => True)
    (fun _ stage => stage = .holding) fun _ _ stage => stage = .holding where
  mono := observe_mono _ _
  act := by
    intro op s stage hop hstage
    subst hstage
    refine lockSpec_inner ?_ fun _ => rfl
    cases op <;> simp_all [Op.isActing, Op.isLook, Op.isInner]
  update := by
    intro key updatedAt s stage _ hstage
    subst hstage
    exact lockSpec_inner rfl fun _ => rfl
  fields := fun _ _ _ _ h => h
  call := by
    intro method params s stage _ hstage
    subst hstage
    refine lockSpec_inner rfl fun r => ?_
    cases r <;> rfl
  close := by
    intro s stage hstage
    subst hstage
    refine lockSpec_inner rfl fun r => ?_
    cases r <;> rfl
  own := fun _ _ _ h => h
  goal := fun _ _ _ _ h => h

theorem underLock_action (t : ToolCall) (cwd : String) : UnderLock (t.action cwd) :=
  t.fills_action lock_hosts (fun _ _ => trivial) (fun _ => trivial) cwd

theorem underLock_settle (error : PyExc) : UnderLock (settle error) := by
  cases error with
  | cancelledError =>
      refine Co.Keeps.get_bind fun receipt stage h => ?_
      exact ((underLock_save _).bind fun _ => underLock_raise _) receipt stage h
  | rpcError method error => exact underLock_updateReceipt _
  | worktreeError message => exact underLock_updateReceipt _
  | exception cls message => exact underLock_updateReceipt _

theorem underLock_attempt (requestId : String) {action : Act Unit} (h : UnderLock action) :
    UnderLock (attempt requestId action) := by
  unfold attempt
  refine UnderLock.bind ?_ fun _ => underLock_saveReceipt
  refine Co.Keeps.tryCatch (observe_mono _ _) ?_ fun e s stage hs => ?_
  · refine UnderLock.bind (underLock_only (Co.only_ask rfl)) fun _ => ?_
    exact h.bind fun _ => underLock_updateReceipt _
  · exact underLock_settle e s stage hs

section Tools

variable [Hashlib]

theorem underLock_lookup (t : ToolCall) (requestId : String) :
    UnderLock (Ledger.lookup requestId t.method t.params t.legacyParams) := by
  unfold Ledger.lookup
  refine (underLock_ofExcept _).bind fun fp => ?_
  refine (underLock_perform rfl _).bind fun row => ?_
  cases row with
  | none => exact underLock_pure _
  | some row =>
      refine (underLock_looks (looks_matchRow ?_ row)).bind fun _ => underLock_pure _
      exact fun _ h => looks_legacyParams h

theorem underLock_begin (t : ToolCall) (requestId : String) :
    UnderLock (Ledger.begin requestId t.method t.params t.legacyParams) := by
  unfold Ledger.begin
  refine (underLock_ofExcept _).bind fun fp => ?_
  refine (underLock_looks looks_now).bind fun startedAt => ?_
  refine (underLock_perform rfl _).bind fun found => ?_
  refine (underLock_looks (looks_matchRow ?_ _)).bind fun _ => underLock_pure _
  exact fun _ h => looks_legacyParams h

theorem underLock_mutateLocked (t : ToolCall) (requestId : String) :
    UnderLock (mutateLocked requestId t.method t.params t.legacyParams t.validateFresh t.action) := by
  unfold mutateLocked
  refine (underLock_lookup t requestId).bind fun retained => ?_
  cases retained with
  | some receipt => exact underLock_pure _
  | none =>
      refine (underLock_looks (looks_validateFresh t)).bind fun cwd => ?_
      refine (underLock_begin t requestId).bind fun begun => ?_
      obtain ⟨fresh, receipt⟩ := begun
      dsimp only
      split
      · exact underLock_pure _
      · refine UnderLock.bind (Co.keeps_modify fun _ _ h => h) fun _ => ?_
        exact underLock_attempt requestId (underLock_action t cwd)

/-- **A tool does everything under the lock**, and has left it when it ends. -/
theorem ToolCall.brackets (t : ToolCall) (requestId : String) :
    Interaction.wp lockSpec (t.prog requestId) (fun _ stage => stage ≠ .holding) .waiting := by
  suffices h : Co.wp lockSpec (t.run requestId) (fun _ _ stage => stage ≠ .holding)
      (fun _ _ stage => stage ≠ .holding) [] .waiting by
    refine Interaction.wp_mono (observe_mono _ _) _ ?_ _ h
    rintro ⟨r | r, s⟩ stage hstage <;> exact hstage
  unfold ToolCall.run mutate
  rw [Co.wp_bind, Co.wp_ofExcept]
  cases t.check with
  | error e =>
      show LockStage.waiting ≠ .holding
      decide
  | ok _ =>
      dsimp only
      rw [Co.wp_bind, Act.wp_perform]
      refine ⟨rfl, fun r => ?_⟩
      cases r with
      | error f =>
          show LockStage.left ≠ .holding
          decide
      | ok _ =>
          show Co.wp lockSpec (Co.tryFinally (mutateLocked requestId t.method t.params
            t.legacyParams t.validateFresh t.action) (Co.ask Op.release)) _ _ [] .holding
          rw [Co.wp_tryFinally]
          -- both exits go through `release`
          have hrelease : ∀ s : Dict, Co.wp lockSpec (Co.ask Op.release : Act Unit)
              (fun _ _ stage => stage ≠ .holding) (fun _ _ stage => stage ≠ .holding) s
              .holding := by
            intro s
            exact ⟨by simp [LockOp], fun _ => by show LockStage.left ≠ .holding; decide⟩
          refine Co.wp_conseq (observe_mono _ _) (underLock_mutateLocked t requestId [] _ rfl) ?_ ?_
          · rintro a s stage rfl
            exact hrelease s
          · rintro e s stage rfl
            exact hrelease s

/-! ## §2. Down to the frames. -/

/-- `LockOp` of a frame-level operation: every frame goes out under the lock. -/
def LockWireOp (stage : LockStage) : WireOp → Prop
  | .base op => LockOp stage op
  | .net _ => stage = .holding

variable [Endpoint]

theorem ToolCall.brackets_wire (t : ToolCall) (requestId : String) :
    Interaction.wp (observe (onBase lockStep) LockWireOp) (t.wire requestId)
      (fun _ stage => stage ≠ .holding) .waiting := by
  refine wp_handle_of (observe_mono _ _) _ ?_ _ (t.brackets requestId)
  intro op Q stage h
  have hrpc : ∀ {α : Type} {c : Net α} {L : List Effect} {Q : Except PyExc α → LockStage → Prop},
      Transmits c L → stage = .holding → (∀ r, Q r stage) →
      Interaction.wp (observe (onBase lockStep) LockWireOp) (ofNet c) Q stage := by
    intro α c L Q hc hstage hQ
    refine Interaction.wp_mono (observe_mono _ _) _ ?_ stage (wp_ofNet hc fun _ _ => hstage)
    rintro r stage' rfl
    exact hQ r
  have hholding : op.isInner = true → stage = .holding := by
    intro hop
    have hlock := h.1
    cases stage with
    | waiting =>
        have heq : op = .acquire := hlock
        subst heq
        cases hop
    | holding => rfl
    | left => exact hlock.elim
  cases op with
  | call method params =>
      obtain rfl := hholding rfl
      exact hrpc (AppServer.transmits_call method params) rfl h.2
  | close =>
      obtain rfl := hholding rfl
      exact hrpc AppServer.transmits_close rfl h.2
  | _ => exact h

/-! ## §3. The lock of a bridge. -/

/-- Where a call is. -/
def Client.stage (c : Client) : LockStage := c.history.foldl (onBase lockStep) .waiting

/-- The call holds the mutation lock of its bridge. -/
def Client.Holding (c : Client) : Prop := c.stopped = false ∧ c.stage = .holding

/-- The call has nothing more to do under the lock. -/
def Client.Gone (c : Client) : Prop := c.stopped = true ∨ c.stage = .left

/-- What `act` leaves of the call that was answered. -/
def Client.answered (c : Client) (op : WireOp) (r : WireAns op)
    (rest : Prog WireOp WireAns (Except PyExc Dict × Dict)) : Client :=
  { c with history := c.history ++ [⟨op, r⟩], rest := rest }

omit [Hashlib] [Endpoint] in
theorem Client.stage_answered (c : Client) (op : WireOp) (r : WireAns op)
    (rest : Prog WireOp WireAns (Except PyExc Dict × Dict)) :
    (c.answered op r rest).stage = onBase lockStep c.stage ⟨op, r⟩ := by
  show List.foldl (onBase lockStep) .waiting (c.history ++ [⟨op, r⟩]) = _
  rw [List.foldl_append]
  rfl

/-- The invariant: the lock of a bridge is taken exactly when `holder` names a
call of that bridge, and that call is the one that holds it. -/
structure Excluded (S : System) (holder : Nat → Option Nat) : Prop where
  locked : ∀ b, S.locked b = (holder b).isSome
  holds : ∀ (i : Nat) (c : Client), S.clients[i]? = some c →
    (c.Holding ↔ holder c.bridge = some i)
  real : ∀ b i, holder b = some i → ∃ c, S.clients[i]? = some c ∧ c.bridge = b

/-- A call does what its stage allows. -/
theorem Owned.lockOp {store₀ : Store} {S : System} (h : Owned store₀ S) {c : Client}
    (hc : c ∈ S.clients) {op : WireOp}
    {k : WireAns op → Prog WireOp WireAns (Except PyExc Dict × Dict)}
    (hrest : c.rest = .op op k) : LockWireOp c.stage op :=
  wp_run_head (c.tool.brackets_wire c.requestId) (h.runs c hc) (by rw [hrest]; rfl)

/-- What answering an operation does to the stage of the call, and what it
needs of the lock. -/
inductive Passes (c : Client) (locked : Nat → Bool) (op : WireOp) (r : WireAns op) :
    (Nat → Bool) → LockStage → Prop
  | enters : c.stage = .waiting → locked c.bridge = false →
      Passes c locked op r (Function.update locked c.bridge true) .holding
  /-- Cancelled while it waits for the lock. -/
  | refused : c.stage = .waiting →
      (∃ f : Fault, (⟨op, r⟩ : Event WireAns) = ⟨.base .acquire, .error f⟩) →
      Passes c locked op r locked .left
  | works : c.stage = .holding → Passes c locked op r locked .holding
  | leaves : c.stage = .holding →
      Passes c locked op r (Function.update locked c.bridge false) .left

omit [Hashlib] [Endpoint] in
theorem LockWireOp.passes {c : Client} {locked locked' : Nat → Bool} {op : WireOp}
    {r : WireAns op} (hop : LockWireOp c.stage op) (hlock : Locks c.bridge locked op r locked') :
    Passes c locked op r locked' (onBase lockStep c.stage ⟨op, r⟩) := by
  generalize hstage : c.stage = stage at hop
  cases hlock with
  | acquire hfree =>
      cases stage with
      | waiting => exact .enters hstage hfree
      | holding => exact absurd rfl hop
      | left => exact hop.elim
  | acquireFails f =>
      cases stage with
      | waiting => exact .refused hstage ⟨f, rfl⟩
      | holding => exact absurd rfl hop
      | left => exact hop.elim
  | release =>
      cases stage with
      | waiting => cases (show Op.release = .acquire from hop)
      | holding => exact .leaves hstage
      | left => exact hop.elim
  | other _ hacquire hrelease =>
      have hholding : stage = .holding := by
        cases op with
        | net op => exact hop
        | base op =>
            cases stage with
            | waiting => exact absurd (congrArg WireOp.base hop) hacquire
            | holding => rfl
            | left => exact hop.elim
      subst hholding
      have hkeep : onBase lockStep .holding ⟨op, r⟩ = .holding := by
        cases op with
        | net op => rfl
        | base op => exact lockStep_holding (fun he => hrelease (congrArg WireOp.base he)) r
      rw [hkeep]
      exact .works hstage

namespace Excluded

variable {S : System} {holder : Nat → Option Nat}

omit [Hashlib] [Endpoint] in
theorem init [Hashlib] (store : Store) : Excluded (System.init store) fun _ => none where
  locked := fun _ => rfl
  holds := by simp [System.init]
  real := fun _ _ h => by cases h

/-- A call that starts holds nothing. -/
theorem call (h : Excluded S holder) (bridge : Nat) (requestId : String) (tool : ToolCall) :
    Excluded { S with clients := S.clients ++ [Client.start bridge requestId tool] } holder := by
  refine ⟨h.locked, fun i c hi => ?_, fun b i hb => ?_⟩
  · by_cases hlt : i < S.clients.length
    · exact h.holds i c ((List.getElem?_append_left hlt).symm.trans hi)
    · have hget : [Client.start bridge requestId tool][i - S.clients.length]? = some c :=
        (List.getElem?_append_right (Nat.le_of_not_lt hlt)).symm.trans hi
      obtain rfl := List.mem_singleton.mp (List.mem_of_getElem? hget)
      constructor
      · intro hholding
        cases hholding.2
      · intro hb
        obtain ⟨d, hd, -⟩ := h.real _ i hb
        exact absurd (List.getElem?_eq_some_iff.mp hd).1 hlt
  · obtain ⟨c, hc, hcb⟩ := h.real b i hb
    have hlt := (List.getElem?_eq_some_iff.mp hc).1
    exact ⟨c, (List.getElem?_append_left hlt).trans hc, hcb⟩

omit [Hashlib] [Endpoint] in
/-- A process that dies takes its lock with it. -/
theorem crash (h : Excluded S holder) (bridge : Nat) :
    Excluded
      { S with
        clients := S.clients.map fun c =>
          if c.bridge = bridge then { c with stopped := true } else c
        locked := Function.update S.locked bridge false }
      (Function.update holder bridge none) := by
  refine ⟨fun b => ?_, fun i c hi => ?_, fun b i hb => ?_⟩
  · by_cases hb : b = bridge
    · simp [hb]
    · simpa [hb] using h.locked b
  · obtain ⟨c₀, hc₀, rfl⟩ := Option.map_eq_some_iff.mp ((List.getElem?_map ..).symm.trans hi)
    by_cases hb : c₀.bridge = bridge
    · simp [hb, Client.Holding]
    · simpa [hb] using h.holds i c₀ hc₀
  · by_cases hne : b = bridge
    · simp [hne] at hb
    · obtain ⟨c, hc, rfl⟩ := h.real b i (by simpa [hne] using hb)
      exact ⟨c, by simp [hc, hne], rfl⟩

omit [Hashlib] [Endpoint] in
/-- One call was answered. -/
theorem set (h : Excluded S holder) {i : Nat} {c d : Client} {store : Store}
    {locked : Nat → Bool} {holder' : Nat → Option Nat} (hi : S.clients[i]? = some c)
    (hbridge : d.bridge = c.bridge) (hlocked : ∀ b, locked b = (holder' b).isSome)
    (hself : d.Holding ↔ holder' c.bridge = some i)
    (hown : ∀ b, holder' b = some i → b = c.bridge)
    (hothers : ∀ b j, j ≠ i → (holder' b = some j ↔ holder b = some j)) :
    Excluded { store := store, clients := S.clients.set i d, locked := locked } holder' := by
  have hlt := (List.getElem?_eq_some_iff.mp hi).1
  refine ⟨hlocked, fun j e hj => ?_, fun b j hb => ?_⟩
  · by_cases hij : j = i
    · subst hij
      obtain rfl := Option.some.inj ((List.getElem?_set_self hlt).symm.trans hj)
      rwa [hbridge]
    · have hold := (List.getElem?_set_ne fun e => hij e.symm).symm.trans hj
      rw [hothers _ _ hij]
      exact h.holds j e hold
  · by_cases hij : j = i
    · subst hij
      exact ⟨d, List.getElem?_set_self hlt, by rw [hbridge, hown b hb]⟩
    · obtain ⟨e, he, heb⟩ := h.real b j ((hothers b j hij).mp hb)
      exact ⟨e, (List.getElem?_set_ne fun e => hij e.symm).trans he, heb⟩

omit [Hashlib] [Endpoint] in
/-- **The step lemma** for an answered operation. -/
theorem act (h : Excluded S holder) {i : Nat} {c d : Client} {op : WireOp} {r : WireAns op}
    (store : Store) {locked : Nat → Bool} (hi : S.clients[i]? = some c)
    (hlive : c.stopped = false) (hbridge : d.bridge = c.bridge)
    (hstopped : d.stopped = c.stopped) (hpasses : Passes c S.locked op r locked d.stage) :
    ∃ holder', Excluded { store := store, clients := S.clients.set i d, locked := locked }
      holder' := by
  have hdlive : d.stopped = false := hstopped.trans hlive
  have hown : ∀ b, holder b = some i → b = c.bridge := by
    intro b hb
    obtain ⟨e, he, heb⟩ := h.real b i hb
    obtain rfl := Option.some.inj (hi.symm.trans he)
    exact heb.symm
  generalize hstage : d.stage = stage at hpasses
  cases hpasses with
  | enters hwaiting hfree =>
      have hnone : holder c.bridge = none := by
        have hlocked := h.locked c.bridge
        rw [hfree] at hlocked
        simpa using hlocked.symm
      refine ⟨Function.update holder c.bridge (some i),
        h.set hi hbridge (fun b => ?_) ?_ (fun b hb => ?_) fun b j hne => ?_⟩
      · by_cases hb : b = c.bridge
        · simp [hb]
        · simpa [hb] using h.locked b
      · simp [Client.Holding, hdlive, hstage]
      · by_cases hbc : b = c.bridge
        · exact hbc
        · exact hown b (by simpa [hbc] using hb)
      · by_cases hb : b = c.bridge
        · simp [hb, hnone, hne.symm]
        · simp [hb]
  | refused hwaiting hevent =>
      have hnot : holder c.bridge ≠ some i := by
        intro hb
        have hholding : c.Holding := (h.holds i c hi).mpr hb
        cases hwaiting.symm.trans hholding.2
      refine ⟨holder, h.set hi hbridge h.locked ?_ hown fun _ _ _ => Iff.rfl⟩
      simp [Client.Holding, hstage, hnot]
  | works hwas =>
      have hheld : holder c.bridge = some i := (h.holds i c hi).mp ⟨hlive, hwas⟩
      refine ⟨holder, h.set hi hbridge h.locked ?_ hown fun _ _ _ => Iff.rfl⟩
      simp [Client.Holding, hdlive, hstage, hheld]
  | leaves hwas =>
      have hheld : holder c.bridge = some i := (h.holds i c hi).mp ⟨hlive, hwas⟩
      refine ⟨Function.update holder c.bridge none,
        h.set hi hbridge (fun b => ?_) ?_ (fun b hb => ?_) fun b j hne => ?_⟩
      · by_cases hb : b = c.bridge
        · simp [hb]
        · simpa [hb] using h.locked b
      · simp [Client.Holding, hstage]
      · by_cases hbc : b = c.bridge
        · exact hbc
        · exact hown b (by simpa [hbc] using hb)
      · by_cases hb : b = c.bridge
        · simp [hb, hheld, hne.symm]
        · simp [hb]

/-- One step keeps the invariant. -/
theorem step {store₀ : Store} {S' : System} (h : Excluded S holder) (howned : Owned store₀ S)
    (hstep : S.Step S') : ∃ holder', Excluded S' holder' := by
  cases hstep with
  | call bridge requestId tool => exact ⟨holder, h.call bridge requestId tool⟩
  | crash bridge => exact ⟨_, h.crash bridge⟩
  | @act i c op k r store locked hi hlive hrest hserve hlock =>
      have hop := howned.lockOp (List.mem_of_getElem? hi) hrest
      have hpasses := hop.passes hlock
      rw [← c.stage_answered op r (k r)] at hpasses
      exact h.act store hi hlive rfl rfl hpasses

/-- **The run lemma**: in every state of every execution the locks are where
the holders are. -/
theorem of_reach {store : Store} (hr : System.Reach (System.init store) S) :
    ∃ holder, Excluded S holder := by
  induction hr with
  | init => exact ⟨_, Excluded.init store⟩
  | step hr hstep ih =>
      obtain ⟨holder, h⟩ := ih
      exact h.step (Owned.of_reach hr) hstep

end Excluded

/-! ## §4. The order of operations. -/

/-- An execution from `S₀` to the system at hand, with what was answered to
whom. -/
inductive System.Trace (S₀ : System) : List (Nat × Event WireAns) → System → Prop
  | init : System.Trace S₀ [] S₀
  | call {tr : List (Nat × Event WireAns)} {S : System} (bridge : Nat) (requestId : String)
      (tool : ToolCall) : System.Trace S₀ tr S →
      System.Trace S₀ tr
        { S with clients := S.clients ++ [Client.start bridge requestId tool] }
  | act {tr : List (Nat × Event WireAns)} {S : System} {i : Nat} {c : Client} {op : WireOp}
      {k : WireAns op → Prog WireOp WireAns (Except PyExc Dict × Dict)}
      {r : WireAns op} {store : Store} {locked : Nat → Bool} :
      System.Trace S₀ tr S →
      S.clients[i]? = some c → c.stopped = false → c.rest = .op op k →
      Serves S.store op r store → Locks c.bridge S.locked op r locked →
      System.Trace S₀ (tr ++ [(i, ⟨op, r⟩)])
        { store := store, clients := S.clients.set i (c.answered op r (k r)), locked := locked }
  | crash {tr : List (Nat × Event WireAns)} {S : System} (bridge : Nat) :
      System.Trace S₀ tr S →
      System.Trace S₀ tr
        { S with
          clients := S.clients.map fun c =>
            if c.bridge = bridge then { c with stopped := true } else c
          locked := Function.update S.locked bridge false }

theorem System.Trace.reach {S₀ S : System} {tr : List (Nat × Event WireAns)}
    (h : System.Trace S₀ tr S) : System.Reach S₀ S := by
  induction h with
  | init => exact .init
  | call bridge requestId tool _ ih => exact ih.step (.call bridge requestId tool)
  | act _ hi hlive hrest hserve hlock ih =>
      exact ih.step (.act hi hlive hrest hserve hlock)
  | crash bridge _ ih => exact ih.step (.crash bridge)

/-- The bridge a call was made to. -/
def System.bridgeOf (S : System) (i : Nat) : Option Nat := S.clients[i]?.map Client.bridge

/-- The call has ended for the lock: it has left it, or its process is dead. -/
def System.Past (S : System) (i : Nat) : Prop :=
  ∃ c, S.clients[i]? = some c ∧ c.Gone

/-- The answer to a call that was cancelled while it waited for the lock. -/
def LockRefused (e : Event WireAns) : Prop := ∃ f : Fault, e = ⟨.base .acquire, .error f⟩

/-- What a step leaves of the calls there are. -/
def System.Onward (S S' : System) : Prop :=
  ∀ (i : Nat) (c : Client), S.clients[i]? = some c → ∃ d, S'.clients[i]? = some d ∧
    d.bridge = c.bridge ∧ (c.stage ≠ .waiting → d.stage ≠ .waiting) ∧ (c.Gone → d.Gone)

theorem System.onward_call (S : System) (bridge : Nat) (requestId : String) (tool : ToolCall) :
    S.Onward { S with clients := S.clients ++ [Client.start bridge requestId tool] } := by
  intro i c hi
  have hlt := (List.getElem?_eq_some_iff.mp hi).1
  exact ⟨c, (List.getElem?_append_left hlt).trans hi, rfl, id, id⟩

omit [Hashlib] [Endpoint] in
theorem System.onward_crash (S : System) (bridge : Nat) :
    S.Onward
      { S with
        clients := S.clients.map fun c =>
          if c.bridge = bridge then { c with stopped := true } else c
        locked := Function.update S.locked bridge false } := by
  intro i c hi
  refine ⟨_, (List.getElem?_map ..).trans (congrArg (Option.map _) hi), ?_⟩
  dsimp only
  by_cases hb : c.bridge = bridge
  · rw [if_pos hb]
    exact ⟨rfl, id, fun _ => .inl rfl⟩
  · rw [if_neg hb]
    exact ⟨rfl, id, id⟩

/-- A call that stands at an operation has not left the lock. -/
theorem Owned.not_gone {store₀ : Store} {S : System} (h : Owned store₀ S) {c : Client}
    (hc : c ∈ S.clients) (hlive : c.stopped = false) {op : WireOp}
    {k : WireAns op → Prog WireOp WireAns (Except PyExc Dict × Dict)}
    (hrest : c.rest = .op op k) : ¬ c.Gone := by
  have hop := h.lockOp hc hrest
  rintro (hstopped | hleft)
  · rw [hlive] at hstopped
    cases hstopped
  · rw [hleft] at hop
    cases op with
    | base op => exact hop
    | net op => cases (show LockStage.left = .holding from hop)

theorem System.onward_act {store₀ : Store} {S : System} (h : Owned store₀ S) {i : Nat}
    {c d : Client} {op : WireOp} {r : WireAns op}
    {k : WireAns op → Prog WireOp WireAns (Except PyExc Dict × Dict)}
    {store : Store} {locked : Nat → Bool} (hi : S.clients[i]? = some c)
    (hlive : c.stopped = false) (hrest : c.rest = .op op k) (hbridge : d.bridge = c.bridge)
    (hpasses : Passes c S.locked op r locked d.stage) :
    S.Onward { store := store, clients := S.clients.set i d, locked := locked } := by
  intro j e hj
  by_cases hij : j = i
  · subst hij
    obtain rfl := Option.some.inj (hi.symm.trans hj)
    refine ⟨d, List.getElem?_set_self (List.getElem?_eq_some_iff.mp hi).1, hbridge, ?_, ?_⟩
    · intro _ hwaiting
      rw [hwaiting] at hpasses
      cases hpasses
    · intro hgone
      exact absurd hgone (h.not_gone (List.mem_of_getElem? hi) hlive hrest)
  · exact ⟨e, (List.getElem?_set_ne fun e => hij e.symm).trans hj, rfl, id, id⟩

/-- What is known of an execution by its trace. -/
structure Ordered (tr : List (Nat × Event WireAns)) (S : System) : Prop where
  /-- A call that was answered waits for the lock no longer. -/
  asked : ∀ i e, (i, e) ∈ tr → ∃ c, S.clients[i]? = some c ∧ c.stage ≠ .waiting
  /-- A call after which another one of its bridge did anything is through. -/
  past : ∀ i j e f, [(i, e), (j, f)].Sublist tr → i ≠ j → S.bridgeOf i = S.bridgeOf j →
    ¬ LockRefused f → S.Past i
  between : ∀ i j e f g, [(i, e), (j, f), (i, g)].Sublist tr → i ≠ j →
    S.bridgeOf i = S.bridgeOf j → LockRefused f

omit [Hashlib] [Endpoint] in
theorem sublist_snoc {α : Type} {l m : List α} {a b : α}
    (h : (l ++ [a]).Sublist (m ++ [b])) : (l ++ [a]).Sublist m ∨ (a = b ∧ l.Sublist m) := by
  obtain ⟨l₁, l₂, heq, h₁, h₂⟩ := List.sublist_append_iff.mp h
  rcases List.sublist_singleton.mp h₂ with rfl | rfl
  · rw [List.append_nil] at heq
    rw [heq]
    exact .inl h₁
  · obtain ⟨rfl, hab⟩ := List.append_inj' heq rfl
    exact .inr ⟨List.singleton_inj.mp hab, h₁⟩

namespace Ordered

variable {tr : List (Nat × Event WireAns)} {S S' : System}

omit [Hashlib] [Endpoint] in
theorem bridgeOf_onward (hon : S.Onward S') {i : Nat} {c : Client} (hi : S.clients[i]? = some c) :
    S'.bridgeOf i = S.bridgeOf i := by
  obtain ⟨d, hd, hb, -⟩ := hon i c hi
  simp [System.bridgeOf, hi, hd, hb]

omit [Hashlib] [Endpoint] in
theorem past_onward (hon : S.Onward S') {i : Nat} (h : S.Past i) : S'.Past i := by
  obtain ⟨c, hc, hgone⟩ := h
  obtain ⟨d, hd, -, -, hd'⟩ := hon i c hc
  exact ⟨d, hd, hd' hgone⟩

omit [Hashlib] [Endpoint] in
/-- Steps that leave no trace. -/
theorem onward (h : Ordered tr S) (hon : S.Onward S') : Ordered tr S' := by
  have hbridge : ∀ i e, (i, e) ∈ tr → S'.bridgeOf i = S.bridgeOf i := by
    intro i e he
    obtain ⟨c, hc, -⟩ := h.asked i e he
    exact bridgeOf_onward hon hc
  refine ⟨fun i e he => ?_, fun i j e f hsub hne hb hf => ?_, fun i j e f g hsub hne hb => ?_⟩
  · obtain ⟨c, hc, hstage⟩ := h.asked i e he
    obtain ⟨d, hd, -, hd', -⟩ := hon i c hc
    exact ⟨d, hd, hd' hstage⟩
  · have hi : (i, e) ∈ tr := hsub.subset (by simp)
    have hj : (j, f) ∈ tr := hsub.subset (by simp)
    rw [hbridge i e hi, hbridge j f hj] at hb
    exact past_onward hon (h.past i j e f hsub hne hb hf)
  · have hi : (i, e) ∈ tr := hsub.subset (by simp)
    have hj : (j, f) ∈ tr := hsub.subset (by simp)
    rw [hbridge i e hi, hbridge j f hj] at hb
    exact h.between i j e f g hsub hne hb

/-- **The step lemma**: a call is answered. -/
theorem act {store₀ : Store} {holder : Nat → Option Nat} (h : Ordered tr S)
    (howned : Owned store₀ S) (hexcl : Excluded S holder) {i : Nat} {c : Client} {op : WireOp}
    {r : WireAns op} {k : WireAns op → Prog WireOp WireAns (Except PyExc Dict × Dict)}
    {store : Store} {locked : Nat → Bool} (hi : S.clients[i]? = some c)
    (hlive : c.stopped = false) (hrest : c.rest = .op op k)
    (hlock : Locks c.bridge S.locked op r locked) :
    Ordered (tr ++ [(i, ⟨op, r⟩)])
      { store := store, clients := S.clients.set i (c.answered op r (k r)), locked := locked } := by
  have hc := List.mem_of_getElem? hi
  have hpasses := (howned.lockOp hc hrest).passes hlock
  have hpasses' := hpasses
  rw [← c.stage_answered op r (k r)] at hpasses'
  have hon : S.Onward
      { store := store, clients := S.clients.set i (c.answered op r (k r)), locked := locked } :=
    System.onward_act howned hi hlive hrest rfl hpasses'
  have hbefore := h.onward hon
  have hpresent : S.bridgeOf i = some c.bridge := by simp [System.bridgeOf, hi]
  have hlt := (List.getElem?_eq_some_iff.mp hi).1
  refine ⟨fun j e he => ?_, fun j j' e f hsub hne hb hf => ?_,
    fun j j' e f g hsub hne hb => ?_⟩
  · rcases List.mem_append.mp he with he | he
    · exact hbefore.asked j e he
    · cases List.mem_singleton.mp he
      refine ⟨_, List.getElem?_set_self hlt, fun hwaiting => ?_⟩
      rw [hwaiting] at hpasses'
      cases hpasses'
  · rcases sublist_snoc (l := [(j, e)]) hsub with hsub | ⟨heq, hold⟩
    · exact hbefore.past j j' e f hsub hne hb hf
    · -- the call that was answered now is the later one
      cases heq
      have hj : (j, e) ∈ tr := List.singleton_sublist.mp hold
      obtain ⟨d, hd, hstage⟩ := h.asked j e hj
      rw [bridgeOf_onward hon hd, bridgeOf_onward hon hi, hpresent] at hb
      have hdb : d.bridge = c.bridge := by simpa [System.bridgeOf, hd] using hb
      refine past_onward hon ⟨d, hd, ?_⟩
      by_cases hstopped : d.stopped = true
      · exact .inl hstopped
      refine .inr ?_
      cases hds : d.stage with
      | waiting => exact absurd hds hstage
      | left => rfl
      | holding =>
          -- it would hold the lock that the answered call needs
          exfalso
          have hheld : holder c.bridge = some j := by
            rw [← hdb]
            exact (hexcl.holds j d hd).mp ⟨by simpa using hstopped, hds⟩
          have hlocked := hexcl.locked c.bridge
          rw [hheld] at hlocked
          have hother : c.stage = .holding → False := by
            intro hcs
            have hheld' := (hexcl.holds i c hi).mp ⟨hlive, hcs⟩
            exact hne (Option.some.inj (hheld.symm.trans hheld'))
          generalize onBase lockStep c.stage ⟨op, r⟩ = stage at hpasses
          cases hpasses with
          | enters _ hfree =>
              rw [hfree] at hlocked
              cases hlocked
          | refused _ hrefused => exact hf hrefused
          | works hcs => exact hother hcs
          | leaves hcs => exact hother hcs
  · rcases sublist_snoc (l := [(j, e), (j', f)]) hsub with hsub | ⟨heq, hold⟩
    · exact hbefore.between j j' e f g hsub hne hb
    · cases heq
      by_contra hf
      have hj' : (j', f) ∈ tr := hold.subset (List.mem_cons_of_mem _ List.mem_cons_self)
      obtain ⟨d, hd, -⟩ := h.asked j' f hj'
      rw [bridgeOf_onward hon hi, bridgeOf_onward hon hd] at hb
      obtain ⟨c', hc', hgone⟩ := h.past i j' e f hold hne hb hf
      obtain rfl := Option.some.inj (hi.symm.trans hc')
      exact howned.not_gone hc hlive hrest hgone

/-- **The run lemma.** -/
theorem of_trace {store : Store} (h : System.Trace (System.init store) tr S) : Ordered tr S := by
  induction h with
  | init =>
      refine ⟨by simp, ?_, ?_⟩
      · intro i j e f hsub
        cases hsub
      · intro i j e f g hsub
        cases hsub
  | call bridge requestId tool _ ih => exact ih.onward (System.onward_call _ _ _ _)
  | crash bridge _ ih => exact ih.onward (System.onward_crash _ _)
  | act htr hi hlive hrest _ hlock ih =>
      obtain ⟨holder, hexcl⟩ := Excluded.of_reach htr.reach
      exact ih.act (Owned.of_reach htr.reach) hexcl hi hlive hrest hlock

end Ordered

/-! ## §5. One after another. -/

/-- The call is under way and has the lock behind it. -/
def Client.Working (c : Client) : Prop :=
  c.stopped = false ∧ ∃ op, c.rest.head? = some op ∧ op ≠ .base .acquire

/-- Who is under way past the lock is who holds it. -/
theorem Owned.working_iff {store₀ : Store} {S : System} (h : Owned store₀ S) {c : Client}
    (hc : c ∈ S.clients) : c.Working ↔ c.Holding := by
  have hrun := h.runs c hc
  constructor
  · rintro ⟨hlive, op, hhead, hne⟩
    have hop : LockWireOp c.stage op :=
      wp_run_head (c.tool.brackets_wire c.requestId) hrun hhead
    refine ⟨hlive, ?_⟩
    cases op with
    | net op => exact hop
    | base op =>
        cases hstage : c.stage with
        | holding => rfl
        | waiting =>
            rw [hstage] at hop
            exact absurd (congrArg WireOp.base hop) hne
        | left =>
            rw [hstage] at hop
            exact hop.elim
  · rintro ⟨hlive, hstage⟩
    refine ⟨hlive, ?_⟩
    cases hrest : c.rest with
    | ret a =>
        -- a call that has ended has left the lock
        rw [hrest] at hrun
        exact absurd hstage (wp_run_ret (c.tool.brackets_wire c.requestId) hrun)
    | op op k =>
        refine ⟨op, rfl, ?_⟩
        rintro rfl
        have hop := h.lockOp hc hrest
        rw [hstage] at hop
        exact hop rfl

/-- What holds of an execution that has come to `S`, by its trace. -/
structure System.Serialized (tr : List (Nat × Event WireAns)) (S : System) : Prop where
  /-- Between two operations of a call no other call of its bridge performs
  any; one that waits for the lock may be cancelled. -/
  sections : ∀ i j e f g, [(i, e), (j, f), (i, g)].Sublist tr → i ≠ j →
    S.bridgeOf i = S.bridgeOf j → LockRefused f
  /-- At most one call of a bridge is under way past the lock. -/
  alone : ∀ (i j : Nat) (c d : Client), S.clients[i]? = some c → S.clients[j]? = some d →
    c.bridge = d.bridge → c.Working → d.Working → i = j
  /-- The lock is taken only as long as there is such a call: none that has
  returned or raised, or that died, leaves it taken. -/
  held : ∀ b, S.locked b = true ↔ ∃ c ∈ S.clients, c.bridge = b ∧ c.Working

/-- **Serialization.**  The mutations of one bridge are performed one after
another, in every execution, and no way of ending keeps the lock. -/
theorem System.serialized {store : Store} {tr : List (Nat × Event WireAns)} {S : System}
    (h : System.Trace (System.init store) tr S) : S.Serialized tr := by
  have howned := Owned.of_reach h.reach
  obtain ⟨holder, hexcl⟩ := Excluded.of_reach h.reach
  refine ⟨(Ordered.of_trace h).between, fun i j c d hi hj hb hc hd => ?_, fun b => ⟨?_, ?_⟩⟩
  · have hc' := (howned.working_iff (List.mem_of_getElem? hi)).mp hc
    have hd' := (howned.working_iff (List.mem_of_getElem? hj)).mp hd
    have hholds := (hexcl.holds i c hi).mp hc'
    rw [hb] at hholds
    exact Option.some.inj (hholds.symm.trans ((hexcl.holds j d hj).mp hd'))
  · intro hlocked
    rw [hexcl.locked] at hlocked
    obtain ⟨i, hi⟩ := Option.isSome_iff_exists.mp hlocked
    obtain ⟨c, hc, rfl⟩ := hexcl.real b i hi
    have hmem := List.mem_of_getElem? hc
    exact ⟨c, hmem, rfl, (howned.working_iff hmem).mpr ((hexcl.holds i c hc).mpr hi)⟩
  · rintro ⟨c, hc, rfl, hworking⟩
    obtain ⟨i, hi⟩ := List.mem_iff_getElem?.mp hc
    rw [hexcl.locked, (hexcl.holds i c hi).mp ((howned.working_iff hc).mp hworking)]
    rfl

/-- Answering the operation a call stands at. -/
theorem System.Trace.answer {S₀ S : System} {tr : List (Nat × Event WireAns)}
    (h : System.Trace S₀ tr S) (i : Nat) (op : WireOp) (r : WireAns op) {c : Client}
    {k : WireAns op → Prog WireOp WireAns (Except PyExc Dict × Dict)}
    {store : Store} {locked : Nat → Bool} (hc : S.clients[i]? = some c)
    (hlive : c.stopped = false) (hrest : c.rest = .op op k)
    (hserve : Serves S.store op r store) (hlock : Locks c.bridge S.locked op r locked) :
    System.Trace S₀ (tr ++ [(i, ⟨op, r⟩)])
      { store := store, clients := S.clients.set i (c.answered op r (k r)), locked := locked } :=
  h.act hc hlive hrest hserve hlock

end Tools

/-- While one retitling looks its identifier up, another one waits for the
lock and is cancelled. -/
theorem System.serialized_waiting :
    let _ := Hashlib.verbatim
    let _ := Endpoint.sample
    ∃ (tr : List (Nat × Event WireAns)) (S : System),
      System.Trace (System.init Store.empty) tr S ∧ tr.map Prod.fst = [0, 1, 0] ∧
      S.locked 0 = true ∧ S.Serialized tr := by
  intro _ _
  have h := (System.Trace.init : System.Trace (System.init Store.empty) [] _)
    |>.call 0 "r" (.setThreadTitle ⟨"t", "x"⟩)
    |>.call 0 "q" (.setThreadTitle ⟨"t", "y"⟩)
    |>.answer 0 (.base .acquire) (.ok ()) rfl rfl rfl (.other _ (by simp) (by simp) (by simp))
        (.acquire rfl)
    |>.answer 1 (.base .acquire) (.error .cancelled) rfl rfl rfl
        (.other _ (by simp) (by simp) (by simp)) (.acquireFails _)
    |>.answer 0 (.base (.select "r")) (.ok none) rfl rfl rfl (.select "r")
        (.other _ (by simp) (by simp))
  exact ⟨_, _, h, rfl, rfl, System.serialized h⟩

end CodexRemoteBridge

/-
  CodexRemoteBridge.Naming — a creation names its thread once.

  The three tools that create a thread put its id under `threadId`, save
  the receipt, and leave that field alone from then on: also where they
  raise, and also when a cancellation interrupts them.

  Main result: `ToolCall.names_once`.
-/
import CodexRemoteBridge.Ownership

namespace CodexRemoteBridge

open Interaction

/-- The operations that create a thread. -/
def creationOperations : List String := ["create_thread", "fork_thread", "create_worktree_thread"]

/-! ## §1. The name in the row. -/

/-- The receipt has the `threadId` of the one in the row, if that has one. -/
def NamedAs (row : Option Dict) (receipt : Dict) : Prop :=
  ∀ kept name, row = some kept → kept.get? "threadId" = some name →
    receipt.get? "threadId" = some name

/-- A save keeps the name in the row. -/
def NameAt (row : Option Dict) (op : Op) : Prop :=
  ∀ key receipt, op = .update key receipt → NamedAs row receipt

/-- The history semantics reduced to the row, with `NameAt` at every operation. -/
abbrev NameSpec : OpSpec Ans (Option Dict) := observe durableStep NameAt

theorem nameSpec_mono : NameSpec.Mono := observe_mono _ _

theorem NamedAs.update {row : Option Dict} {receipt fields : Dict} (h : NamedAs row receipt)
    (hkeys : "threadId" ∉ fields.keys) : NamedAs row (receipt.update fields) := by
  intro kept name hkept hname
  rw [Dict.get?_update_of_notMem fields receipt hkeys]
  exact h kept name hkept hname

/-- Only a save asks for anything. -/
theorem nameAt_of {row : Option Dict} {op : Op} (h : ∀ key receipt, op ≠ .update key receipt) :
    NameAt row op := fun _ _ e => absurd e (h _ _)

/-- The receipt in memory carries the name in the row. -/
structure NameHeld (requestId : String) (s : Dict) (row : Option Dict) : Prop where
  key : s.get? "requestId" = some (.str requestId)
  name : NamedAs row s

/-- Neither receipt has a name yet. -/
structure NameFree (requestId : String) (s : Dict) (row : Option Dict) : Prop where
  key : s.get? "requestId" = some (.str requestId)
  memory : s.get? "threadId" = none
  row : ∀ kept, row = some kept → kept.get? "threadId" = none

/-! ## §2. Steps. -/

section Steps

variable {requestId : String} {s : Dict} {m : Option Dict}

theorem NameFree.held (h : NameFree requestId s m) : NameHeld requestId s m where
  key := h.key
  name := by
    intro kept name hkept hname
    rw [h.row kept hkept] at hname
    cases hname

/-- Whatever an unnamed receipt is filled with, it does not contradict the row. -/
theorem NameFree.learn (h : NameFree requestId s m) {fields : Dict}
    (hkeys : "requestId" ∉ fields.keys) : NameHeld requestId (s.update fields) m where
  key := by rw [Dict.get?_update_of_notMem fields s hkeys, h.key]
  name := by
    intro kept name hkept hname
    rw [h.row kept hkept] at hname
    cases hname

theorem NameHeld.update (h : NameHeld requestId s m) {fields : Dict}
    (hkeys : ∀ key ∈ fields.keys, key ≠ "requestId" ∧ key ≠ "threadId") :
    NameHeld requestId (s.update fields) m where
  key := by
    rw [Dict.get?_update_of_notMem fields s fun hmem => (hkeys _ hmem).1 rfl, h.key]
  name := h.name.update fun hmem => (hkeys _ hmem).2 rfl

theorem NameFree.update (h : NameFree requestId s m) {fields : Dict}
    (hkeys : ∀ key ∈ fields.keys, key ≠ "requestId" ∧ key ≠ "threadId") :
    NameFree requestId (s.update fields) m where
  key := by
    rw [Dict.get?_update_of_notMem fields s fun hmem => (hkeys _ hmem).1 rfl, h.key]
  memory := by
    rw [Dict.get?_update_of_notMem fields s fun hmem => (hkeys _ hmem).2 rfl, h.memory]
  row := h.row

/-- An operation that is no save, and inserts nothing, leaves the row as it is. -/
theorem durableStep_of {op : Op} (hbegin : ∀ key fp receipt, op ≠ .beginRow key fp receipt)
    (hupdate : ∀ key receipt, op ≠ .update key receipt) (m : Option Dict) (r : Ans op) :
    durableStep m ⟨op, r⟩ = m := by
  unfold durableStep
  split
  · rename_i he
    cases he
    exact absurd rfl (hbegin _ _ _)
  · rename_i he
    cases he
    exact absurd rfl (hupdate _ _)
  · rfl

/-- A part of an action that leaves `threadId` alone keeps whichever of the
two the receipts are in. -/
theorem hosts_naming {N : Dict → Option Dict → Prop}
    (hfields : ∀ (fields s : Dict) m, (∀ key ∈ fields.keys, key ≠ "requestId" ∧ key ≠ "threadId") →
      N s m → N (s.update fields) m)
    (hsave : ∀ s m time, N s m → N s (some (stamped s time)))
    (hheld : ∀ s m, N s m → NameHeld requestId s m) :
    Hosts NameSpec (fun key => key ≠ "requestId" ∧ key ≠ "threadId") (fun _ => True) N
      (fun _ s m => NameHeld requestId s m) where
  mono := nameSpec_mono
  act := by
    intro op s m hop hs
    have hbegin : ∀ key fp receipt, op ≠ .beginRow key fp receipt := by
      rintro key fp receipt rfl
      cases hop
    have hupdate : ∀ key receipt, op ≠ .update key receipt := by
      rintro key receipt rfl
      cases hop
    refine ⟨nameAt_of hupdate, fun r => ?_⟩
    rw [durableStep_of hbegin hupdate]
    exact hs
  update := by
    intro key updatedAt s m _ hs
    refine ⟨?_, fun r => ?_⟩
    · intro key' receipt e
      cases e
      exact (hheld s m hs).name.update (by simp [Dict.keys])
    · cases r with
      | error f => exact hs
      | ok _ => exact hsave s m updatedAt hs
  fields := hfields
  call := by
    intro method params s m _ hs
    refine ⟨nameAt_of (by simp), fun r => ?_⟩
    cases r with
    | error e => exact hheld s m hs
    | ok _ => exact hs
  close := by
    intro s m hs
    refine ⟨nameAt_of (by simp), fun r => ?_⟩
    cases r with
    | error e => exact hheld s m hs
    | ok _ => exact hs
  own := fun _ s m hs => hheld s m hs
  goal := fun _ _ _ _ hs => hs

theorem hosts_nameFree (requestId : String) :
    Hosts NameSpec (fun key => key ≠ "requestId" ∧ key ≠ "threadId") (fun _ => True)
      (NameFree requestId) (fun _ s m => NameHeld requestId s m) := by
  refine hosts_naming (fun _ _ _ hkeys hs => hs.update hkeys) ?_ fun _ _ hs => hs.held
  intro s m time hs
  refine ⟨hs.key, hs.memory, fun kept hkept => ?_⟩
  obtain rfl := Option.some.inj hkept
  rw [stamped, Dict.get?_update_of_notMem _ s (by simp [Dict.keys]), hs.memory]

theorem hosts_nameHeld (requestId : String) :
    Hosts NameSpec (fun key => key ≠ "requestId" ∧ key ≠ "threadId") (fun _ => True)
      (NameHeld requestId) (fun _ s m => NameHeld requestId s m) := by
  refine hosts_naming (fun _ _ _ hkeys hs => hs.update hkeys) ?_ fun _ _ hs => hs
  intro s m time hs
  refine ⟨hs.key, ?_⟩
  intro kept name hkept hname
  obtain rfl := Option.some.inj hkept
  rwa [stamped, Dict.get?_update_of_notMem _ s (by simp [Dict.keys])] at hname

end Steps

/-! ## §3. The actions. -/

section Actions

variable {requestId : String} {s : Dict} {m : Option Dict} {α β : Type}

/-- What an action leads to: the receipt is still the one the row names, or
it raises with such a receipt. -/
abbrev Names (requestId : String) (c : Act Unit) (s : Dict) (m : Option Dict) : Prop :=
  Co.wp NameSpec c (fun _ s m => NameHeld requestId s m) (fun _ s m => NameHeld requestId s m) s m

theorem names_bind {c : Act α} {f : α → Act Unit} {P : α → Dict → Option Dict → Prop}
    (hc : Co.wp NameSpec c P (fun _ s m => NameHeld requestId s m) s m)
    (hf : ∀ a s m, P a s m → Names requestId (f a) s m) : Names requestId (c >>= f) s m := by
  show Co.wp NameSpec (c >>= f) _ _ s m
  rw [Co.wp_bind]
  exact Co.wp_conseq nameSpec_mono hc hf fun _ _ _ h => h

theorem CreateThread.names_action (a : CreateThread) (cwd : String)
    (hs : NameFree requestId s m) : Names requestId (a.action cwd) s m := by
  have before := hosts_nameFree requestId
  have after := hosts_nameHeld requestId
  unfold CreateThread.action
  refine names_bind (fills_whenGiven (fun project => before.calls_ _ trivial) s m hs)
    fun _ s m hs => ?_
  refine names_bind (before.calls _ trivial s m hs) fun created s m hs => ?_
  refine names_bind (before.ofExcept _ s m hs) fun threadId s m hs => ?_
  -- the one place where the name is learnt
  refine names_bind (P := fun _ s m => NameHeld requestId s m) (hs.learn (by simp [Dict.keys]))
    fun _ s m hs => ?_
  refine names_bind (after.saveReceipt s m hs) fun _ s m hs => ?_
  refine names_bind (after.ofExcept _ s m hs) fun actual s m hs => ?_
  refine names_bind (after.ofExcept _ s m hs) fun expected s m hs => ?_
  refine names_bind (after.ofExcept _ s m hs) fun mismatch s m hs => ?_
  split
  · exact hs
  have htitle : Fills NameSpec (NameHeld requestId) (fun _ s m => NameHeld requestId s m)
      (whenGiven a.title fun title => do
        let _ ← Act.call "thread/name/set" [("threadId", threadId), ("name", .str title)]
        updateReceipt [("title", .str title)]
        let _ ← saveReceipt
        pure ()) :=
    fills_whenGiven fun title =>
      after.bind (after.calls _ trivial) fun _ =>
      after.bind (after.updateReceipt (by simp [Dict.keys])) fun _ =>
      after.bind after.saveReceipt fun _ => fills_pure _
  have hprompt : Fills NameSpec (NameHeld requestId) (fun _ s m => NameHeld requestId s m)
      (whenGiven a.prompt fun prompt => do
        let turn ← Act.call "turn/start" (toolOutputTurn threadId "create_thread" prompt)
        let turnId ← Act.ofExcept (index2 "turn" "id" turn)
        updateReceipt [("turnId", turnId)]) :=
    fills_whenGiven fun prompt =>
      after.bind (after.calls _ trivial) fun turn =>
      after.bind (after.ofExcept _) fun turnId =>
      after.updateReceipt (by simp [Dict.keys])
  refine names_bind (htitle s m hs) fun _ s m hs => ?_
  refine names_bind (hprompt s m hs) fun _ s m hs => ?_
  exact hs.update (by simp [Dict.keys])

namespace CreateWorktreeThread

/-- The id enters the receipt with the fields of the environment. -/
theorem names_start (a : CreateWorktreeThread) (w : Worktree) (hs : NameFree requestId s m) :
    Names requestId (a.start w) s m := by
  have before := hosts_nameFree requestId
  have after := hosts_nameHeld requestId
  unfold start
  refine names_bind (before.checkpoint _ (by simp) (by simp [Dict.keys]) s m hs)
    fun _ s m hs => ?_
  refine names_bind (before.calls _ trivial s m hs) fun created s m hs => ?_
  show Co.wp NameSpec _ _ _ s m
  rw [Co.wp_bind, Co.wp_ofExcept]
  cases hfields : a.environmentFields created with
  | error e => exact hs.held
  | ok fields =>
      dsimp only
      obtain ⟨threadId, permissions, association, -, hfields⟩ := environmentFields_ok hfields
      have hlearnt : NameHeld requestId
          (s.update (("phase", .str "checking_environment") :: fields)) m :=
        hs.learn (by simp [hfields, Dict.keys])
      have hcheckpoint : Names requestId (checkpoint "checking_environment" fields) s m :=
        names_bind (P := fun _ s m => NameHeld requestId s m) hlearnt
          fun _ s m hs => names_bind (after.saveReceipt s m hs) fun _ s m hs => hs
      refine names_bind hcheckpoint fun _ s m hs => ?_
      refine names_bind (after.ofExcept _ s m hs) fun mismatch s m hs => ?_
      split
      · exact hs
      · exact hs

theorem names_action (a : CreateWorktreeThread) (hs : NameFree requestId s m) :
    Names requestId a.action s m := by
  have before := hosts_nameFree requestId
  have after := hosts_nameHeld requestId
  unfold action
  refine names_bind (before.fills_prepare a (by simp [Hosts.prepareKeys]) trivial s m hs)
    fun worktree s m hs => ?_
  refine names_bind (names_start a worktree hs) fun _ s m hs => ?_
  refine names_bind (fills_whenGiven
    (fun title => after.fills_name title (by simp) (by simp) trivial) s m hs) fun _ s m hs => ?_
  refine names_bind (after.fills_recheck worktree (by simp) (by simp) s m hs) fun _ s m hs => ?_
  have hdispatch : ∀ prompt, Fills NameSpec (NameHeld requestId) (fun _ s m => NameHeld requestId s m)
      (dispatch prompt) := fun prompt =>
    after.bind (after.checkpoint _ (by simp) (by simp [Dict.keys])) fun _ =>
    after.bind after.fills_receiptThreadId fun threadId =>
    after.bind (after.calls _ trivial) fun turn =>
    after.bind (after.ofExcept _) fun turnId =>
    after.checkpoint _ (by simp) (by simp [Dict.keys])
  refine names_bind (fills_whenGiven hdispatch s m hs) fun _ s m hs => ?_
  exact after.checkpoint _ (by simp) (by simp [Dict.keys]) s m hs

end CreateWorktreeThread

theorem ForkThread.names_action (a : ForkThread) (hs : NameFree requestId s m) :
    Names requestId a.action s m := by
  have before := hosts_nameFree requestId
  have after := hosts_nameHeld requestId
  unfold action
  refine names_bind (before.calls _ trivial s m hs) fun state s m hs => ?_
  refine names_bind (before.ofExcept _ s m hs) fun source s m hs => ?_
  refine names_bind (before.ofExcept _ s m hs) fun refused s m hs => ?_
  split
  · exact hs.held
  refine names_bind (before.fills_refuseGoal a trivial s m hs) fun _ s m hs => ?_
  refine names_bind (before.calls _ trivial s m hs) fun fork s m hs => ?_
  refine names_bind (before.ofExcept _ s m hs) fun forkId s m hs => ?_
  refine names_bind (P := fun _ s m => NameHeld requestId s m) (hs.learn (by simp [Dict.keys]))
    fun _ s m hs => ?_
  refine names_bind (after.saveReceipt s m hs) fun _ s m hs => ?_
  exact after.closes s m hs

/-- Each tool that creates a thread learns its name once. -/
theorem ToolCall.names_action (t : ToolCall) (ht : t.method ∈ creationOperations) (cwd : String)
    (hs : NameFree requestId s m) : Names requestId (t.action cwd) s m := by
  cases t with
  | createThread a => exact a.names_action cwd hs
  | createWorktreeThread a => exact a.names_action hs
  | forkThread a => exact a.names_action hs
  | _ => exact absurd ht (by simp [ToolCall.method, creationOperations])

end Actions

/-! ## §4. Whole runs. -/

/-- Once the row is inserted the run is its action, and what follows it
writes no name. -/
theorem names_attempt (t : ToolCall) (ht : t.method ∈ creationOperations) (requestId cwd : String)
    {s : Dict} {m : Option Dict} (hs : NameFree requestId s m) :
    Co.wp NameSpec (attempt requestId (t.action cwd)) (fun _ _ _ => True) (fun _ _ _ => True)
      s m := by
  have hsaves : ∀ (s fields : Dict) m, NameHeld requestId s m →
      (∀ key ∈ fields.keys, key ≠ "requestId" ∧ key ≠ "threadId") →
      Saves NameSpec requestId (s.update fields) (fun _ _ => True) (fun _ _ => True) m := by
    intro s fields m hs hkeys
    refine ⟨nameAt_of (by simp), fun time => ⟨?_, fun r => ?_⟩⟩
    · intro key receipt e
      cases e
      exact (hs.update hkeys).name.update (by simp [Dict.keys])
    · cases r <;> trivial
  refine wp_attempt_of (P := fun _ _ => True) nameSpec_mono
    ⟨nameAt_of (by simp), fun _ => t.names_action ht cwd hs⟩ ?_ ?_
  · intro s m hs
    exact ⟨hs.key, hsaves s _ m hs (by simp [Dict.keys])⟩
  · intro e s m hs
    refine ⟨hs.key, hsaves s _ m hs ?_⟩
    cases e <;> simp [outcome, Dict.keys]

variable [Hashlib]

theorem ToolCall.names_run (t : ToolCall) (ht : t.method ∈ creationOperations)
    (requestId : String) :
    Interaction.wp NameSpec (t.prog requestId) (fun _ _ => True) none := by
  have hΦ : Indifferent NameSpec (fun m => m = none) := by
    refine ⟨nameSpec_mono, fun op m hop hm => ?_⟩
    have hbegin : ∀ key fp receipt, op ≠ .beginRow key fp receipt := by
      rintro key fp receipt rfl
      cases hop
    have hupdate : ∀ key receipt, op ≠ .update key receipt := by
      rintro key receipt rfl
      cases hop
    refine ⟨nameAt_of hupdate, fun r => ?_⟩
    rw [durableStep_of hbegin hupdate, hm]
  refine hΦ.wp_tool (P := fun _ _ => True) t requestId rfl (fun _ _ _ => trivial)
    (fun _ m _ => ⟨nameAt_of (by simp), fun _ => trivial⟩) ?_
  intro cwd fp startedAt m hfp hm
  refine ⟨nameAt_of (by simp), fun r => ?_⟩
  rcases r with f | _ | row
  · exact hm
  · refine names_attempt t ht requestId cwd ⟨rfl, rfl, fun kept hkept => ?_⟩
    obtain rfl := Option.some.inj hkept
    rfl
  · exact hm

/-- `NameAt`, frame by frame. -/
def NameWireAt (row : Option Dict) (op : WireOp) : Prop :=
  ∀ key receipt, op = .base (.update key receipt) → NamedAs row receipt

variable [Endpoint]

/-- **NameHeld once.**  When a run that creates a thread saves its receipt, it
never changes or removes a `threadId` that the row has. -/
theorem ToolCall.names_once (t : ToolCall) (ht : t.method ∈ creationOperations)
    (requestId : String) :
    Interaction.wp (observe (onBase durableStep) NameWireAt) (t.wire requestId)
      (fun _ _ => True) none := by
  refine wp_handle_of (observe_mono _ _) _ ?_ _ (t.names_run ht requestId)
  intro op Q m h
  -- a request is taken apart into frames, none of which writes the row
  have hrpc : ∀ {α : Type} {c : Net α} {L : List Effect} {Q : Except PyExc α → Option Dict → Prop},
      Transmits c L → (∀ r, Q r m) →
      Interaction.wp (observe (onBase durableStep) NameWireAt) (ofNet c) Q m := by
    intro α c L Q hc hQ
    refine Interaction.wp_mono (observe_mono _ _) _ ?_ m (wp_ofNet hc fun op _ _ _ e => ?_)
    · rintro r m' rfl
      exact hQ r
    · cases e
  have hbase : ∀ op : Op, NameAt m op → NameWireAt m (.base op) :=
    fun op hop key receipt e => hop key receipt (WireOp.base.inj e)
  cases op with
  | call method params => exact hrpc (AppServer.transmits_call method params) h.2
  | close => exact hrpc AppServer.transmits_close h.2
  | _ => exact ⟨hbase _ h.1, h.2⟩

end CodexRemoteBridge

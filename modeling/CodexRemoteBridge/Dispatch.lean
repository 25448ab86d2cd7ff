/-
  CodexRemoteBridge.Dispatch — what a mutation tool can send, and in which
  order.

  For each tool the effects it may begin form one fixed list without
  repetition; on every path, whatever is answered, the effects begun are a
  sublist of it (`ToolCall.emits_prog`).  Before the action is entered no
  effect is begun at all.
-/
import CodexRemoteBridge.Looks

namespace CodexRemoteBridge

open Interaction

/-- The coroutine begins effects of `L`, in that order, each at most once. -/
abbrev Begins {α : Type} (c : Act α) (L : List Effect) : Prop := c.Emits Op.effect L

/-! ## §1. The building blocks. -/

theorem Looks.begins {α : Type} {c : Act α} (h : Looks c) : Begins c [] :=
  Co.Only.emits h fun _ => Op.effect_of_isLook

theorem begins_perform {α : Type} (op : Op) (view : Ans op → Except PyExc α) :
    Begins (Act.perform op view) op.effect.toList := by
  have h := (Co.emits_ask (l := Op.effect) (ε := PyExc) (S := Dict) op).bind
    fun r => Co.emits_ofExcept (ρ := Ans) (S := Dict) (view r)
  rwa [List.append_nil] at h

theorem begins_call {method : String} {e : Effect} (h : requestEffect method = some e)
    (params : Dict) : Begins (Act.call method params) [e] := by
  have hp := begins_perform (.call method params) fun r => r
  rwa [show (Op.call method params).effect = some e from h] at hp

theorem begins_git {cwd : PyPath} {args : List String} {e : Effect}
    (h : gitEffect args = some e) : Begins (git cwd args) [e] := by
  unfold git
  have hp := begins_perform (.git cwd args) lift
  rw [show (Op.git cwd args).effect = some e from h] at hp
  refine hp.cons_bind fun exited => ?_
  split
  · exact Co.emits_throw _
  · split
    · exact Co.emits_throw _
    · exact Co.emits_pure _

theorem begins_raise {α : Type} (e : PyExc) (L : List Effect) :
    Begins (Act.raise e : Act α) L := (Co.emits_throw e).weaken

theorem begins_ofExcept {α : Type} (r : Except PyExc α) :
    Begins (Act.ofExcept r) [] := Co.emits_ofExcept r

theorem begins_pure {α : Type} (a : α) (L : List Effect) : Begins (pure a) L :=
  (Co.emits_pure a).weaken

theorem begins_updateReceipt (fields : Dict) : Begins (updateReceipt fields) [] :=
  Co.emits_modify _

theorem begins_save (receipt : Dict) : Begins (Ledger.save receipt) [] := by
  unfold Ledger.save
  refine looks_now.begins.silent_bind fun updatedAt => ?_
  refine (begins_ofExcept _).silent_bind fun key => ?_
  exact (begins_perform (.update key _) _).silent_bind fun _ => begins_pure _ _

theorem begins_saveReceipt : Begins saveReceipt [] :=
  Co.emits_get.silent_bind fun receipt => begins_save receipt

theorem begins_checkpoint (phase : String) (fields : Dict) :
    Begins (checkpoint phase fields) [] :=
  (begins_updateReceipt _).silent_bind fun _ =>
    begins_saveReceipt.silent_bind fun _ => begins_pure _ _

theorem begins_updateWorktree (fields : Dict) : Begins (updateWorktree fields) [] := by
  unfold updateWorktree
  refine Co.emits_get.silent_bind fun receipt => ?_
  split
  · exact begins_updateReceipt _
  · exact begins_raise _ _
  · exact begins_raise _ _

theorem begins_whenGiven {value : Option String} {step : String → Act Unit} {L : List Effect}
    (h : ∀ x, Begins (step x) L) : Begins (whenGiven value step) L := by
  cases value with
  | none => exact begins_pure _ _
  | some x => exact h x

/-- A request whose reply is dropped. -/
theorem begins_call_ {method : String} {e : Effect} (h : requestEffect method = some e)
    (params : Dict) :
    Begins (do let _ ← Act.call method params; pure ()) [e] :=
  (begins_call h params).cons_bind fun _ => begins_pure _ _

/-! ## §2. The actions. -/

theorem CreateThread.begins_action (a : CreateThread) (cwd : String) :
    Begins (a.action cwd)
      [.request "project/read", .request "thread/start", .request "thread/name/set",
       .request "turn/start"] := by
  unfold CreateThread.action
  refine (begins_whenGiven fun project => begins_call_ rfl _).cons_bind fun _ => ?_
  refine (begins_call rfl _).cons_bind fun created => ?_
  refine (begins_ofExcept _).silent_bind fun threadId => ?_
  refine (begins_updateReceipt _).silent_bind fun _ => ?_
  refine begins_saveReceipt.silent_bind fun _ => ?_
  refine (begins_ofExcept _).silent_bind fun actual => ?_
  refine (begins_ofExcept _).silent_bind fun expected => ?_
  refine (begins_ofExcept _).silent_bind fun mismatch => ?_
  split
  · exact begins_raise _ _
  refine Co.Emits.cons_bind (begins_whenGiven fun title => ?_) fun _ => ?_
  · refine (begins_call rfl _).cons_bind fun _ => ?_
    refine (begins_updateReceipt _).silent_bind fun _ => ?_
    exact begins_saveReceipt.silent_bind fun _ => begins_pure _ _
  refine Co.Emits.cons_bind (begins_whenGiven fun prompt => ?_) fun _ => begins_updateReceipt _
  refine (begins_call rfl _).cons_bind fun turn => ?_
  exact (begins_ofExcept _).silent_bind fun _ => begins_updateReceipt _

namespace CreateWorktreeThread

theorem begins_create (w : Worktree) : Begins w.create [.worktreeAdd] :=
  (begins_git rfl).cons_bind fun _ => begins_pure _ _

theorem begins_checkout (w : Worktree) : Begins w.checkout [.readTree, .checkoutIndex] := by
  unfold Worktree.checkout
  rw [checkoutFilterConfig_bind]
  refine (looks_git rfl).begins.silent_bind fun config => ?_
  refine (begins_git rfl).cons_bind fun _ => ?_
  exact (begins_git (Worktree.gitEffect_checkoutIndex config)).cons_bind fun _ =>
    begins_pure _ _

theorem begins_prepare (a : CreateWorktreeThread) :
    Begins a.prepare
      [.request "project/read", .mkdir, .worktreeAdd, .readTree, .checkoutIndex] := by
  unfold prepare
  refine (begins_checkpoint _ _).silent_bind fun _ => ?_
  refine (Worktree.looks_validate _ _ _).begins.silent_bind fun worktree => ?_
  refine (begins_whenGiven fun project => begins_call_ rfl _).cons_bind fun _ => ?_
  refine (begins_checkpoint _ _).silent_bind fun _ => ?_
  refine (begins_perform (.mkdir _) _).cons_bind fun _ => ?_
  refine (begins_updateWorktree _).silent_bind fun _ => ?_
  refine (begins_checkpoint _ _).silent_bind fun _ => ?_
  refine (begins_create worktree).cons_bind fun _ => ?_
  refine (begins_updateWorktree _).silent_bind fun _ => ?_
  refine (begins_checkpoint _ _).silent_bind fun _ => ?_
  rw [← List.append_nil [Effect.readTree, Effect.checkoutIndex]]
  refine Co.Emits.bind (begins_checkout worktree) fun _ => ?_
  refine (begins_updateWorktree _).silent_bind fun _ => ?_
  refine (begins_checkpoint _ _).silent_bind fun _ => ?_
  refine (Worktree.looks_inspect _).begins.silent_bind fun actual => ?_
  refine (begins_updateWorktree _).silent_bind fun _ => ?_
  refine (begins_checkpoint _ _).silent_bind fun _ => ?_
  refine (Worktree.looks_matches _ _).begins.silent_bind fun good => ?_
  split
  · exact (begins_raise _ _).silent_bind fun _ => begins_pure _ _
  · exact (begins_pure () []).silent_bind fun _ => begins_pure _ _

theorem begins_start (a : CreateWorktreeThread) (w : Worktree) :
    Begins (a.start w) [.request "thread/start"] := by
  unfold start
  refine (begins_checkpoint _ _).silent_bind fun _ => ?_
  refine (begins_call rfl _).cons_bind fun created => ?_
  refine (begins_ofExcept _).silent_bind fun fields => ?_
  refine (begins_checkpoint _ _).silent_bind fun _ => ?_
  refine (begins_ofExcept _).silent_bind fun mismatch => ?_
  split
  · exact begins_raise _ _
  · exact begins_pure _ _

theorem begins_receiptThreadId : Begins receiptThreadId [] :=
  Co.emits_get.silent_bind fun _ => begins_ofExcept _

theorem begins_name (title : String) : Begins (name title) [.request "thread/name/set"] := by
  unfold name
  refine (begins_checkpoint _ _).silent_bind fun _ => ?_
  refine begins_receiptThreadId.silent_bind fun threadId => ?_
  exact (begins_call rfl _).cons_bind fun _ => begins_checkpoint _ _

theorem begins_recheck (w : Worktree) : Begins (recheck w) [] := by
  unfold recheck
  refine (Worktree.looks_inspect _).begins.silent_bind fun actual => ?_
  refine (begins_checkpoint _ _).silent_bind fun _ => ?_
  refine (Worktree.looks_matches _ _).begins.silent_bind fun good => ?_
  split
  · exact begins_raise _ _
  · exact begins_pure _ _

theorem begins_dispatch (prompt : String) : Begins (dispatch prompt) [.request "turn/start"] := by
  unfold dispatch
  refine (begins_checkpoint _ _).silent_bind fun _ => ?_
  refine begins_receiptThreadId.silent_bind fun threadId => ?_
  refine (begins_call rfl _).cons_bind fun turn => ?_
  exact (begins_ofExcept _).silent_bind fun _ => begins_checkpoint _ _

theorem begins_action (a : CreateWorktreeThread) :
    Begins a.action
      ([.request "project/read", .mkdir, .worktreeAdd, .readTree, .checkoutIndex]
        ++ [.request "thread/start", .request "thread/name/set", .request "turn/start"]) := by
  unfold action
  refine Co.Emits.bind (begins_prepare a) fun worktree => ?_
  refine (begins_start a worktree).cons_bind fun _ => ?_
  refine (begins_whenGiven begins_name).cons_bind fun _ => ?_
  refine (begins_recheck worktree).silent_bind fun _ => ?_
  exact (begins_whenGiven begins_dispatch).cons_bind fun _ => begins_checkpoint _ _

end CreateWorktreeThread

namespace SendMessage

theorem begins_deliver (a : SendMessage) : Begins a.deliver [.request "turn/start"] := by
  unfold deliver
  refine (begins_call rfl _).cons_bind fun turn => ?_
  exact (begins_ofExcept _).silent_bind fun _ => begins_updateReceipt _

theorem begins_close : Begins Act.close [] := begins_perform .close _

theorem begins_action (a : SendMessage) :
    Begins a.action
      [.request "thread/read", .request "thread/resume", .request "turn/start"] := by
  unfold action
  refine (begins_updateReceipt _).silent_bind fun _ => ?_
  refine begins_saveReceipt.silent_bind fun _ => ?_
  refine (begins_call rfl _).cons_bind fun state => ?_
  refine (begins_ofExcept _).silent_bind fun thread => ?_
  refine (begins_ofExcept _).silent_bind fun status => ?_
  split
  · unfold deliverActive
    refine Co.Emits.skip ?_
    refine (begins_updateReceipt _).silent_bind fun _ => ?_
    refine begins_saveReceipt.silent_bind fun _ => ?_
    refine (begins_deliver a).cons_bind fun _ => ?_
    exact begins_saveReceipt.silent_bind fun _ => begins_close
  · unfold deliverIdle
    refine (begins_updateReceipt _).silent_bind fun _ => ?_
    refine begins_saveReceipt.silent_bind fun _ => ?_
    refine (begins_call rfl _).cons_bind fun resumed => ?_
    refine (begins_updateReceipt _).silent_bind fun _ => ?_
    refine begins_saveReceipt.silent_bind fun _ => ?_
    refine (begins_ofExcept _).silent_bind fun policy => ?_
    split
    · exact begins_raise _ _
    · exact (begins_deliver a).cons_bind fun _ => begins_close

end SendMessage

namespace ForkThread

theorem begins_refuseGoal (a : ForkThread) :
    Begins a.refuseGoal [.request "thread/goal/get"] := by
  unfold refuseGoal goalState
  refine Co.Emits.cons_bind ?_ fun state => ?_
  · rw [← List.append_nil [Effect.request "thread/goal/get"]]
    refine Co.Emits.tryCatch (begins_call rfl _) fun error => ?_
    cases error <;> exact begins_raise _ _
  · split
    · exact begins_raise _ _
    · exact begins_pure _ _
    · exact begins_raise _ _

theorem begins_action (a : ForkThread) :
    Begins a.action
      [.request "thread/read", .request "thread/goal/get", .request "thread/fork"] := by
  unfold action
  refine (begins_call rfl _).cons_bind fun state => ?_
  refine (begins_ofExcept _).silent_bind fun source => ?_
  refine (begins_ofExcept _).silent_bind fun refused => ?_
  split
  · exact begins_raise _ _
  refine (begins_refuseGoal a).cons_bind fun _ => ?_
  refine (begins_call rfl _).cons_bind fun fork => ?_
  refine (begins_ofExcept _).silent_bind fun forkId => ?_
  refine (begins_updateReceipt _).silent_bind fun _ => ?_
  exact begins_saveReceipt.silent_bind fun _ => SendMessage.begins_close

end ForkThread

theorem SetThreadTitle.begins_action (a : SetThreadTitle) :
    Begins a.action [.request "thread/name/set"] :=
  (begins_call rfl _).cons_bind fun _ => begins_updateReceipt _

theorem SetThreadArchived.begins_action (a : SetThreadArchived) :
    Begins a.action
      [.request "thread/read", .request "thread/archive", .request "thread/unarchive"] := by
  have hread : Begins a.refuseBusy [.request "thread/read"] := by
    unfold refuseBusy
    refine (begins_call rfl _).cons_bind fun state => ?_
    refine (begins_ofExcept _).silent_bind fun thread => ?_
    refine (begins_ofExcept _).silent_bind fun status => ?_
    split
    · exact begins_raise _ _
    · exact begins_pure _ _
  unfold action
  by_cases harchived : a.archived.truthy = true
  · simp only [if_pos harchived]
    refine hread.cons_bind fun _ => ?_
    exact (begins_call rfl _).cons_bind fun _ => (begins_updateReceipt _).weaken
  · simp only [if_neg harchived]
    refine Co.Emits.skip (Co.Emits.skip ?_)
    exact (begins_call rfl _).cons_bind fun _ => begins_updateReceipt _

/-! ## §3. The tools. -/

/-- The effects a tool can begin, in order. -/
def ToolCall.effects : ToolCall → List Effect
  | .createThread _ =>
      [.entered, .request "project/read", .request "thread/start",
       .request "thread/name/set", .request "turn/start"]
  | .createWorktreeThread _ =>
      [.entered, .request "project/read", .mkdir, .worktreeAdd, .readTree, .checkoutIndex,
       .request "thread/start", .request "thread/name/set", .request "turn/start"]
  | .sendMessageToThread _ =>
      [.entered, .request "thread/read", .request "thread/resume", .request "turn/start"]
  | .forkThread _ =>
      [.entered, .request "thread/read", .request "thread/goal/get", .request "thread/fork"]
  | .setThreadTitle _ => [.entered, .request "thread/name/set"]
  | .setThreadArchived _ =>
      [.entered, .request "thread/read", .request "thread/archive",
       .request "thread/unarchive"]

theorem ToolCall.effects_nodup (t : ToolCall) : t.effects.Nodup := by
  cases t <;> simp [effects]

theorem begins_legacyParams (t : ToolCall) :
    ∀ legacy ∈ t.legacyParams, Begins legacy [] := by
  intro legacy hlegacy
  cases t with
  | createThread a =>
      obtain rfl : a.legacyParams = legacy := by simpa [ToolCall.legacyParams] using hlegacy
      exact (looks_resolve _).begins.silent_bind fun _ => begins_pure _ _
  | _ => simp [ToolCall.legacyParams] at hlegacy

theorem begins_validateFresh (t : ToolCall) : Begins t.validateFresh [] := by
  cases t with
  | createThread a => exact (looks_absoluteDirectory _).begins
  | _ => exact begins_pure _ _

/-- The action of a tool begins what is left after its entry. -/
theorem ToolCall.begins_action (t : ToolCall) (cwd : String) :
    Begins (t.action cwd) t.effects.tail := by
  cases t with
  | createThread a => exact a.begins_action cwd
  | createWorktreeThread a => exact a.begins_action
  | sendMessageToThread a => exact a.begins_action
  | forkThread a => exact a.begins_action
  | setThreadTitle a => exact a.begins_action
  | setThreadArchived a => exact a.begins_action

variable [Hashlib]

theorem begins_matchRow {requestId method fp : String} {legacyParams : Option (Act Dict)}
    (h : ∀ legacy ∈ legacyParams, Begins legacy []) (row : StoredRow) :
    Begins (Ledger.matchRow requestId method fp legacyParams row) [] := by
  obtain ⟨stored, receipt⟩ := row
  unfold Ledger.matchRow
  dsimp only
  split
  · exact begins_pure _ _
  · split
    · rename_i _ legacy _
      refine (h legacy rfl).silent_bind fun params => ?_
      refine (begins_ofExcept _).silent_bind fun fp' => ?_
      split
      · exact begins_pure _ _
      · exact begins_raise _ _
    · exact begins_raise _ _

theorem begins_lookup {requestId method : String} {params : Dict}
    {legacyParams : Option (Act Dict)} (h : ∀ legacy ∈ legacyParams, Begins legacy []) :
    Begins (Ledger.lookup requestId method params legacyParams) [] := by
  unfold Ledger.lookup
  refine (begins_ofExcept _).silent_bind fun fp => ?_
  refine (begins_perform (.select requestId) _).silent_bind fun row => ?_
  split
  · exact begins_pure _ _
  · exact (begins_matchRow h _).silent_bind fun _ => begins_pure _ _

theorem begins_begin {requestId method : String} {params : Dict}
    {legacyParams : Option (Act Dict)} (h : ∀ legacy ∈ legacyParams, Begins legacy []) :
    Begins (Ledger.begin requestId method params legacyParams) [] := by
  unfold Ledger.begin
  refine (begins_ofExcept _).silent_bind fun fp => ?_
  refine looks_now.begins.silent_bind fun startedAt => ?_
  refine (begins_perform (.beginRow requestId fp _) _).silent_bind fun answer => ?_
  exact (begins_matchRow h _).silent_bind fun _ => begins_pure _ _

omit [Hashlib] in
theorem begins_settle (error : PyExc) : Begins (settle error) [] := by
  cases error with
  | rpcError method error => exact begins_updateReceipt _
  | worktreeError message => exact begins_updateReceipt _
  | cancelledError =>
      refine Co.emits_get.silent_bind fun receipt => ?_
      exact (begins_save _).silent_bind fun _ => begins_raise _ _
  | exception cls message => exact begins_updateReceipt _

omit [Hashlib] in
theorem begins_attempt {requestId : String} {action : Act Unit} {L : List Effect}
    (h : Begins action L) : Begins (attempt requestId action) (.entered :: L) := by
  unfold attempt
  rw [← List.append_nil (Effect.entered :: L)]
  refine Co.Emits.bind ?_ fun _ => begins_saveReceipt
  rw [← List.append_nil (Effect.entered :: L)]
  refine Co.Emits.tryCatch ?_ begins_settle
  refine (Co.emits_ask (l := Op.effect) (Op.enter requestId)).cons_bind fun _ => ?_
  rw [← List.append_nil L]
  exact Co.Emits.bind h fun _ => begins_updateReceipt _

/-- **Each effect at most once, in a fixed order**, on every path of a tool. -/
theorem ToolCall.begins_run (t : ToolCall) (requestId : String) :
    Begins (t.run requestId) t.effects := by
  have htail : t.effects = .entered :: t.effects.tail := by cases t <;> rfl
  unfold ToolCall.run mutate
  refine (begins_ofExcept _).silent_bind fun _ => ?_
  refine (begins_perform .acquire _).silent_bind fun _ => ?_
  rw [← List.append_nil t.effects]
  refine Co.Emits.tryFinally ?_ (Co.emits_ask (l := Op.effect) Op.release)
  unfold mutateLocked
  refine (begins_lookup (begins_legacyParams t)).silent_bind fun retained => ?_
  split
  · exact begins_pure _ _
  refine (begins_validateFresh t).silent_bind fun cwd => ?_
  refine (begins_begin (begins_legacyParams t)).silent_bind fun begun => ?_
  obtain ⟨fresh, receipt⟩ := begun
  dsimp only
  split
  · exact begins_pure _ _
  refine (Co.emits_modify _).silent_bind fun _ => ?_
  rw [htail]
  exact begins_attempt (t.begins_action cwd)

end CodexRemoteBridge

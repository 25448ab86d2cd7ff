/-
  CodexRemoteBridge.Hosts — following an action step by step.

  An observer that grants what a step of an action may do follows any
  composition of such steps.  §1 states what is to be granted, §2 gives
  the rule of each step, §3 follows the parts that several tools or several
  analyses share, and §4 whole actions.
-/
import CodexRemoteBridge.Dispatch

namespace CodexRemoteBridge

open Interaction

/-! ## §1. What an observer grants. -/

/-- The operations of an action besides its saves and its requests. -/
def Op.isActing : Op → Bool
  | .mkdir _ | .git _ _ => true
  | op => op.isLook

theorem Op.isActing_of_isLook {op : Op} (h : op.isLook = true) : op.isActing = true := by
  cases op <;> simp_all [Op.isLook, Op.isActing]

/-- A receipt as `save` writes it, with the time of the save. -/
def stamped (receipt : Dict) (updatedAt : String) : Dict :=
  receipt.update [("updatedAt", .float updatedAt)]

/-- What an observer has to grant to follow a part of an action that writes
the fields `keys` and makes the requests `methods`: it stays in `J` while
the action goes on, and is in `X` where something has raised. -/
structure Hosts {M : Type} (Φ : OpSpec Ans M) (keys methods : String → Prop)
    (J : Dict → M → Prop) (X : PyExc → Dict → M → Prop) : Prop where
  mono : Φ.Mono
  act : ∀ op s m, op.isActing = true → J s m → Φ op (fun _ m' => J s m') m
  update : ∀ key updatedAt s m, s.get? "requestId" = some key → J s m →
    Φ (.update key (stamped s updatedAt)) (fun _ m' => J s m') m
  fields : ∀ (fields s : Dict) m, (∀ key ∈ fields.keys, keys key) → J s m →
    J (s.update fields) m
  call : ∀ method params s m, methods method → J s m → Φ (.call method params) (fun r m' =>
    match r with
    | .ok _ => J s m'
    | .error e => X e s m') m
  close : ∀ s m, J s m → Φ .close (fun r m' =>
    match r with
    | .ok _ => J s m'
    | .error e => X e s m') m
  /-- The action's own refusals. -/
  own : ∀ e s m, J s m → X e s m
  /-- The one exception an action raises in place of another. -/
  goal : ∀ method error s m, X (.rpcError method error) s m → X ForkThread.goalUnverified s m

/-! ## §2. Steps. -/

section Fills

variable {α β M : Type} {Φ : OpSpec Ans M} {keys methods : String → Prop}
variable {J : Dict → M → Prop} {X : PyExc → Dict → M → Prop}

/-- The coroutine stays within what `Φ` grants. -/
abbrev Fills (Φ : OpSpec Ans M) (J : Dict → M → Prop) (X : PyExc → Dict → M → Prop)
    (c : Act α) : Prop := c.Keeps Φ J X

theorem fills_pure (a : α) : Fills Φ J X (pure a) := Co.keeps_pure a

theorem fills_whenGiven {value : Option String} {step : String → Act Unit}
    (h : ∀ x, Fills Φ J X (step x)) : Fills Φ J X (whenGiven value step) := by
  cases value with
  | none => exact fills_pure ()
  | some x => exact h x

namespace Hosts

variable (hosts : Hosts Φ keys methods J X)
include hosts

theorem bind {c : Act α} {f : α → Act β} (hc : Fills Φ J X c) (hf : ∀ a, Fills Φ J X (f a)) :
    Fills Φ J X (c >>= f) := Co.Keeps.bind hosts.mono hc hf

theorem only {c : Act α} (hc : c.Only fun op => op.isActing = true) : Fills Φ J X c :=
  hc.keeps hosts.mono (fun op s m hop h => hosts.act op s m hop h) hosts.own

theorem looks {c : Act α} (h : Looks c) : Fills Φ J X c :=
  hosts.only (h.weaken fun _ => Op.isActing_of_isLook)

theorem git (cwd : PyPath) (args : List String) : Fills Φ J X (git cwd args) :=
  hosts.only (only_git (G := fun op => op.isActing = true) rfl)

theorem mkdir (path : PyPath) : Fills Φ J X (Act.mkdir path) :=
  hosts.only (Act.only_perform (G := fun op => op.isActing = true) rfl _)

theorem raises (e : PyExc) : Fills Φ J X (Act.raise e : Act α) :=
  Co.keeps_throw (hosts.own e)

theorem ofExcept (r : Except PyExc α) : Fills Φ J X (Act.ofExcept r) :=
  Co.keeps_ofExcept hosts.own

theorem updateReceipt {fields : Dict} (h : ∀ key ∈ fields.keys, keys key) :
    Fills Φ J X (updateReceipt fields) :=
  Co.keeps_modify fun s m hs => hosts.fields fields s m h hs

theorem calls {method : String} (params : Dict) (h : methods method) :
    Fills Φ J X (Act.call method params) := by
  intro s m hs
  unfold Act.call
  rw [Act.wp_perform]
  refine hosts.mono _ (fun r m' hr => ?_) m (hosts.call method params s m h hs)
  cases r with
  | ok a => exact hr
  | error e => exact hr

/-- A request whose reply is dropped. -/
theorem calls_ {method : String} (params : Dict) (h : methods method) :
    Fills Φ J X (do let _ ← Act.call method params; pure ()) :=
  hosts.bind (hosts.calls _ h) fun _ => fills_pure _

theorem closes : Fills Φ J X Act.close := by
  intro s m hs
  unfold Act.close
  rw [Act.wp_perform]
  refine hosts.mono _ (fun r m' hr => ?_) m (hosts.close s m hs)
  cases r with
  | ok a => exact hr
  | error e => exact hr

theorem saveReceipt : Fills Φ J X saveReceipt := by
  intro s m hs
  unfold CodexRemoteBridge.saveReceipt Ledger.save
  rw [Co.wp_bind, Co.wp_get, Co.wp_bind, Act.now, Act.wp_perform]
  refine hosts.mono _ (fun time m hs => ?_) m (hosts.act .now s m rfl hs)
  show Co.wp Φ (do
      let key ← Act.ofExcept (Json.index "requestId" (.obj (stamped s time)))
      Act.perform (.update key (stamped s time)) lift
      pure (stamped s time)) (fun _ s' m' => J s' m') X s m
  cases hkey : s.get? "requestId" with
  | none =>
      have hindex : Json.index "requestId" (.obj (stamped s time))
          = .error (.keyError "requestId") := by
        simp [Json.index, stamped, Dict.get?_set, hkey]
      rw [hindex]
      exact hosts.own _ s m hs
  | some key =>
      have hindex : Json.index "requestId" (.obj (stamped s time)) = .ok key := by
        simp [Json.index, stamped, Dict.get?_set, hkey]
      rw [hindex, Co.wp_bind, Co.wp_ofExcept]
      dsimp only
      rw [Co.wp_bind, Act.wp_perform]
      refine hosts.mono _ (fun r m hs => ?_) m (hosts.update key time s m hkey hs)
      cases r with
      | ok _ => exact hs
      | error f => exact hosts.own _ s m hs

theorem checkpoint (phase : String) {fields : Dict} (hphase : keys "phase")
    (h : ∀ key ∈ fields.keys, keys key) : Fills Φ J X (checkpoint phase fields) := by
  have hkeys : ∀ key ∈ Dict.keys (("phase", .str phase) :: fields), keys key := by
    intro key hkey
    rcases List.mem_cons.mp hkey with rfl | hkey
    · exact hphase
    · exact h key hkey
  exact hosts.bind (hosts.updateReceipt hkeys) fun _ =>
    hosts.bind hosts.saveReceipt fun _ => fills_pure _

theorem updateWorktree (fields : Dict) (h : keys "worktree") :
    Fills Φ J X (updateWorktree fields) := by
  refine Co.Keeps.get_bind fun receipt m hs => ?_
  split
  · refine hosts.updateReceipt ?_ receipt m hs
    intro key hkey
    obtain rfl : key = "worktree" := by simpa [Dict.keys] using hkey
    exact h
  · exact hosts.raises _ receipt m hs
  · exact hosts.raises _ receipt m hs

/-! ## §3. Parts of actions. -/

/-- The fields `prepare` writes. -/
def prepareKeys : List String :=
  ["phase", "recoveryRequired", "recovery", "requestedCheckout", "initialPrompt",
   "desktopProjectAssociation", "worktree"]

theorem fills_prepare (a : CreateWorktreeThread) (hkeys : ∀ key ∈ prepareKeys, keys key)
    (hproject : methods "project/read") : Fills Φ J X a.prepare := by
  have hphase : keys "phase" := hkeys _ (by simp [prepareKeys])
  have hworktree : keys "worktree" := hkeys _ (by simp [prepareKeys])
  have hcheckpoint : ∀ phase : String, Fills Φ J X (CodexRemoteBridge.checkpoint phase []) :=
    fun phase => hosts.checkpoint phase hphase (by simp [Dict.keys])
  have hupdate : ∀ fields, Fills Φ J X (CodexRemoteBridge.updateWorktree fields) :=
    fun fields => hosts.updateWorktree fields hworktree
  unfold CreateWorktreeThread.prepare
  refine hosts.bind (hosts.checkpoint _ hphase fun key hkey => hkeys key ?_) fun _ => ?_
  · simp only [CreateWorktreeThread.openingFields, Dict.keys, List.map_cons, List.map_nil] at hkey
    exact List.mem_of_mem_take (i := 6) (List.mem_cons_of_mem _ hkey)
  refine hosts.bind (hosts.looks (Worktree.looks_validate _ _ _)) fun worktree => ?_
  refine hosts.bind (fills_whenGiven fun project => hosts.calls_ _ hproject) fun _ => ?_
  refine hosts.bind (hosts.checkpoint _ hphase (by simpa [Dict.keys] using hworktree))
    fun _ => ?_
  refine hosts.bind (hosts.mkdir worktree.destination) fun _ => ?_
  refine hosts.bind (hupdate _) fun _ => hosts.bind (hcheckpoint _) fun _ => ?_
  refine hosts.bind (hosts.bind (hosts.git _ _) fun _ => fills_pure _) fun _ => ?_
  refine hosts.bind (hupdate _) fun _ => hosts.bind (hcheckpoint _) fun _ => ?_
  have hcheckout : Fills Φ J X worktree.checkout :=
    hosts.bind (hosts.looks (looks_checkoutFilterConfig _)) fun overrides =>
      hosts.bind (hosts.git _ _) fun _ => hosts.bind (hosts.git _ _) fun _ => fills_pure _
  refine hosts.bind hcheckout fun _ => ?_
  refine hosts.bind (hupdate _) fun _ => hosts.bind (hcheckpoint _) fun _ => ?_
  refine hosts.bind (hosts.looks (Worktree.looks_inspect _)) fun actual => ?_
  refine hosts.bind (hupdate _) fun _ => hosts.bind (hcheckpoint _) fun _ => ?_
  refine hosts.bind (hosts.looks (Worktree.looks_matches _ _)) fun good => ?_
  split
  · exact hosts.bind (hosts.raises _) fun _ => fills_pure _
  · exact hosts.bind (fills_pure ()) fun _ => fills_pure _

theorem fills_receiptThreadId : Fills Φ J X CreateWorktreeThread.receiptThreadId :=
  Co.Keeps.get_bind fun _ _ h => hosts.ofExcept _ _ _ h

theorem fills_name (title : String) (hphase : keys "phase") (htitle : keys "title")
    (hname : methods "thread/name/set") : Fills Φ J X (CreateWorktreeThread.name title) := by
  unfold CreateWorktreeThread.name
  refine hosts.bind (hosts.checkpoint _ hphase (by simp [Dict.keys])) fun _ => ?_
  refine hosts.bind hosts.fills_receiptThreadId fun threadId => ?_
  refine hosts.bind (hosts.calls _ hname) fun _ => ?_
  exact hosts.checkpoint _ hphase (by simpa [Dict.keys] using htitle)

theorem fills_recheck (w : Worktree) (hphase : keys "phase")
    (hchecked : keys "checkoutBeforeDispatch") :
    Fills Φ J X (CreateWorktreeThread.recheck w) := by
  unfold CreateWorktreeThread.recheck
  refine hosts.bind (hosts.looks (Worktree.looks_inspect _)) fun actual => ?_
  refine hosts.bind (hosts.checkpoint _ hphase (by simpa [Dict.keys] using hchecked))
    fun _ => ?_
  refine hosts.bind (hosts.looks (Worktree.looks_matches _ _)) fun good => ?_
  split
  · exact hosts.raises _
  · exact fills_pure _

theorem fills_refuseGoal (a : ForkThread) (hget : methods "thread/goal/get") :
    Fills Φ J X a.refuseGoal := by
  unfold ForkThread.refuseGoal ForkThread.goalState
  refine hosts.bind (Co.Keeps.tryCatch hosts.mono (hosts.calls _ hget) fun e s m h => ?_)
    fun state => ?_
  · cases e with
    | rpcError method error => exact hosts.goal method error s m h
    | worktreeError message => exact h
    | cancelledError => exact h
    | exception cls message => exact h
  · split
    · exact hosts.raises _
    · exact fills_pure _
    · exact hosts.raises _

theorem fills_refuseBusy (a : SetThreadArchived) (hread : methods "thread/read") :
    Fills Φ J X a.refuseBusy := by
  unfold SetThreadArchived.refuseBusy
  refine hosts.bind (hosts.calls _ hread) fun state => hosts.bind (hosts.ofExcept _) fun thread => ?_
  refine hosts.bind (hosts.ofExcept _) fun status => ?_
  split
  · exact hosts.raises _
  · exact fills_pure _

end Hosts

end Fills

namespace CreateWorktreeThread

/-- What the fields read off a reply to `thread/start` are. -/
theorem environmentFields_ok {a : CreateWorktreeThread} {created : Json} {fields : Dict}
    (h : a.environmentFields created = .ok fields) :
    ∃ threadId permissions association,
      index2 "thread" "id" created = .ok threadId ∧
      fields = [("threadId", threadId), ("creation", created),
        ("permissionReceipt", permissions), ("desktopProjectAssociation", association)] := by
  unfold environmentFields at h
  obtain ⟨threadId, hid, h⟩ := bind_eq_ok.mp h
  obtain ⟨_, -, h⟩ := bind_eq_ok.mp h
  obtain ⟨_, -, h⟩ := bind_eq_ok.mp h
  obtain ⟨_, -, h⟩ := bind_eq_ok.mp h
  obtain ⟨_, -, h⟩ := bind_eq_ok.mp h
  obtain ⟨_, -, h⟩ := bind_eq_ok.mp h
  obtain ⟨_, -, h⟩ := bind_eq_ok.mp h
  obtain ⟨_, -, h⟩ := bind_eq_ok.mp h
  exact ⟨threadId, _, _, hid, (Except.ok.inj h).symm⟩

end CreateWorktreeThread

/-! ## §4. Whole actions. -/

/-- The fields a fresh receipt starts with. -/
def headKeys : List String :=
  ["requestId", "operation", "status", "startedAt", "retrySafe", "fingerprintVersion"]

section Whole

variable {M : Type} {Φ : OpSpec Ans M} {keys methods : String → Prop}
variable {J : Dict → M → Prop} {X : PyExc → Dict → M → Prop}
variable (hosts : Hosts Φ keys methods J X) (hkeys : ∀ key, key ∉ headKeys → keys key)
variable (hmethods : ∀ method, methods method)
include hosts hkeys hmethods

omit hosts hmethods in
/-- Fields that a fresh receipt does not have. -/
theorem keys_of {fields : Dict} (h : ∀ key ∈ fields.keys, key ∉ headKeys) :
    ∀ key ∈ fields.keys, keys key := fun key hkey => hkeys key (h key hkey)

theorem CreateThread.fills_action (a : CreateThread) (cwd : String) :
    Fills Φ J X (a.action cwd) := by
  unfold CreateThread.action
  refine hosts.bind (fills_whenGiven fun project => hosts.calls_ _ (hmethods _)) fun _ => ?_
  refine hosts.bind (hosts.calls _ (hmethods _)) fun created => ?_
  refine hosts.bind (hosts.ofExcept _) fun threadId => ?_
  refine hosts.bind (hosts.updateReceipt (keys_of hkeys ?_)) fun _ => ?_
  · simp [Dict.keys, headKeys]
  refine hosts.bind hosts.saveReceipt fun _ => ?_
  refine hosts.bind (hosts.ofExcept _) fun actual => ?_
  refine hosts.bind (hosts.ofExcept _) fun expected => ?_
  refine hosts.bind (hosts.ofExcept _) fun mismatch => ?_
  split
  · exact hosts.raises _
  refine hosts.bind (fills_whenGiven fun title => ?_) fun _ => ?_
  · refine hosts.bind (hosts.calls _ (hmethods _)) fun _ => ?_
    refine hosts.bind (hosts.updateReceipt (keys_of hkeys ?_)) fun _ => ?_
    · simp [Dict.keys, headKeys]
    exact hosts.bind hosts.saveReceipt fun _ => fills_pure _
  refine hosts.bind (fills_whenGiven fun prompt => ?_) fun _ => ?_
  · refine hosts.bind (hosts.calls _ (hmethods _)) fun turn => ?_
    refine hosts.bind (hosts.ofExcept _) fun turnId => ?_
    exact hosts.updateReceipt (keys_of hkeys (by simp [Dict.keys, headKeys]))
  · exact hosts.updateReceipt (keys_of hkeys (by simp [Dict.keys, headKeys]))

namespace CreateWorktreeThread

theorem fills_start (a : CreateWorktreeThread) (w : Worktree) : Fills Φ J X (a.start w) := by
  have hphase : keys "phase" := hkeys _ (by simp [headKeys])
  unfold start
  refine hosts.bind (hosts.checkpoint _ hphase (by simp [Dict.keys])) fun _ => ?_
  refine hosts.bind (hosts.calls _ (hmethods _)) fun created => ?_
  refine Co.Keeps.ofExcept_bind hosts.own fun fields hfields => ?_
  refine hosts.bind (hosts.checkpoint _ hphase (keys_of hkeys ?_)) fun _ => ?_
  · obtain ⟨_, _, _, -, rfl⟩ := environmentFields_ok hfields
    simp [Dict.keys, headKeys]
  refine hosts.bind (hosts.ofExcept _) fun mismatch => ?_
  split
  · exact hosts.raises _
  · exact fills_pure _

theorem fills_dispatch (prompt : String) : Fills Φ J X (dispatch prompt) := by
  have hphase : keys "phase" := hkeys _ (by simp [headKeys])
  unfold dispatch
  refine hosts.bind (hosts.checkpoint _ hphase (keys_of hkeys ?_)) fun _ => ?_
  · simp [Dict.keys, headKeys]
  refine hosts.bind hosts.fills_receiptThreadId fun threadId => ?_
  refine hosts.bind (hosts.calls _ (hmethods _)) fun turn => ?_
  refine hosts.bind (hosts.ofExcept _) fun turnId => ?_
  exact hosts.checkpoint _ hphase (keys_of hkeys (by simp [Dict.keys, headKeys]))

theorem fills_action (a : CreateWorktreeThread) : Fills Φ J X a.action := by
  have hphase : keys "phase" := hkeys _ (by simp [headKeys])
  unfold action
  refine hosts.bind (hosts.fills_prepare a ?_ (hmethods _)) fun worktree => ?_
  · exact fun key hkey => hkeys key (by revert key; simp [Hosts.prepareKeys, headKeys])
  refine hosts.bind (fills_start hosts hkeys hmethods a worktree) fun _ => ?_
  refine hosts.bind (fills_whenGiven fun title =>
    hosts.fills_name title hphase (hkeys _ (by simp [headKeys])) (hmethods _)) fun _ => ?_
  refine hosts.bind (hosts.fills_recheck worktree hphase (hkeys _ (by simp [headKeys])))
    fun _ => ?_
  refine hosts.bind (fills_whenGiven (fills_dispatch hosts hkeys hmethods)) fun _ => ?_
  exact hosts.checkpoint _ hphase (keys_of hkeys (by simp [Dict.keys, headKeys]))

end CreateWorktreeThread

theorem SendMessage.fills_action (a : SendMessage) : Fills Φ J X a.action := by
  have hdeliver : Fills Φ J X a.deliver :=
    hosts.bind (hosts.calls _ (hmethods _)) fun turn => hosts.bind (hosts.ofExcept _)
      fun turnId => hosts.updateReceipt (keys_of hkeys (by simp [Dict.keys, headKeys]))
  unfold action
  refine hosts.bind (hosts.updateReceipt (keys_of hkeys ?_)) fun _ => ?_
  · simp [Dict.keys, headKeys]
  refine hosts.bind hosts.saveReceipt fun _ => ?_
  refine hosts.bind (hosts.calls _ (hmethods _)) fun state => ?_
  refine hosts.bind (hosts.ofExcept _) fun thread => hosts.bind (hosts.ofExcept _) fun status => ?_
  split
  · unfold deliverActive
    refine hosts.bind (hosts.updateReceipt (keys_of hkeys ?_)) fun _ => ?_
    · simp [Dict.keys, headKeys]
    refine hosts.bind hosts.saveReceipt fun _ => hosts.bind hdeliver fun _ => ?_
    exact hosts.bind hosts.saveReceipt fun _ => hosts.closes
  · unfold deliverIdle
    refine hosts.bind (hosts.updateReceipt (keys_of hkeys ?_)) fun _ => ?_
    · simp [Dict.keys, headKeys]
    refine hosts.bind hosts.saveReceipt fun _ => ?_
    refine hosts.bind (hosts.calls _ (hmethods _)) fun resumed => ?_
    refine hosts.bind (hosts.updateReceipt (keys_of hkeys ?_)) fun _ => ?_
    · simp [Dict.keys, headKeys]
    refine hosts.bind hosts.saveReceipt fun _ => ?_
    refine hosts.bind (hosts.ofExcept _) fun policy => ?_
    split
    · exact hosts.raises _
    · exact hosts.bind hdeliver fun _ => hosts.closes

theorem ForkThread.fills_action (a : ForkThread) : Fills Φ J X a.action := by
  unfold action
  refine hosts.bind (hosts.calls _ (hmethods _)) fun state => ?_
  refine hosts.bind (hosts.ofExcept _) fun source => hosts.bind (hosts.ofExcept _) fun refused => ?_
  split
  · exact hosts.raises _
  refine hosts.bind (hosts.fills_refuseGoal a (hmethods _)) fun _ => ?_
  refine hosts.bind (hosts.calls _ (hmethods _)) fun fork => ?_
  refine hosts.bind (hosts.ofExcept _) fun forkId => ?_
  refine hosts.bind (hosts.updateReceipt (keys_of hkeys ?_)) fun _ => ?_
  · simp [Dict.keys, headKeys]
  exact hosts.bind hosts.saveReceipt fun _ => hosts.closes

theorem SetThreadTitle.fills_action (a : SetThreadTitle) : Fills Φ J X a.action :=
  hosts.bind (hosts.calls _ (hmethods _)) fun _ =>
    hosts.updateReceipt (keys_of hkeys (by simp [Dict.keys, headKeys]))

theorem SetThreadArchived.fills_action (a : SetThreadArchived) : Fills Φ J X a.action := by
  have hrest : ∀ method, Fills Φ J X (do
      let _ ← Act.call method [("threadId", .str a.threadId)]
      updateReceipt [("threadId", .str a.threadId), ("archived", a.archived)]) :=
    fun method => hosts.bind (hosts.calls _ (hmethods _)) fun _ =>
      hosts.updateReceipt (keys_of hkeys (by simp [Dict.keys, headKeys]))
  unfold action
  split
  · exact hosts.bind (hosts.fills_refuseBusy a (hmethods _)) fun _ => hrest _
  · exact hrest _

/-- **Every action fills its receipt** and never writes a field that the
ledger wrote when the row was inserted. -/
theorem ToolCall.fills_action (t : ToolCall) (cwd : String) : Fills Φ J X (t.action cwd) := by
  cases t with
  | createThread a => exact a.fills_action hosts hkeys hmethods cwd
  | createWorktreeThread a => exact a.fills_action hosts hkeys hmethods
  | sendMessageToThread a => exact a.fills_action hosts hkeys hmethods
  | forkThread a => exact a.fills_action hosts hkeys hmethods
  | setThreadTitle a => exact a.fills_action hosts hkeys hmethods
  | setThreadArchived a => exact a.fills_action hosts hkeys hmethods

end Whole

end CodexRemoteBridge

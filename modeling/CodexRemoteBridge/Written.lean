/-
  CodexRemoteBridge.Written — every receipt that is written can be read back.

  A receipt is built from what the tools were answered: as long as those
  answers are values Python can hold, so is every receipt, and
  `json.loads(json.dumps(receipt))` is that receipt.

  Main result:
    • `ToolCall.writes_wire` — every row a run inserts or updates holds such a
      receipt, whatever the frames are answered with.
-/
import CodexRemoteBridge.Receipts
import CodexRemoteBridge.Wire
import CodexRemoteBridge.Lib.JsonRoundTrip

namespace CodexRemoteBridge

open Interaction

/-! ## §1. Values Python can hold. -/

section Values

open Json

theorem valid_obj_iff {d : Dict} :
    valid (.obj d) = true ↔ d.keys.Nodup ∧ ∀ kv ∈ d, valid kv.2 = true := by
  have hfields : ∀ d : Dict, validFields d = true ↔ ∀ kv ∈ d, valid kv.2 = true := by
    intro d
    induction d with
    | nil => simp [validFields]
    | cons kv rest ih => simp [validFields, ih]
  rw [valid, Bool.and_eq_true, decide_eq_true_eq, hfields]

/-- Filling a dict with values Python can hold. -/
theorem valid_update {d fields : Dict} (hd : valid (.obj d) = true)
    (hfields : ∀ kv ∈ fields, valid kv.2 = true) : valid (.obj (d.update fields)) = true := by
  induction fields generalizing d with
  | nil => exact hd
  | cons head rest ih =>
      obtain ⟨k, v⟩ := head
      refine ih ?_ fun kv hkv => hfields kv (List.mem_cons_of_mem _ hkv)
      obtain ⟨hnodup, hvalues⟩ := valid_obj_iff.mp hd
      refine valid_obj_iff.mpr ⟨Dict.nodup_keys_set hnodup k v, fun kv hkv => ?_⟩
      rcases Dict.mem_set hkv with rfl | hmem
      · exact hfields (k, v) List.mem_cons_self
      · exact hvalues kv hmem

theorem valid_get? {d : Dict} {key : String} {v : Json} (hd : valid (.obj d) = true)
    (h : d.get? key = some v) : valid v = true := by
  have hvalues := (valid_obj_iff.mp hd).2
  induction d with
  | nil => cases h
  | cons head rest ih =>
      obtain ⟨k, w⟩ := head
      obtain ⟨hnodup, -⟩ := valid_obj_iff.mp hd
      rw [Dict.get?_cons] at h
      split at h
      · cases h
        exact hvalues (k, v) List.mem_cons_self
      · have hrest : ∀ kv ∈ rest, valid kv.2 = true :=
          fun kv hkv => hvalues kv (List.mem_cons_of_mem _ hkv)
        exact ih (valid_obj_iff.mpr ⟨(List.nodup_cons.mp hnodup).2, hrest⟩) h hrest

end Values

/-! ## §2. Exceptions. -/

/-- The error object an exception carries is one Python can hold. -/
def PyExc.Holdable : PyExc → Prop
  | .rpcError _ error => Json.valid (.obj error) = true
  | _ => True

/-- A pure step that hands on what Python can hold. -/
structure Sane {α : Type} (P : α → Prop) (r : Except PyExc α) : Prop where
  value : ∀ a, r = .ok a → P a
  error : ∀ e, r = .error e → e.Holdable

section Sane

variable {α β : Type} {P : α → Prop} {Q : β → Prop}

theorem Sane.ok {a : α} (ha : P a) : Sane P (.ok a) :=
  ⟨fun _ h => Except.ok.inj h ▸ ha, nofun⟩

theorem Sane.raises {e : PyExc} (he : e.Holdable) : Sane P (.error e) :=
  ⟨nofun, fun _ h => Except.error.inj h ▸ he⟩

theorem Sane.bind {x : Except PyExc α} {f : α → Except PyExc β} (hx : Sane P x)
    (hf : ∀ a, P a → Sane Q (f a)) : Sane Q (x >>= f) := by
  cases x with
  | error e => exact Sane.raises (hx.error e rfl)
  | ok a => exact hf a (hx.value a rfl)

/-- A value that Python can hold. -/
abbrev SaneJson (r : Except PyExc Json) : Prop := Sane (fun v => Json.valid v = true) r

/-- A value nothing is asked of. -/
abbrev SaneAny {α : Type} (r : Except PyExc α) : Prop := Sane (fun _ => True) r

theorem Sane.drop {x : Except PyExc α} (hx : Sane P x) : SaneAny x :=
  ⟨fun _ _ => trivial, hx.error⟩

variable {v : Json} (hv : Json.valid v = true)
include hv

theorem sane_index (key : String) : SaneJson (v.index key) := by
  cases v with
  | obj fields =>
      simp only [Json.index]
      cases hget : Dict.get? fields key with
      | none => exact Sane.raises trivial
      | some w => exact Sane.ok (valid_get? hv hget)
  | _ => exact Sane.raises trivial

theorem sane_getField (key : String) (default : Json) (hd : Json.valid default = true) :
    SaneJson ((v.getField key).map (·.getD default)) := by
  cases v with
  | obj fields =>
      simp only [Json.getField]
      cases hget : Dict.get? fields key with
      | none => exact Sane.ok hd
      | some w => exact Sane.ok (valid_get? hv hget)
  | _ => exact Sane.raises trivial

theorem sane_getNone (key : String) : SaneJson (v.getNone key) := sane_getField hv key .null rfl

theorem sane_getEmpty (key : String) : SaneJson (v.getEmpty key) :=
  sane_getField hv key (.obj []) rfl

theorem sane_index2 (outer inner : String) : SaneJson (index2 outer inner v) :=
  (sane_index hv outer).bind fun _ hw => sane_index hw inner

theorem sane_statusType : SaneJson (statusType v) :=
  (sane_getEmpty hv "status").bind fun _ hw => sane_getNone hw "type"

end Sane

/-! ## §3. Steps. -/

/-- What an answer hands to the bridge is what Python can hold. -/
def Answered : Event Ans → Prop
  | ⟨.call _ _, r⟩ => SaneJson r
  | ⟨.close, r⟩ => SaneAny r
  | ⟨.now, time⟩ => Json.isFloatText time = true
  | _ => True

/-- What an operation writes can be read back. -/
def Op.Writes : Op → Prop
  | .beginRow _ _ receipt => Json.valid (.obj receipt) = true
  | .update _ receipt => Json.valid (.obj receipt) = true
  | _ => True

/-- Every row that is written can be read back, as long as the answers are
what Python can hold. -/
abbrev WriteSpec : OpSpec Ans Unit :=
  observeOn (fun _ => Answered) (fun _ _ => ()) fun _ => Op.Writes

theorem writeSpec_mono : OpSpec.Mono WriteSpec := observeOn_mono _ _ _

/-- The receipt in the cell can be read back. -/
abbrev Holdable (receipt : Dict) (_ : Unit) : Prop := Json.valid (.obj receipt) = true

/-- The coroutine fills its receipt with what Python can hold. -/
abbrev Hands {α : Type} (P : α → Prop) (c : Act α) : Prop :=
  c.Yields WriteSpec Holdable PyExc.Holdable P

/-- Nothing is asked of what it returns. -/
abbrev Handles {α : Type} (c : Act α) : Prop := Hands (fun _ => True) c

theorem Fault.holdable_raised (f : Fault) : f.raised.Holdable := by
  cases f <;> trivial

theorem sane_lift {α : Type} (r : Except Fault α) : SaneAny (lift r) := by
  cases r with
  | ok a => exact Sane.ok trivial
  | error f => exact Sane.raises f.holdable_raised

section Steps

variable {α β : Type} {P : α → Prop} {Q : β → Prop}

theorem hands_bind {c : Act α} {f : α → Act β} (hc : Hands P c) (hf : ∀ a, P a → Hands Q (f a)) :
    Hands Q (c >>= f) := Co.Yields.bind writeSpec_mono hc hf

/-- A step whose value does not matter. -/
theorem handles_bind {c : Act α} {f : α → Act β} (hc : Handles c) (hf : ∀ a, Hands Q (f a)) :
    Hands Q (c >>= f) := hands_bind hc fun a _ => hf a

theorem hands_ofExcept {r : Except PyExc α} (hr : Sane P r) : Hands P (Act.ofExcept r) :=
  Co.yields_ofExcept hr.value hr.error

theorem hands_raise {e : PyExc} (he : e.Holdable) : Hands P (Act.raise e) := Co.yields_throw he

theorem handles_pure (a : α) : Handles (pure a) := Co.yields_pure trivial

theorem hands_perform {op : Op} {view : Ans op → Except PyExc α} (hop : op.Writes)
    (hview : ∀ r, Answered ⟨op, r⟩ → Sane P (view r)) : Hands P (Act.perform op view) := by
  intro s m hs
  rw [Act.wp_perform]
  refine ⟨hop, fun r hr => ?_⟩
  dsimp only
  split
  · rename_i a hv
    exact ⟨hs, (hview r hr).value a hv⟩
  · rename_i e hv
    exact ⟨hs, (hview r hr).error e hv⟩

/-- A look at the world. -/
theorem handles_lift {op : Op} {view : Ans op → Except Fault α} (hop : op.Writes) :
    Handles (Act.perform op fun r => lift (view r)) :=
  hands_perform hop fun _ _ => sane_lift _

theorem hands_call (method : String) (params : Dict) :
    Hands (fun v => Json.valid v = true) (Act.call method params) :=
  hands_perform trivial fun _ hr => hr

theorem handles_call_ (method : String) (params : Dict) :
    Handles (do let _ ← Act.call method params; pure ()) :=
  hands_bind (hands_call method params) fun _ _ => handles_pure ()

theorem handles_close : Handles Act.close := hands_perform trivial fun _ hr => hr

theorem hands_now : Hands (fun v => Json.valid v = true) Act.now :=
  hands_perform trivial fun _ hr => Sane.ok hr

/-- Filling the receipt with values Python can hold. -/
theorem handles_updateReceipt {fields : Dict} (h : ∀ kv ∈ fields, Json.valid kv.2 = true) :
    Handles (updateReceipt fields) :=
  Co.yields_modify fun _ _ hs => valid_update hs h

theorem handles_save {receipt : Dict} (h : Json.valid (.obj receipt) = true) :
    Handles (Ledger.save receipt) := by
  refine hands_bind hands_now fun updatedAt htime => ?_
  have hstamped : Json.valid (.obj (receipt.update [("updatedAt", updatedAt)])) = true := by
    refine valid_update h fun kv hkv => ?_
    rw [List.mem_singleton.mp hkv]
    exact htime
  refine hands_bind (hands_ofExcept (sane_index hstamped _)) fun key _ => ?_
  exact handles_bind (handles_lift hstamped) fun _ => handles_pure _

theorem handles_saveReceipt : Handles saveReceipt :=
  Co.Yields.get_bind fun s m hs => handles_save hs s m hs

theorem handles_checkpoint (phase : String) {fields : Dict}
    (h : ∀ kv ∈ fields, Json.valid kv.2 = true) : Handles (checkpoint phase fields) := by
  refine handles_bind (handles_updateReceipt fun kv hkv => ?_) fun _ =>
    handles_bind handles_saveReceipt fun _ => handles_pure _
  rcases List.mem_cons.mp hkv with rfl | hkv
  · rfl
  · exact h kv hkv

theorem handles_updateWorktree {fields : Dict} (h : ∀ kv ∈ fields, Json.valid kv.2 = true) :
    Handles (updateWorktree fields) := by
  refine Co.Yields.get_bind fun receipt m hs => ?_
  split
  · rename_i worktree hget
    refine handles_updateReceipt (fun kv hkv => ?_) receipt m hs
    rw [List.mem_singleton.mp hkv]
    exact valid_update (valid_get? hs hget) h
  · exact ⟨hs, trivial⟩
  · exact ⟨hs, trivial⟩

theorem handles_whenGiven {value : Option String} {step : String → Act Unit}
    (h : ∀ x, Handles (step x)) : Handles (whenGiven value step) := by
  cases value with
  | none => exact handles_pure ()
  | some x => exact h x

end Steps

/-! ## §4. Looks. -/

theorem handles_git (cwd : PyPath) (args : List String) : Handles (git cwd args) := by
  unfold git
  refine handles_bind (handles_lift trivial) fun exited => ?_
  split
  · exact hands_raise trivial
  · split
    · exact hands_raise trivial
    · exact handles_pure _

theorem handles_checkoutFilterConfig (cwd : PyPath) : Handles (checkoutFilterConfig cwd) :=
  handles_bind (handles_git _ _) fun _ => handles_pure _

theorem handles_absoluteDirectory (cwd : String) : Handles (absoluteDirectory cwd) := by
  unfold absoluteDirectory
  dsimp only
  split
  · exact hands_raise trivial
  · refine handles_bind (handles_lift trivial) fun isDir => ?_
    split
    · exact hands_raise trivial
    · exact handles_bind (handles_lift trivial) fun _ => handles_pure _

theorem handles_canonicalPath (value name : String) : Handles (canonicalPath value name) := by
  unfold canonicalPath
  dsimp only
  split
  · exact hands_raise trivial
  · refine handles_bind (handles_lift trivial) fun resolved => ?_
    split
    · exact hands_raise trivial
    · exact handles_pure _

namespace Worktree

theorem handles_refuseRepositories (parents : List PyPath) :
    Handles (refuseRepositories parents) := by
  induction parents with
  | nil => exact handles_pure ()
  | cons parent rest ih =>
      have hnext : ∀ bare : Bool, Handles (if bare = true then
          Act.raise (.worktreeError "destination must be outside existing repositories")
          else refuseRepositories rest) := by
        intro bare
        split
        · exact hands_raise trivial
        · exact ih
      unfold refuseRepositories
      dsimp only
      refine handles_bind (handles_lift trivial) fun nested => ?_
      split
      · exact hands_raise trivial
      · refine handles_bind (handles_lift trivial) fun head => ?_
        split
        · exact handles_bind (handles_lift trivial) hnext
        · exact handles_bind (handles_pure false) hnext

theorem handles_insideAny (target : PyPath) (paths : List PyPath) :
    Handles (insideAny target paths) := by
  induction paths with
  | nil => exact handles_pure _
  | cons path rest ih =>
      unfold insideAny
      refine handles_bind (handles_lift trivial) fun resolved => ?_
      split
      · exact handles_pure _
      · exact ih

theorem handles_unusable (target : PyPath) : Handles (unusable target) := by
  unfold unusable
  refine handles_bind (handles_lift trivial) fun present => ?_
  split
  · exact handles_pure _
  · refine handles_bind (handles_lift trivial) fun symlink => ?_
    split
    · exact handles_pure _
    · exact handles_bind (handles_lift trivial) fun _ => handles_pure _

theorem handles_validate (sourceRepository startingRevision destination : String) :
    Handles (validate sourceRepository startingRevision destination) := by
  unfold validate
  refine handles_bind (handles_canonicalPath _ _) fun source => ?_
  refine handles_bind (handles_canonicalPath _ _) fun target => ?_
  refine handles_bind (handles_lift trivial) fun sourceIsDir => ?_
  split
  · exact hands_raise trivial
  split
  · exact hands_raise trivial
  refine handles_bind (handles_git _ _) fun root => ?_
  split
  · exact hands_raise trivial
  refine handles_bind (handles_git _ _) fun kind => ?_
  split
  · exact hands_raise trivial
  refine handles_bind (handles_git _ _) fun commonText => ?_
  refine handles_bind (handles_unusable _) fun bad => ?_
  split
  · exact hands_raise trivial
  refine handles_bind (handles_refuseRepositories _) fun _ => ?_
  refine handles_bind (handles_git _ _) fun worktrees => ?_
  refine handles_bind (handles_insideAny _ _) fun inside => ?_
  split
  · exact hands_raise trivial
  · exact handles_bind (handles_lift trivial) fun _ => handles_pure _

theorem handles_inspect (w : Worktree) : Handles w.inspect := by
  unfold inspect
  refine handles_bind (handles_checkoutFilterConfig _) fun overrides => ?_
  refine handles_bind (handles_git _ _) fun _ => handles_bind (handles_git _ _) fun _ => ?_
  refine handles_bind (handles_git _ _) fun _ => handles_bind (handles_git _ _) fun _ => ?_
  exact handles_bind (handles_git _ _) fun _ => handles_pure _

theorem handles_matches (w : Worktree) (actual : Inspection) : Handles (w.matches actual) := by
  unfold «matches»
  split
  · exact handles_bind (handles_lift trivial) fun _ => handles_pure _
  · exact handles_pure _

end Worktree

/-! ## §5. Actions. -/

/-- A turn's own identifier is a value Python can hold. -/
theorem handles_receiptThreadId :
    Hands (fun v => Json.valid v = true) CreateWorktreeThread.receiptThreadId :=
  Co.Yields.get_bind fun s m hs => hands_ofExcept (sane_index hs "threadId") s m hs

theorem CreateThread.sane_actualSandbox {created : Json} (h : Json.valid created = true) :
    SaneJson (CreateThread.actualSandbox created) :=
  (sane_getEmpty h "sandbox").bind fun _ hs => sane_getNone hs "type"

theorem CreateThread.sane_expectedSandbox (a : CreateThread) : SaneAny a.expectedSandbox := by
  unfold expectedSandbox
  split
  · exact Sane.ok trivial
  · exact Sane.raises trivial

theorem CreateThread.sane_differs (cwd expected : String) {created : Json} (actual : Json)
    (h : Json.valid created = true) : SaneAny (CreateThread.differs cwd expected created actual) := by
  unfold differs
  refine (sane_getNone h "cwd").bind fun reported _ => ?_
  split
  · exact Sane.ok trivial
  · refine (sane_getNone h "approvalPolicy").bind fun policy _ => ?_
    split <;> exact Sane.ok trivial

theorem CreateThread.handles_action (a : CreateThread) (cwd : String) : Handles (a.action cwd) := by
  unfold action
  refine handles_bind (handles_whenGiven fun project => handles_call_ _ _) fun _ => ?_
  refine hands_bind (hands_call _ _) fun created hcreated => ?_
  refine hands_bind (hands_ofExcept (sane_index2 hcreated _ _)) fun threadId hid => ?_
  refine handles_bind (handles_updateReceipt ?_) fun _ => ?_
  · simp [hid, hcreated]
  refine handles_bind handles_saveReceipt fun _ => ?_
  refine handles_bind (hands_ofExcept (CreateThread.sane_actualSandbox hcreated).drop) fun actual => ?_
  refine handles_bind (hands_ofExcept a.sane_expectedSandbox) fun expected => ?_
  refine handles_bind (hands_ofExcept (CreateThread.sane_differs _ _ _ hcreated)) fun mismatch => ?_
  split
  · exact hands_raise rfl
  refine handles_bind (handles_whenGiven fun title => ?_) fun _ => ?_
  · refine hands_bind (hands_call _ _) fun _ _ => ?_
    refine handles_bind (handles_updateReceipt (by simp [Json.valid])) fun _ => ?_
    exact handles_bind handles_saveReceipt fun _ => handles_pure _
  refine handles_bind (handles_whenGiven fun prompt => ?_) fun _ => ?_
  · refine hands_bind (hands_call _ _) fun turn hturn => ?_
    refine hands_bind (hands_ofExcept (sane_index2 hturn _ _)) fun turnId hid => ?_
    exact handles_updateReceipt (by simp [hid])
  · exact handles_updateReceipt (by simp [Json.valid])

namespace CreateWorktreeThread

theorem valid_obj_inspection (actual : Inspection) : Json.valid (.obj actual.toDict) = true := rfl

theorem valid_obj_receipt (worktree : Worktree) : Json.valid (.obj worktree.receipt) = true := rfl

theorem handles_prepare (a : CreateWorktreeThread) : Handles a.prepare := by
  have hupdate : ∀ state : String, Handles (updateWorktree [("state", .str state)]) :=
    fun state => handles_updateWorktree (by simp [Json.valid])
  have hcheckpoint : ∀ phase : String, Handles (checkpoint phase []) :=
    fun phase => handles_checkpoint phase (by simp)
  unfold prepare
  refine handles_bind (handles_checkpoint _ ?_) fun _ => ?_
  · simp [openingFields, Json.valid, Json.validFields, Dict.keys]
  refine handles_bind (Worktree.handles_validate _ _ _) fun worktree => ?_
  refine handles_bind (handles_whenGiven fun project => handles_call_ _ _) fun _ => ?_
  refine handles_bind (handles_checkpoint _ ?_) fun _ => ?_
  · simp [valid_obj_receipt]
  refine handles_bind (handles_lift trivial) fun _ => ?_
  refine handles_bind (hupdate _) fun _ => handles_bind (hcheckpoint _) fun _ => ?_
  refine handles_bind (handles_bind (handles_git _ _) fun _ => handles_pure _) fun _ => ?_
  refine handles_bind (hupdate _) fun _ => handles_bind (hcheckpoint _) fun _ => ?_
  have hcheckout : Handles worktree.checkout :=
    handles_bind (handles_checkoutFilterConfig _) fun overrides =>
      handles_bind (handles_git _ _) fun _ => handles_bind (handles_git _ _) fun _ => handles_pure _
  refine handles_bind hcheckout fun _ => ?_
  refine handles_bind (hupdate _) fun _ => handles_bind (hcheckpoint _) fun _ => ?_
  refine handles_bind (Worktree.handles_inspect _) fun actual => ?_
  refine handles_bind (handles_updateWorktree ?_) fun _ => handles_bind (hcheckpoint _) fun _ => ?_
  · exact (valid_obj_iff.mp (valid_obj_inspection actual)).2
  refine handles_bind (Worktree.handles_matches _ _) fun good => ?_
  split
  · exact handles_bind (hands_raise trivial) fun _ => handles_pure _
  · exact handles_bind (handles_pure ()) fun _ => handles_pure _

/-- What is read off a reply to `thread/start`. -/
theorem sane_environmentFields (a : CreateWorktreeThread) {created : Json}
    (h : Json.valid created = true) :
    Sane (fun fields => ∀ kv ∈ fields, Json.valid kv.2 = true) (a.environmentFields created) := by
  unfold environmentFields
  refine (sane_index2 h _ _).bind fun threadId hid => ?_
  refine (sane_getNone h _).bind fun approvalPolicy hpolicy => ?_
  refine (sane_getNone h _).bind fun sandbox hsandbox => ?_
  refine (sane_getNone h _).bind fun profile hprofile => ?_
  refine (sane_getNone h _).bind fun roots hroots => ?_
  refine (sane_getNone h _).bind fun cwd hcwd => ?_
  refine (sane_index h _).bind fun thread hthread => ?_
  refine (sane_getNone hthread _).bind fun project hproject => ?_
  refine Sane.ok ?_
  simp [Json.valid, Json.validFields, Dict.keys, hid, h, hpolicy, hsandbox, hprofile, hroots, hcwd,
    hproject]

theorem sane_differs (a : CreateWorktreeThread) (worktree : Worktree) {created : Json}
    (h : Json.valid created = true) : SaneAny (a.differs worktree created) := by
  unfold differs
  refine (sane_index h _).bind fun thread hthread => ?_
  refine (sane_getNone h _).bind fun _ _ => (sane_getNone hthread _).bind fun _ _ => ?_
  refine (sane_getNone h _).bind fun _ _ => (sane_getNone h _).bind fun _ _ => ?_
  refine (sane_getNone h _).bind fun _ _ => (sane_getNone h _).bind fun _ _ => ?_
  refine (sane_getNone h _).bind fun _ _ => (sane_getNone hthread _).bind fun _ _ => ?_
  exact Sane.ok trivial

theorem handles_start (a : CreateWorktreeThread) (worktree : Worktree) :
    Handles (a.start worktree) := by
  unfold start
  refine handles_bind (handles_checkpoint _ (by simp)) fun _ => ?_
  refine hands_bind (hands_call _ _) fun created hcreated => ?_
  refine hands_bind (hands_ofExcept (a.sane_environmentFields hcreated)) fun fields hfields => ?_
  refine handles_bind (handles_checkpoint _ hfields) fun _ => ?_
  refine handles_bind (hands_ofExcept (a.sane_differs worktree hcreated)) fun mismatch => ?_
  split
  · exact hands_raise trivial
  · exact handles_pure _

theorem handles_name (title : String) : Handles (name title) := by
  unfold name
  refine handles_bind (handles_checkpoint _ (by simp)) fun _ => ?_
  refine hands_bind handles_receiptThreadId fun threadId _ => ?_
  refine hands_bind (hands_call _ _) fun _ _ => ?_
  exact handles_checkpoint _ (by simp [Json.valid])

theorem handles_recheck (worktree : Worktree) : Handles (recheck worktree) := by
  unfold recheck
  refine handles_bind (Worktree.handles_inspect _) fun actual => ?_
  refine handles_bind (handles_checkpoint _ (by simp [valid_obj_inspection])) fun _ => ?_
  refine handles_bind (Worktree.handles_matches _ _) fun good => ?_
  split
  · exact hands_raise trivial
  · exact handles_pure _

theorem handles_dispatch (prompt : String) : Handles (dispatch prompt) := by
  unfold dispatch
  refine handles_bind (handles_checkpoint _ ?_) fun _ => ?_
  · simp [Json.valid, Json.validFields, Dict.keys]
  refine hands_bind handles_receiptThreadId fun threadId _ => ?_
  refine hands_bind (hands_call _ _) fun turn hturn => ?_
  refine hands_bind (hands_ofExcept (sane_index2 hturn _ _)) fun turnId hid => ?_
  exact handles_checkpoint _ (by simp [Json.valid, Json.validFields, Dict.keys, hid])

theorem handles_action (a : CreateWorktreeThread) : Handles a.action := by
  unfold action
  refine handles_bind a.handles_prepare fun worktree => ?_
  refine handles_bind (a.handles_start worktree) fun _ => ?_
  refine handles_bind (handles_whenGiven handles_name) fun _ => ?_
  refine handles_bind (handles_recheck worktree) fun _ => ?_
  refine handles_bind (handles_whenGiven handles_dispatch) fun _ => ?_
  exact handles_checkpoint _ (by simp [Json.valid])

end CreateWorktreeThread

theorem SendMessage.handles_action (a : SendMessage) : Handles a.action := by
  have hdeliver : Handles a.deliver := by
    refine hands_bind (hands_call _ _) fun turn hturn => ?_
    refine hands_bind (hands_ofExcept (sane_index2 hturn _ _)) fun turnId hid => ?_
    exact handles_updateReceipt (by simp [hid])
  unfold action
  refine handles_bind (handles_updateReceipt (by simp [Json.valid])) fun _ => ?_
  refine handles_bind handles_saveReceipt fun _ => ?_
  refine hands_bind (hands_call _ _) fun state hstate => ?_
  refine hands_bind (hands_ofExcept (sane_index hstate _)) fun thread hthread => ?_
  refine hands_bind (hands_ofExcept (sane_statusType hthread)) fun status _ => ?_
  split
  · unfold deliverActive
    refine handles_bind (handles_updateReceipt (by simp [Json.valid])) fun _ => ?_
    refine handles_bind handles_saveReceipt fun _ => handles_bind hdeliver fun _ => ?_
    exact handles_bind handles_saveReceipt fun _ => handles_close
  · unfold deliverIdle
    refine handles_bind (handles_updateReceipt (by simp [Json.valid])) fun _ => ?_
    refine handles_bind handles_saveReceipt fun _ => ?_
    refine hands_bind (hands_call _ _) fun resumed hresumed => ?_
    refine handles_bind (handles_updateReceipt (by simp [hresumed])) fun _ => ?_
    refine handles_bind handles_saveReceipt fun _ => ?_
    refine hands_bind (hands_ofExcept (sane_getNone hresumed _)) fun policy _ => ?_
    split
    · exact hands_raise rfl
    · exact handles_bind hdeliver fun _ => handles_close

theorem ForkThread.sane_unsuitable {source : Json} (h : Json.valid source = true) :
    SaneAny (unsuitable source) := by
  unfold unsuitable
  refine (sane_statusType h).bind fun status _ => ?_
  split
  · exact Sane.ok trivial
  · exact (sane_getNone h _).bind fun _ _ => Sane.ok trivial

theorem ForkThread.handles_action (a : ForkThread) : Handles a.action := by
  have hgoal : Handles a.goalState := by
    refine Co.Yields.tryCatch writeSpec_mono ?_ fun e he => ?_
    · exact fun s m hs => Co.wp_conseq writeSpec_mono (hands_call _ _ s m hs)
        (fun _ _ _ h => ⟨h.1, trivial⟩) fun _ _ _ h => h
    · cases e with
      | rpcError method error => exact hands_raise rfl
      | worktreeError message => exact hands_raise he
      | cancelledError => exact hands_raise he
      | exception cls message => exact hands_raise he
  have hrefuse : Handles a.refuseGoal := by
    refine handles_bind hgoal fun state => ?_
    split
    · exact hands_raise rfl
    · exact handles_pure _
    · exact hands_raise rfl
  unfold action
  refine hands_bind (hands_call _ _) fun state hstate => ?_
  refine hands_bind (hands_ofExcept (sane_index hstate _)) fun source hsource => ?_
  refine handles_bind (hands_ofExcept (sane_unsuitable hsource)) fun refused => ?_
  split
  · exact hands_raise rfl
  refine handles_bind hrefuse fun _ => ?_
  refine hands_bind (hands_call _ _) fun fork hfork => ?_
  refine hands_bind (hands_ofExcept (sane_index2 hfork _ _)) fun forkId hid => ?_
  refine handles_bind (handles_updateReceipt (by simp [Json.valid, hid, hfork])) fun _ => ?_
  exact handles_bind handles_saveReceipt fun _ => handles_close

theorem SetThreadTitle.handles_action (a : SetThreadTitle) : Handles a.action :=
  hands_bind (hands_call _ _) fun _ _ => handles_updateReceipt (by simp [Json.valid])

theorem SetThreadArchived.handles_action (a : SetThreadArchived)
    (harchived : Json.valid a.archived = true) : Handles a.action := by
  have hrest : ∀ method, Handles (do
      let _ ← Act.call method [("threadId", .str a.threadId)]
      updateReceipt [("threadId", .str a.threadId), ("archived", a.archived)]) :=
    fun method => hands_bind (hands_call _ _) fun _ _ =>
      handles_updateReceipt (by simp [Json.valid, harchived])
  have hbusy : Handles a.refuseBusy := by
    refine hands_bind (hands_call _ _) fun state hstate => ?_
    refine hands_bind (hands_ofExcept (sane_index hstate _)) fun thread hthread => ?_
    refine hands_bind (hands_ofExcept (sane_statusType hthread)) fun status _ => ?_
    split
    · exact hands_raise rfl
    · exact handles_pure _
  unfold action
  split
  · exact handles_bind hbusy fun _ => hrest _
  · exact hrest _

/-- A checked tool is given values Python can hold. -/
theorem ToolCall.handles_action (t : ToolCall) (hcheck : t.check = .ok ()) (cwd : String) :
    Handles (t.action cwd) := by
  cases t with
  | createThread a => exact a.handles_action cwd
  | createWorktreeThread a => exact a.handles_action
  | sendMessageToThread a => exact a.handles_action
  | forkThread a => exact a.handles_action
  | setThreadTitle a => exact a.handles_action
  | setThreadArchived a =>
      refine a.handles_action ?_
      obtain ⟨_, -, hflags⟩ := bind_eq_ok.mp hcheck
      cases harchived : a.archived with
      | bool b => rfl
      | _ =>
          rw [harchived] at hflags
          cases hflags

/-! ## §6. Tools. -/

theorem valid_outcome {e : PyExc} (he : e.Holdable) :
    ∀ kv ∈ outcome e, Json.valid kv.2 = true := by
  cases e with
  | rpcError method error =>
      intro kv hkv
      simp only [outcome, List.mem_cons, List.not_mem_nil, or_false] at hkv
      rcases hkv with rfl | rfl | rfl
      · rfl
      · rfl
      · exact he
  | worktreeError message => simp [outcome, Json.valid]
  | cancelledError => simp [outcome, Json.valid]
  | exception cls message => simp [outcome, Json.valid]

theorem handles_settle {e : PyExc} (he : e.Holdable) : Handles (settle e) := by
  cases e with
  | cancelledError =>
      refine Co.Yields.get_bind fun s m hs => ?_
      have hsave : Handles (Ledger.save (s.update (outcome .cancelledError))) :=
        handles_save (valid_update hs (valid_outcome he))
      have hraise : Handles (Act.raise .cancelledError : Act Unit) := hands_raise trivial
      exact handles_bind hsave (fun _ => hraise) s m hs
  | _ => exact handles_updateReceipt (valid_outcome he)

theorem handles_attempt (requestId : String) {action : Act Unit} (haction : Handles action) :
    Handles (attempt requestId action) := by
  refine handles_bind (Co.Yields.tryCatch writeSpec_mono ?_ fun e he => handles_settle he)
    fun _ => handles_saveReceipt
  refine handles_bind ?_ fun _ => handles_bind haction fun _ => ?_
  · exact fun s m hs => ⟨trivial, fun _ _ => ⟨hs, trivial⟩⟩
  · exact handles_updateReceipt (by simp [Json.valid])

section Tools

variable [Hashlib]

theorem sane_fingerprint (requestId method : String) (params : Dict) :
    SaneAny (fingerprint requestId method params) := by
  unfold fingerprint
  split
  · exact Sane.raises trivial
  · exact Sane.ok trivial

theorem handles_matchRow (t : ToolCall) (requestId fp : String) (row : StoredRow) :
    Handles (Ledger.matchRow requestId t.method fp t.legacyParams row) := by
  unfold Ledger.matchRow
  split
  split
  · exact handles_pure _
  · split
    · rename_i legacyParams _ hlegacy
      have hparams : Handles legacyParams := by
        cases t with
        | createThread a =>
            cases hlegacy
            exact handles_bind (handles_lift trivial) fun _ => handles_pure _
        | _ => cases hlegacy
      refine handles_bind hparams fun params => ?_
      refine handles_bind (hands_ofExcept (sane_fingerprint _ _ _)) fun fp' => ?_
      split
      · exact handles_pure _
      · exact hands_raise trivial
    · exact hands_raise trivial

/-- A row that is inserted can be read back, and so can the receipt it
starts the attempt with. -/
theorem hands_begin (t : ToolCall) (requestId : String) :
    Hands (fun p : Bool × Dict => p.1 = true → Json.valid (.obj p.2) = true)
      (Ledger.begin requestId t.method t.params t.legacyParams) := by
  unfold Ledger.begin
  refine handles_bind (hands_ofExcept (sane_fingerprint _ _ _)) fun fp => ?_
  refine hands_bind hands_now fun startedAt htime => ?_
  have hfresh : Json.valid (.obj (Ledger.freshReceipt requestId t.method startedAt)) = true := by
    simpa [Ledger.freshReceipt, Json.valid, Json.validFields, Dict.keys] using htime
  refine handles_bind (handles_lift hfresh) fun found => ?_
  cases found with
  | none =>
      rw [Option.getD_none, matchRow_self]
      exact Co.yields_pure fun _ => hfresh
  | some row =>
      refine handles_bind (handles_matchRow t requestId fp row) fun receipt => ?_
      exact Co.yields_pure fun hnew => by cases hnew

theorem handles_mutateLocked (t : ToolCall) (requestId : String) (hcheck : t.check = .ok ()) :
    Handles (mutateLocked requestId t.method t.params t.legacyParams t.validateFresh t.action) := by
  unfold mutateLocked Ledger.lookup
  refine handles_bind ?_ fun retained => ?_
  · refine handles_bind (hands_ofExcept (sane_fingerprint _ _ _)) fun fp => ?_
    refine handles_bind (handles_lift trivial) fun row => ?_
    cases row with
    | none => exact handles_pure _
    | some row => exact handles_bind (handles_matchRow t requestId fp row) fun _ => handles_pure _
  cases retained with
  | some receipt => exact handles_pure _
  | none =>
      have hfresh : Handles t.validateFresh := by
        cases t with
        | createThread a => exact handles_absoluteDirectory a.cwd
        | _ => exact handles_pure ""
      refine handles_bind hfresh fun cwd => ?_
      refine hands_bind (hands_begin t requestId) fun p hp => ?_
      obtain ⟨fresh, receipt⟩ := p
      cases fresh with
      | false => exact handles_pure _
      | true =>
          refine handles_bind (Co.yields_modify fun _ _ _ => hp rfl) fun _ => ?_
          exact handles_attempt requestId (t.handles_action hcheck cwd)

/-- A tool writes only what can be read back. -/
theorem ToolCall.writes (t : ToolCall) (requestId : String) :
    Interaction.wp WriteSpec (t.prog requestId) (fun _ _ => True) () := by
  suffices h : Co.wp WriteSpec (t.run requestId) (fun _ _ _ => True) (fun _ _ _ => True) [] () by
    refine Interaction.wp_mono writeSpec_mono _ ?_ () h
    exact fun _ _ _ => trivial
  unfold ToolCall.run mutate
  rw [Co.wp_bind, Co.wp_ofExcept]
  cases hcheck : t.check with
  | error e => trivial
  | ok _ =>
      have hmutate : Handles (do
          Act.perform .acquire lift
          Co.tryFinally (mutateLocked requestId t.method t.params t.legacyParams t.validateFresh
            t.action) (Co.ask Op.release)) := by
        refine handles_bind (handles_lift trivial) fun _ => ?_
        exact Co.Yields.tryFinally writeSpec_mono (handles_mutateLocked t requestId hcheck)
          fun s m hs => ⟨trivial, fun _ _ => ⟨hs, trivial⟩⟩
      exact Co.wp_conseq writeSpec_mono (hmutate [] () rfl) (fun _ _ _ _ => trivial)
        fun _ _ _ _ => trivial

end Tools

/-! ## §7. Down to the frames. -/

/-- What an answer hands to the bridge, frames included. -/
def WireAnswered : Event WireAns → Prop
  | ⟨.base op, r⟩ => Answered ⟨op, r⟩
  | ⟨.net (.awaitReply _), r⟩ => ∀ message, r = .ok message → Json.valid (.obj message) = true
  | _ => True

/-- What an operation writes can be read back. -/
def WireOp.Writes : WireOp → Prop
  | .base op => op.Writes
  | .net _ => True

/-- `WriteSpec` with the frames. -/
abbrev WireWriteSpec : OpSpec WireAns Unit :=
  observeOn (fun _ => WireAnswered) (fun _ _ => ()) fun _ => WireOp.Writes

/-- The same of a coroutine of `AppServer`. -/
abbrev NetHands {α : Type} (P : α → Prop) (c : Net α) : Prop :=
  c.Yields (netSpec WireWriteSpec) (fun _ _ => True) PyExc.Holdable P

namespace AppServer

theorem netSpec_mono : OpSpec.Mono (netSpec WireWriteSpec) :=
  fun _ _ _ hQ _ h => ⟨h.1, fun r hr => hQ _ _ (h.2 r hr)⟩

variable {α β : Type} {P : α → Prop} {Q : β → Prop}

theorem netHands_bind {c : Net α} {f : α → Net β} (hc : NetHands P c)
    (hf : ∀ a, P a → NetHands Q (f a)) : NetHands Q (c >>= f) := Co.Yields.bind netSpec_mono hc hf

theorem netHands_perform {op : NetOp} {view : NetAns op → Except PyExc α}
    (hview : ∀ r, WireAnswered ⟨.net op, r⟩ → Sane P (view r)) : NetHands P (perform op view) := by
  intro s m _
  rw [wp_perform]
  refine ⟨trivial, fun r hr => ?_⟩
  dsimp only
  split
  · rename_i a hv
    exact ⟨trivial, (hview r hr).value a hv⟩
  · rename_i e hv
    exact ⟨trivial, (hview r hr).error e hv⟩

theorem netHands_lift {op : NetOp} {view : NetAns op → Except Fault α} :
    NetHands (fun _ => True) (perform op fun r => lift (view r)) :=
  netHands_perform fun _ _ => sane_lift _

theorem netHands_ask (op : NetOp) : NetHands (fun _ => True) (Co.ask op : Net (NetAns op)) :=
  fun _ _ _ => ⟨trivial, fun _ _ => ⟨trivial, trivial⟩⟩

theorem netHands_throw {e : PyExc} (he : e.Holdable) : NetHands P (Co.throw e) := Co.yields_throw he

theorem netHands_pure (a : α) : NetHands (fun _ => True) (pure a) := Co.yields_pure trivial

/-- A reply that Python can hold is an answer that Python can hold. -/
theorem sane_reply {method : String} {message : Dict} (h : Json.valid (.obj message) = true) :
    SaneJson (reply method message) := by
  unfold reply
  cases herror : message.get? "error" with
  | some v =>
      have hv := valid_get? h herror
      cases v with
      | obj error => exact Sane.raises hv
      | _ => exact Sane.raises trivial
  | none =>
      cases hresult : message.get? "result" with
      | some result => exact Sane.ok (valid_get? h hresult)
      | none => exact Sane.raises trivial

theorem netHands_request (method : String) (params : Dict) :
    NetHands (fun v => Json.valid v = true) (request method params) := by
  unfold request
  refine netHands_bind (netHands_ask _) fun ws _ => ?_
  cases ws with
  | none => exact netHands_throw trivial
  | some ws =>
      refine netHands_bind (netHands_ask _) fun ident _ => ?_
      have hexchange : NetHands (fun message => Json.valid (.obj message) = true)
          (exchange ws ident method params) := by
        refine Co.Yields.tryCatch netSpec_mono ?_ fun e he => ?_
        · refine netHands_bind netHands_lift fun _ _ => netHands_perform fun r hr => ?_
          cases r with
          | ok message => exact Sane.ok (hr message rfl)
          | error f => exact Sane.raises f.holdable_raised
        · split
          · exact netHands_throw trivial
          · exact netHands_throw he
      refine netHands_bind (Co.Yields.tryFinally netSpec_mono hexchange (netHands_ask _))
        fun message hmessage => ?_
      exact Co.yields_ofExcept (sane_reply hmessage).value (sane_reply hmessage).error

/-- The end of `close`. -/
theorem netHands_closeReader : NetHands (fun _ => True) (do
    let reader ← reader
    match reader with
    | none => pure ()
    | some reader => do
        cancelReader reader
        suppressCancelled (joinReader reader)
        clearReader) := by
  refine netHands_bind (netHands_ask _) fun reader _ => ?_
  cases reader with
  | none => exact netHands_pure ()
  | some reader =>
      refine netHands_bind (netHands_ask _) fun _ _ => ?_
      refine netHands_bind (Co.Yields.tryCatch netSpec_mono netHands_lift fun e he => ?_)
        fun _ _ => netHands_ask _
      cases e with
      | cancelledError => exact netHands_pure ()
      | _ => exact netHands_throw he

theorem netHands_close : NetHands (fun _ => True) close := by
  unfold close
  refine netHands_bind (netHands_ask _) fun ws _ => ?_
  cases ws with
  | none => exact netHands_closeReader
  | some ws =>
      refine netHands_bind netHands_lift fun _ _ => ?_
      exact netHands_bind (netHands_ask _) fun _ _ => netHands_closeReader

variable [Endpoint]

theorem netHands_connect : NetHands (fun _ => True) connect := by
  have hestablish : NetHands (fun _ => True) establish := by
    unfold establish
    refine netHands_bind netHands_lift fun present _ => ?_
    split
    · exact netHands_throw trivial
    refine netHands_bind netHands_lift fun _ _ => netHands_bind (netHands_ask _) fun _ _ => ?_
    refine netHands_bind (netHands_request _ _) fun info _ => ?_
    refine netHands_bind (netHands_ask _) fun _ _ => netHands_bind (netHands_ask _) fun ws _ => ?_
    cases ws with
    | none => exact netHands_throw trivial
    | some ws => exact netHands_lift
  unfold connect
  refine netHands_bind netHands_lift fun _ _ => ?_
  refine Co.Yields.tryFinally netSpec_mono ?_ (netHands_ask _)
  refine netHands_bind (netHands_ask _) fun alive _ => ?_
  split
  · exact netHands_pure ()
  refine netHands_bind netHands_close fun _ _ => ?_
  exact Co.Yields.tryCatch netSpec_mono hestablish fun e he =>
    netHands_bind netHands_close fun _ _ => netHands_throw he

theorem netHands_call (method : String) (params : Dict) :
    NetHands (fun v => Json.valid v = true) (call method params) :=
  netHands_bind netHands_connect fun _ _ => netHands_request method params

end AppServer

variable [Hashlib] [Endpoint]

/-- **A tool writes only what can be read back**, as long as every frame it
reads is one Python can hold. -/
theorem ToolCall.writes_wire (t : ToolCall) (requestId : String) :
    Interaction.wp WireWriteSpec (t.wire requestId) (fun _ _ => True) () := by
  refine wp_handle_of writeSpec_mono _ ?_ _ (t.writes requestId)
  intro op Q m h
  cases op with
  | call method params =>
      show Interaction.wp _ (ofNet (AppServer.call method params)) Q m
      rw [wp_ofNet_eq]
      refine Co.wp_conseq AppServer.netSpec_mono (AppServer.netHands_call method params () m trivial)
        (fun v _ _ hv => h.2 (.ok v) (Sane.ok hv.2)) fun e _ _ he => h.2 (.error e) (Sane.raises he.2)
  | close =>
      show Interaction.wp _ (ofNet AppServer.close) Q m
      rw [wp_ofNet_eq]
      refine Co.wp_conseq AppServer.netSpec_mono (AppServer.netHands_close () m trivial)
        (fun v _ _ hv => h.2 (.ok v) (Sane.ok trivial)) fun e _ _ he => h.2 (.error e) (Sane.raises he.2)
  | _ => exact h

end CodexRemoteBridge

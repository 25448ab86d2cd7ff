/-
  CodexRemoteBridge.Withholding — when a launch sends its prompt.

  A launch stands at `turn/start` only after everything it was asked to
  check has been reported by the server, by Git and by the filesystem, in
  this run and in this order.

  Main result: `ToolCall.prompt_withheld`.
-/
import CodexRemoteBridge.Receipts

namespace CodexRemoteBridge

open Interaction

/-! ## §1. What has to be on record. -/

/-- No turn has been requested. -/
def Unsent (h : History) : Prop :=
  ∀ params r, (⟨.call "turn/start" params, r⟩ : Event Ans) ∉ h

/-- A `git` command succeeded and printed `output`. -/
def Printed (h : History) (cwd : PyPath) (args : List String) (output : String) : Prop :=
  ∃ stdout stderr, (⟨.git cwd args, .ok ⟨0, some stdout, stderr⟩⟩ : Event Ans) ∈ h ∧
    removeNewline stdout = output

/-- An inspection showed the worktree where and as it should be. -/
structure Placed (w : Worktree) (h : History) : Prop where
  checkout : Printed h w.destination ["rev-parse", "--show-toplevel"] w.destination.str
  revision : Printed h w.destination ["rev-parse", "HEAD"] w.revision
  common : Printed h w.destination ["rev-parse", "--path-format=absolute", "--git-common-dir"]
    w.commonDir.str
  detached : Printed h w.destination ["rev-parse", "--abbrev-ref", "HEAD"] "HEAD"
  clean : ∃ config, Printed h w.destination ["config", "--null", "--list"] config ∧
    Printed h w.destination
      (filterOverrides config ++ ["status", "--porcelain=v1", "--untracked-files=all"]) ""
  canonical : (⟨.resolve w.destination, .ok w.destination⟩ : Event Ans) ∈ h

/-- The worktree is the requested one, with the common directory that the
source repository reported. -/
structure Requested (a : CreateWorktreeThread) (w : Worktree) (h : History) : Prop where
  source : w.source = PyPath.ofString a.sourceRepository
  destination : w.destination = PyPath.ofString a.destination
  revision : w.revision = a.startingRevision
  common : ∃ text, Printed h w.source ["rev-parse", "--path-format=absolute", "--git-common-dir"]
      text ∧
    (⟨.resolveThread (PyPath.ofString text), .ok w.commonDir⟩ : Event Ans) ∈ h

/-- The reply reports the environment that was asked for. -/
structure CreateThread.Confirmed (a : CreateThread) (cwd : String) (created : Json) : Prop where
  cwd : created.getNone "cwd" = .ok (.str cwd)
  approvalPolicy : created.getNone "approvalPolicy" = .ok (.str "never")
  sandbox : ∃ expected, sandboxTypes.lookup a.sandbox = some expected ∧
    CreateThread.actualSandbox created = .ok (.str expected)

/-- The reply reports the environment that was asked for, in the worktree. -/
structure CreateWorktreeThread.Confirmed (a : CreateWorktreeThread) (destination : String)
    (created : Json) : Prop where
  cwd : created.getNone "cwd" = .ok (.str destination)
  threadCwd : ∃ thread, created.index "thread" = .ok thread ∧
    thread.getNone "cwd" = .ok (.str destination)
  roots : created.getNone "runtimeWorkspaceRoots" = .ok (.arr [.str destination])
  approvalPolicy : created.getNone "approvalPolicy" = .ok (.str "never")
  sandbox : ∃ sandbox, created.getNone "sandbox" = .ok sandbox ∧
    sandbox.pyEq (.obj a.expectedSandboxPolicy) = true
  model : ∀ model, a.model = some model → created.getNone "model" = .ok (.str model)
  effort : ∀ effort, a.reasoningEffort = some effort →
    created.getNone "reasoningEffort" = .ok (.str effort)
  project : ∀ project, a.appServerProjectId = some project →
    ∃ thread, created.index "thread" = .ok thread ∧
      thread.getNone "projectId" = .ok (.str project)

/-- `thread/name/set` was answered with a result, if a title was given. -/
def Named (title : Option String) (threadId : Json) (h : History) : Prop :=
  ∀ name, title = some name → ∃ reply,
    (⟨.call "thread/name/set" [("threadId", threadId), ("name", .str name)], .ok reply⟩ :
      Event Ans) ∈ h

/-- What precedes the `turn/start` of `create_thread`. -/
def CreateThread.Cleared (a : CreateThread) (h : History) (params : Dict) : Prop :=
  ∃ (prompt : String) (resolved : PyPath) (created threadId : Json) (before after : History),
    h = before ++ ⟨.call "thread/start" (a.launchParams resolved.str), .ok created⟩ :: after ∧
    (⟨.resolve (PyPath.ofString a.cwd), .ok resolved⟩ : Event Ans) ∈ before ∧
    a.Confirmed resolved.str created ∧
    index2 "thread" "id" created = .ok threadId ∧
    Named a.title threadId after ∧
    a.prompt = some prompt ∧ params = toolOutputTurn threadId "create_thread" prompt

/-- What precedes the `turn/start` of `create_worktree_thread`. -/
def CreateWorktreeThread.Cleared (a : CreateWorktreeThread) (h : History) (params : Dict) :
    Prop :=
  ∃ (prompt : String) (w : Worktree) (created threadId : Json)
      (before naming rechecking : History),
    h = before ++ ⟨.call "thread/start" (a.launch w), .ok created⟩ :: (naming ++ rechecking) ∧
    Requested a w before ∧ Placed w before ∧
    a.Confirmed w.destination.str created ∧
    index2 "thread" "id" created = .ok threadId ∧
    Named a.title threadId naming ∧
    Placed w rechecking ∧
    a.prompt = some prompt ∧ params = toolOutputTurn threadId "create_worktree_thread" prompt

/-- What precedes the `turn/start` of a launch; nothing is asked of the other
tools. -/
def ToolCall.Cleared : ToolCall → History → Dict → Prop
  | .createThread a, h, params => a.Cleared h params
  | .createWorktreeThread a, h, params => a.Cleared h params
  | _, _, _ => True

/-! ## §2. Collecting the record. -/

/-- The condition at every operation. -/
def WithheldAt (t : ToolCall) (h : History) (op : Op) : Prop :=
  ∀ params, op = .call "turn/start" params → t.Cleared h params

/-- The events of `record` have happened since `start`, and the receipt
holds `threadId`. -/
structure Since (start record : History) (threadId : Option Json) (s : Dict) (h : History) :
    Prop where
  recorded : ∃ since, h = start ++ since ∧ record ⊆ since
  thread : s.get? "threadId" = threadId

theorem Printed.mono {h h' : History} {cwd : PyPath} {args : List String} {output : String}
    (hp : Printed h cwd args output) (hsub : h ⊆ h') : Printed h' cwd args output := by
  obtain ⟨stdout, stderr, hmem, hout⟩ := hp
  exact ⟨stdout, stderr, hsub hmem, hout⟩

theorem Placed.mono {w : Worktree} {h h' : History} (hp : Placed w h) (hsub : h ⊆ h') :
    Placed w h' := by
  obtain ⟨config, hconfig, hstatus⟩ := hp.clean
  exact ⟨hp.checkout.mono hsub, hp.revision.mono hsub, hp.common.mono hsub,
    hp.detached.mono hsub, ⟨config, hconfig.mono hsub, hstatus.mono hsub⟩, hsub hp.canonical⟩

theorem Requested.mono {a : CreateWorktreeThread} {w : Worktree} {h h' : History}
    (hr : Requested a w h) (hsub : h ⊆ h') : Requested a w h' := by
  obtain ⟨text, htext, hresolve⟩ := hr.common
  exact ⟨hr.source, hr.destination, hr.revision, text, htext.mono hsub, hsub hresolve⟩

theorem Named.mono {title : Option String} {threadId : Json} {h h' : History}
    (hn : Named title threadId h) (hsub : h ⊆ h') : Named title threadId h' := by
  intro name hname
  obtain ⟨reply, hmem⟩ := hn name hname
  exact ⟨reply, hsub hmem⟩

section Record

variable {t : ToolCall} {start record : History} {threadId : Option Json}
variable {s : Dict} {h : History} {α β : Type}

/-- The history semantics, with `WithheldAt` at every operation. -/
abbrev WithheldSpec (t : ToolCall) : OpSpec Ans History := history (WithheldAt t)

theorem withheld_bind {c : Act α} {f : α → Act β} {P : α → Dict → History → Prop}
    {Q : β → Dict → History → Prop} (hc : Co.Leads (WithheldSpec t) c P s h)
    (hf : ∀ a s' h', P a s' h' → Co.Leads (WithheldSpec t) (f a) Q s' h') :
    Co.Leads (WithheldSpec t) (c >>= f) Q s h := hc.bind (observe_mono _ _) hf

theorem withheldAt_of_ne {op : Op} (hop : ∀ params, op ≠ .call "turn/start" params) :
    WithheldAt t h op := fun params he => absurd he (hop params)

theorem Since.append (hs : Since start record threadId s h) (e : Event Ans) :
    Since start (e :: record) threadId s (h ++ [e]) := by
  obtain ⟨since, rfl, hsub⟩ := hs.recorded
  refine ⟨⟨since ++ [e], by simp, ?_⟩, hs.thread⟩
  intro x hx
  rcases List.mem_cons.mp hx with rfl | hx
  · exact List.mem_append_right _ (List.mem_singleton_self _)
  · exact List.mem_append_left _ (hsub hx)

theorem Since.forget {e : Event Ans} (hs : Since start (e :: record) threadId s h) :
    Since start record threadId s h := by
  obtain ⟨since, hh, hsub⟩ := hs.recorded
  exact ⟨⟨since, hh, fun x hx => hsub (List.mem_cons_of_mem _ hx)⟩, hs.thread⟩

/-- A new part of the record begins. -/
theorem Since.restart (hs : Since start record threadId s h) : Since h [] threadId s h :=
  ⟨⟨[], by simp, by simp⟩, hs.thread⟩

/-- A part of an action that neither requests a turn nor renames the thread
it works on keeps the record. -/
theorem hosts_since (t : ToolCall) (start record : History) (threadId : Option Json) :
    Hosts (WithheldSpec t) (fun key => key ≠ "threadId") (fun method => method ≠ "turn/start")
      (fun s h => Since start record threadId s h) (fun _ _ _ => True) where
  mono := observe_mono _ _
  act := by
    intro op s h hop hs
    refine ⟨withheldAt_of_ne ?_, fun r => (hs.append _).forget⟩
    rintro params rfl
    cases hop
  update := fun key updatedAt s h _ hs => ⟨withheldAt_of_ne (by simp), fun r =>
    (hs.append _).forget⟩
  fields := by
    intro fields s h hkeys hs
    refine ⟨hs.recorded, ?_⟩
    rw [Dict.get?_update_of_notMem fields s fun hmem => hkeys _ hmem rfl]
    exact hs.thread
  call := by
    intro method params s h hmethod hs
    refine ⟨withheldAt_of_ne fun params' he => hmethod (Op.call.inj he).1, fun r => ?_⟩
    cases r with
    | error e => trivial
    | ok reply => exact (hs.append _).forget
  close := by
    intro s h hs
    refine ⟨withheldAt_of_ne (by simp), fun r => ?_⟩
    cases r with
    | error e => trivial
    | ok _ => exact (hs.append _).forget
  own := fun _ _ _ _ => trivial
  goal := fun _ _ _ _ _ => trivial

/-- Once the turn is requested nothing is left to withhold. -/
theorem hosts_sent (t : ToolCall) :
    Hosts (WithheldSpec t) (fun _ => True) (fun method => method ≠ "turn/start")
      (fun _ _ => True) (fun _ _ _ => True) where
  mono := observe_mono _ _
  act := by
    intro op s h hop _
    refine ⟨withheldAt_of_ne ?_, fun _ => trivial⟩
    rintro params rfl
    cases hop
  update := fun _ _ _ _ _ _ => ⟨withheldAt_of_ne (by simp), fun _ => trivial⟩
  fields := fun _ _ _ _ _ => trivial
  call := by
    intro method params s h hmethod _
    refine ⟨withheldAt_of_ne fun params' he => hmethod (Op.call.inj he).1, fun r => ?_⟩
    cases r <;> trivial
  close := by
    intro s h _
    refine ⟨withheldAt_of_ne (by simp), fun r => ?_⟩
    cases r <;> trivial
  own := fun _ _ _ _ => trivial
  goal := fun _ _ _ _ _ => trivial

theorem lenient_withheld (t : ToolCall) : Lenient (WithheldSpec t) where
  mono := observe_mono _ _
  now := fun _ => ⟨withheldAt_of_ne (by simp), fun _ => trivial⟩
  update := fun _ _ _ => ⟨withheldAt_of_ne (by simp), fun _ => trivial⟩

/-- An operation that returns is on record, with its answer. -/
theorem clears_perform (hs : Since start record threadId s h) (op : Op)
    (hop : ∀ params, op ≠ .call "turn/start" params) (view : Ans op → Except PyExc α) :
    Co.Leads (WithheldSpec t) (Act.perform op view) (fun a s' h' =>
      ∃ r, view r = .ok a ∧ Since start (⟨op, r⟩ :: record) threadId s' h') s h := by
  show Co.wp _ _ _ _ _ _
  rw [Act.wp_perform]
  refine ⟨withheldAt_of_ne hop, fun r => ?_⟩
  dsimp only [remember]
  split
  · rename_i a hview
    exact ⟨r, hview, hs.append _⟩
  · trivial

/-- So is a request that is not the dispatch, with its reply. -/
theorem clears_request (hs : Since start record threadId s h) {method : String} (params : Dict)
    (hmethod : method ≠ "turn/start") :
    Co.Leads (WithheldSpec t) (Act.call method params) (fun reply s' h' =>
      h' = h ++ [⟨.call method params, .ok reply⟩] ∧
        Since start (⟨.call method params, .ok reply⟩ :: record) threadId s' h') s h := by
  show Co.wp _ _ _ _ _ _
  unfold Act.call
  rw [Act.wp_perform]
  refine ⟨withheldAt_of_ne fun params' he => hmethod (Op.call.inj he).1, fun r => ?_⟩
  cases r with
  | error e => trivial
  | ok reply => exact ⟨rfl, hs.append _⟩

/-- And a `git` command, with what it printed. -/
theorem clears_git (hs : Since start record threadId s h) (cwd : PyPath) (args : List String) :
    Co.Leads (WithheldSpec t) (git cwd args) (fun output s' h' =>
      ∃ e, Since start (e :: record) threadId s' h' ∧
        ∀ rest, Printed (e :: rest) cwd args output) s h := by
  unfold git
  refine withheld_bind (clears_perform hs (.git cwd args) (by simp) lift) ?_
  rintro exited s' h' ⟨r, hr, hs'⟩
  cases r with
  | error f => cases hr
  | ok exited' =>
      obtain rfl : exited' = exited := Except.ok.inj hr
      obtain ⟨returncode, stdout, stderr⟩ := exited'
      dsimp only
      split
      · trivial
      · rename_i hcode
        obtain rfl : returncode = 0 := not_not.mp hcode
        cases stdout with
        | none => trivial
        | some stdout =>
            exact ⟨_, hs', fun rest => ⟨stdout, stderr, List.mem_cons_self, rfl⟩⟩

/-! ## §3. Looking at the worktree. -/

theorem clears_canonicalPath (hs : Since start record threadId s h) (value name : String) :
    Co.Leads (WithheldSpec t) (canonicalPath value name) (fun path s' h' =>
      path = PyPath.ofString value ∧ Since start record threadId s' h') s h := by
  have hosts := hosts_since t start record threadId
  unfold canonicalPath
  dsimp only
  split
  · trivial
  · refine withheld_bind (hosts.looks (looks_resolve _) s h hs) fun resolved s' h' hs' => ?_
    split
    · trivial
    · exact ⟨rfl, hs'⟩

/-- A validated worktree is the requested one, and what says so is on
record. -/
theorem clears_validate (hs : Since start record threadId s h) (a : CreateWorktreeThread) :
    Co.Leads (WithheldSpec t)
      (Worktree.validate a.sourceRepository a.startingRevision a.destination)
      (fun w s' h' => ∃ record', Requested a w record' ∧
        Since start record' threadId s' h') s h := by
  have hosts := hosts_since t start
  unfold Worktree.validate
  refine withheld_bind (clears_canonicalPath hs _ _) ?_
  rintro source s h ⟨rfl, hs⟩
  refine withheld_bind (clears_canonicalPath hs _ _) ?_
  rintro target s h ⟨rfl, hs⟩
  refine withheld_bind ((hosts _ _).looks (looks_isDir _) s h hs) fun isDir s h hs => ?_
  split
  · trivial
  split
  · trivial
  refine withheld_bind ((hosts _ _).git _ _ s h hs) fun root s h hs => ?_
  split
  · trivial
  refine withheld_bind ((hosts _ _).git _ _ s h hs) fun kind s h hs => ?_
  split
  · trivial
  refine withheld_bind (clears_git hs _ _) ?_
  rintro commonText s h ⟨printed, hs, hprinted⟩
  refine withheld_bind ((hosts _ _).looks (Worktree.looks_unusable _) s h hs)
    fun bad s h hs => ?_
  split
  · trivial
  refine withheld_bind ((hosts _ _).looks (Worktree.looks_refuseRepositories _) s h hs)
    fun _ s h hs => ?_
  refine withheld_bind ((hosts _ _).git _ _ s h hs) fun worktrees s h hs => ?_
  refine withheld_bind ((hosts _ _).looks (Worktree.looks_insideAny _ _) s h hs)
    fun inside s h hs => ?_
  split
  · trivial
  refine withheld_bind (clears_perform hs (.resolveThread _) (by simp) lift) ?_
  rintro commonDir s h ⟨r, hr, hs⟩
  cases r with
  | error f => cases hr
  | ok resolved =>
      obtain rfl : resolved = commonDir := Except.ok.inj hr
      exact ⟨_, ⟨rfl, rfl, rfl, commonText,
        (hprinted _).mono (List.subset_cons_self _ _), List.mem_cons_self⟩, hs⟩

/-- What an inspection reports is what the commands printed. -/
structure Observed (w : Worktree) (actual : Inspection) (h : History) : Prop where
  checkout : Printed h w.destination ["rev-parse", "--show-toplevel"] actual.checkout
  revision : Printed h w.destination ["rev-parse", "HEAD"] actual.initialRevision
  common : Printed h w.destination ["rev-parse", "--path-format=absolute", "--git-common-dir"]
    actual.gitCommonDirectory
  detached : ∃ branch, Printed h w.destination ["rev-parse", "--abbrev-ref", "HEAD"] branch ∧
    actual.detached = decide (branch = "HEAD")
  clean : ∃ config status, Printed h w.destination ["config", "--null", "--list"] config ∧
    Printed h w.destination
      (filterOverrides config ++ ["status", "--porcelain=v1", "--untracked-files=all"]) status ∧
    actual.clean = decide (status = "")

theorem Observed.placed {w : Worktree} {actual : Inspection} {h' : History}
    (ho : Observed w actual h) (hagrees : w.agrees actual = true) (hsub : h ⊆ h')
    (hresolve : (⟨.resolve w.destination, .ok w.destination⟩ : Event Ans) ∈ h') :
    Placed w h' := by
  simp only [Worktree.agrees, Bool.and_eq_true, decide_eq_true_eq] at hagrees
  obtain ⟨⟨⟨⟨hcheckout, hrevision⟩, hcommon⟩, hdetached⟩, hclean⟩ := hagrees
  obtain ⟨branch, hbranch, hhead⟩ := ho.detached
  obtain ⟨config, status, hconfig, hstatus, hempty⟩ := ho.clean
  have hbranch' : branch = "HEAD" := of_decide_eq_true (hhead ▸ hdetached)
  have hstatus' : status = "" := of_decide_eq_true (hempty ▸ hclean)
  refine ⟨?_, ?_, ?_, ?_, ⟨config, hconfig.mono hsub, ?_⟩, hresolve⟩
  · exact hcheckout ▸ ho.checkout.mono hsub
  · exact hrevision ▸ ho.revision.mono hsub
  · exact hcommon ▸ ho.common.mono hsub
  · exact hbranch' ▸ hbranch.mono hsub
  · exact hstatus' ▸ hstatus.mono hsub

theorem clears_inspect (hs : Since start record threadId s h) (w : Worktree) :
    Co.Leads (WithheldSpec t) w.inspect (fun actual s' h' =>
      ∃ seen, Observed w actual seen ∧ Since start (seen ++ record) threadId s' h') s h := by
  unfold Worktree.inspect
  rw [checkoutFilterConfig_bind]
  refine withheld_bind (clears_git hs _ _) ?_
  rintro config s h ⟨e₁, hs, h₁⟩
  refine withheld_bind (clears_git hs _ _) ?_
  rintro checkout s h ⟨e₂, hs, h₂⟩
  refine withheld_bind (clears_git hs _ _) ?_
  rintro revision s h ⟨e₃, hs, h₃⟩
  refine withheld_bind (clears_git hs _ _) ?_
  rintro common s h ⟨e₄, hs, h₄⟩
  refine withheld_bind (clears_git hs _ _) ?_
  rintro branch s h ⟨e₅, hs, h₅⟩
  refine withheld_bind (clears_git hs _ _) ?_
  rintro status s h ⟨e₆, hs, h₆⟩
  have seen : ∀ {cwd args output} {e : Event Ans},
      (∀ rest, Printed (e :: rest) cwd args output) → e ∈ [e₆, e₅, e₄, e₃, e₂, e₁] →
      Printed [e₆, e₅, e₄, e₃, e₂, e₁] cwd args output := by
    intro cwd args output e he hmem
    exact (he []).mono (by simpa using hmem)
  refine ⟨[e₆, e₅, e₄, e₃, e₂, e₁], ⟨seen h₂ (by simp), seen h₃ (by simp), seen h₄ (by simp),
    ⟨branch, seen h₅ (by simp), rfl⟩, ⟨config, status, seen h₁ (by simp), seen h₆ (by simp),
    rfl⟩⟩, hs⟩

/-- An inspection that matches shows the worktree in place. -/
theorem clears_matches {seen : History} {w : Worktree} {actual : Inspection}
    (ho : Observed w actual seen) (hs : Since start (seen ++ record) threadId s h) :
    Co.Leads (WithheldSpec t) (w.matches actual) (fun good s' h' =>
      good = true → ∃ seen', Placed w seen' ∧ Since start (seen' ++ record) threadId s' h')
      s h := by
  unfold Worktree.matches
  split
  · rename_i hagrees
    refine withheld_bind (clears_perform hs (.resolve _) (by simp) lift) ?_
    rintro resolved s' h' ⟨r, hr, hs'⟩ hgood
    obtain rfl : resolved = w.destination := of_decide_eq_true hgood
    cases r with
    | error f => cases hr
    | ok resolved =>
        obtain rfl : resolved = w.destination := Except.ok.inj hr
        exact ⟨_ :: seen, ho.placed hagrees (List.subset_cons_self _ _) List.mem_cons_self, hs'⟩
  · exact fun h => by cases h

/-! ## §4. The launches. -/

/-- Fields that name the thread are remembered. -/
theorem clears_learn {fields : Dict} (id : Json) (hs : Since start record threadId s h)
    (hid : (s.update fields).get? "threadId" = some id) :
    Co.Leads (WithheldSpec t) (updateReceipt fields)
      (fun _ s' h' => Since start record (some id) s' h') s h := ⟨hs.recorded, hid⟩

/-- The dispatch, where it is cleared. -/
theorem clears_turn {params : Dict} (hc : t.Cleared h params) :
    Co.Leads (WithheldSpec t) (Act.call "turn/start" params) (fun _ _ _ => True) s h := by
  show Co.wp _ _ _ _ _ _
  unfold Act.call
  rw [Act.wp_perform]
  refine ⟨fun params' he => ?_, fun r => ?_⟩
  · obtain rfl : params = params' := (Op.call.inj he).2
    exact hc
  · cases r <;> trivial

end Record

namespace CreateThread

variable {s : Dict} {h : History}

theorem confirmed_of_differs {a : CreateThread} {cwd expected : String} {created actual : Json}
    (hactual : actualSandbox created = .ok actual) (hexpected : a.expectedSandbox = .ok expected)
    (hdiffers : differs cwd expected created actual = .ok false) : a.Confirmed cwd created := by
  unfold differs at hdiffers
  obtain ⟨reported, hreported, hdiffers⟩ := bind_eq_ok.mp hdiffers
  split at hdiffers
  · cases hdiffers
  rename_i hcwd
  obtain ⟨policy, hpolicy, hdiffers⟩ := bind_eq_ok.mp hdiffers
  split at hdiffers
  · cases hdiffers
  rename_i hnever
  have hcwd' : reported = .str cwd := (Json.pyEq_str _ _).mp (by simpa using hcwd)
  have hnever' : policy = .str "never" := (Json.pyEq_str _ _).mp (by simpa using hnever)
  have hsandbox : actual = .str expected :=
    (Json.pyEq_str _ _).mp (by simpa using Except.ok.inj hdiffers)
  refine ⟨hcwd' ▸ hreported, hnever' ▸ hpolicy, expected, ?_, hsandbox ▸ hactual⟩
  unfold expectedSandbox at hexpected
  split at hexpected
  · rename_i found hfound
    rw [hfound, Except.ok.inj hexpected]
  · cases hexpected

theorem clears_action (a : CreateThread) {resolved : PyPath}
    (hcwd : (⟨.resolve (PyPath.ofString a.cwd), .ok resolved⟩ : Event Ans) ∈ h) :
    Co.Leads (WithheldSpec (.createThread a)) (a.action resolved.str) (fun _ _ _ => True)
      s h := by
  have hosts := hosts_since (.createThread a)
  have hs : Since [] [⟨.resolve (PyPath.ofString a.cwd), .ok resolved⟩] (s.get? "threadId") s h :=
    ⟨⟨h, by simp, by simpa using hcwd⟩, rfl⟩
  unfold action
  refine withheld_bind (fills_whenGiven
    (fun project => (hosts _ _ _).calls_ _ (by simp)) s h hs) fun _ s before hs => ?_
  have hcwd' : (⟨.resolve (PyPath.ofString a.cwd), .ok resolved⟩ : Event Ans) ∈ before := by
    obtain ⟨since, rfl, hsub⟩ := hs.recorded
    exact hsub (List.mem_singleton_self _)
  refine withheld_bind (clears_request hs _ (by simp)) ?_
  rintro created s _ ⟨rfl, hs⟩
  refine Co.Leads.ofExcept_bind fun threadId hid => ?_
  refine withheld_bind (clears_learn threadId hs.restart ?_) fun _ s h hs => ?_
  · simp [Dict.get?_set]
  refine withheld_bind ((hosts _ _ _).saveReceipt s h hs) fun _ s h hs => ?_
  refine Co.Leads.ofExcept_bind fun actual hactual => ?_
  refine Co.Leads.ofExcept_bind fun expected hexpected => ?_
  refine Co.Leads.ofExcept_bind fun mismatch hdiffers => ?_
  split
  · trivial
  rename_i hmismatch
  rw [Bool.eq_false_of_not_eq_true hmismatch] at hdiffers
  have hconfirmed := confirmed_of_differs hactual hexpected hdiffers
  refine withheld_bind (P := fun _ s h => ∃ naming, Named a.title threadId naming ∧
    Since (before ++ [⟨.call "thread/start" (a.launchParams resolved.str), .ok created⟩])
      naming (some threadId) s h) ?_ ?_
  · cases htitle : a.title with
    | none => exact ⟨[], by simp [Named], hs⟩
    | some title =>
        refine withheld_bind (clears_request hs _ (by simp)) ?_
        rintro reply s h ⟨-, hs⟩
        refine withheld_bind ((hosts _ _ _).updateReceipt (by simp [Dict.keys]) s h hs)
          fun _ s h hs => ?_
        refine withheld_bind ((hosts _ _ _).saveReceipt s h hs) fun _ s h hs => ?_
        refine ⟨_, ?_, hs⟩
        intro name hname
        obtain rfl := Option.some.inj hname
        exact ⟨reply, List.mem_cons_self⟩
  · rintro _ s h ⟨naming, hnamed, hs⟩
    refine withheld_bind (P := fun _ _ _ => True) ?_ fun _ _ _ _ => trivial
    cases hprompt : a.prompt with
    | none => trivial
    | some prompt =>
        obtain ⟨after, rfl, hsub⟩ := hs.recorded
        refine withheld_bind (clears_turn ⟨prompt, resolved, created, threadId, before, after, by simp,
          hcwd', hconfirmed, hid, hnamed.mono hsub, hprompt, rfl⟩) fun turn _ _ _ => ?_
        exact Co.Leads.ofExcept_bind fun turnId _ => trivial

end CreateThread

namespace CreateWorktreeThread

variable {a : CreateWorktreeThread} {w : Worktree} {start record : History}
variable {threadId : Option Json} {s : Dict} {h : History}

theorem confirmed_of_differs {created : Json} (hdiffers : a.differs w created = .ok false) :
    a.Confirmed w.destination.str created := by
  unfold differs at hdiffers
  obtain ⟨thread, hthread, hdiffers⟩ := bind_eq_ok.mp hdiffers
  obtain ⟨cwd, hcwd, hdiffers⟩ := bind_eq_ok.mp hdiffers
  obtain ⟨threadCwd, hthreadCwd, hdiffers⟩ := bind_eq_ok.mp hdiffers
  obtain ⟨roots, hroots, hdiffers⟩ := bind_eq_ok.mp hdiffers
  obtain ⟨policy, hpolicy, hdiffers⟩ := bind_eq_ok.mp hdiffers
  obtain ⟨sandbox, hsandbox, hdiffers⟩ := bind_eq_ok.mp hdiffers
  obtain ⟨model, hmodel, hdiffers⟩ := bind_eq_ok.mp hdiffers
  obtain ⟨effort, heffort, hdiffers⟩ := bind_eq_ok.mp hdiffers
  obtain ⟨project, hproject, hdiffers⟩ := bind_eq_ok.mp hdiffers
  have hsame := Except.ok.inj hdiffers
  simp only [Bool.or_eq_false_iff, Bool.not_eq_false', Json.pyEq_str,
    Json.pyEq_singleton_str] at hsame
  obtain ⟨⟨⟨⟨⟨⟨⟨h₁, h₂⟩, h₃⟩, h₄⟩, h₅⟩, h₆⟩, h₇⟩, h₈⟩ := hsame
  -- an argument that was given is the value that was reported
  have given : ∀ {requested : Option String} {actual : Json} {value : String},
      differsFrom requested actual = false → requested = some value → actual = .str value := by
    rintro requested actual value hsame rfl
    exact (Json.pyEq_str _ _).mp (by simpa [differsFrom] using hsame)
  refine ⟨h₁ ▸ hcwd, ⟨thread, hthread, h₂ ▸ hthreadCwd⟩, h₃ ▸ hroots, h₄ ▸ hpolicy,
    ⟨sandbox, hsandbox, h₅⟩, ?_, ?_, ?_⟩
  · intro value hvalue
    exact given h₆ hvalue ▸ hmodel
  · intro value hvalue
    exact given h₇ hvalue ▸ heffort
  · intro value hvalue
    exact ⟨thread, hthread, given h₈ hvalue ▸ hproject⟩

/-- The worktree that `prepare` returns was validated and then seen in
place. -/
theorem clears_prepare (hs : Since [] record threadId s h) :
    Co.Leads (WithheldSpec (.createWorktreeThread a)) a.prepare (fun w _ h' =>
      Requested a w h' ∧ Placed w h') s h := by
  have hosts := hosts_since (.createWorktreeThread a) []
  have hcheckpoint : ∀ record (phase : String) {s h}, Since [] record threadId s h →
      Co.Leads (WithheldSpec (.createWorktreeThread a)) (checkpoint phase [])
        (fun _ s h => Since [] record threadId s h) s h :=
    fun record phase s h hs =>
      (hosts record threadId).checkpoint phase (by simp) (by simp [Dict.keys]) s h hs
  have hupdate : ∀ record fields {s h}, Since [] record threadId s h →
      Co.Leads (WithheldSpec (.createWorktreeThread a)) (updateWorktree fields)
        (fun _ s h => Since [] record threadId s h) s h :=
    fun record fields s h hs => (hosts record threadId).updateWorktree fields (by simp) s h hs
  unfold prepare
  refine withheld_bind ((hosts _ _).checkpoint _ (by simp)
    (by simp [Dict.keys, openingFields]) s h hs) fun _ s h hs => ?_
  refine withheld_bind (clears_validate hs a) ?_
  rintro w s h ⟨validated, hrequested, hs⟩
  refine withheld_bind (fills_whenGiven
    (fun project => (hosts _ _).calls_ _ (by simp)) s h hs) fun _ s h hs => ?_
  refine withheld_bind ((hosts _ _).checkpoint _ (by simp) (by simp [Dict.keys]) s h hs)
    fun _ s h hs => ?_
  refine withheld_bind ((hosts _ _).mkdir _ s h hs) fun _ s h hs => ?_
  refine withheld_bind (hupdate _ _ hs) fun _ s h hs => ?_
  refine withheld_bind (hcheckpoint _ _ hs) fun _ s h hs => ?_
  refine withheld_bind (((hosts _ _).bind ((hosts _ _).git _ _) fun _ => fills_pure _) s h hs)
    fun _ s h hs => ?_
  refine withheld_bind (hupdate _ _ hs) fun _ s h hs => ?_
  refine withheld_bind (hcheckpoint _ _ hs) fun _ s h hs => ?_
  refine withheld_bind (((hosts _ _).bind ((hosts _ _).looks (looks_checkoutFilterConfig _))
    fun _ => (hosts _ _).bind ((hosts _ _).git _ _) fun _ =>
      (hosts _ _).bind ((hosts _ _).git _ _) fun _ => fills_pure _) s h hs) fun _ s h hs => ?_
  refine withheld_bind (hupdate _ _ hs) fun _ s h hs => ?_
  refine withheld_bind (hcheckpoint _ _ hs) fun _ s h hs => ?_
  refine withheld_bind (clears_inspect hs w) ?_
  rintro actual s h ⟨seen, hobserved, hs⟩
  refine withheld_bind (hupdate _ _ hs) fun _ s h hs => ?_
  refine withheld_bind (hcheckpoint _ _ hs) fun _ s h hs => ?_
  refine withheld_bind (clears_matches hobserved hs) fun good s h hgood => ?_
  by_cases hg : good = true
  · obtain ⟨seen', hplaced, hs⟩ := hgood hg
    obtain ⟨since, rfl, hsub⟩ := hs.recorded
    subst hg
    refine ⟨hrequested.mono ?_, hplaced.mono ?_⟩
    · exact fun e he => hsub (List.mem_append_right _ he)
    · exact fun e he => hsub (List.mem_append_left _ he)
  · rw [Bool.eq_false_of_not_eq_true hg]
    trivial

/-- Past `start`, the thread has been started, in the environment that was
asked for, and the receipt holds its id. -/
theorem clears_start (hs : Since [] record threadId s h) (hrequested : Requested a w h)
    (hplaced : Placed w h) :
    Co.Leads (WithheldSpec (.createWorktreeThread a)) (a.start w) (fun _ s' h' =>
      ∃ created id before, Requested a w before ∧ Placed w before ∧
        a.Confirmed w.destination.str created ∧ index2 "thread" "id" created = .ok id ∧
        Since (before ++ [⟨.call "thread/start" (a.launch w), .ok created⟩]) [] (some id) s' h')
      s h := by
  have hosts := hosts_since (.createWorktreeThread a)
  have hbefore : Since h [] threadId s h := hs.restart
  unfold CreateWorktreeThread.start
  refine withheld_bind ((hosts h _ _).checkpoint _ (by simp) (by simp [Dict.keys]) s h hbefore)
    fun _ s before hs => ?_
  have hsub : h ⊆ before := by
    obtain ⟨since, rfl, -⟩ := hs.recorded
    exact List.subset_append_left _ _
  refine withheld_bind (clears_request hs _ (by simp)) ?_
  rintro created s _ ⟨rfl, hs⟩
  refine Co.Leads.ofExcept_bind fun fields hfields => ?_
  obtain ⟨id, permissions, association, hid, rfl⟩ := environmentFields_ok hfields
  refine withheld_bind (P := fun _ s h => Since _ [] (some id) s h)
    (withheld_bind (clears_learn id hs.restart ?_) fun _ s h hs =>
      withheld_bind ((hosts _ _ _).saveReceipt s h hs) fun _ _ _ hs => hs) fun _ s h hs => ?_
  · simp [Dict.get?_set]
  refine Co.Leads.ofExcept_bind fun mismatch hdiffers => ?_
  split
  · trivial
  rename_i hmismatch
  rw [Bool.eq_false_of_not_eq_true hmismatch] at hdiffers
  exact ⟨created, id, before, hrequested.mono hsub, hplaced.mono hsub,
    confirmed_of_differs hdiffers, hid, hs⟩

/-- The receipt's thread is the one the launch started. -/
theorem clears_receiptThreadId {t : ToolCall} {id : Json} (hs : Since start record (some id) s h) :
    Co.Leads (WithheldSpec t) receiptThreadId (fun read s' h' =>
      read = id ∧ Since start record (some id) s' h') s h := by
  have hindex : Json.index "threadId" (.obj s) = .ok id := by
    simp [Json.index, hs.thread]
  show Co.wp _ _ _ _ _ _
  unfold receiptThreadId
  rw [Co.wp_bind, Co.wp_get, Co.wp_ofExcept, hindex]
  exact ⟨rfl, hs⟩

theorem clears_name {t : ToolCall} {id : Json} (hs : Since start record (some id) s h) :
    Co.Leads (WithheldSpec t) (whenGiven a.title name) (fun _ s' h' =>
      ∃ naming, Named a.title id naming ∧ Since start naming (some id) s' h') s h := by
  have hosts := hosts_since t start
  cases htitle : a.title with
  | none => exact ⟨record, by simp [Named], hs⟩
  | some title =>
      show Co.Leads _ (name title) _ s h
      unfold name
      refine withheld_bind ((hosts _ _).checkpoint _ (by simp) (by simp [Dict.keys]) s h hs)
        fun _ s h hs => ?_
      refine withheld_bind (clears_receiptThreadId hs) ?_
      rintro _ s h ⟨rfl, hs⟩
      refine withheld_bind (clears_request hs _ (by simp)) ?_
      rintro reply s h ⟨-, hs⟩
      refine Co.Leads.conseq (observe_mono _ _)
        ((hosts _ _).checkpoint _ (by simp) (by simp [Dict.keys]) s h hs) fun _ s h hs => ?_
      refine ⟨_, ?_, hs⟩
      intro given hgiven
      obtain rfl := Option.some.inj hgiven
      exact ⟨reply, List.mem_cons_self⟩

theorem clears_recheck {t : ToolCall} (hs : Since start record threadId s h) :
    Co.Leads (WithheldSpec t) (recheck w) (fun _ s' h' =>
      ∃ seen, Placed w seen ∧ Since start (seen ++ record) threadId s' h') s h := by
  have hosts := hosts_since t start
  unfold recheck
  refine withheld_bind (clears_inspect hs w) ?_
  rintro actual s h ⟨seen, hobserved, hs⟩
  refine withheld_bind ((hosts _ _).checkpoint _ (by simp) (by simp [Dict.keys]) s h hs)
    fun _ s h hs => ?_
  refine withheld_bind (clears_matches hobserved hs) fun good s h hgood => ?_
  by_cases hg : good = true
  · rw [hg]
    exact hgood hg
  · rw [Bool.eq_false_of_not_eq_true hg]
    trivial

theorem clears_action (hs : Since [] [] threadId s h) :
    Co.Leads (WithheldSpec (.createWorktreeThread a)) a.action (fun _ _ _ => True) s h := by
  have hosts := hosts_since (.createWorktreeThread a)
  have sent := hosts_sent (.createWorktreeThread a)
  unfold action
  refine withheld_bind (clears_prepare hs) ?_
  rintro w s h ⟨hrequested, hplaced⟩
  have hs : Since [] [] (s.get? "threadId") s h := ⟨⟨h, rfl, by simp⟩, rfl⟩
  refine withheld_bind (clears_start hs hrequested hplaced) ?_
  rintro _ s h ⟨created, id, before, hrequested, hplaced, hconfirmed, hid, hs⟩
  refine withheld_bind (clears_name (a := a) hs) ?_
  rintro _ s named ⟨naming, hnamed, hs⟩
  obtain ⟨sinceStart, hnamedAt, hnaming⟩ := hs.recorded
  refine withheld_bind (clears_recheck (w := w) hs.restart) ?_
  rintro _ s h ⟨seen, hagain, hs⟩
  refine withheld_bind (P := fun _ _ _ => True) ?_ fun _ s h _ =>
    sent.checkpoint _ trivial (fun _ _ => trivial) s h trivial
  cases hprompt : a.prompt with
  | none => trivial
  | some prompt =>
      show Co.Leads _ (dispatch prompt) _ s h
      unfold dispatch
      refine withheld_bind ((hosts _ _ _).checkpoint _ (by simp) (by simp [Dict.keys]) s h hs)
        fun _ s h hs => ?_
      refine withheld_bind (clears_receiptThreadId hs) ?_
      rintro _ s h ⟨rfl, hs⟩
      obtain ⟨rechecking, hh, hsub⟩ := hs.recorded
      refine withheld_bind (clears_turn ⟨prompt, w, created, _, before, sinceStart, rechecking,
        ?_, hrequested, hplaced, hconfirmed, hid, hnamed.mono hnaming,
        hagain.mono fun e he => hsub (List.mem_append_left _ he), hprompt, rfl⟩)
        fun turn s h _ => ?_
      · simp [hh, hnamedAt]
      · exact Co.Leads.ofExcept_bind fun turnId _ =>
          sent.checkpoint _ trivial (fun _ _ => trivial) s h trivial

end CreateWorktreeThread

/-! ## §5. Whole runs. -/

/-- What `validate_fresh` has put on record by the time the row is
inserted: the directory the launch will use is the resolved one. -/
def ToolCall.Resolved : ToolCall → String → History → Prop
  | .createThread a, cwd, h => ∃ resolved, cwd = resolved.str ∧
      (⟨.resolve (PyPath.ofString a.cwd), .ok resolved⟩ : Event Ans) ∈ h
  | _, _, _ => True

theorem ToolCall.Resolved.mono {t : ToolCall} {cwd : String} {h h' : History}
    (hr : t.Resolved cwd h) (hsub : h ⊆ h') : t.Resolved cwd h' := by
  cases t with
  | createThread a =>
      obtain ⟨resolved, hcwd, hmem⟩ := hr
      exact ⟨resolved, hcwd, hsub hmem⟩
  | _ => exact hr

theorem ToolCall.clears_validateFresh (t : ToolCall) (h : History) :
    Co.Leads (WithheldSpec t) t.validateFresh (fun cwd _ h' => t.Resolved cwd h') [] h := by
  cases t with
  | createThread a =>
      have hs : Since h [] none [] h := ⟨⟨[], by simp, by simp⟩, rfl⟩
      have hosts := hosts_since (.createThread a)
      show Co.Leads _ (absoluteDirectory a.cwd) _ _ _
      unfold absoluteDirectory
      dsimp only
      split
      · trivial
      refine withheld_bind ((hosts _ _ _).looks (looks_isDir _) _ h hs) fun isDir s h hs => ?_
      split
      · trivial
      refine withheld_bind (clears_perform hs (.resolve _) (by simp) lift) ?_
      rintro resolved s h ⟨r, hr, hs⟩
      cases r with
      | error f => cases hr
      | ok resolved' =>
          obtain rfl : resolved' = resolved := Except.ok.inj hr
          obtain ⟨since, rfl, hsub⟩ := hs.recorded
          exact ⟨resolved', rfl, List.mem_append_right _ (hsub List.mem_cons_self)⟩
  | _ => trivial

/-- Only the launches have something to clear. -/
theorem ToolCall.clears_action (t : ToolCall) {cwd : String} {s : Dict} {h : History}
    (hr : t.Resolved cwd h) :
    Co.Leads (WithheldSpec t) (t.action cwd) (fun _ _ _ => True) s h := by
  have others : (∀ h params, t.Cleared h params) →
      Co.Leads (WithheldSpec t) (t.action cwd) (fun _ _ _ => True) s h := by
    intro hcleared
    have hp : Interaction.wp (WithheldSpec t) (t.action cwd s) (fun _ _ => True) h :=
      wp_of_stable (P := fun _ => True) (fun h op _ params _ => hcleared h params)
        (fun _ _ _ => trivial) (t.action cwd s) trivial
    refine Interaction.wp_mono (observe_mono _ _) _ ?_ h hp
    rintro ⟨r | r, _⟩ _ _ <;> trivial
  cases t with
  | createThread a =>
      obtain ⟨resolved, rfl, hmem⟩ := hr
      exact a.clears_action hmem
  | createWorktreeThread a =>
      exact CreateWorktreeThread.clears_action (a := a) ⟨⟨h, rfl, by simp⟩, rfl⟩
  | _ => exact others fun _ _ => trivial

section Whole

variable [Hashlib]

theorem ToolCall.withheldAt_run (t : ToolCall) (requestId : String) :
    Interaction.wp (WithheldSpec t) (t.prog requestId) (fun _ _ => True) [] := by
  have indifferent : ∀ P : History → Prop, (∀ {h h'}, P h → h ⊆ h' → P h') →
      Indifferent (WithheldSpec t) P := by
    intro P hmono
    refine ⟨observe_mono _ _, fun op h hop hh => ⟨withheldAt_of_ne ?_, fun r => ?_⟩⟩
    · rintro params rfl
      cases hop
    · exact hmono hh (List.subset_append_left _ _)
  refine (indifferent (fun _ => True) fun _ _ => trivial).wp_tool_of (P := fun _ _ => True)
    (V := fun cwd h => t.Resolved cwd h) t requestId
    (fun cwd => indifferent _ fun hr hsub => hr.mono hsub) trivial
    (fun h _ => t.clears_validateFresh h) (fun _ _ _ => trivial)
    (fun _ _ _ => ⟨withheldAt_of_ne (by simp), fun _ => trivial⟩) ?_
  intro cwd fp startedAt h _ hr
  refine ⟨withheldAt_of_ne (by simp), fun r => ?_⟩
  have hr' : ∀ e, t.Resolved cwd (h ++ [e]) := fun e => hr.mono (List.subset_append_left _ _)
  rcases r with f | _ | row
  · exact hr' _
  · refine (lenient_withheld t).attempt ⟨withheldAt_of_ne (by simp), fun _ => ?_⟩
    exact t.clears_action ((hr' _).mono (List.subset_append_left _ _))
  · exact hr' _

/-- Whenever a tool stands at `turn/start`, it has not requested a turn yet. -/
theorem ToolCall.unsent (t : ToolCall) (requestId : String) {h : History} {rest : Residual Dict}
    {params : Dict} (hrun : Run (t.prog requestId) h rest)
    (hop : rest.head? = some (.call "turn/start" params)) : Unsent h := by
  have hsub := Emits.run (t.begins_run requestId []) hrun
  have hlabel : (rest.head?.bind Op.effect).toList = [.request "turn/start"] := by
    rw [hop]
    rfl
  have hnodup := hsub.nodup t.effects_nodup
  rw [hlabel] at hnodup
  intro params' r hmem
  refine (List.nodup_append.mp hnodup).2.2 (.request "turn/start") ?_ _
    (List.mem_singleton_self _) rfl
  exact List.mem_filterMap.mpr ⟨_, hmem, rfl⟩

/-- **Prompt withholding.**  Whenever a launch is about to dispatch its
prompt, it has not done so before, and all it was asked to check is on
record, in order. -/
theorem ToolCall.prompt_withheld (t : ToolCall) (requestId : String) {h : History}
    {rest : Residual Dict} {params : Dict} (hrun : Run (t.prog requestId) h rest)
    (hop : rest.head? = some (.call "turn/start" params)) : Unsent h ∧ t.Cleared h params := by
  have hat := wp_run_head (t.withheldAt_run requestId) hrun hop
  rw [foldl_remember, List.nil_append] at hat
  exact ⟨t.unsent requestId hrun hop, hat params rfl⟩

end Whole

/-- Whether an operation is a request of this method. -/
def Op.requests (method : String) : Op → Bool
  | .call m _ => m = method
  | _ => false

theorem Op.of_requests {method : String} {op : Op} (h : op.requests method = true) :
    ∃ params, op = .call method params := by
  cases op with
  | call m params => exact ⟨params, by rw [of_decide_eq_true h]⟩
  | _ => cases h

/-- A repository at `/s` with one commit, room for a worktree at `/d`, and a
server that starts threads as they are asked for. -/
def launchSite : (op : Op) → Ans op
  | .acquire => .ok ()
  | .release => ()
  | .isDir _ => .ok true
  | .isFile _ => .ok false
  | .pathExists _ => .ok false
  | .isSymlink _ => .ok false
  | .resolve path => .ok path
  | .resolveThread path => .ok path
  | .mkdir _ => .ok ()
  | .now => "0.0"
  | .select _ => .ok none
  | .beginRow _ _ _ => .ok none
  | .update _ _ => .ok ()
  | .git cwd args =>
      let stdout :=
        if args = ["rev-parse", "--show-toplevel"] then cwd.str
        else if args.head? = some "cat-file" then "commit"
        else if args = ["rev-parse", "HEAD"] then "0123456789012345678901234567890123456789"
        else if args = ["rev-parse", "--abbrev-ref", "HEAD"] then "HEAD"
        else if args.head? = some "rev-parse" then "/s/.git"
        else ""
      .ok ⟨0, some stdout, ""⟩
  | .call method _ =>
      if method = "thread/start" then .ok (.obj
        [("thread", .obj [("id", .str "t"), ("cwd", .str "/d")]), ("cwd", .str "/d"),
         ("runtimeWorkspaceRoots", .arr [.str "/d"]), ("approvalPolicy", .str "never"),
         ("sandbox", .obj [("type", .str "dangerFullAccess")])])
      else .ok (.obj [("turn", .obj [("id", .str "u")])])
  | .close => .ok ()
  | .enter _ => ()

/-- A launch with a title and a prompt. -/
def sampleLaunch : CreateWorktreeThread :=
  ⟨"/s", "0123456789012345678901234567890123456789", "/d", "bridge-managed-retained",
   "danger-full-access", [("type", .str "dangerFullAccess")], some "hi", some "title", none,
   none, none, by decide⟩

/-- At that site the launch gets as far as its dispatch. -/
theorem ToolCall.prompt_withheld_launch :
    let _ := Hashlib.verbatim
    ∃ (h : History) (rest : Residual Dict) (params : Dict),
      Run ((ToolCall.createWorktreeThread sampleLaunch).prog "r") h rest ∧
      rest.head? = some (.call "turn/start" params) ∧
      Unsent h ∧ (ToolCall.createWorktreeThread sampleLaunch).Cleared h params := by
  intro _
  have hrun := Run.follow (fun _ => launchSite) 64
    (Run.start (p := (ToolCall.createWorktreeThread sampleLaunch).prog "r"))
  have hturn : (((ToolCall.createWorktreeThread sampleLaunch).prog "r").follow
      (fun _ => launchSite) 64 []).2.head?.any (Op.requests "turn/start") = true := by
    decide +kernel
  obtain ⟨op, hhead, hop⟩ := (Option.any_eq_true _ _).mp hturn
  obtain ⟨params, rfl⟩ := Op.of_requests hop
  exact ⟨_, _, params, hrun, hhead, ToolCall.prompt_withheld _ _ hrun hhead⟩

end CodexRemoteBridge

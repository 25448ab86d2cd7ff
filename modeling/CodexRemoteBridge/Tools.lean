/-
  CodexRemoteBridge.Tools — the six mutation tools of `bridge.py`: argument
  checks, fingerprinted parameters, and actions.

  A tool's arguments are one structure, with `None` as `none` and the
  defaults filled in by the caller.
-/
import CodexRemoteBridge.Bridge

namespace CodexRemoteBridge

open Interaction

/-- `params[key] = value` when `value is not None`. -/
def optionalField (key : String) : Option String → Dict
  | none => []
  | some value => [(key, .str value)]

/-- An argument that is `null` when it is not given. -/
def nullable : Option String → Json
  | none => .null
  | some value => .str value

/-- Do something with an argument that was given. -/
def whenGiven (value : Option String) (step : String → Act Unit) : Act Unit :=
  match value with
  | none => pure ()
  | some value => step value

/-- `value[outer][inner]`. -/
def index2 (outer inner : String) (value : Json) : Except PyExc Json := do
  let value ← value.index outer
  value.index inner

/-- `value[outer].get(middle, {}).get(inner)`, the type of a thread's status. -/
def statusType (thread : Json) : Except PyExc Json := do
  let status ← thread.getEmpty "status"
  status.getNone "type"

/-- The parameters of a `turn/start` that carries a tool's output. -/
def toolOutputTurn (threadId : Json) (name output : String) : Dict :=
  [("threadId", threadId),
   ("input", .arr []),
   ("toolOutput", .obj
     [("name", .str name),
      ("namespace", .str "codex_remote_bridge"),
      ("output", .str output)])]

/-! ## §1. `create_thread`. -/

/-- The arguments of `create_thread`. -/
structure CreateThread where
  cwd : String
  prompt : Option String
  title : Option String
  sandbox : String
  model : Option String
  appServerProjectId : Option String

namespace CreateThread

/-- The checks before `_mutate`. -/
def check (a : CreateThread) : Except PyExc Unit := do
  nonempty a.cwd "cwd" defaultMaximum
  if !(PyPath.ofString a.cwd).isAbsolute then .error badCwd
  else if !(["read-only", "workspace-write", "danger-full-access"].contains a.sandbox) then
    .error (.valueError "Unsupported sandbox")
  else do
    nonemptyIfGiven a.prompt "prompt" 100000
    nonemptyIfGiven a.title "title" 500
    nonemptyIfGiven a.model "model" 500
    nonemptyIfGiven a.appServerProjectId "app_server_project_id" 128

/-- `launch_params`, with the directory it will be given. -/
def launchParams (a : CreateThread) (cwd : String) : Dict :=
  [("cwd", .str cwd),
   ("sandbox", .str a.sandbox),
   ("approvalPolicy", .str "never"),
   ("ephemeral", .bool false)]
    ++ optionalField "model" a.model ++ optionalField "projectId" a.appServerProjectId

/-- `request_params`, with a given spelling of the directory. -/
def requestParamsAt (a : CreateThread) (cwd : String) : Dict :=
  a.launchParams cwd ++ [("prompt", nullable a.prompt), ("title", nullable a.title)]

/-- `request_params`. -/
def requestParams (a : CreateThread) : Dict := a.requestParamsAt a.cwd

/-- `legacy_params`: old receipts hashed a resolved `cwd`. -/
def legacyParams (a : CreateThread) : Act Dict := do
  let resolved ← Act.resolve (PyPath.ofString a.cwd)
  pure (a.requestParamsAt resolved.str)

/-- `validate_fresh`: the launch uses the resolved directory. -/
def validateFresh (a : CreateThread) : Act String := absoluteDirectory a.cwd

/-- `created.get("sandbox", {}).get("type")`. -/
def actualSandbox (created : Json) : Except PyExc Json := do
  let sandbox ← created.getEmpty "sandbox"
  sandbox.getNone "type"

/-- The type of policy the requested sandbox stands for. -/
def expectedSandbox (a : CreateThread) : Except PyExc String :=
  match sandboxTypes.lookup a.sandbox with
  | some expected => .ok expected
  | none => .error (.keyError a.sandbox)

/-- Whether the created environment differs from the requested one. -/
def differs (cwd expected : String) (created actual : Json) : Except PyExc Bool := do
  let reported ← created.getNone "cwd"
  if !reported.pyEq (.str cwd) then .ok true
  else do
    let policy ← created.getNone "approvalPolicy"
    if !policy.pyEq (.str "never") then .ok true
    else .ok (!actual.pyEq (.str expected))

/-- The refusal of a mismatched environment. -/
def environmentMismatch : PyExc :=
  .rpcError "thread/start"
    [("code", .str "environment_mismatch"),
     ("message", .str ("Created environment differs; initial prompt withheld. " ++
       "Inspect creation receipt. The thread remains retained."))]

/-- The `action` of `create_thread`, with the resolved directory. -/
def action (a : CreateThread) (cwd : String) : Act Unit := do
  whenGiven a.appServerProjectId fun project => do
    let _ ← Act.call "project/read" [("projectId", .str project)]
    pure ()
  let created ← Act.call "thread/start" (a.launchParams cwd)
  let threadId ← Act.ofExcept (index2 "thread" "id" created)
  updateReceipt [("threadId", threadId), ("creation", created)]
  -- Retain the ID even if naming or the first turn fails.
  let _ ← saveReceipt
  let actual ← Act.ofExcept (actualSandbox created)
  let expected ← Act.ofExcept a.expectedSandbox
  let mismatch ← Act.ofExcept (differs cwd expected created actual)
  if mismatch then Act.raise environmentMismatch
  else do
    whenGiven a.title fun title => do
      let _ ← Act.call "thread/name/set" [("threadId", threadId), ("name", .str title)]
      updateReceipt [("title", .str title)]
      let _ ← saveReceipt
      pure ()
    whenGiven a.prompt fun prompt => do
      let turn ← Act.call "turn/start" (toolOutputTurn threadId "create_thread" prompt)
      let turnId ← Act.ofExcept (index2 "turn" "id" turn)
      updateReceipt [("turnId", turnId)]
    updateReceipt
      [("desktopProjectAssociation", .str "unverified; check Desktop listing")]

end CreateThread

/-! ## §2. `create_worktree_thread`. -/

/-- The arguments of `create_worktree_thread`; a Python dict has no key
twice. -/
structure CreateWorktreeThread where
  sourceRepository : String
  startingRevision : String
  destination : String
  worktreeMode : String
  sandbox : String
  expectedSandboxPolicy : Dict
  prompt : Option String
  title : Option String
  model : Option String
  reasoningEffort : Option String
  appServerProjectId : Option String
  policyKeys : expectedSandboxPolicy.keys.Nodup

/-- `checkpoint`: record the phase and save. -/
def checkpoint (phase : String) (fields : Dict) : Act Unit := do
  updateReceipt (("phase", .str phase) :: fields)
  let _ ← saveReceipt
  pure ()

/-- `receipt["worktree"].update(fields)`. -/
def updateWorktree (fields : Dict) : Act Unit := do
  let receipt ← Co.get
  match receipt.get? "worktree" with
  | some (.obj worktree) =>
      updateReceipt [("worktree", .obj (Dict.update worktree fields))]
  | some v =>
      Act.raise (.typeError ("'" ++ v.typeName ++ "' object does not support item assignment"))
  | none => Act.raise (.keyError "worktree")

/-- `raise WorktreeError(message)`. -/
def refuseWorktree (message : String) : Act Unit := Act.raise (.worktreeError message)

namespace CreateWorktreeThread

/-- The checks before `_mutate`. -/
def check (a : CreateWorktreeThread) : Except PyExc Unit :=
  if a.worktreeMode ≠ "bridge-managed-retained" then
    .error (.valueError "Explicit bridge-managed-retained worktree ownership is required")
  else do
    validateSandboxPolicy a.expectedSandboxPolicy
    let agree := match sandboxTypes.lookup a.sandbox, a.expectedSandboxPolicy.get? "type" with
      | some expected, some kind => kind.pyEq (.str expected)
      | _, _ => false
    if !agree then
      .error (.valueError "sandbox and expected_sandbox_policy.type must agree")
    else do
      nonempty a.sourceRepository "source_repository" defaultMaximum
      nonempty a.startingRevision "starting_revision" defaultMaximum
      nonempty a.destination "destination" defaultMaximum
      nonemptyIfGiven a.prompt "prompt" defaultMaximum
      nonemptyIfGiven a.title "title" defaultMaximum
      nonemptyIfGiven a.model "model" defaultMaximum
      nonemptyIfGiven a.reasoningEffort "reasoning_effort" defaultMaximum
      nonemptyIfGiven a.appServerProjectId "app_server_project_id" defaultMaximum

/-- `params`. -/
def params (a : CreateWorktreeThread) : Dict :=
  [("source_repository", .str a.sourceRepository),
   ("starting_revision", .str a.startingRevision),
   ("destination", .str a.destination),
   ("worktree_mode", .str a.worktreeMode),
   ("sandbox", .str a.sandbox),
   ("expected_sandbox_policy", .obj a.expectedSandboxPolicy),
   ("prompt", nullable a.prompt),
   ("title", nullable a.title),
   ("model", nullable a.model),
   ("reasoning_effort", nullable a.reasoningEffort),
   ("app_server_project_id", nullable a.appServerProjectId)]

/-- The advice every receipt of a launch carries. -/
def recovery : String :=
  "Inspect this receipt, the destination and Git worktree list, and " ++
  "backend/Desktop tasks before manual recovery. Retain all artifacts; do not " ++
  "retry with a new request ID. Unknown thread/turn outcomes need reconciliation."

/-- The fields of the first checkpoint. -/
def openingFields (a : CreateWorktreeThread) : Dict :=
  [("recoveryRequired", .bool true),
   ("recovery", .str recovery),
   ("requestedCheckout", .str a.destination),
   ("initialPrompt", .obj
     [("state", .str (if a.prompt.isSome then "not_sent" else "not_requested"))]),
   ("desktopProjectAssociation", .obj
     [("status", .str "unverified"), ("sourceRepository", .str a.sourceRepository)])]

/-- `launch`. -/
def launch (a : CreateWorktreeThread) (worktree : Worktree) : Dict :=
  [("cwd", .str worktree.destination.str),
   ("sandbox", .str a.sandbox),
   ("approvalPolicy", .str "never"),
   ("ephemeral", .bool false),
   ("runtimeWorkspaceRoots", .arr [.str worktree.destination.str])]
    ++ optionalField "model" a.model
    ++ (match a.reasoningEffort with
        | none => []
        | some effort => [("config", .obj [("model_reasoning_effort", .str effort)])])
    ++ optionalField "projectId" a.appServerProjectId

/-- The fields of the checkpoint after `thread/start`, read off its reply. -/
def environmentFields (a : CreateWorktreeThread) (created : Json) : Except PyExc Dict := do
  let threadId ← index2 "thread" "id" created
  let approvalPolicy ← created.getNone "approvalPolicy"
  let sandbox ← created.getNone "sandbox"
  let profile ← created.getNone "activePermissionProfile"
  let roots ← created.getNone "runtimeWorkspaceRoots"
  let cwd ← created.getNone "cwd"
  let thread ← created.index "thread"
  let project ← thread.getNone "projectId"
  .ok
    [("threadId", threadId),
     ("creation", created),
     ("permissionReceipt", .obj
       [("approvalPolicy", approvalPolicy),
        ("sandbox", sandbox),
        ("activePermissionProfile", profile),
        ("runtimeWorkspaceRoots", roots)]),
     ("desktopProjectAssociation", .obj
       [("status", .str "unverified"),
        ("sourceRepository", .str a.sourceRepository),
        ("checkout", cwd),
        ("appServerProjectId", project)])]

/-- `value is not None and actual != value`. -/
def differsFrom (requested : Option String) (actual : Json) : Bool :=
  requested.any fun value => !actual.pyEq (.str value)

/-- Whether the created environment differs from the requested one. -/
def differs (a : CreateWorktreeThread) (worktree : Worktree) (created : Json) :
    Except PyExc Bool := do
  let destination := worktree.destination.str
  let thread ← created.index "thread"
  let cwd ← created.getNone "cwd"
  let threadCwd ← thread.getNone "cwd"
  let roots ← created.getNone "runtimeWorkspaceRoots"
  let approvalPolicy ← created.getNone "approvalPolicy"
  let sandbox ← created.getNone "sandbox"
  let model ← created.getNone "model"
  let effort ← created.getNone "reasoningEffort"
  let project ← thread.getNone "projectId"
  .ok
    (!cwd.pyEq (.str destination)
      || !threadCwd.pyEq (.str destination)
      || !roots.pyEq (.arr [.str destination])
      || !approvalPolicy.pyEq (.str "never")
      || !sandbox.pyEq (.obj a.expectedSandboxPolicy)
      || differsFrom a.model model
      || differsFrom a.reasoningEffort effort
      || differsFrom a.appServerProjectId project)

/-- `receipt["threadId"]`. -/
def receiptThreadId : Act Json := do
  let receipt ← Co.get
  Act.ofExcept (Json.index "threadId" (.obj receipt))

/-- The worktree part of the action: validate, reserve, register, check
out, and compare with what was asked for. -/
def prepare (a : CreateWorktreeThread) : Act Worktree := do
  checkpoint "validating" a.openingFields
  let worktree ← Worktree.validate a.sourceRepository a.startingRevision a.destination
  whenGiven a.appServerProjectId fun project => do
    let _ ← Act.call "project/read" [("projectId", .str project)]
    pure ()
  checkpoint "reserving_destination" [("worktree", .obj worktree.receipt)]
  worktree.reserve
  updateWorktree [("state", .str "reserved")]
  checkpoint "creating_worktree" []
  worktree.create
  updateWorktree [("state", .str "registered")]
  checkpoint "checking_out_worktree" []
  worktree.checkout
  updateWorktree [("state", .str "created")]
  checkpoint "checking_worktree" []
  let actual ← worktree.inspect
  updateWorktree actual.toDict
  checkpoint "worktree_checked" []
  let good ← worktree.matches actual
  if !good then
    refuseWorktree "Worktree placement/base mismatch; initial prompt withheld"
  else pure ()
  pure worktree

/-- Start the thread and compare its environment with the requested one. -/
def start (a : CreateWorktreeThread) (worktree : Worktree) : Act Unit := do
  checkpoint "creating_thread" []
  let created ← Act.call "thread/start" (a.launch worktree)
  let fields ← Act.ofExcept (a.environmentFields created)
  checkpoint "checking_environment" fields
  let mismatch ← Act.ofExcept (a.differs worktree created)
  if mismatch then
    refuseWorktree
      "Created environment differs; initial prompt withheld. Inspect creation receipt"
  else pure ()

/-- Name the thread. -/
def name (title : String) : Act Unit := do
  checkpoint "naming_thread" []
  let threadId ← receiptThreadId
  let _ ← Act.call "thread/name/set" [("threadId", threadId), ("name", .str title)]
  checkpoint "thread_named" [("title", .str title)]

/-- Placement is checked again, just before the dispatch. -/
def recheck (worktree : Worktree) : Act Unit := do
  let actual ← worktree.inspect
  checkpoint "checking_before_dispatch" [("checkoutBeforeDispatch", .obj actual.toDict)]
  let good ← worktree.matches actual
  if !good then
    refuseWorktree "Worktree changed during thread startup; initial prompt withheld"
  else pure ()

/-- Dispatch the initial prompt. -/
def dispatch (prompt : String) : Act Unit := do
  checkpoint "dispatching_initial_prompt"
    [("initialPrompt", .obj [("state", .str "outcome_unknown")])]
  let threadId ← receiptThreadId
  let turn ← Act.call "turn/start" (toolOutputTurn threadId "create_worktree_thread" prompt)
  let turnId ← Act.ofExcept (index2 "turn" "id" turn)
  checkpoint "initial_prompt_accepted"
    [("turnId", turnId), ("initialPrompt", .obj [("state", .str "accepted")])]

/-- The `action` of `create_worktree_thread`. -/
def action (a : CreateWorktreeThread) : Act Unit := do
  let worktree ← a.prepare
  a.start worktree
  whenGiven a.title name
  recheck worktree
  whenGiven a.prompt dispatch
  checkpoint "complete" [("recoveryRequired", .bool false)]

end CreateWorktreeThread

/-! ## §3. `send_message_to_thread`. -/

/-- The arguments of `send_message_to_thread`. -/
structure SendMessage where
  threadId : String
  message : String

namespace SendMessage

def check (a : SendMessage) : Except PyExc Unit := do
  nonempty a.threadId "thread_id" 128
  nonempty a.message "message" defaultMaximum

def params (a : SendMessage) : Dict :=
  [("threadId", .str a.threadId), ("message", .str a.message)]

/-- The refusal to message a thread that asks for approvals. -/
def unsupportedApprovalPolicy : PyExc :=
  .rpcError "thread/resume"
    [("code", .str "unsupported_approval_policy"),
     ("message", .str ("Interactive approvals unsupported; message withheld. " ++
       "Continue the thread in Desktop."))]

/-- The `turn/start` both branches send, and the ID of the turn. -/
def deliver (a : SendMessage) : Act Unit := do
  let turn ← Act.call "turn/start"
    (toolOutputTurn (.str a.threadId) "send_message_to_thread" a.message)
  let actualTurnId ← Act.ofExcept (index2 "turn" "id" turn)
  updateReceipt [("turnId", actualTurnId), ("actualTurnId", actualTurnId)]

/-- The branch for an active thread: the server queues the tool output on
the active turn. -/
def deliverActive (a : SendMessage) : Act Unit := do
  updateReceipt [("deliveryMode", .str "active_tool_output")]
  let _ ← saveReceipt
  a.deliver
  let _ ← saveReceipt
  Act.close

/-- The branch for an idle thread: resume it, without any override. -/
def deliverIdle (a : SendMessage) : Act Unit := do
  updateReceipt [("deliveryMode", .str "idle_tool_output")]
  let _ ← saveReceipt
  let resumed ← Act.call "thread/resume"
    [("threadId", .str a.threadId), ("excludeTurns", .bool true)]
  updateReceipt [("resumed", resumed)]
  let _ ← saveReceipt
  let policy ← Act.ofExcept (resumed.getNone "approvalPolicy")
  if !policy.pyEq (.str "never") then Act.raise unsupportedApprovalPolicy
  else do
    a.deliver
    -- The bridge must not remain a competing Desktop client subscriber.
    Act.close

/-- The `action` of `send_message_to_thread`. -/
def action (a : SendMessage) : Act Unit := do
  updateReceipt [("threadId", .str a.threadId)]
  let _ ← saveReceipt
  let state ← Act.call "thread/read" [("threadId", .str a.threadId)]
  let thread ← Act.ofExcept (state.index "thread")
  let status ← Act.ofExcept (statusType thread)
  if status.pyEq (.str "active") then a.deliverActive else a.deliverIdle

end SendMessage

/-! ## §4. `fork_thread`. -/

/-- The arguments of `fork_thread`. -/
structure ForkThread where
  threadId : String

namespace ForkThread

def check (a : ForkThread) : Except PyExc Unit := nonempty a.threadId "thread_id" 128

def params (a : ForkThread) : Dict := [("threadId", .str a.threadId)]

/-- `RpcError("thread/fork", …)`. -/
def refusal (code message : String) : PyExc :=
  .rpcError "thread/fork" [("code", .str code), ("message", .str message)]

def unsupportedSource : PyExc :=
  refusal "unsupported_source" "Fork requires a retained, inactive source thread."

def goalUnverified : PyExc :=
  refusal "goal_inspection_failed"
    ("Cannot verify source Goal state; fork withheld. " ++
     "A working thread/goal/get API is required.")

def goalUnrecognized : PyExc :=
  refusal "goal_inspection_failed" "Source Goal response is unrecognized; fork withheld."

def sourceHasGoal : PyExc :=
  refusal "source_has_goal"
    ("Forking a thread with a persistent Goal is unsupported; " ++
     "fork withheld to avoid automatic continuation.")

/-- Whether the source thread is active or ephemeral. -/
def unsuitable (source : Json) : Except PyExc Bool := do
  let status ← statusType source
  if status.pyEq (.str "active") then .ok true
  else do
    let ephemeral ← source.getNone "ephemeral"
    .ok ephemeral.truthy

/-- The goal the server reports, where its answer has one. -/
def reportedGoal : Json → Option Json
  | .obj goalState => Dict.get? goalState "goal"
  | _ => none

/-- `thread/goal/get`; a server that rejects it has not verified anything. -/
def goalState (a : ForkThread) : Act Json :=
  Co.tryCatch (Act.call "thread/goal/get" [("threadId", .str a.threadId)]) fun
    | .rpcError _ _ => Act.raise goalUnverified
    | error => Act.raise error

/-- Inherited goals are refused: an older server can ignore
`deferGoalContinuation`. -/
def refuseGoal (a : ForkThread) : Act Unit := do
  let state ← a.goalState
  match reportedGoal state with
  | none => Act.raise goalUnrecognized
  | some .null => pure ()
  | some _ => Act.raise sourceHasGoal

/-- The `action` of `fork_thread`. -/
def action (a : ForkThread) : Act Unit := do
  let state ← Act.call "thread/read" [("threadId", .str a.threadId)]
  let source ← Act.ofExcept (state.index "thread")
  let refused ← Act.ofExcept (unsuitable source)
  if refused then Act.raise unsupportedSource
  else do
    a.refuseGoal
    let fork ← Act.call "thread/fork"
      [("threadId", .str a.threadId), ("excludeTurns", .bool true),
       ("deferGoalContinuation", .bool true)]
    let forkId ← Act.ofExcept (index2 "thread" "id" fork)
    updateReceipt
      [("sourceThreadId", .str a.threadId), ("threadId", forkId), ("creation", fork)]
    let _ ← saveReceipt
    Act.close

end ForkThread

/-! ## §5. `set_thread_title` and `set_thread_archived`. -/

/-- The arguments of `set_thread_title`. -/
structure SetThreadTitle where
  threadId : String
  title : String

namespace SetThreadTitle

def check (a : SetThreadTitle) : Except PyExc Unit := do
  nonempty a.threadId "thread_id" 128
  nonempty a.title "title" 500

def params (a : SetThreadTitle) : Dict :=
  [("threadId", .str a.threadId), ("title", .str a.title)]

/-- The `action` of `set_thread_title`. -/
def action (a : SetThreadTitle) : Act Unit := do
  let _ ← Act.call "thread/name/set"
    [("threadId", .str a.threadId), ("name", .str a.title)]
  updateReceipt [("threadId", .str a.threadId), ("title", .str a.title)]

end SetThreadTitle

/-- The arguments of `set_thread_archived`; the flags are checked to be
booleans, so they arrive as any value. -/
structure SetThreadArchived where
  threadId : String
  archived : Json
  archiveSpawnedDescendants : Json

namespace SetThreadArchived

def check (a : SetThreadArchived) : Except PyExc Unit := do
  nonempty a.threadId "thread_id" 128
  if !isBool a.archived || !isBool a.archiveSpawnedDescendants then
    .error (.valueError "archive flags must be booleans")
  else if a.archived.truthy && !a.archiveSpawnedDescendants.truthy then
    .error (.valueError ("Archiving also stops/archives spawned descendants; explicitly " ++
      "acknowledge with archive_spawned_descendants=true"))
  else .ok ()

def params (a : SetThreadArchived) : Dict :=
  [("threadId", .str a.threadId),
   ("archived", a.archived),
   ("archiveSpawnedDescendants", a.archiveSpawnedDescendants)]

def threadBusy : PyExc :=
  .rpcError "thread/archive"
    [("code", .str "thread_busy"), ("message", .str "Refusing to archive an active thread.")]

/-- An active thread is not archived. -/
def refuseBusy (a : SetThreadArchived) : Act Unit := do
  let state ← Act.call "thread/read" [("threadId", .str a.threadId)]
  let thread ← Act.ofExcept (state.index "thread")
  let status ← Act.ofExcept (statusType thread)
  if status.pyEq (.str "active") then Act.raise threadBusy else pure ()

/-- The `action` of `set_thread_archived`. -/
def action (a : SetThreadArchived) : Act Unit := do
  if a.archived.truthy then a.refuseBusy else pure ()
  let _ ← Act.call (if a.archived.truthy then "thread/archive" else "thread/unarchive")
    [("threadId", .str a.threadId)]
  updateReceipt [("threadId", .str a.threadId), ("archived", a.archived)]

end SetThreadArchived

/-! ## §6. Any of the six. -/

/-- A mutation tool with its arguments. -/
inductive ToolCall where
  | createThread (a : CreateThread)
  | createWorktreeThread (a : CreateWorktreeThread)
  | sendMessageToThread (a : SendMessage)
  | forkThread (a : ForkThread)
  | setThreadTitle (a : SetThreadTitle)
  | setThreadArchived (a : SetThreadArchived)

namespace ToolCall

/-- The method name a receipt and a fingerprint carry. -/
def method : ToolCall → String
  | .createThread _ => "create_thread"
  | .createWorktreeThread _ => "create_worktree_thread"
  | .sendMessageToThread _ => "send_message_to_thread"
  | .forkThread _ => "fork_thread"
  | .setThreadTitle _ => "set_thread_title"
  | .setThreadArchived _ => "set_thread_archived"

/-- The parameters a fingerprint covers. -/
def params : ToolCall → Dict
  | .createThread a => a.requestParams
  | .createWorktreeThread a => a.params
  | .sendMessageToThread a => a.params
  | .forkThread a => a.params
  | .setThreadTitle a => a.params
  | .setThreadArchived a => a.params

/-- The argument checks that precede `_mutate`. -/
def check : ToolCall → Except PyExc Unit
  | .createThread a => a.check
  | .createWorktreeThread a => a.check
  | .sendMessageToThread a => a.check
  | .forkThread a => a.check
  | .setThreadTitle a => a.check
  | .setThreadArchived a => a.check

/-- Only `create_thread` has an older form of its parameters. -/
def legacyParams : ToolCall → Option (Act Dict)
  | .createThread a => some a.legacyParams
  | _ => none

/-- `validate_fresh`, which only `create_thread` passes; it yields the
directory the launch will use. -/
def validateFresh : ToolCall → Act String
  | .createThread a => a.validateFresh
  | _ => pure ""

/-- The action passed to `_mutate`. -/
def action : ToolCall → String → Act Unit
  | .createThread a, cwd => a.action cwd
  | .createWorktreeThread a, _ => a.action
  | .sendMessageToThread a, _ => a.action
  | .forkThread a, _ => a.action
  | .setThreadTitle a, _ => a.action
  | .setThreadArchived a, _ => a.action

variable [Hashlib]

/-- The tool: its checks, then `_mutate`. -/
def run (t : ToolCall) (requestId : String) : Act Dict := do
  Act.ofExcept t.check
  mutate requestId t.method t.params t.legacyParams t.validateFresh t.action

/-- The tool as a program, from a frame with no receipt yet. -/
def prog (t : ToolCall) (requestId : String) : Residual Dict := t.run requestId []

end ToolCall

end CodexRemoteBridge

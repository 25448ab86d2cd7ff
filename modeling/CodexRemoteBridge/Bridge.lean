/-
  CodexRemoteBridge.Bridge — `bridge.py`: the six mutation tools and the
  skeleton `_mutate` they share.

  The receipt a run fills is the cell of its coroutine.  A tool is its
  argument checks, the parameters its fingerprint covers, and an action;
  `mutate` puts the ledger and the mutation lock around the action.
-/
import CodexRemoteBridge.Ledger
import CodexRemoteBridge.Worktrees

namespace CodexRemoteBridge

open Interaction

variable [Hashlib]

/-! ## §1. Argument checks. -/

/-- `nonempty`. -/
def nonempty (value name : String) (maximum : Nat) : Except PyExc Unit :=
  if strip value = "" ∨ maximum < value.length then
    .error (.valueError (name ++ " must contain 1–" ++ toString maximum ++ " characters"))
  else .ok ()

/-- `nonempty` of an argument that may be absent. -/
def nonemptyIfGiven (value : Option String) (name : String) (maximum : Nat) :
    Except PyExc Unit :=
  match value with
  | none => .ok ()
  | some value => nonempty value name maximum

/-- The maximum `nonempty` defaults to. -/
def defaultMaximum : Nat := 100000

/-- The refusal of a `cwd`. -/
def badCwd : PyExc :=
  .valueError "cwd must be an existing absolute directory on the App Server host"

/-- `absolute_directory`. -/
def absoluteDirectory (cwd : String) : Act String := do
  let path := PyPath.ofString cwd
  if !path.isAbsolute then Act.raise badCwd
  else do
    let isDir ← Act.isDir path
    if !isDir then Act.raise badCwd
    else do
      let resolved ← Act.resolve path
      pure resolved.str

/-- The fields of each sandbox policy type, in `validate_sandbox_policy`. -/
def policyFields : List (String × List String) :=
  [("readOnly", ["type", "networkAccess"]),
   ("dangerFullAccess", ["type"]),
   ("workspaceWrite",
     ["type", "networkAccess", "writableRoots", "excludeTmpdirEnvVar", "excludeSlashTmp"])]

/-- Equality of two lists of keys as sets. -/
def sameKeys (a b : List String) : Bool :=
  a.all (fun k => b.contains k) && b.all fun k => a.contains k

def isBool : Json → Bool
  | .bool _ => true
  | _ => false

def isAbsoluteText : Json → Bool
  | .str p => (PyPath.ofString p).isAbsolute
  | _ => false

/-- `fields.get(kind)`, which hashes its argument first. -/
def policyFieldsOf : Option Json → Except PyExc (Option (List String))
  | some (.arr _) => .error (.typeError "unhashable type: 'list'")
  | some (.obj _) => .error (.typeError "unhashable type: 'dict'")
  | some (.str kind) => .ok (policyFields.lookup kind)
  | _ => .ok none

/-- `validate_sandbox_policy`. -/
def validateSandboxPolicy (policy : Dict) : Except PyExc Unit := do
  let fields ← policyFieldsOf (policy.get? "type")
  if fields.all (fun fields => !sameKeys policy.keys fields) then
    .error (.valueError "Expected sandbox policy must contain all and only its protocol fields")
  else if !(["networkAccess", "excludeTmpdirEnvVar", "excludeSlashTmp"].all
      fun key => (policy.get? key).all isBool) then
    .error (.valueError "Expected sandbox policy flags must be booleans")
  else
    match policy.get? "writableRoots" with
    | none => .ok ()
    | some roots =>
        let absolute := match roots with
          | .arr items => items.all isAbsoluteText
          | _ => false
        if absolute then .ok ()
        else .error (.valueError "Expected sandbox policy writableRoots must be absolute paths")

/-- The policy type of each sandbox mode. -/
def sandboxTypes : List (String × String) :=
  [("read-only", "readOnly"),
   ("workspace-write", "workspaceWrite"),
   ("danger-full-access", "dangerFullAccess")]

/-! ## §2. The shared skeleton. -/

/-- `{**receipt, "replayed": True}`. -/
def replayed (receipt : Dict) : Dict := receipt.update [("replayed", .bool true)]

/-- `receipt.update(fields)`. -/
def updateReceipt (fields : Dict) : Act Unit := Co.modify fun receipt => receipt.update fields

/-- `self.ledger.save(receipt)`. -/
def saveReceipt : Act Dict := do
  let receipt ← Co.get
  Ledger.save receipt

/-- The fields that record an exception that left the action. -/
def outcome : PyExc → Dict
  | .rpcError method error =>
      [("status", .str "failed"), ("error", .str (PyExc.rpcError method error).message),
       ("rpcError", .obj error)]
  | .worktreeError message => [("status", .str "failed"), ("error", .str message)]
  | .cancelledError => [("status", .str "outcome_unknown")]
  | .exception cls message =>
      [("status", .str "outcome_unknown"), ("error", .str (cls ++ ": " ++ message))]

/-- The handlers of `_mutate`: a cancellation is saved at once and raised
again, any other exception ends in the receipt. -/
def settle (error : PyExc) : Act Unit :=
  match error with
  | .cancelledError => do
      let receipt ← Co.get
      let _ ← Ledger.save (receipt.update (outcome .cancelledError))
      Act.raise .cancelledError
  | error => updateReceipt (outcome error)

/-- What a fresh request does with its receipt. -/
def attempt (requestId : String) (action : Act Unit) : Act Dict := do
  Co.tryCatch
    (do
      Co.ask (Op.enter requestId)
      action
      updateReceipt [("status", .str "accepted")])
    settle
  saveReceipt

/-- The body of `_mutate` under the mutation lock. -/
def mutateLocked {γ : Type} (requestId method : String) (params : Dict)
    (legacyParams : Option (Act Dict)) (validateFresh : Act γ) (action : γ → Act Unit) :
    Act Dict := do
  let retained ← Ledger.lookup requestId method params legacyParams
  match retained with
  | some retained => pure (replayed retained)
  | none => do
      let launch ← validateFresh
      let (fresh, receipt) ← Ledger.begin requestId method params legacyParams
      if !fresh then pure (replayed receipt)
      else do
        Co.modify fun _ => receipt
        attempt requestId (action launch)

/-- `Bridge._mutate`. -/
def mutate {γ : Type} (requestId method : String) (params : Dict)
    (legacyParams : Option (Act Dict)) (validateFresh : Act γ) (action : γ → Act Unit) :
    Act Dict := do
  Act.perform .acquire lift
  Co.tryFinally (mutateLocked requestId method params legacyParams validateFresh action)
    (Co.ask Op.release)

end CodexRemoteBridge

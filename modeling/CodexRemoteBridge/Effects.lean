/-
  CodexRemoteBridge.Effects — the operations a tool call performs on the
  world: the mutation lock, the filesystem, the ledger, `git` and the
  App Server.

  Every operation is a point where the run may stop for good.  The answers
  are the environment's: any JSON, any exception, cancellation at every
  `await`.
-/
import CodexRemoteBridge.Lib.Coroutine
import CodexRemoteBridge.Python

namespace CodexRemoteBridge

open Interaction

/-- A ledger row as `SELECT fingerprint, receipt` reads it. -/
abbrev StoredRow : Type := String × Dict

/-- How a subprocess ended: its return code, its standard output if that
decodes, and its standard error decoded with replacement. -/
structure Exited where
  returncode : Int
  stdout : Option String
  stderr : String

/-- The operations of a tool call. -/
inductive Op where
  /-- `async with self._mutation_lock`: entering and leaving. -/
  | acquire
  | release
  | isDir (path : PyPath)
  | isFile (path : PyPath)
  | pathExists (path : PyPath)
  | isSymlink (path : PyPath)
  | resolve (path : PyPath)
  /-- `await asyncio.to_thread(path.resolve)`. -/
  | resolveThread (path : PyPath)
  | mkdir (path : PyPath)
  /-- `time.time()`, as its `repr`. -/
  | now
  | select (requestId : String)
  /-- `INSERT OR IGNORE` and the `SELECT` after it, in one transaction:
  answered with the row that was there before, or with `none` when the row
  was inserted and is the one the `SELECT` finds. -/
  | beginRow (requestId fingerprint : String) (receipt : Dict)
  /-- `UPDATE operations SET receipt = ? WHERE request_id = ?`. -/
  | update (requestId : Json) (receipt : Dict)
  /-- `git` in `cwd`, run to its end. -/
  | git (cwd : PyPath) (args : List String)
  /-- `await self.rpc.call(method, params)`. -/
  | call (method : String) (params : Dict)
  /-- `await self.rpc.close()`. -/
  | close
  /-- No effect: the action passed to `_mutate` is entered here. -/
  | enter (requestId : String)

/-- What an operation is answered with. -/
abbrev Ans : Op → Type
  | .acquire => Except Fault Unit
  | .release => Unit
  | .isDir _ => Except Fault Bool
  | .isFile _ => Except Fault Bool
  | .pathExists _ => Except Fault Bool
  | .isSymlink _ => Except Fault Bool
  | .resolve _ => Except Fault PyPath
  | .resolveThread _ => Except Fault PyPath
  | .mkdir _ => Except Fault Unit
  | .now => String
  | .select _ => Except Fault (Option StoredRow)
  | .beginRow _ _ _ => Except Fault (Option StoredRow)
  | .update _ _ => Except Fault Unit
  | .git _ _ => Except Fault Exited
  | .call _ _ => Except PyExc Json
  | .close => Except PyExc Unit
  | .enter _ => Unit

/-- The operations at which the event loop may run something else. -/
def Op.isAwait : Op → Bool
  | .acquire => true
  | .resolveThread _ => true
  | .git _ _ => true
  | .call _ _ => true
  | .close => true
  | _ => false

/-- What an operation may change outside the bridge and its ledger, apart
from connecting. -/
inductive Effect where
  | entered
  | mkdir
  | worktreeAdd
  | readTree
  | checkoutIndex
  | otherGit (command : List String)
  | request (method : String)
  deriving DecidableEq

/-- The command of a `git` command line, behind its `-c name=value`. -/
def gitCommand : List String → List String
  | "-c" :: _ :: args => gitCommand args
  | args => args

/-- The `git` commands that are known to change nothing. -/
def gitLooks : List String → Bool
  | "rev-parse" :: _ => true
  | "cat-file" :: _ => true
  | ["config", "--null", "--list"] => true
  | "worktree" :: "list" :: _ => true
  | "status" :: _ => true
  | _ => false

/-- The effect of a `git` command line: whatever is not known to look only
counts as a change. -/
def gitEffect (args : List String) : Option Effect :=
  match gitCommand args with
  | "worktree" :: "add" :: _ => some .worktreeAdd
  | "read-tree" :: _ => some .readTree
  | ["checkout-index", "--all"] => some .checkoutIndex
  | command => if gitLooks command then none else some (.otherGit command)

/-- The effect of a request; the handshake is part of connecting. -/
def requestEffect (method : String) : Option Effect :=
  if method = "initialize" then none else some (.request method)

/-- The effect an operation begins. -/
def Op.effect : Op → Option Effect
  | .enter _ => some .entered
  | .mkdir _ => some .mkdir
  | .git _ args => gitEffect args
  | .call method _ => requestEffect method
  | _ => none

/-- The operations that look at the filesystem, at Git or at the clock. -/
def Op.isLook : Op → Bool
  | .isDir _ | .isFile _ | .pathExists _ | .isSymlink _ => true
  | .resolve _ | .resolveThread _ | .now => true
  | .git _ args => (gitEffect args).isNone
  | _ => false

/-- A coroutine of the bridge; its cell is the receipt dict it fills. -/
abbrev Act : Type → Type := Co Op Ans PyExc Dict

/-- What is left of a tool call. -/
abbrev Residual (α : Type) : Type := Prog Op Ans (Except PyExc α × Dict)

/-- The operations and answers of a tool call so far. -/
abbrev History : Type := List (Event Ans)

namespace Act

/-- Perform an operation whose answer, read by `view`, returns or raises. -/
def perform {α : Type} (op : Op) (view : Ans op → Except PyExc α) : Act α :=
  Co.ask op >>= fun r => Co.ofExcept (view r)

def raise {α : Type} (e : PyExc) : Act α := Co.throw e

/-- A pure step that may raise. -/
abbrev ofExcept {α : Type} (r : Except PyExc α) : Act α := Co.ofExcept r

def isDir (path : PyPath) : Act Bool := perform (.isDir path) lift
def isFile (path : PyPath) : Act Bool := perform (.isFile path) lift
def pathExists (path : PyPath) : Act Bool := perform (.pathExists path) lift
def isSymlink (path : PyPath) : Act Bool := perform (.isSymlink path) lift
def resolve (path : PyPath) : Act PyPath := perform (.resolve path) lift
def resolveThread (path : PyPath) : Act PyPath := perform (.resolveThread path) lift
def mkdir (path : PyPath) : Act Unit := perform (.mkdir path) lift
def call (method : String) (params : Dict) : Act Json := perform (.call method params) fun r => r
def close : Act Unit := perform .close fun r => r
def now : Act Json := perform .now fun t => .ok (.float t)

variable {M α : Type} {Φ : OpSpec Ans M} {X : PyExc → Dict → M → Prop}

theorem wp_perform (op : Op) (view : Ans op → Except PyExc α) (Q : α → Dict → M → Prop)
    (s : Dict) :
    Co.wp Φ (perform op view) Q X s
      = Φ op fun r m =>
          match view r with
          | .ok a => Q a s m
          | .error e => X e s m := by
  unfold perform
  rw [Co.wp_bind, Co.wp_ask]
  congr 1
  funext r m
  rw [Co.wp_ofExcept]
  cases view r <;> rfl

@[simp] theorem wp_raise (e : PyExc) (Q : α → Dict → M → Prop) (s : Dict) :
    Co.wp Φ (raise e : Act α) Q X s = X e s := rfl

end Act

end CodexRemoteBridge

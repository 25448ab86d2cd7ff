/-
  CodexRemoteBridge.Worktrees — `worktrees.py`: a validated, retained Git
  checkout at one commit.

  Every `git` command and every look at the filesystem is an operation
  whose answer is the environment's.
-/
import CodexRemoteBridge.Effects
import Mathlib.Data.List.Sort
import Mathlib.Data.String.Basic

namespace CodexRemoteBridge

open Interaction

/-! ## §1. Running git. -/

/-- `git`: a non-zero exit is a `WorktreeError` with the end of stderr. -/
def git (cwd : PyPath) (args : List String) : Act String := do
  let exited ← Act.perform (.git cwd args) lift
  if exited.returncode ≠ 0 then
    Act.raise (.worktreeError (strip (takeLast 4000 exited.stderr)))
  else
    match exited.stdout with
    | none => Act.raise (.exception "UnicodeDecodeError" "'utf-8' codec can't decode bytes")
    -- Git's output terminator goes, whitespace of a path stays.
    | some stdout => pure (removeNewline stdout)

/-- `canonical_path`. -/
def canonicalPath (value name : String) : Act PyPath := do
  let path := PyPath.ofString value
  let mismatch : PyExc :=
    .worktreeError (name ++ " must be a canonical absolute path without symlinks")
  if !path.isAbsolute then Act.raise mismatch
  else do
    let resolved ← Act.resolve path
    if resolved.str ≠ value then Act.raise mismatch else pure path

/-! ## §2. Checkout filters. -/

/-- The settings of a filter driver that select a program. -/
def filterSettings : List (List Char) :=
  ["clean".toList, "smudge".toList, "process".toList, "required".toList]

/-- `re.fullmatch(r"filter\..*\.(clean|smudge|process|required)", key)`, and
then `key.rsplit(".", 1)[0]`. -/
def filterName (key : List Char) : Option (List Char) :=
  filterSettings.findSome? fun setting =>
    let suffix := '.' :: setting
    let head := key.take (key.length - suffix.length)
    if suffix.isSuffixOf key && "filter.".toList.isPrefixOf head then some head else none

/-- The distinct driver names of a `git config --null --list`, sorted. -/
def filters (config : String) : List String :=
  let entries := splitChars '\x00' config.toList
  let names := entries.filterMap fun entry => filterName (entry.takeWhile (· != '\n'))
  (names.map String.ofList).dedup.insertionSort (· ≤ ·)

/-- The overrides for the drivers a configuration names. -/
def filterOverrides (config : String) : List String :=
  (filters config).flatMap fun name =>
    ["clean=", "smudge=", "process=", "required=false"].flatMap fun setting =>
      ["-c", name ++ "." ++ setting]

/-- `checkout_filter_config`. -/
def checkoutFilterConfig (cwd : PyPath) : Act (List String) := do
  let config ← git cwd ["config", "--null", "--list"]
  pure (filterOverrides config)

/-! ## §3. The worktree. -/

/-- `Worktree`. -/
structure Worktree where
  source : PyPath
  destination : PyPath
  revision : String
  commonDir : PyPath

/-- `re.fullmatch(r"[0-9a-f]{40}|[0-9a-f]{64}", revision)`. -/
def isObjectId (revision : String) : Bool :=
  (revision.length = 40 || revision.length = 64) &&
    revision.toList.all fun c => ('0' ≤ c && c ≤ '9') || ('a' ≤ c && c ≤ 'f')

namespace Worktree

/-- `destination must be outside existing repositories`: the loop over
`target.parents`. -/
def refuseRepositories : List PyPath → Act Unit
  | [] => pure ()
  | parent :: rest => do
      let refuse : Act Unit :=
        Act.raise (.worktreeError "destination must be outside existing repositories")
      let nested ← Act.pathExists (parent.child ".git")
      if nested then refuse
      else do
        let head ← Act.isFile (parent.child "HEAD")
        let bare ← if head then Act.isDir (parent.child "objects") else pure false
        if bare then refuse else refuseRepositories rest

/-- `any(target.is_relative_to(path.resolve()) for path in paths)`. -/
def insideAny (target : PyPath) : List PyPath → Act Bool
  | [] => pure false
  | path :: rest => do
      let resolved ← Act.resolve path
      if target.isRelativeTo resolved then pure true else insideAny target rest

/-- `target.exists() or target.is_symlink() or not target.parent.is_dir()`. -/
def unusable (target : PyPath) : Act Bool := do
  let present ← Act.pathExists target
  if present then pure true
  else do
    let symlink ← Act.isSymlink target
    if symlink then pure true
    else do
      let parent ← Act.isDir target.parent
      pure (!parent)

/-- The paths in a `git worktree list --porcelain -z`. -/
def listedRoots (worktrees : String) : List PyPath :=
  ((split '\x00' worktrees).filter (startsWith "worktree ")).map fun field =>
    PyPath.ofString (String.ofList (field.toList.drop 9))

/-- `Worktree.validate`. -/
def validate (sourceRepository startingRevision destination : String) : Act Worktree := do
  let source ← canonicalPath sourceRepository "source_repository"
  let target ← canonicalPath destination "destination"
  let sourceIsDir ← Act.isDir source
  if !sourceIsDir then
    Act.raise (.worktreeError "source_repository must be an existing Git checkout root")
  else if !isObjectId startingRevision then
    Act.raise (.worktreeError "starting_revision must be a full lowercase commit object ID")
  else do
    let root ← git source ["rev-parse", "--show-toplevel"]
    if root ≠ source.str then
      Act.raise (.worktreeError "source_repository must be the Git checkout root")
    else do
      let kind ← git source ["cat-file", "-t", startingRevision]
      if kind ≠ "commit" then
        Act.raise (.worktreeError "starting_revision must name a commit object")
      else do
        let commonText ← git source ["rev-parse", "--path-format=absolute", "--git-common-dir"]
        let common := PyPath.ofString commonText
        let bad ← unusable target
        if bad then
          Act.raise
            (.worktreeError "destination must be absent with an existing parent directory")
        else do
          refuseRepositories target.parents
          let worktrees ← git source ["worktree", "list", "--porcelain", "-z"]
          let inside ← insideAny target (common :: listedRoots worktrees)
          if inside then
            Act.raise (.worktreeError
              "destination must be outside existing worktrees and Git metadata")
          else do
            let commonDir ← Act.resolveThread common
            pure ⟨source, target, startingRevision, commonDir⟩

/-- `Worktree.receipt`. -/
def receipt (w : Worktree) : Dict :=
  [("sourceRepository", .str w.source.str),
   ("checkout", .str w.destination.str),
   ("requestedRevision", .str w.revision),
   ("gitCommonDirectory", .str w.commonDir.str),
   ("ownership", .str "bridge-managed"),
   ("lifecycle", .str "retained-until-manual-cleanup"),
   ("state", .str "planned")]

/-- `Worktree.reserve`: an exclusive `mkdir`. -/
def reserve (w : Worktree) : Act Unit := Act.mkdir w.destination

/-- The arguments of the command that registers the worktree. -/
def createArgs (w : Worktree) : List String :=
  ["worktree", "add", "--detach", "--no-checkout", "--lock", "--reason",
   "codex-thread-bridge: retained until manual cleanup", "--", w.destination.str, w.revision]

/-- `Worktree.create`. -/
def create (w : Worktree) : Act Unit := do
  let _ ← git w.source w.createArgs
  pure ()

/-- `Worktree.checkout`. -/
def checkout (w : Worktree) : Act Unit := do
  -- Conditional includes may apply only to the newly registered worktree.
  let overrides ← checkoutFilterConfig w.destination
  let _ ← git w.destination ["read-tree", w.revision]
  let _ ← git w.destination (overrides ++ ["checkout-index", "--all"])
  pure ()

end Worktree

/-- What `Worktree.inspect` reports. -/
structure Inspection where
  checkout : String
  initialRevision : String
  gitCommonDirectory : String
  detached : Bool
  clean : Bool

/-- The dict `inspect` returns. -/
def Inspection.toDict (i : Inspection) : Dict :=
  [("checkout", .str i.checkout),
   ("initialRevision", .str i.initialRevision),
   ("gitCommonDirectory", .str i.gitCommonDirectory),
   ("detached", .bool i.detached),
   ("clean", .bool i.clean)]

namespace Worktree

/-- `Worktree.inspect`. -/
def inspect (w : Worktree) : Act Inspection := do
  let overrides ← checkoutFilterConfig w.destination
  let checkout ← git w.destination ["rev-parse", "--show-toplevel"]
  let initialRevision ← git w.destination ["rev-parse", "HEAD"]
  let gitCommonDirectory ←
    git w.destination ["rev-parse", "--path-format=absolute", "--git-common-dir"]
  let abbreviated ← git w.destination ["rev-parse", "--abbrev-ref", "HEAD"]
  let status ← git w.destination
    (overrides ++ ["status", "--porcelain=v1", "--untracked-files=all"])
  pure ⟨checkout, initialRevision, gitCommonDirectory, abbreviated = "HEAD", status = ""⟩

/-- What `matches` asks of an inspection, short of the last look at the
filesystem. -/
def agrees (w : Worktree) (actual : Inspection) : Bool :=
  actual.checkout = w.destination.str && actual.initialRevision = w.revision &&
    actual.gitCommonDirectory = w.commonDir.str && actual.detached && actual.clean

/-- `Worktree.matches`. -/
def «matches» (w : Worktree) (actual : Inspection) : Act Bool :=
  if w.agrees actual then do
    let resolved ← Act.resolve w.destination
    pure (resolved = w.destination)
  else pure false

end Worktree

end CodexRemoteBridge

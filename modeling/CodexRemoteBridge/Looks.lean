/-
  CodexRemoteBridge.Looks — the parts of a tool call that only look.

  Validating and inspecting a worktree, resolving a directory and reading
  the clock never touch the receipt and begin no effect.  Each part gets
  one `Only` lemma; the analyses of the tools use nothing else about it.
-/
import CodexRemoteBridge.Tools

namespace CodexRemoteBridge

open Interaction

/-- Performs looks only. -/
abbrev Looks {α : Type} (c : Act α) : Prop := c.Only fun op => op.isLook = true

theorem Op.effect_of_isLook {op : Op} (h : op.isLook = true) : op.effect = none := by
  cases op <;> simp_all [Op.isLook, Op.effect]

/-! ## §1. Primitive looks. -/

theorem Act.only_perform {G : Op → Prop} {α : Type} {op : Op} (h : G op)
    (view : Ans op → Except PyExc α) : (Act.perform op view).Only G :=
  (Co.only_ask h).bind fun _ => Co.only_ofExcept _

theorem Act.only_raise {G : Op → Prop} {α : Type} (e : PyExc) :
    (Act.raise e : Act α).Only G := Co.only_throw e

theorem looks_perform {α : Type} {op : Op} (h : op.isLook = true)
    (view : Ans op → Except PyExc α) : Looks (Act.perform op view) :=
  Act.only_perform h view

theorem looks_now : Looks Act.now := looks_perform rfl _

theorem looks_isDir (path : PyPath) : Looks (Act.isDir path) := looks_perform rfl _
theorem looks_isFile (path : PyPath) : Looks (Act.isFile path) := looks_perform rfl _
theorem looks_pathExists (path : PyPath) : Looks (Act.pathExists path) := looks_perform rfl _
theorem looks_isSymlink (path : PyPath) : Looks (Act.isSymlink path) := looks_perform rfl _
theorem looks_resolve (path : PyPath) : Looks (Act.resolve path) := looks_perform rfl _

theorem looks_resolveThread (path : PyPath) : Looks (Act.resolveThread path) :=
  looks_perform rfl _

/-- A `git` command performs that command and nothing else. -/
theorem only_git {G : Op → Prop} {cwd : PyPath} {args : List String} (h : G (.git cwd args)) :
    (git cwd args).Only G := by
  unfold git
  refine (Act.only_perform h _).bind fun exited => ?_
  split
  · exact Act.only_raise _
  · split
    · exact Act.only_raise _
    · exact Co.only_pure _

theorem looks_git {cwd : PyPath} {args : List String} (h : gitEffect args = none) :
    Looks (git cwd args) :=
  only_git (G := fun op => op.isLook = true) (by simp [Op.isLook, h])

/-! ## §2. Validating and inspecting a worktree. -/

theorem looks_absoluteDirectory (cwd : String) : Looks (absoluteDirectory cwd) := by
  unfold absoluteDirectory
  dsimp only
  split
  · exact Act.only_raise _
  · refine (looks_isDir _).bind fun isDir => ?_
    split
    · exact Act.only_raise _
    · exact (looks_resolve _).bind fun _ => Co.only_pure _

theorem looks_canonicalPath (value name : String) : Looks (canonicalPath value name) := by
  unfold canonicalPath
  dsimp only
  split
  · exact Act.only_raise _
  · refine (looks_resolve _).bind fun resolved => ?_
    split
    · exact Act.only_raise _
    · exact Co.only_pure _

theorem looks_checkoutFilterConfig (cwd : PyPath) : Looks (checkoutFilterConfig cwd) :=
  (looks_git rfl).bind fun _ => Co.only_pure _

/-- What follows a look at the filters runs with the overrides for them. -/
theorem checkoutFilterConfig_bind {α : Type} (cwd : PyPath) (f : List String → Act α) :
    checkoutFilterConfig cwd >>= f
      = git cwd ["config", "--null", "--list"] >>= fun config => f (filterOverrides config) := by
  unfold checkoutFilterConfig
  rw [Co.bind_assoc]
  rfl

namespace Worktree

theorem looks_refuseRepositories : ∀ parents : List PyPath, Looks (refuseRepositories parents)
  | [] => Co.only_pure _
  | parent :: rest => by
      rw [refuseRepositories]
      dsimp only
      refine (looks_pathExists _).bind fun nested => ?_
      split
      · exact Act.only_raise _
      · refine (looks_isFile _).bind fun head => ?_
        have next : ∀ bare : Bool, Looks (if bare = true then
            Act.raise (.worktreeError "destination must be outside existing repositories")
            else refuseRepositories rest) := by
          intro bare
          split
          · exact Act.only_raise _
          · exact looks_refuseRepositories rest
        split
        · exact (looks_isDir _).bind next
        · exact (Co.only_pure false).bind next

theorem looks_insideAny (target : PyPath) :
    ∀ paths : List PyPath, Looks (insideAny target paths)
  | [] => Co.only_pure _
  | path :: rest => by
      rw [insideAny]
      refine (looks_resolve _).bind fun resolved => ?_
      split
      · exact Co.only_pure _
      · exact looks_insideAny target rest

theorem looks_unusable (target : PyPath) : Looks (unusable target) := by
  unfold unusable
  refine (looks_pathExists _).bind fun present => ?_
  split
  · exact Co.only_pure _
  · refine (looks_isSymlink _).bind fun symlink => ?_
    split
    · exact Co.only_pure _
    · exact (looks_isDir _).bind fun _ => Co.only_pure _

theorem looks_validate (sourceRepository startingRevision destination : String) :
    Looks (validate sourceRepository startingRevision destination) := by
  unfold validate
  refine (looks_canonicalPath _ _).bind fun source => ?_
  refine (looks_canonicalPath _ _).bind fun target => ?_
  refine (looks_isDir _).bind fun sourceIsDir => ?_
  split
  · exact Act.only_raise _
  split
  · exact Act.only_raise _
  refine (looks_git rfl).bind fun root => ?_
  split
  · exact Act.only_raise _
  refine (looks_git rfl).bind fun kind => ?_
  split
  · exact Act.only_raise _
  refine (looks_git rfl).bind fun commonText => ?_
  refine (looks_unusable _).bind fun bad => ?_
  split
  · exact Act.only_raise _
  refine (looks_refuseRepositories _).bind fun _ => ?_
  refine (looks_git rfl).bind fun worktrees => ?_
  refine (looks_insideAny _ _).bind fun inside => ?_
  split
  · exact Act.only_raise _
  · exact (looks_resolveThread _).bind fun _ => Co.only_pure _

/-- The overrides leave the command as it is. -/
theorem gitCommand_filterOverrides (config : String) (args : List String) :
    gitCommand (filterOverrides config ++ args) = gitCommand args := by
  unfold filterOverrides
  induction filters config with
  | nil => rfl
  | cons name rest ih =>
      rw [List.flatMap_cons, List.append_assoc]
      -- four settings for each driver
      show gitCommand (rest.flatMap _ ++ args) = gitCommand args
      exact ih

/-- Behind the overrides, a `status` begins no effect. -/
theorem gitEffect_status (config : String) :
    gitEffect (filterOverrides config
      ++ ["status", "--porcelain=v1", "--untracked-files=all"]) = none := by
  unfold gitEffect
  rw [gitCommand_filterOverrides]
  rfl

theorem gitEffect_checkoutIndex (config : String) :
    gitEffect (filterOverrides config ++ ["checkout-index", "--all"])
      = some .checkoutIndex := by
  unfold gitEffect
  rw [gitCommand_filterOverrides]
  rfl

theorem looks_inspect (w : Worktree) : Looks w.inspect := by
  unfold inspect
  rw [checkoutFilterConfig_bind]
  refine (looks_git rfl).bind fun config => ?_
  refine (looks_git rfl).bind fun _ => ?_
  refine (looks_git rfl).bind fun _ => ?_
  refine (looks_git rfl).bind fun _ => ?_
  refine (looks_git rfl).bind fun _ => ?_
  exact (looks_git (gitEffect_status config)).bind fun _ => Co.only_pure _

theorem looks_matches (w : Worktree) (actual : Inspection) : Looks (w.matches actual) := by
  unfold «matches»
  split
  · exact (looks_resolve _).bind fun _ => Co.only_pure _
  · exact Co.only_pure _

end Worktree

end CodexRemoteBridge

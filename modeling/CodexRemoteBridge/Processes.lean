/-
  CodexRemoteBridge.Processes — `git` of `worktrees.py`, down to the process.

  A `git` command of a launch is one operation in `Worktrees`; here it is the
  coroutine that spawns a child, waits for it, and kills it when the wait is
  cancelled or times out.  §4 puts that coroutine in the place of the
  operation, and a launch over operations becomes a launch over processes.

  Main result: `CreateWorktreeThread.children`.
-/
import CodexRemoteBridge.Filters
import CodexRemoteBridge.Withholding

namespace CodexRemoteBridge

open Interaction

/-! ## §1. One command. -/

/-- The environment of a process. -/
abbrev Environ : Type := List (String × String)

/-- The variables `git` sets itself. -/
def ownVariables : Environ := [("GIT_TERMINAL_PROMPT", "0"), ("GIT_NO_LAZY_FETCH", "1")]

/-- The environment of a `git` process: what is inherited must not redirect
it. -/
def gitEnviron (environ : Environ) : Environ :=
  environ.filter (fun entry => !startsWith "GIT_" entry.1) ++ ownVariables

/-- The command line of a `git` process, without the program. -/
def gitArguments (devnull : String) (cwd : PyPath) (args : List String) : List String :=
  ["--no-optional-locks", "--no-replace-objects", "-c", "core.hooksPath=" ++ devnull,
   "-c", "submodule.recurse=false", "-c", "core.fsmonitor=false", "-C", cwd.str] ++ args

/-- The operations on a child process. -/
inductive ChildOp where
  /-- `os.environ`. -/
  | environ
  /-- `await asyncio.create_subprocess_exec("git", …)`; where it raises, it
  has done away with the child itself. -/
  | spawn (args : List String) (env : Environ)
  /-- `await asyncio.wait_for(process.communicate(), timeout=30)`. -/
  | communicate
  /-- `process.returncode`. -/
  | returncode
  /-- `process.kill()`. -/
  | kill
  /-- `await process.communicate()`, after the child was killed. -/
  | reap

/-- What an operation is answered with. -/
abbrev ChildAns : ChildOp → Type
  | .environ => Environ
  | .spawn _ _ => Except Fault Unit
  | .communicate => Except Fault Exited
  | .returncode => Option Int
  -- A child that is gone cannot be killed: `ProcessLookupError`.
  | .kill => Except Fault Unit
  | .reap => Except Fault Unit

namespace ChildOp

/-- Perform an operation that returns or raises. -/
def perform {α : Type} (op : ChildOp) (view : ChildAns op → Except Fault α) :
    Co ChildOp ChildAns Fault Unit α :=
  Co.ask op >>= fun r => Co.ofExcept (view r)

/-- `git`, as far as the process goes. -/
def runGit (devnull : String) (cwd : PyPath) (args : List String) :
    Co ChildOp ChildAns Fault Unit Exited := do
  let environ ← Co.ask ChildOp.environ
  perform (.spawn (gitArguments devnull cwd args) (gitEnviron environ)) id
  Co.tryCatch (perform .communicate id) fun error => do
    let returncode ← Co.ask ChildOp.returncode
    if returncode = none then perform .kill id else pure ()
    perform .reap id
    Co.throw error

end ChildOp

/-! ## §2. What a command line sets. -/

/-- The `-c` options among the options in front of a command. -/
def globalSettings : List String → List Written
  | "-c" :: text :: rest => parseOverride text.toList :: globalSettings rest
  | "-C" :: _ :: rest => globalSettings rest
  | "--no-optional-locks" :: rest => globalSettings rest
  | "--no-replace-objects" :: rest => globalSettings rest
  | _ => []

/-- The arguments set nothing but filter drivers. -/
def Harmless (args : List String) : Prop :=
  ∀ s ∈ globalSettings args, "filter.".toList <+: s.1

/-- What a `git` process may not be talked into, by any configuration: no
hook, no filesystem monitor, no other repository. -/
structure Confined (devnull : String) (args : List String) (env : Environ) : Prop where
  hooks : ∀ config : List Setting, effective (config.map Setting.written ++ globalSettings args)
    "core.hookspath".toList = some (some devnull.toList)
  fsmonitor : ∀ config : List Setting,
    effective (config.map Setting.written ++ globalSettings args)
      "core.fsmonitor".toList = some (some "false".toList)
  submodules : ∀ config : List Setting,
    effective (config.map Setting.written ++ globalSettings args)
      "submodule.recurse".toList = some (some "false".toList)
  inherited : ∀ entry ∈ env, startsWith "GIT_" entry.1 = true → entry ∈ ownVariables

/-- A key outside the filters keeps what was set before. -/
theorem Harmless.kept {args : List String} (h : Harmless args) (settings : List Written)
    {key : List Char} (hkey : ¬ "filter.".toList <+: key) :
    effective (settings ++ globalSettings args) key
      = effective settings key := by
  have hnone : effective (globalSettings args) key = none := by
    rw [effective_eq_none_iff]
    intro s hs heq
    exact hkey (heq ▸ h s hs)
  rw [effective_append, hnone]
  rfl

/-- The section of a key stays in front. -/
theorem filter_canonicalKey {key : List Char} (h : "filter.".toList <+: key) :
    "filter.".toList <+: canonicalKey key := by
  obtain ⟨more, rfl⟩ := h
  have hsection : ("filter.".toList ++ more).takeWhile (· != '.') = "filter".toList := rfl
  have hrest : ("filter.".toList ++ more).dropWhile (· != '.') = '.' :: more := rfl
  unfold canonicalKey
  dsimp only
  rw [hsection, hrest]
  -- the variable name holds no dot, so it ends before the first one
  have hlen : (('.' :: more).reverse.takeWhile (· != '.')).reverse.length ≤ more.length := by
    rw [List.length_reverse, List.reverse_cons, List.takeWhile_append]
    split
    · simp
    · exact (List.takeWhile_sublist _).length_le.trans (by simp)
  have htake : ('.' :: more).length - (('.' :: more).reverse.takeWhile (· != '.')).reverse.length
      = (more.length - (('.' :: more).reverse.takeWhile (· != '.')).reverse.length) + 1 := by
    rw [List.length_cons]
    omega
  rw [htake, List.take_succ_cons, List.append_assoc]
  exact ⟨_, rfl⟩

/-- An override for a driver sets nothing else. -/
theorem filter_parseOverride {text : List Char} (h : "filter.".toList <+: text) :
    "filter.".toList <+: (parseOverride text).1 := by
  have hkey : "filter.".toList <+: (Json.splitAtChar '=' text).1 := by
    unfold Json.splitAtChar
    split
    · exact h
    · obtain ⟨more, rfl⟩ := h
      have hno : '=' ∉ "filter.".toList := by decide
      have hall : ∀ c ∈ "filter.".toList, (c != '=') = true := by
        intro c hc
        rw [bne_iff_ne]
        rintro rfl
        exact hno hc
      rw [List.takeWhile_append_of_pos hall]
      exact List.prefix_append _ _
  exact filter_canonicalKey hkey

/-- The overrides are harmless, whatever the drivers are called. -/
theorem harmless_overrides (config : String) {command : List String} (h : Harmless command) :
    Harmless (filterOverrides config ++ command) := by
  unfold filterOverrides
  have hnames : ∀ name ∈ filters config, "filter.".toList <+: name.toList := by
    intro name hname
    unfold filters at hname
    dsimp only at hname
    rw [List.mem_insertionSort, List.mem_dedup, List.mem_map] at hname
    obtain ⟨n, hn, rfl⟩ := hname
    obtain ⟨entry, _, hfound⟩ := List.mem_filterMap.mp hn
    have hlist : (String.ofList n).toList = n := String.toList_ofList
    rw [hlist]
    exact (filterName_some hfound).1
  generalize filters config = names at hnames
  induction names with
  | nil => exact h
  | cons name rest ih =>
      have hname := hnames name List.mem_cons_self
      have hkey : ∀ setting : String, "filter.".toList <+: (name ++ "." ++ setting).toList := by
        intro setting
        rw [String.toList_append, String.toList_append, List.append_assoc]
        exact hname.trans (List.prefix_append _ _)
      intro s hs
      simp only [List.flatMap_cons, List.flatMap_nil, List.cons_append, List.nil_append,
        globalSettings, List.mem_cons] at hs
      rcases hs with rfl | rfl | rfl | rfl | hs
      · exact filter_parseOverride (hkey _)
      · exact filter_parseOverride (hkey _)
      · exact filter_parseOverride (hkey _)
      · exact filter_parseOverride (hkey _)
      · exact ih (fun name hmem => hnames name (List.mem_cons_of_mem _ hmem)) s hs

/-- The options `git` puts in front of every command. -/
def ownSettings (devnull : String) : List Written :=
  [("core.hookspath".toList, some devnull.toList),
   ("submodule.recurse".toList, some "false".toList),
   ("core.fsmonitor".toList, some "false".toList)]

theorem globalSettings_gitArguments (devnull : String) (cwd : PyPath) (args : List String) :
    globalSettings (gitArguments devnull cwd args) = ownSettings devnull ++ globalSettings args := by
  have hhooks : parseOverride ("core.hooksPath=" ++ devnull).toList
      = ("core.hookspath".toList, some devnull.toList) := by
    rw [String.toList_append]
    have hplain := @parseOverride_plain "core".toList "hooksPath".toList (by decide) (by decide)
      devnull.toList
    exact hplain
  show parseOverride ("core.hooksPath=" ++ devnull).toList :: _ = _
  rw [hhooks]
  rfl

/-- **A harmless command is confined**, in whatever environment it starts. -/
theorem Harmless.confined {args : List String} (h : Harmless args) (devnull : String)
    (cwd : PyPath) (environ : Environ) :
    Confined devnull (gitArguments devnull cwd args) (gitEnviron environ) := by
  have hown : ∀ (config : List Setting) {key : List Char} {value : Option (List Char)},
      ¬ "filter.".toList <+: key → effective (ownSettings devnull) key = some value →
      effective (config.map Setting.written
        ++ globalSettings (gitArguments devnull cwd args)) key = some value := by
    intro config key value hkey hvalue
    rw [globalSettings_gitArguments, ← List.append_assoc, h.kept _ hkey, effective_append,
      hvalue]
    rfl
  exact {
    hooks := fun config => hown config (by decide) rfl
    fsmonitor := fun config => hown config (by decide) rfl
    submodules := fun config => hown config (by decide) rfl
    inherited := by
      intro entry hentry hgit
      rcases List.mem_append.mp hentry with hold | hnew
      · have hkept := (List.mem_filter.mp hold).2
        rw [hgit] at hkept
        cases hkept
      · exact hnew }

/-! ## §3. One child. -/

/-- What has become of the child of a `git` command. -/
inductive Child where
  | absent
  | running
  /-- It has been sent `SIGKILL`. -/
  | killed
  | exited
  deriving DecidableEq

/-- What an operation tells of the child. -/
def childStep (child : Child) : Event ChildAns → Child
  | ⟨.spawn _ _, .ok _⟩ => .running
  | ⟨.communicate, .ok _⟩ => .exited
  | ⟨.returncode, some _⟩ => .exited
  | ⟨.kill, .ok _⟩ => .killed
  | ⟨.kill, .error _⟩ => .exited
  | ⟨.reap, .ok _⟩ => .exited
  | _ => child

/-- A child is only started where none is running, and confined. -/
def ChildAt (devnull : String) (child : Child) : ChildOp → Prop
  | .spawn args env => child ≠ .running ∧ Confined devnull args env
  | _ => True

/-- The observer of a child. -/
abbrev ChildSpec (devnull : String) : OpSpec ChildAns Child := observe childStep (ChildAt devnull)

/-- **`git` leaves no child running**, however it ends: the child has exited,
or it has been killed. -/
theorem ChildOp.wp_runGit {devnull : String} {cwd : PyPath} {args : List String} {child : Child}
    (hargs : Harmless args) (hchild : child ≠ .running) :
    Co.wp (ChildSpec devnull) (runGit devnull cwd args) (fun _ _ child' => child' ≠ .running)
      (fun _ _ child' => child' ≠ .running) () child := by
  unfold runGit
  rw [Co.wp_bind]
  refine ⟨trivial, fun environ => ?_⟩
  show ChildAt devnull child (.spawn _ _) ∧ ∀ r : Except Fault Unit, _
  refine ⟨⟨hchild, hargs.confined devnull cwd environ⟩, fun r => ?_⟩
  cases r with
  | error f => exact hchild
  | ok _ =>
      show Co.wp _ (Co.tryCatch _ _) _ _ () Child.running
      rw [Co.wp_tryCatch]
      show True ∧ ∀ r : Except Fault Exited, _
      refine ⟨trivial, fun r => ?_⟩
      cases r with
      | ok exited =>
          show Child.exited ≠ .running
          decide
      | error f =>
          -- The wait was cancelled or has timed out.
          have hreap : ∀ child : Child, child ≠ .running →
              Co.wp (ChildSpec devnull) (do
                  perform .reap id
                  Co.throw f : Co ChildOp ChildAns Fault Unit Exited)
                (fun _ _ child' => child' ≠ .running) (fun _ _ child' => child' ≠ .running) ()
                child := by
            intro child hne
            show True ∧ ∀ r : Except Fault Unit, _
            refine ⟨trivial, fun r => ?_⟩
            cases r with
            | error f' => exact hne
            | ok _ =>
                show Child.exited ≠ .running
                decide
          show True ∧ ∀ r : Option Int, _
          refine ⟨trivial, fun r => ?_⟩
          cases r with
          | some code =>
              have hgone : Child.exited ≠ .running := by decide
              exact hreap .exited hgone
          | none =>
              show True ∧ ∀ r : Except Fault Unit, _
              refine ⟨trivial, fun r => ?_⟩
              cases r with
              | error f' =>
                  show Child.exited ≠ .running
                  decide
              | ok _ =>
                  have hkilled : Child.killed ≠ .running := by decide
                  exact hreap .killed hkilled

/-! ## §4. Harmless launches. -/

def Op.isGit : Op → Bool
  | .git _ _ => true
  | _ => false

/-- A `git` command is harmless; other operations are not looked at. -/
def Op.Tame : Op → Prop
  | .git _ args => Harmless args
  | _ => True

/-- What is asked of the code above: harmless commands, and that no child is
running when an operation is performed. -/
def TameSpec : OpSpec Ans Child := fun op Q child =>
  child ≠ .running ∧ op.Tame ∧ ∀ r child', child' ≠ .running → Q r child'

theorem tameSpec_mono : TameSpec.Mono := fun _ _ _ hQ _ h =>
  ⟨h.1, h.2.1, fun r child' hne => hQ r child' (h.2.2 r child' hne)⟩

/-- Everything the coroutine runs is harmless. -/
abbrev Tame {α : Type} (c : Act α) : Prop :=
  c.Keeps TameSpec (fun _ child => child ≠ .running) fun _ _ child => child ≠ .running

section Steps

variable {α β : Type}

theorem Tame.bind {c : Act α} {f : α → Act β} (hc : Tame c) (hf : ∀ a, Tame (f a)) :
    Tame (c >>= f) := Co.Keeps.bind tameSpec_mono hc hf

theorem tame_only {c : Act α} (hc : c.Only Op.Tame) : Tame c :=
  hc.keeps tameSpec_mono (fun _ _ _ hop hne => ⟨hne, hop, fun _ _ h => h⟩) fun _ _ _ h => h

theorem tame_perform {op : Op} (hop : op.isGit = false) (view : Ans op → Except PyExc α) :
    Tame (Act.perform op view) := by
  refine tame_only (Act.only_perform (G := Op.Tame) ?_ view)
  cases op <;> trivial

theorem tame_pure (a : α) : Tame (pure a) := Co.keeps_pure a

theorem tame_raise (e : PyExc) : Tame (Act.raise e : Act α) := Co.keeps_throw fun _ _ h => h

theorem tame_ofExcept (r : Except PyExc α) : Tame (Act.ofExcept r) :=
  Co.keeps_ofExcept fun _ _ _ h => h

theorem tame_git {cwd : PyPath} {args : List String} (h : Harmless args) : Tame (git cwd args) :=
  tame_only (only_git (G := Op.Tame) h)

/-- A command without options of git's own. -/
theorem tame_plain {cwd : PyPath} {args : List String} (h : globalSettings args = []) :
    Tame (git cwd args) := by
  refine tame_git fun s hs => ?_
  rw [h] at hs
  cases hs

theorem tame_updateReceipt (fields : Dict) : Tame (updateReceipt fields) :=
  Co.keeps_modify fun _ _ h => h

theorem tame_save (receipt : Dict) : Tame (Ledger.save receipt) :=
  (tame_perform rfl _).bind fun _ => (tame_ofExcept _).bind fun _ =>
    (tame_perform rfl _).bind fun _ => tame_pure _

theorem tame_saveReceipt : Tame saveReceipt :=
  Co.Keeps.get_bind fun receipt child h => tame_save receipt receipt child h

theorem tame_checkpoint (phase : String) (fields : Dict) : Tame (checkpoint phase fields) :=
  (tame_updateReceipt _).bind fun _ => tame_saveReceipt.bind fun _ => tame_pure _

theorem tame_updateWorktree (fields : Dict) : Tame (updateWorktree fields) := by
  refine Co.Keeps.get_bind fun receipt child h => ?_
  split
  · exact tame_updateReceipt _ receipt child h
  · exact tame_raise _ receipt child h
  · exact tame_raise _ receipt child h

theorem tame_whenGiven {value : Option String} {step : String → Act Unit}
    (h : ∀ x, Tame (step x)) : Tame (whenGiven value step) := by
  cases value with
  | none => exact tame_pure ()
  | some x => exact h x

end Steps

/-! ### The worktree. -/

theorem tame_canonicalPath (value name : String) : Tame (canonicalPath value name) := by
  unfold canonicalPath
  dsimp only
  split
  · exact tame_raise _
  · refine Tame.bind (tame_perform rfl _) fun resolved => ?_
    split
    · exact tame_raise _
    · exact tame_pure _

theorem tame_checkoutFilterConfig_bind {α : Type} (cwd : PyPath) {f : List String → Act α}
    (hf : ∀ config, Tame (f (filterOverrides config))) :
    Tame (checkoutFilterConfig cwd >>= f) := by
  rw [checkoutFilterConfig_bind]
  exact (tame_plain rfl).bind hf

namespace Worktree

theorem tame_refuseRepositories : ∀ parents : List PyPath, Tame (refuseRepositories parents)
  | [] => tame_pure ()
  | parent :: rest => by
      have hnext : ∀ bare : Bool, Tame (if bare = true then
          Act.raise (.worktreeError "destination must be outside existing repositories")
          else refuseRepositories rest) := by
        intro bare
        split
        · exact tame_raise _
        · exact tame_refuseRepositories rest
      rw [refuseRepositories]
      refine Tame.bind (tame_perform rfl _) fun nested => ?_
      split
      · exact tame_raise _
      · refine Tame.bind (tame_perform rfl _) fun head => ?_
        split
        · exact Tame.bind (tame_perform rfl _) hnext
        · exact (tame_pure false).bind hnext

theorem tame_insideAny (target : PyPath) : ∀ paths : List PyPath, Tame (insideAny target paths)
  | [] => tame_pure false
  | path :: rest => by
      rw [insideAny]
      refine Tame.bind (tame_perform rfl _) fun resolved => ?_
      split
      · exact tame_pure true
      · exact tame_insideAny target rest

theorem tame_unusable (target : PyPath) : Tame (unusable target) := by
  unfold unusable
  refine Tame.bind (tame_perform rfl _) fun present => ?_
  split
  · exact tame_pure true
  · refine Tame.bind (tame_perform rfl _) fun symlink => ?_
    split
    · exact tame_pure true
    · exact Tame.bind (tame_perform rfl _) fun _ => tame_pure _

theorem tame_validate (sourceRepository startingRevision destination : String) :
    Tame (validate sourceRepository startingRevision destination) := by
  unfold validate
  refine (tame_canonicalPath _ _).bind fun source => ?_
  refine (tame_canonicalPath _ _).bind fun target => ?_
  refine Tame.bind (tame_perform rfl _) fun sourceIsDir => ?_
  split
  · exact tame_raise _
  split
  · exact tame_raise _
  refine (tame_plain rfl).bind fun root => ?_
  split
  · exact tame_raise _
  refine (tame_plain rfl).bind fun kind => ?_
  split
  · exact tame_raise _
  refine (tame_plain rfl).bind fun commonText => ?_
  refine (tame_unusable _).bind fun bad => ?_
  split
  · exact tame_raise _
  refine (tame_refuseRepositories _).bind fun _ => ?_
  refine (tame_plain rfl).bind fun worktrees => ?_
  refine (tame_insideAny _ _).bind fun inside => ?_
  split
  · exact tame_raise _
  · exact Tame.bind (tame_perform rfl _) fun _ => tame_pure _

theorem tame_create (w : Worktree) : Tame w.create := (tame_plain rfl).bind fun _ => tame_pure _

theorem tame_checkout (w : Worktree) : Tame w.checkout := by
  unfold checkout
  refine tame_checkoutFilterConfig_bind _ fun config => ?_
  refine (tame_plain rfl).bind fun _ => ?_
  refine (tame_git (harmless_overrides config ?_)).bind fun _ => tame_pure _
  intro s hs
  cases hs

theorem tame_inspect (w : Worktree) : Tame w.inspect := by
  unfold inspect
  refine tame_checkoutFilterConfig_bind _ fun config => ?_
  refine (tame_plain rfl).bind fun _ => ?_
  refine (tame_plain rfl).bind fun _ => ?_
  refine (tame_plain rfl).bind fun _ => ?_
  refine (tame_plain rfl).bind fun _ => ?_
  refine (tame_git (harmless_overrides config ?_)).bind fun _ => tame_pure _
  intro s hs
  cases hs

theorem tame_matches (w : Worktree) (actual : Inspection) : Tame (w.matches actual) := by
  unfold «matches»
  split
  · exact Tame.bind (tame_perform rfl _) fun _ => tame_pure _
  · exact tame_pure false

end Worktree

/-! ### The action. -/

namespace CreateWorktreeThread

theorem tame_prepare (a : CreateWorktreeThread) : Tame a.prepare := by
  unfold prepare
  refine (tame_checkpoint _ _).bind fun _ => ?_
  refine (Worktree.tame_validate _ _ _).bind fun worktree => ?_
  refine (tame_whenGiven fun project =>
    Tame.bind (tame_perform rfl _) fun _ => tame_pure _).bind fun _ => ?_
  refine (tame_checkpoint _ _).bind fun _ => ?_
  refine Tame.bind (tame_perform rfl _) fun _ => ?_
  refine (tame_updateWorktree _).bind fun _ => (tame_checkpoint _ _).bind fun _ => ?_
  refine worktree.tame_create.bind fun _ => ?_
  refine (tame_updateWorktree _).bind fun _ => (tame_checkpoint _ _).bind fun _ => ?_
  refine worktree.tame_checkout.bind fun _ => ?_
  refine (tame_updateWorktree _).bind fun _ => (tame_checkpoint _ _).bind fun _ => ?_
  refine worktree.tame_inspect.bind fun actual => ?_
  refine (tame_updateWorktree _).bind fun _ => (tame_checkpoint _ _).bind fun _ => ?_
  refine (worktree.tame_matches actual).bind fun good => ?_
  split
  · exact (tame_raise _).bind fun _ => tame_pure _
  · exact (tame_pure ()).bind fun _ => tame_pure _

theorem tame_start (a : CreateWorktreeThread) (w : Worktree) : Tame (a.start w) := by
  unfold start
  refine (tame_checkpoint _ _).bind fun _ => ?_
  refine Tame.bind (tame_perform rfl _) fun created => ?_
  refine (tame_ofExcept _).bind fun fields => (tame_checkpoint _ _).bind fun _ => ?_
  refine (tame_ofExcept _).bind fun mismatch => ?_
  split
  · exact tame_raise _
  · exact tame_pure ()

theorem tame_receiptThreadId : Tame receiptThreadId :=
  Co.Keeps.get_bind fun _ _ h => tame_ofExcept _ _ _ h

theorem tame_name (title : String) : Tame (name title) := by
  unfold name
  refine (tame_checkpoint _ _).bind fun _ => tame_receiptThreadId.bind fun threadId => ?_
  exact Tame.bind (tame_perform rfl _) fun _ => tame_checkpoint _ _

theorem tame_recheck (w : Worktree) : Tame (recheck w) := by
  unfold recheck
  refine w.tame_inspect.bind fun actual => (tame_checkpoint _ _).bind fun _ => ?_
  refine (w.tame_matches actual).bind fun good => ?_
  split
  · exact tame_raise _
  · exact tame_pure ()

theorem tame_dispatch (prompt : String) : Tame (dispatch prompt) := by
  unfold dispatch
  refine (tame_checkpoint _ _).bind fun _ => tame_receiptThreadId.bind fun threadId => ?_
  refine Tame.bind (tame_perform rfl _) fun turn => (tame_ofExcept _).bind fun turnId => ?_
  exact tame_checkpoint _ _

theorem tame_action (a : CreateWorktreeThread) : Tame a.action := by
  unfold action
  refine a.tame_prepare.bind fun worktree => (a.tame_start worktree).bind fun _ => ?_
  refine (tame_whenGiven tame_name).bind fun _ => (tame_recheck worktree).bind fun _ => ?_
  exact (tame_whenGiven tame_dispatch).bind fun _ => tame_checkpoint _ _

end CreateWorktreeThread

theorem tame_settle (error : PyExc) : Tame (settle error) := by
  cases error with
  | cancelledError =>
      refine Co.Keeps.get_bind fun receipt child h => ?_
      exact ((tame_save _).bind fun _ => tame_raise _) receipt child h
  | rpcError method error => exact tame_updateReceipt _
  | worktreeError message => exact tame_updateReceipt _
  | exception cls message => exact tame_updateReceipt _

theorem tame_attempt (requestId : String) {action : Act Unit} (h : Tame action) :
    Tame (attempt requestId action) := by
  unfold attempt
  refine Tame.bind ?_ fun _ => tame_saveReceipt
  refine Co.Keeps.tryCatch tameSpec_mono ?_ fun e s child hs => tame_settle e s child hs
  refine Tame.bind (tame_only (Co.only_ask trivial)) fun _ => ?_
  exact h.bind fun _ => tame_updateReceipt _

theorem tame_matchRow [Hashlib] (requestId method fp : String) (row : StoredRow) :
    Tame (Ledger.matchRow requestId method fp none row) := by
  obtain ⟨stored, receipt⟩ := row
  unfold Ledger.matchRow
  dsimp only
  split
  · exact tame_pure _
  · split
    · rename_i hlegacy
      cases hlegacy
    · exact tame_raise _

namespace CreateWorktreeThread

variable [Hashlib] (a : CreateWorktreeThread) (requestId : String)

/-- The whole tool. -/
theorem tame_run : Tame ((ToolCall.createWorktreeThread a).run requestId) := by
  unfold ToolCall.run mutate
  refine (tame_ofExcept _).bind fun _ => Tame.bind (tame_perform rfl _) fun _ => ?_
  have hlocked : Tame (mutateLocked requestId (ToolCall.createWorktreeThread a).method
      (ToolCall.createWorktreeThread a).params none (ToolCall.createWorktreeThread a).validateFresh
      (ToolCall.createWorktreeThread a).action) := by
    unfold mutateLocked Ledger.lookup Ledger.begin
    refine Tame.bind ?_ fun retained => ?_
    · refine (tame_ofExcept _).bind fun fp => Tame.bind (tame_perform rfl _) fun row => ?_
      cases row with
      | none => exact tame_pure none
      | some row => exact (tame_matchRow _ _ _ row).bind fun _ => tame_pure _
    · cases retained with
      | some receipt => exact tame_pure _
      | none =>
          refine (tame_pure "").bind fun cwd => Tame.bind ?_ fun begun => ?_
          · refine (tame_ofExcept _).bind fun fp => Tame.bind (tame_perform rfl _) fun time => ?_
            refine Tame.bind (tame_perform rfl _) fun found => ?_
            exact (tame_matchRow _ _ _ _).bind fun _ => tame_pure _
          · obtain ⟨fresh, receipt⟩ := begun
            dsimp only
            split
            · exact tame_pure _
            · refine Tame.bind (Co.keeps_modify fun _ _ h => h) fun _ => ?_
              exact tame_attempt requestId a.tame_action
  intro s child hchild
  show Co.wp _ (Co.tryFinally _ _) _ _ s child
  rw [Co.wp_tryFinally]
  have hrelease : Tame (Co.ask Op.release : Act Unit) := tame_only (Co.only_ask trivial)
  refine Co.wp_conseq tameSpec_mono (hlocked s child hchild) ?_ ?_
  · intro receipt s child hchild
    exact hrelease s child hchild
  · intro e s child hchild
    exact hrelease s child hchild

end CreateWorktreeThread

/-! ## §5. Launches over processes. -/

/-- The operations of a launch, with `git` taken apart. -/
inductive ProcessOp where
  | base (op : Op)
  | child (op : ChildOp)

/-- What an operation is answered with. -/
abbrev ProcessAns : ProcessOp → Type
  | .base op => Ans op
  | .child op => ChildAns op

/-- The code behind an operation. -/
def processes (devnull : String) : (op : Op) → Prog ProcessOp ProcessAns (Ans op)
  | .git cwd args =>
      ((ChildOp.runGit devnull cwd args ()).handle fun op => .op (.child op) .ret).bind
        fun out => .ret out.1
  | op => .op (.base op) .ret

/-- What an operation tells of the child. -/
def onChild (child : Child) : Event ProcessAns → Child
  | ⟨.base _, _⟩ => child
  | ⟨.child op, r⟩ => childStep child ⟨op, r⟩

/-- Where a launch does anything else, no child is running. -/
def ProcessAt (devnull : String) (child : Child) : ProcessOp → Prop
  | .base op => child ≠ .running ∧ op.isGit = false
  | .child op => ChildAt devnull child op

/-- **The coroutine stands for the operation.** -/
theorem wp_processes (devnull : String) (op : Op) (Q : Ans op → Child → Prop) (child : Child)
    (h : TameSpec op Q child) :
    Interaction.wp (observe onChild (ProcessAt devnull)) (processes devnull op) Q child := by
  obtain ⟨hchild, htame, hQ⟩ := h
  have hbase : op.isGit = false → processes devnull op = .op (.base op) .ret →
      Interaction.wp (observe onChild (ProcessAt devnull)) (processes devnull op) Q child := by
    intro hgit hprocess
    rw [hprocess]
    exact ⟨⟨hchild, hgit⟩, fun r => hQ r child hchild⟩
  cases op with
  | git cwd args =>
      show Interaction.wp _ (Prog.bind _ _) Q child
      rw [Interaction.wp_bind, wp_handle]
      refine Interaction.wp_mono (observe_mono childStep (ChildAt devnull)) _ ?_ child
        (ChildOp.wp_runGit htame hchild)
      intro out child' hout
      obtain ⟨e | exited, _⟩ := out
      · exact hQ _ child' hout
      · exact hQ _ child' hout
  | _ => exact hbase rfl rfl

section Launch

variable [Hashlib]

/-- `create_worktree_thread` over processes. -/
def CreateWorktreeThread.spawning (a : CreateWorktreeThread) (devnull requestId : String) :
    Prog ProcessOp ProcessAns (Except PyExc Dict × Dict) :=
  ((ToolCall.createWorktreeThread a).prog requestId).handle (processes devnull)

/-- What has become of the child that was started last. -/
def lastChild (history : List (Event ProcessAns)) : Child := history.foldl onChild .absent

/-- How a launch that has done `history` stands to its children. -/
structure Tended (devnull : String) (history : List (Event ProcessAns))
    (rest : Prog ProcessOp ProcessAns (Except PyExc Dict × Dict)) : Prop where
  /-- Between two commands no child is left running, and no command is run in
  another way. -/
  between : ∀ op, rest.head? = some (.base op) →
    lastChild history ≠ .running ∧ op.isGit = false
  /-- No two children run at a time, and each is confined. -/
  starts : ∀ args env, rest.head? = some (.child (.spawn args env)) →
    lastChild history ≠ .running ∧ Confined devnull args env
  /-- None is left running at the end. -/
  ended : ∀ out, rest = .ret out → lastChild history ≠ .running

/-- **The children of a launch**: in every run of `create_worktree_thread`,
whatever fails, times out or is cancelled wherever. -/
theorem CreateWorktreeThread.children (a : CreateWorktreeThread) (devnull requestId : String)
    {history : List (Event ProcessAns)}
    {rest : Prog ProcessOp ProcessAns (Except PyExc Dict × Dict)}
    (h : Run (a.spawning devnull requestId) history rest) : Tended devnull history rest := by
  have hrun : Interaction.wp (observe onChild (ProcessAt devnull)) (a.spawning devnull requestId)
      (fun _ child => child ≠ .running) .absent := by
    refine wp_handle_of tameSpec_mono _ (wp_processes devnull) _ ?_
    have hne : Child.absent ≠ .running := by decide
    refine Interaction.wp_mono tameSpec_mono _ ?_ _ (a.tame_run requestId [] .absent hne)
    intro out child hout
    obtain ⟨e | receipt, s⟩ := out
    · exact hout
    · exact hout
  exact {
    between := fun op hop => wp_run_head hrun h hop
    starts := fun args env hop => wp_run_head hrun h hop
    ended := by
      rintro out rfl
      exact wp_run_ret hrun h }

end Launch

/-- At the site of `launchSite` the first command is cancelled, and once more
while the killed child is waited for. -/
def cancelledSite : (op : ProcessOp) → ProcessAns op
  | .base op => launchSite op
  | .child .environ => [("GIT_DIR", "/elsewhere"), ("PATH", "/bin")]
  | .child (.spawn _ _) => .ok ()
  | .child .communicate => .error .cancelled
  | .child .returncode => none
  | .child .kill => .ok ()
  | .child .reap => .error .cancelled

/-- There the child has been killed when the launch is over. -/
theorem CreateWorktreeThread.children_killed :
    let _ := Hashlib.verbatim
    ∃ (history : List (Event ProcessAns))
      (rest : Prog ProcessOp ProcessAns (Except PyExc Dict × Dict)),
      Run (sampleLaunch.spawning "/dev/null" "r") history rest ∧ rest.head? = none ∧
      lastChild history = .killed ∧ Tended "/dev/null" history rest := by
  intro _
  have hrun := Run.follow (fun _ => cancelledSite) 40
    (Run.start (p := sampleLaunch.spawning "/dev/null" "r"))
  generalize hend : (sampleLaunch.spawning "/dev/null" "r").follow
    (fun _ => cancelledSite) 40 [] = reached at hrun
  have hover : (reached.2.head?.isNone && lastChild reached.1 = .killed) = true := by
    rw [← hend]
    decide +kernel
  rw [Bool.and_eq_true, decide_eq_true_eq] at hover
  exact ⟨reached.1, reached.2, hrun, Option.isNone_iff_eq_none.mp hover.1, hover.2,
    CreateWorktreeThread.children sampleLaunch "/dev/null" "r" hrun⟩

end CodexRemoteBridge

/-
  CodexRemoteBridge.Placement — where a launch writes.

  What a launch of a worktree changes on disk it changes at a destination
  that was free when it looked: a canonical path that does not exist, in no
  repository, and in no checkout that `git worktree list` names.  It makes
  the directory before it has Git register it, and has Git register it
  before it has it filled.

  Main result: `CreateWorktreeThread.touches_destination`.
-/
import CodexRemoteBridge.Filters
import CodexRemoteBridge.Withholding

namespace CodexRemoteBridge

open Interaction

/-! ## §1. `git worktree list --porcelain -z`. -/

/-- One checkout of a listing: its path, and its attributes (`HEAD …`,
`branch …`, `locked …`).  No part of it contains the terminator. -/
structure Checkout where
  path : String
  marks : List String
  pathPlain : '\x00' ∉ path.toList
  marksPlain : ∀ mark ∈ marks,
    '\x00' ∉ mark.toList ∧ startsWith "worktree " mark = false

/-- Its lines; an empty one ends it. -/
def Checkout.lines (c : Checkout) : List String :=
  ("worktree " ++ c.path) :: (c.marks ++ [""])

/-- The listing, every line ended by NUL. -/
def porcelain (checkouts : List Checkout) : String :=
  String.ofList ((checkouts.flatMap Checkout.lines).flatMap fun line => line.toList ++ ['\x00'])

theorem Checkout.lines_plain (c : Checkout) : ∀ line ∈ c.lines, '\x00' ∉ line.toList := by
  intro line hline
  rcases List.mem_cons.mp hline with rfl | hline
  · rw [String.toList_append, List.mem_append]
    rintro (hnul | hnul)
    · exact absurd hnul (by decide)
    · exact c.pathPlain hnul
  rcases List.mem_append.mp hline with hline | hline
  · exact (c.marksPlain line hline).1
  · obtain rfl := List.mem_singleton.mp hline
    exact List.not_mem_nil

/-- What is ended line by line is split line by line. -/
theorem split_terminated {c : Char} {lines : List String} (h : ∀ line ∈ lines, c ∉ line.toList) :
    split c (String.ofList (lines.flatMap fun line => line.toList ++ [c])) = lines ++ [""] := by
  unfold split
  rw [String.toList_ofList]
  induction lines with
  | nil => rfl
  | cons line rest ih =>
      have hrest := ih fun other hother => h other (List.mem_cons_of_mem _ hother)
      rw [List.flatMap_cons, List.append_assoc, List.singleton_append,
        splitChars_entry (h line List.mem_cons_self), List.map_cons, hrest, String.ofList_toList]
      rfl

/-- The lines of a checkout that name a path. -/
theorem Checkout.roots (c : Checkout) :
    c.lines.filter (startsWith "worktree ") = ["worktree " ++ c.path] := by
  have hpath : startsWith "worktree " ("worktree " ++ c.path) = true := by
    unfold startsWith
    rw [String.toList_append, List.isPrefixOf_iff_prefix]
    exact List.prefix_append _ _
  have hmarks : c.marks.filter (startsWith "worktree ") = [] := by
    rw [List.filter_eq_nil_iff]
    intro mark hmem
    rw [(c.marksPlain mark hmem).2]
    exact Bool.false_ne_true
  have hend : startsWith "worktree " "" = false := by decide
  unfold Checkout.lines
  rw [List.filter_cons_of_pos hpath, List.filter_append, hmarks,
    List.filter_cons_of_neg (by rw [hend]; exact Bool.false_ne_true)]
  rfl

/-- **The listing is read back**: the paths of its checkouts, and nothing
an attribute says. -/
theorem listedRoots_porcelain (checkouts : List Checkout) :
    Worktree.listedRoots (porcelain checkouts)
      = checkouts.map fun c => PyPath.ofString c.path := by
  have hlines : ∀ line ∈ checkouts.flatMap Checkout.lines, '\x00' ∉ line.toList := by
    intro line hline
    obtain ⟨c, _, hline⟩ := List.mem_flatMap.mp hline
    exact c.lines_plain line hline
  have hend : startsWith "worktree " "" = false := by decide
  have hdrop : ∀ path : String, ("worktree " ++ path).toList.drop 9 = path.toList := by
    intro path
    rw [String.toList_append]
    exact List.drop_left' (by decide)
  unfold Worktree.listedRoots porcelain
  rw [split_terminated hlines, List.filter_append,
    List.filter_cons_of_neg (by rw [hend]; exact Bool.false_ne_true), List.filter_nil,
    List.append_nil]
  clear hlines
  induction checkouts with
  | nil => rfl
  | cons c rest ih =>
      rw [List.flatMap_cons, List.filter_append, c.roots, List.map_append, ih, List.map_cons,
        List.map_nil, hdrop, String.ofList_toList]
      rfl

/-- A listing does not end in a newline. -/
theorem removeNewline_porcelain (checkouts : List Checkout) :
    removeNewline (porcelain checkouts) = porcelain checkouts := by
  unfold removeNewline porcelain
  rw [String.toList_ofList]
  rcases List.eq_nil_or_concat checkouts with rfl | ⟨before, c, rfl⟩
  · rfl
  · rw [List.concat_eq_append]
    unfold Checkout.lines
    simp

/-! ## §2. Free ground. -/

/-- `target` is not below what `path` resolved to. -/
def Apart (target path : PyPath) (h : History) : Prop :=
  ∃ resolved, (⟨.resolve path, .ok resolved⟩ : Event Ans) ∈ h ∧
    target.isRelativeTo resolved = false

/-- There was no repository at `parent`, bare or not. -/
structure Bare (parent : PyPath) (h : History) : Prop where
  dotGit : (⟨.pathExists (parent.child ".git"), .ok false⟩ : Event Ans) ∈ h
  gitDir : (⟨.isFile (parent.child "HEAD"), .ok false⟩ : Event Ans) ∈ h ∨
    (⟨.isDir (parent.child "objects"), .ok false⟩ : Event Ans) ∈ h

/-- `value` is a canonical absolute path. -/
structure Canonical (value : String) (h : History) : Prop where
  absolute : (PyPath.ofString value).isAbsolute = true
  resolved : ∃ resolved : PyPath, resolved.str = value ∧
    (⟨.resolve (PyPath.ofString value), .ok resolved⟩ : Event Ans) ∈ h

/-- `target` was absent, in a directory. -/
structure Unused (target : PyPath) (h : History) : Prop where
  absent : (⟨.pathExists target, .ok false⟩ : Event Ans) ∈ h
  unlinked : (⟨.isSymlink target, .ok false⟩ : Event Ans) ∈ h
  parent : (⟨.isDir target.parent, .ok true⟩ : Event Ans) ∈ h

/-- `git worktree list`, as the launch runs it. -/
def listArgs : List String := ["worktree", "list", "--porcelain", "-z"]

/-- What a launch has been told before it reserves its destination. -/
structure Free (a : CreateWorktreeThread) (h : History) : Prop where
  canonical : Canonical a.destination h
  unused : Unused (PyPath.ofString a.destination) h
  /-- No directory above it is a repository. -/
  alone : ∀ parent ∈ (PyPath.ofString a.destination).parents, Bare parent h
  /-- It is in no checkout of the repository, whatever Git says of them. -/
  outside : ∃ stdout stderr,
    (⟨.git (PyPath.ofString a.sourceRepository) listArgs, .ok ⟨0, some stdout, stderr⟩⟩ :
      Event Ans) ∈ h ∧
    ∀ checkouts, stdout = porcelain checkouts → ∀ c ∈ checkouts,
      Apart (PyPath.ofString a.destination) (PyPath.ofString c.path) h
  /-- Nor in its metadata. -/
  metadata : ∃ text, Printed h (PyPath.ofString a.sourceRepository)
      ["rev-parse", "--path-format=absolute", "--git-common-dir"] text ∧
    Apart (PyPath.ofString a.destination) (PyPath.ofString text) h
  /-- The repository is a checkout root, and the revision one of its commits. -/
  root : Printed h (PyPath.ofString a.sourceRepository) ["rev-parse", "--show-toplevel"]
    (PyPath.ofString a.sourceRepository).str
  commit : Printed h (PyPath.ofString a.sourceRepository) ["cat-file", "-t", a.startingRevision]
    "commit"

/-- The launch itself has made the directory. -/
def Reserved (a : CreateWorktreeThread) (h : History) : Prop :=
  (⟨.mkdir (PyPath.ofString a.destination), .ok ()⟩ : Event Ans) ∈ h

/-- The command that registers the worktree. -/
def CreateWorktreeThread.addArgs (a : CreateWorktreeThread) : List String :=
  ["worktree", "add", "--detach", "--no-checkout", "--lock", "--reason",
   "codex-thread-bridge: retained until manual cleanup", "--",
   (PyPath.ofString a.destination).str, a.startingRevision]

/-- And has had Git register it. -/
def Registered (a : CreateWorktreeThread) (h : History) : Prop :=
  ∃ stdout stderr,
    (⟨.git (PyPath.ofString a.sourceRepository) a.addArgs, .ok ⟨0, stdout, stderr⟩⟩ :
      Event Ans) ∈ h

/-- And has had its commit read into the index. -/
def ReadIn (a : CreateWorktreeThread) (h : History) : Prop :=
  ∃ stdout stderr,
    (⟨.git (PyPath.ofString a.destination) ["read-tree", a.startingRevision],
      .ok ⟨0, stdout, stderr⟩⟩ : Event Ans) ∈ h

/-- The operations that change something on disk, besides the ledger: making
a directory, and every `git` command that is not known to look only. -/
def Op.alters : Op → Bool
  | .mkdir _ => true
  | .git _ args => (gitEffect args).isSome
  | _ => false

/-- The effects of such operations. -/
def Effect.onDisk : Effect → Bool
  | .mkdir => true
  | .worktreeAdd => true
  | .readTree => true
  | .checkoutIndex => true
  | .otherGit _ => true
  | .entered => false
  | .request _ => false

/-- What has been changed on disk, and what is about to be. -/
def disturbed (h : History) (op : Op) : List Effect :=
  (labels Op.effect h ++ op.effect.toList).filter Effect.onDisk

/-- **The changes a launch makes**, each with what has to come before it. -/
inductive CreateWorktreeThread.Touches (a : CreateWorktreeThread) (h : History) : Op → Prop
  | reserve : Free a h → Touches a h (.mkdir (PyPath.ofString a.destination))
  | register : Free a h → Reserved a h →
      Touches a h (.git (PyPath.ofString a.sourceRepository) a.addArgs)
  | readTree : Free a h → Reserved a h → Registered a h →
      Touches a h (.git (PyPath.ofString a.destination) ["read-tree", a.startingRevision])
  | checkOut (config : String) : Free a h → Reserved a h → Registered a h → ReadIn a h →
      Touches a h (.git (PyPath.ofString a.destination)
        (filterOverrides config ++ ["checkout-index", "--all"]))

section Facts

variable {a : CreateWorktreeThread} {target path : PyPath} {h h' : History}

theorem Apart.mono (hp : Apart target path h) (hsub : h ⊆ h') : Apart target path h' := by
  obtain ⟨resolved, hmem, hrelative⟩ := hp
  exact ⟨resolved, hsub hmem, hrelative⟩

theorem Bare.mono (hb : Bare path h) (hsub : h ⊆ h') : Bare path h' :=
  ⟨hsub hb.dotGit, hb.gitDir.imp (fun hmem => hsub hmem) fun hmem => hsub hmem⟩

theorem Canonical.mono {value : String} (hc : Canonical value h) (hsub : h ⊆ h') :
    Canonical value h' := by
  obtain ⟨resolved, hstr, hmem⟩ := hc.resolved
  exact ⟨hc.absolute, resolved, hstr, hsub hmem⟩

theorem Unused.mono (hu : Unused target h) (hsub : h ⊆ h') : Unused target h' :=
  ⟨hsub hu.absent, hsub hu.unlinked, hsub hu.parent⟩

theorem Free.mono (hf : Free a h) (hsub : h ⊆ h') : Free a h' := by
  obtain ⟨stdout, stderr, hlist, houtside⟩ := hf.outside
  obtain ⟨text, htext, hapart⟩ := hf.metadata
  exact {
    canonical := hf.canonical.mono hsub
    unused := hf.unused.mono hsub
    alone := fun parent hparent => (hf.alone parent hparent).mono hsub
    outside := ⟨stdout, stderr, hsub hlist, fun checkouts heq c hc =>
      (houtside checkouts heq c hc).mono hsub⟩
    metadata := ⟨text, htext.mono hsub, hapart.mono hsub⟩
    root := hf.root.mono hsub
    commit := hf.commit.mono hsub }

end Facts

/-! ## §3. Following a launch. -/

section Follow

variable {a : CreateWorktreeThread} {record : History} {s : Dict} {h : History} {α β : Type}

/-- The history semantics; whatever alters anything is one of the changes. -/
abbrev TouchSpec (a : CreateWorktreeThread) : OpSpec Ans History :=
  history fun h op => op.alters = true → a.Touches h op

theorem touch_bind {c : Act α} {f : α → Act β} {P : α → Dict → History → Prop}
    {Q : β → Dict → History → Prop} (hc : Co.Leads (TouchSpec a) c P s h)
    (hf : ∀ x s' h', P x s' h' → Co.Leads (TouchSpec a) (f x) Q s' h') :
    Co.Leads (TouchSpec a) (c >>= f) Q s h := hc.bind (observe_mono _ _) hf

/-- A part of the launch that alters nothing. -/
abbrev Still (a : CreateWorktreeThread) (record : History) (c : Act α) : Prop :=
  c.Keeps (TouchSpec a) (fun _ h => record ⊆ h) fun _ _ _ => True

theorem still_bind {c : Act α} {f : α → Act β} (hc : Still a record c)
    (hf : ∀ x, Still a record (f x)) : Still a record (c >>= f) := hc.bind (observe_mono _ _) hf

theorem still_only {c : Act α} (hc : c.Only fun op => op.alters = false) : Still a record c := by
  refine hc.keeps (observe_mono _ _) (fun op _ h hop hsub => ⟨?_, fun _ => ?_⟩)
    fun _ _ _ _ => trivial
  · intro halters
    rw [hop] at halters
    cases halters
  · exact List.Subset.trans hsub (List.subset_append_left _ _)

theorem still_step {op : Op} (hop : op.alters = false) (view : Ans op → Except PyExc α) :
    Still a record (Act.perform op view) :=
  still_only (Act.only_perform (G := fun op => op.alters = false) hop view)

theorem Op.alters_of_isLook {op : Op} (h : op.isLook = true) : op.alters = false := by
  cases op with
  | git cwd args =>
      have hnone : gitEffect args = none := Option.isNone_iff_eq_none.mp h
      show (gitEffect args).isSome = false
      rw [hnone]
      rfl
  | mkdir path => cases h
  | _ => rfl

theorem still_looks {c : Act α} (hc : Looks c) : Still a record c :=
  still_only (hc.weaken fun _ => Op.alters_of_isLook)

theorem still_saveReceipt : Still a record saveReceipt := by
  have hsave : ∀ receipt : Dict, Still a record (Ledger.save receipt) := by
    intro receipt
    refine still_bind (still_looks looks_now) fun updatedAt => ?_
    refine still_bind (still_only (Co.only_ofExcept _)) fun key => ?_
    exact still_bind (still_step rfl _) fun _ => Co.keeps_pure _
  exact Co.Keeps.get_bind fun receipt m hm => hsave receipt receipt m hm

theorem still_updateReceipt (fields : Dict) : Still a record (updateReceipt fields) :=
  Co.keeps_modify fun _ _ hm => hm

theorem still_checkpoint (phase : String) (fields : Dict) :
    Still a record (checkpoint phase fields) :=
  still_bind (still_updateReceipt _) fun _ =>
    still_bind still_saveReceipt fun _ => Co.keeps_pure _

theorem still_updateWorktree (fields : Dict) : Still a record (updateWorktree fields) := by
  refine Co.Keeps.get_bind fun receipt m hm => ?_
  split
  · exact hm
  · trivial
  · trivial

theorem still_call (method : String) (params : Dict) : Still a record (Act.call method params) :=
  still_step rfl _

theorem still_whenGiven {value : Option String} {step : String → Act Unit}
    (hstep : ∀ x, Still a record (step x)) : Still a record (whenGiven value step) := by
  cases value with
  | none => exact Co.keeps_pure _
  | some x => exact hstep x

/-- What such a part is told is on record, and so is what was. -/
theorem touch_perform (hsub : record ⊆ h) (op : Op) (hop : op.alters = false)
    (view : Ans op → Except PyExc α) :
    Co.Leads (TouchSpec a) (Act.perform op view)
      (fun x _ h' => ∃ r, view r = .ok x ∧ ⟨op, r⟩ :: record ⊆ h') s h := by
  show Co.wp _ _ _ _ _ _
  rw [Act.wp_perform]
  refine ⟨fun halters => ?_, fun r => ?_⟩
  · rw [hop] at halters
    cases halters
  · dsimp only [remember]
    split
    · rename_i x hview
      refine ⟨r, hview, ?_⟩
      intro e he
      rcases List.mem_cons.mp he with rfl | he
      · exact List.mem_append_right _ List.mem_cons_self
      · exact List.mem_append_left _ (hsub he)
    · trivial

theorem lift_eq_ok {r : Except Fault α} {x : α} (h : lift r = .ok x) : r = .ok x := by
  cases r with
  | error f => cases h
  | ok y => rw [Except.ok.inj h]

/-- A `git` command that changes nothing prints something. -/
theorem touch_git (hsub : record ⊆ h) {cwd : PyPath} {args : List String}
    (hargs : gitEffect args = none) :
    Co.Leads (TouchSpec a) (git cwd args) (fun output _ h' => ∃ stdout stderr,
      removeNewline stdout = output ∧
        ⟨.git cwd args, .ok ⟨0, some stdout, stderr⟩⟩ :: record ⊆ h') s h := by
  have hop : (Op.git cwd args).alters = false := by
    show (gitEffect args).isSome = false
    rw [hargs]
    rfl
  unfold git
  refine touch_bind (touch_perform hsub (.git cwd args) hop lift) ?_
  rintro exited s' h' ⟨r, hr, hsub'⟩
  obtain rfl := lift_eq_ok hr
  obtain ⟨returncode, stdout, stderr⟩ := exited
  dsimp only
  split
  · trivial
  · rename_i hcode
    obtain rfl : returncode = 0 := not_not.mp hcode
    cases stdout with
    | none => trivial
    | some stdout => exact ⟨stdout, stderr, rfl, hsub'⟩

theorem touch_canonicalPath (hsub : record ⊆ h) (value name : String) :
    Co.Leads (TouchSpec a) (canonicalPath value name) (fun path _ h' =>
      path = PyPath.ofString value ∧ ∃ seen, Canonical value seen ∧ seen ++ record ⊆ h') s h := by
  unfold canonicalPath
  dsimp only
  split
  · trivial
  rename_i habsolute
  refine touch_bind (touch_perform hsub (.resolve _) rfl lift) ?_
  rintro resolved s' h' ⟨r, hr, hsub'⟩
  obtain rfl := lift_eq_ok hr
  split
  · trivial
  rename_i hstr
  refine ⟨rfl, [_], ⟨?_, resolved, not_not.mp hstr, List.mem_cons_self⟩, hsub'⟩
  rw [Bool.not_eq_true, Bool.not_eq_false'] at habsolute
  exact habsolute

theorem touch_unusable (hsub : record ⊆ h) (target : PyPath) :
    Co.Leads (TouchSpec a) (Worktree.unusable target) (fun bad _ h' =>
      bad = false → ∃ seen, Unused target seen ∧ seen ++ record ⊆ h') s h := by
  unfold Worktree.unusable
  refine touch_bind (touch_perform hsub (.pathExists _) rfl lift) ?_
  rintro present s₁ h₁ ⟨r₁, hr₁, hsub₁⟩
  obtain rfl := lift_eq_ok hr₁
  cases present with
  | true => exact fun hbad => by cases hbad
  | false =>
      refine touch_bind (touch_perform hsub₁ (.isSymlink _) rfl lift) ?_
      rintro symlink s₂ h₂ ⟨r₂, hr₂, hsub₂⟩
      obtain rfl := lift_eq_ok hr₂
      cases symlink with
      | true => exact fun hbad => by cases hbad
      | false =>
          refine touch_bind (touch_perform hsub₂ (.isDir _) rfl lift) ?_
          rintro parent s₃ h₃ ⟨r₃, hr₃, hsub₃⟩ hbad
          obtain rfl := lift_eq_ok hr₃
          obtain rfl : parent = true := by simpa using hbad
          exact ⟨[_, _, _], ⟨by simp, by simp, by simp⟩, hsub₃⟩

/-- None of the directories is a repository, or the launch is refused. -/
theorem touch_refuseRepositories (parents : List PyPath) :
    ∀ {record : History} {s : Dict} {h : History}, record ⊆ h →
      Co.Leads (TouchSpec a) (Worktree.refuseRepositories parents) (fun _ _ h' =>
        ∃ seen, (∀ parent ∈ parents, Bare parent seen) ∧ seen ++ record ⊆ h') s h := by
  induction parents with
  | nil =>
      intro record s h hsub
      exact ⟨[], fun _ hmem => absurd hmem List.not_mem_nil, hsub⟩
  | cons parent rest ih =>
      intro record s h hsub
      -- the events that speak for `parent` stay on record while the rest is looked at
      have hnext : ∀ {seen : History} {s h}, Bare parent seen → seen ++ record ⊆ h →
          Co.Leads (TouchSpec a) (Worktree.refuseRepositories rest) (fun _ _ h' =>
            ∃ seen, (∀ path ∈ parent :: rest, Bare path seen) ∧ seen ++ record ⊆ h') s h := by
        intro seen s h hbare hseen
        refine Co.Leads.conseq (observe_mono _ _) (ih hseen) ?_
        rintro _ s' h' ⟨more, hmore, hsub'⟩
        refine ⟨more ++ seen, ?_, by rwa [List.append_assoc]⟩
        intro path hpath
        rcases List.mem_cons.mp hpath with rfl | hpath
        · exact hbare.mono (List.subset_append_right _ _)
        · exact (hmore path hpath).mono (List.subset_append_left _ _)
      unfold Worktree.refuseRepositories
      refine touch_bind (touch_perform hsub (.pathExists _) rfl lift) ?_
      rintro nested s₁ h₁ ⟨r₁, hr₁, hsub₁⟩
      obtain rfl := lift_eq_ok hr₁
      cases nested with
      | true => trivial
      | false =>
          refine touch_bind (touch_perform hsub₁ (.isFile _) rfl lift) ?_
          rintro head s₂ h₂ ⟨r₂, hr₂, hsub₂⟩
          obtain rfl := lift_eq_ok hr₂
          cases head with
          | false =>
              have hseen : [⟨.isFile (parent.child "HEAD"), .ok false⟩,
                  ⟨.pathExists (parent.child ".git"), .ok false⟩] ++ record ⊆ h₂ := hsub₂
              exact hnext ⟨by simp, .inl (by simp)⟩ hseen
          | true =>
              refine touch_bind (touch_perform hsub₂ (.isDir _) rfl lift) ?_
              rintro objects s₃ h₃ ⟨r₃, hr₃, hsub₃⟩
              obtain rfl := lift_eq_ok hr₃
              cases objects with
              | true => trivial
              | false =>
                  have hseen : [⟨.isDir (parent.child "objects"), .ok false⟩,
                      ⟨.isFile (parent.child "HEAD"), .ok true⟩,
                      ⟨.pathExists (parent.child ".git"), .ok false⟩] ++ record ⊆ h₃ := hsub₃
                  exact hnext ⟨by simp, .inr (by simp)⟩ hseen

/-- The target is below none of the paths, or it is found inside one. -/
theorem touch_insideAny (target : PyPath) (paths : List PyPath) :
    ∀ {record : History} {s : Dict} {h : History}, record ⊆ h →
      Co.Leads (TouchSpec a) (Worktree.insideAny target paths) (fun inside _ h' =>
        inside = false →
          ∃ seen, (∀ path ∈ paths, Apart target path seen) ∧ seen ++ record ⊆ h') s h := by
  induction paths with
  | nil =>
      intro record s h hsub _
      exact ⟨[], fun _ hmem => absurd hmem List.not_mem_nil, hsub⟩
  | cons path rest ih =>
      intro record s h hsub
      unfold Worktree.insideAny
      refine touch_bind (touch_perform hsub (.resolve _) rfl lift) ?_
      rintro resolved s₁ h₁ ⟨r₁, hr₁, hsub₁⟩
      obtain rfl := lift_eq_ok hr₁
      split
      · exact fun hinside => by cases hinside
      rename_i hrelative
      refine Co.Leads.conseq (observe_mono _ _) (ih hsub₁) ?_
      intro inside s' h' hseen hinside
      obtain ⟨seen, hapart, hsub'⟩ := hseen hinside
      refine ⟨seen ++ [⟨.resolve path, .ok resolved⟩], ?_, by simpa using hsub'⟩
      intro other hother
      rcases List.mem_cons.mp hother with rfl | hother
      · exact ⟨resolved, List.mem_append_right _ List.mem_cons_self,
          Bool.eq_false_of_not_eq_true hrelative⟩
      · exact (hapart other hother).mono (List.subset_append_left _ _)

/-- **A validated destination is free**, and the worktree is the one that was
asked for. -/
theorem touch_validate (hsub : record ⊆ h) :
    Co.Leads (TouchSpec a) (Worktree.validate a.sourceRepository a.startingRevision a.destination)
      (fun w _ h' => w.source = PyPath.ofString a.sourceRepository ∧
        w.destination = PyPath.ofString a.destination ∧ w.revision = a.startingRevision ∧
        Free a h' ∧ record ⊆ h') s h := by
  unfold Worktree.validate
  refine touch_bind (touch_canonicalPath hsub _ _) ?_
  rintro source s₁ h₁ ⟨rfl, seen₁, -, hsub₁⟩
  refine touch_bind (touch_canonicalPath hsub₁ _ _) ?_
  rintro target s₂ h₂ ⟨rfl, seen₂, hcanonical, hsub₂⟩
  refine touch_bind (still_looks (looks_isDir _) s₂ h₂ hsub₂) fun isDir s₃ h₃ hsub₃ => ?_
  split
  · trivial
  split
  · trivial
  refine touch_bind (touch_git hsub₃ rfl) ?_
  rintro root s₄ h₄ ⟨rootOut, rootErr, hroot, hsub₄⟩
  split
  · trivial
  rename_i hrootEq
  obtain rfl := not_not.mp hrootEq
  refine touch_bind (touch_git hsub₄ rfl) ?_
  rintro kind s₅ h₅ ⟨kindOut, kindErr, hkind, hsub₅⟩
  split
  · trivial
  rename_i hkindEq
  obtain rfl := not_not.mp hkindEq
  refine touch_bind (touch_git hsub₅ rfl) ?_
  rintro commonText s₆ h₆ ⟨commonOut, commonErr, hcommon, hsub₆⟩
  refine touch_bind (touch_unusable hsub₆ _) fun bad s₇ h₇ hbad => ?_
  split
  · trivial
  rename_i hfalse
  obtain ⟨unused, hunused, hsub₇⟩ := hbad (Bool.eq_false_of_not_eq_true hfalse)
  refine touch_bind (touch_refuseRepositories _ hsub₇) ?_
  rintro _ s₈ h₈ ⟨alone, halone, hsub₈⟩
  refine touch_bind (touch_git hsub₈ rfl) ?_
  rintro worktrees s₉ h₉ ⟨listing, listErr, hlisting, hsub₉⟩
  refine touch_bind (touch_insideAny _ _ hsub₉) fun inside s₁₀ h₁₀ hinside => ?_
  split
  · trivial
  rename_i hout
  obtain ⟨apart, hapart, hsub₁₀⟩ := hinside (Bool.eq_false_of_not_eq_true hout)
  refine touch_bind (still_looks (looks_resolveThread _) s₁₀ h₁₀ hsub₁₀) fun commonDir s h hall => ?_
  refine ⟨rfl, rfl, rfl, ?_, fun e he => hall (by simp [he])⟩
  -- each fact was put on record by one of the looks, and all of that is in the history
  exact {
    canonical := hcanonical.mono fun e he => hall (by simp [he])
    unused := hunused.mono fun e he => hall (by simp [he])
    alone := fun parent hparent =>
      (halone parent hparent).mono fun e he => hall (by simp [he])
    outside := by
      refine ⟨listing, listErr, hall (by simp [listArgs]), ?_⟩
      rintro checkouts rfl c hc
      rw [removeNewline_porcelain] at hlisting
      have hroots : PyPath.ofString c.path ∈ Worktree.listedRoots worktrees := by
        rw [← hlisting, listedRoots_porcelain]
        exact List.mem_map_of_mem hc
      exact (hapart _ (List.mem_cons_of_mem _ hroots)).mono fun e he => hall (by simp [he])
    metadata := ⟨commonText, ⟨commonOut, commonErr, hall (by simp), hcommon⟩,
      (hapart _ List.mem_cons_self).mono fun e he => hall (by simp [he])⟩
    root := ⟨rootOut, rootErr, hall (by simp), hroot⟩
    commit := ⟨kindOut, kindErr, hall (by simp), hkind⟩ }

/-! ## §4. The launch. -/

/-- A part that changes nothing, from where it starts. -/
theorem touch_still {c : Act α} (hc : ∀ record, Still a record c) :
    Co.Leads (TouchSpec a) c (fun _ _ h' => h ⊆ h') s h := hc h s h (List.Subset.refl h)

/-- The destination is made: the first change. -/
theorem touch_reserve {w : Worktree} (hw : w.destination = PyPath.ofString a.destination)
    (hfree : Free a h) :
    Co.Leads (TouchSpec a) w.reserve (fun _ _ h' => h ⊆ h' ∧ Reserved a h') s h := by
  show Co.wp _ (Act.mkdir w.destination) _ _ _ _
  unfold Act.mkdir
  rw [Act.wp_perform, hw]
  refine ⟨fun _ => .reserve hfree, fun r => ?_⟩
  cases r with
  | error f => trivial
  | ok _ => exact ⟨List.subset_append_left _ _, List.mem_append_right _ List.mem_cons_self⟩

/-- Any of the changes that Git makes. -/
theorem touch_command {cwd : PyPath} {args : List String} (ht : a.Touches h (.git cwd args)) :
    Co.Leads (TouchSpec a) (git cwd args) (fun _ _ h' => h ⊆ h' ∧ ∃ stdout stderr,
      (⟨.git cwd args, .ok ⟨0, stdout, stderr⟩⟩ : Event Ans) ∈ h') s h := by
  unfold git
  show Co.wp _ _ _ _ _ _
  rw [Co.wp_bind, Act.wp_perform]
  refine ⟨fun _ => ht, fun r => ?_⟩
  cases r with
  | error f => trivial
  | ok exited =>
      obtain ⟨returncode, stdout, stderr⟩ := exited
      show Co.wp _ (if _ then _ else _) _ _ _ _
      split
      · trivial
      · rename_i hcode
        obtain rfl : returncode = 0 := not_not.mp hcode
        cases stdout with
        | none => trivial
        | some stdout => exact ⟨List.subset_append_left _ _, _, _,
            List.mem_append_right _ List.mem_cons_self⟩

/-- The files are read in and written out. -/
theorem touch_checkout {w : Worktree} (hw : w.destination = PyPath.ofString a.destination)
    (hrevision : w.revision = a.startingRevision) (hfree : Free a h) (hreserved : Reserved a h)
    (hregistered : Registered a h) :
    Co.Leads (TouchSpec a) w.checkout (fun _ _ _ => True) s h := by
  have hstays : ∀ {h'}, h ⊆ h' → Free a h' ∧ Reserved a h' ∧ Registered a h' := by
    intro h' hsub
    obtain ⟨stdout, stderr, hmem⟩ := hregistered
    exact ⟨hfree.mono hsub, hsub hreserved, stdout, stderr, hsub hmem⟩
  have hconfig : Co.Leads (TouchSpec a) (checkoutFilterConfig w.destination)
      (fun overrides _ h' => (∃ config, overrides = filterOverrides config) ∧ h ⊆ h') s h := by
    unfold checkoutFilterConfig
    refine touch_bind (touch_git (List.Subset.refl h) rfl) ?_
    rintro config s' h' ⟨_, _, -, hsub⟩
    exact ⟨⟨config, rfl⟩, fun e he => hsub (List.mem_cons_of_mem _ he)⟩
  unfold Worktree.checkout
  refine touch_bind hconfig ?_
  rintro overrides s₁ h₁ ⟨⟨config, rfl⟩, hsub₁⟩
  obtain ⟨hfree₁, hreserved₁, hregistered₁⟩ := hstays hsub₁
  rw [hw, hrevision]
  refine touch_bind (touch_command (.readTree hfree₁ hreserved₁ hregistered₁)) ?_
  rintro _ s₂ h₂ ⟨hsub₂, hread₂⟩
  obtain ⟨hfree₂, hreserved₂, hregistered₂⟩ := hstays (List.Subset.trans hsub₁ hsub₂)
  refine touch_bind (touch_command (.checkOut config hfree₂ hreserved₂ hregistered₂ hread₂)) ?_
  exact fun _ _ _ _ => trivial

theorem still_rest (w : Worktree) : Still a record (do
    a.start w
    whenGiven a.title CreateWorktreeThread.name
    CreateWorktreeThread.recheck w
    whenGiven a.prompt CreateWorktreeThread.dispatch
    checkpoint "complete" [("recoveryRequired", .bool false)]) := by
  have hthread : Still a record CreateWorktreeThread.receiptThreadId :=
    Co.Keeps.get_bind fun receipt m hm =>
      still_only (Co.only_ofExcept _) receipt m hm
  have hstart : Still a record (a.start w) := by
    unfold CreateWorktreeThread.start
    refine still_bind (still_checkpoint _ _) fun _ => still_bind (still_call _ _) fun created => ?_
    refine still_bind (still_only (Co.only_ofExcept _)) fun fields => ?_
    refine still_bind (still_checkpoint _ _) fun _ => ?_
    refine still_bind (still_only (Co.only_ofExcept _)) fun mismatch => ?_
    split
    · exact fun _ _ _ => trivial
    · exact Co.keeps_pure _
  have hname : ∀ title, Still a record (CreateWorktreeThread.name title) := by
    intro title
    unfold CreateWorktreeThread.name
    exact still_bind (still_checkpoint _ _) fun _ => still_bind hthread fun _ =>
      still_bind (still_call _ _) fun _ => still_checkpoint _ _
  have hrecheck : Still a record (CreateWorktreeThread.recheck w) := by
    unfold CreateWorktreeThread.recheck
    refine still_bind (still_looks (Worktree.looks_inspect _)) fun actual => ?_
    refine still_bind (still_checkpoint _ _) fun _ => ?_
    refine still_bind (still_looks (Worktree.looks_matches _ _)) fun good => ?_
    split
    · exact fun _ _ _ => trivial
    · exact Co.keeps_pure _
  have hdispatch : ∀ prompt, Still a record (CreateWorktreeThread.dispatch prompt) := by
    intro prompt
    unfold CreateWorktreeThread.dispatch
    refine still_bind (still_checkpoint _ _) fun _ => still_bind hthread fun threadId => ?_
    refine still_bind (still_call _ _) fun turn => ?_
    exact still_bind (still_only (Co.only_ofExcept _)) fun _ => still_checkpoint _ _
  exact still_bind hstart fun _ => still_bind (still_whenGiven hname) fun _ =>
    still_bind hrecheck fun _ => still_bind (still_whenGiven hdispatch) fun _ =>
      still_checkpoint _ _

/-- **Reserve, register, fill**: the changes come in this order. -/
theorem touch_prepare : Co.Leads (TouchSpec a) a.prepare (fun _ _ _ => True) s h := by
  have hcheckpoint : ∀ phase fields record, Still a record (checkpoint phase fields) :=
    fun phase fields record => still_checkpoint phase fields
  have hupdate : ∀ fields record, Still a record (updateWorktree fields) :=
    fun fields record => still_updateWorktree fields
  unfold CreateWorktreeThread.prepare
  refine touch_bind (touch_still (hcheckpoint _ _)) fun _ s₁ h₁ hsub₁ => ?_
  refine touch_bind (touch_validate (List.Subset.refl h₁)) ?_
  rintro w s₂ h₂ ⟨hsource, hdestination, hrevision, hfree, -⟩
  refine touch_bind (touch_still fun _ => still_whenGiven fun project =>
    still_bind (still_call _ _) fun _ => Co.keeps_pure _) fun _ s₃ h₃ hsub₃ => ?_
  refine touch_bind (touch_still (hcheckpoint _ _)) fun _ s₄ h₄ hsub₄ => ?_
  refine touch_bind (touch_reserve hdestination
    (hfree.mono (List.Subset.trans hsub₃ hsub₄))) ?_
  rintro _ s₅ h₅ ⟨hsub₅, hreserved⟩
  refine touch_bind (touch_still (hupdate _)) fun _ s₆ h₆ hsub₆ => ?_
  refine touch_bind (touch_still (hcheckpoint _ _)) fun _ s₇ h₇ hsub₇ => ?_
  have hfree₇ : Free a h₇ := hfree.mono fun e he =>
    hsub₇ (hsub₆ (hsub₅ (hsub₄ (hsub₃ he))))
  have hreserved₇ : Reserved a h₇ := hsub₇ (hsub₆ hreserved)
  have hregister : Co.Leads (TouchSpec a) w.create
      (fun _ _ h' => h₇ ⊆ h' ∧ Registered a h') s₇ h₇ := by
    have hargs : w.createArgs = a.addArgs := by
      unfold Worktree.createArgs CreateWorktreeThread.addArgs
      rw [hdestination, hrevision]
    unfold Worktree.create
    rw [hargs, hsource]
    refine touch_bind (touch_command (.register hfree₇ hreserved₇)) ?_
    exact fun _ _ _ hdone => hdone
  refine touch_bind hregister ?_
  rintro _ s₈ h₈ ⟨hsub₈, hregistered⟩
  refine touch_bind (touch_still (hupdate _)) fun _ s₉ h₉ hsub₉ => ?_
  refine touch_bind (touch_still (hcheckpoint _ _)) fun _ s₁₀ h₁₀ hsub₁₀ => ?_
  obtain ⟨stdout, stderr, hmem⟩ := hregistered
  refine touch_bind (touch_checkout hdestination hrevision
    (hfree₇.mono fun e he => hsub₁₀ (hsub₉ (hsub₈ he))) (hsub₁₀ (hsub₉ (hsub₈ hreserved₇)))
    ⟨stdout, stderr, hsub₁₀ (hsub₉ hmem)⟩) fun _ s₁₁ h₁₁ _ => ?_
  refine touch_bind (touch_still (hupdate _)) fun _ s₁₂ h₁₂ _ => ?_
  refine touch_bind (touch_still (hcheckpoint _ _)) fun _ s₁₃ h₁₃ _ => ?_
  refine touch_bind (touch_still fun _ => still_looks (Worktree.looks_inspect _))
    fun actual s₁₄ h₁₄ _ => ?_
  refine touch_bind (touch_still (hupdate _)) fun _ s₁₅ h₁₅ _ => ?_
  refine touch_bind (touch_still (hcheckpoint _ _)) fun _ s₁₆ h₁₆ _ => ?_
  refine touch_bind (touch_still fun _ => still_looks (Worktree.looks_matches _ _))
    fun good s₁₇ h₁₇ _ => ?_
  split
  · trivial
  · trivial

theorem touch_action : Co.Leads (TouchSpec a) a.action (fun _ _ _ => True) s h := by
  unfold CreateWorktreeThread.action
  refine touch_bind touch_prepare fun w s₁ h₁ _ => ?_
  exact Co.Leads.conseq (observe_mono _ _) (touch_still fun _ => still_rest w)
    fun _ _ _ _ => trivial

theorem lenient_touch : Lenient (TouchSpec a) where
  mono := observe_mono _ _
  now := fun _ => ⟨(fun h => by cases h), fun _ => trivial⟩
  update := fun _ _ _ => ⟨(fun h => by cases h), fun _ => trivial⟩

end Follow

section Whole

variable [Hashlib]

theorem CreateWorktreeThread.touches_run (a : CreateWorktreeThread) (requestId : String) :
    Interaction.wp (TouchSpec a) ((ToolCall.createWorktreeThread a).prog requestId)
      (fun _ _ => True) [] := by
  have hΦ : Indifferent (TouchSpec a) (fun _ => True) := by
    refine ⟨observe_mono _ _, fun op h hop _ => ⟨fun halters => ?_, fun _ => trivial⟩⟩
    have hquiet : op.alters = false := by
      cases op with
      | acquire => rfl
      | release => rfl
      | select requestId => rfl
      | _ => exact Op.alters_of_isLook hop
    rw [hquiet] at halters
    cases halters
  refine hΦ.wp_tool (P := fun _ _ => True) _ requestId trivial (fun _ _ _ => trivial)
    (fun _ _ _ => ⟨(fun h => by cases h), fun _ => trivial⟩) ?_
  intro cwd fp startedAt h _ _
  refine ⟨(fun h => by cases h), fun r => ?_⟩
  rcases r with f | _ | row
  · trivial
  · exact lenient_touch.attempt ⟨(fun h => by cases h), fun _ => touch_action⟩
  · trivial

/-- Reserve, register, read in, check out: each at most once. -/
theorem CreateWorktreeThread.disturbs_in_order (a : CreateWorktreeThread) (requestId : String)
    {h : History} {rest : Residual Dict} {op : Op}
    (hrun : Run ((ToolCall.createWorktreeThread a).prog requestId) h rest)
    (hop : rest.head? = some op) :
    (disturbed h op).Sublist [.mkdir, .worktreeAdd, .readTree, .checkoutIndex] := by
  have hlabels := ((ToolCall.createWorktreeThread a).begins_run requestId []).run hrun
  rw [hop] at hlabels
  exact hlabels.filter Effect.onDisk

/-- **Placement.**  However a launch goes, whatever it is about to change on
disk is a change to its destination or its registration, which it found free;
it comes after the changes it needs, and none comes twice.  The listing in
which it looks for its destination is read as it was written. -/
theorem CreateWorktreeThread.touches_destination (a : CreateWorktreeThread) (requestId : String) :
    (∀ (h : History) (rest : Residual Dict) (op : Op),
      Run ((ToolCall.createWorktreeThread a).prog requestId) h rest → rest.head? = some op →
      op.alters = true →
      a.Touches h op ∧
        (disturbed h op).Sublist [.mkdir, .worktreeAdd, .readTree, .checkoutIndex]) ∧
    ∀ checkouts : List Checkout,
      Worktree.listedRoots (removeNewline (porcelain checkouts))
        = checkouts.map fun c => PyPath.ofString c.path := by
  constructor
  · intro h rest op hrun hop halters
    have hat := wp_run_head (a.touches_run requestId) hrun hop
    rw [foldl_remember, List.nil_append] at hat
    exact ⟨hat halters, a.disturbs_in_order requestId hrun hop⟩
  · intro checkouts
    rw [removeNewline_porcelain]
    exact listedRoots_porcelain checkouts

end Whole

/-- The launch that is there to be watched gets as far as writing out files. -/
theorem CreateWorktreeThread.touches_destination_launch :
    let _ := Hashlib.verbatim
    ∃ (h : History) (rest : Residual Dict) (op : Op),
      Run ((ToolCall.createWorktreeThread sampleLaunch).prog "r") h rest ∧
      rest.head? = some op ∧ op.effect = some .checkoutIndex ∧ sampleLaunch.Touches h op ∧
      (disturbed h op).Sublist [.mkdir, .worktreeAdd, .readTree, .checkoutIndex] := by
  intro _
  have hrun := Run.follow (fun _ => launchSite) 31
    (Run.start (p := (ToolCall.createWorktreeThread sampleLaunch).prog "r"))
  have hat : (((ToolCall.createWorktreeThread sampleLaunch).prog "r").follow
      (fun _ => launchSite) 31 []).2.head?.any
        (fun op => op.alters && op.effect = some .checkoutIndex) = true := by
    decide +kernel
  obtain ⟨op, hhead, hop⟩ := (Option.any_eq_true _ _).mp hat
  rw [Bool.and_eq_true, decide_eq_true_eq] at hop
  exact ⟨_, _, op, hrun, hhead, hop.2,
    (sampleLaunch.touches_destination "r").1 _ _ _ hrun hhead hop.1⟩

end CodexRemoteBridge

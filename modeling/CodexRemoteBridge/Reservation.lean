/-
  CodexRemoteBridge.Reservation — one creation owns the destination.

  `create_worktree_thread` looks whether the destination is there, and
  awaits Git and the server before it reserves it with an exclusive
  `mkdir`.  What it learnt by looking may be old by then; the `mkdir` is
  what decides.

  Main result: `Yard.destination_exclusive`.
-/
import CodexRemoteBridge.System
import CodexRemoteBridge.Withholding

namespace CodexRemoteBridge

open Interaction

/-! ## §1. What a creation learns about its destination. -/

/-- What a creation knows about its destination. -/
inductive Stage where
  /-- It has not looked whether the destination exists. -/
  | unseen
  | absent
  | taken
  | reserved
  deriving DecidableEq

/-- The action is entered. -/
def entered : Event Ans → Bool
  | ⟨.enter _, _⟩ => true
  | _ => false

/-- `target.exists()` has been asked of `d`. -/
def looked (d : PyPath) : Event Ans → Bool
  | ⟨.pathExists path, _⟩ => path = d
  | _ => false

/-- `reserve` has made the directory `d`. -/
def made (d : PyPath) : Event Ans → Bool
  | ⟨.mkdir path, .ok _⟩ => path = d
  | _ => false

/-- The answer says that there is something at `d`.  A link shows before
`exists` is asked: it resolves to a path that is not its own. -/
def occupied (d : PyPath) (unseen : Bool) : Event Ans → Bool
  | ⟨.resolve path, .ok resolved⟩ =>
      unseen && path = d && resolved ≠ d && PyPath.ofString resolved.str = resolved
  | ⟨.pathExists path, .ok present⟩ => path = d && present
  | ⟨.isSymlink path, .ok symlink⟩ => path = d && symlink
  | ⟨.mkdir path, .error _⟩ => path = d
  | _ => false

/-- Follow a creation for what it learns; `none` until its action is entered. -/
def reservation (d : PyPath) (m : Option Stage) (e : Event Ans) : Option Stage :=
  match m with
  | none => if entered e then some .unseen else none
  | some .unseen =>
      if occupied d true e then some .taken
      else if looked d e then some .absent
      else some .unseen
  | some .absent =>
      if occupied d false e then some .taken
      else if made d e then some .reserved
      else some .absent
  | some .taken => some .taken
  | some .reserved => some .reserved

/-- What only the owner of the destination does: Git commands that write
there, and the thread that is to work there. -/
def ownerEffects : List Effect :=
  [.worktreeAdd, .readTree, .checkoutIndex, .request "thread/start"]

/-- A Git command, or anything on the connection. -/
def Op.isRemote : Op → Bool
  | .git _ _ | .call _ _ | .close => true
  | _ => false

/-- What a creation may do at a stage. -/
def ReserveAt (m : Option Stage) (op : Op) : Prop :=
  match m with
  | some .reserved => True
  | some .taken => op.isRemote = false
  | _ => ∀ effect ∈ ownerEffects, op.effect ≠ some effect

/-- The history semantics reduced to the stage, with `ReserveAt` at every operation. -/
abbrev ReserveSpec (d : PyPath) : OpSpec Ans (Option Stage) :=
  observe (reservation d) ReserveAt

theorem reserveSpec_mono (d : PyPath) : (ReserveSpec d).Mono := observe_mono _ _

/-! ## §2. Steps. -/

/-- The operations that tell nothing about any path. -/
def Op.isSilent : Op → Bool
  | .enter _ | .resolve _ | .pathExists _ | .isSymlink _ | .mkdir _ => false
  | _ => true

section Steps

variable {d : PyPath} {s : Dict} {m : Option Stage} {α β : Type}

theorem reservation_silent {op : Op} (h : op.isSilent = true) (m : Option Stage) (r : Ans op) :
    reservation d m ⟨op, r⟩ = m := by
  have hentered : entered ⟨op, r⟩ = false := by cases op <;> first | rfl | cases h
  have hlooked : looked d ⟨op, r⟩ = false := by cases op <;> first | rfl | cases h
  have hmade : made d ⟨op, r⟩ = false := by cases op <;> first | rfl | cases h
  have hoccupied : ∀ unseen, occupied d unseen ⟨op, r⟩ = false := by
    intro unseen
    cases op <;> first | rfl | cases h
  rcases m with _ | stage
  · simp [reservation, hentered]
  · cases stage <;> simp [reservation, hoccupied, hlooked, hmade]

/-- An operation without effect is forbidden only where it is remote and
the destination is taken. -/
theorem reserveAt_of {op : Op} (heffect : op.effect = none)
    (htaken : m = some .taken → op.isRemote = false) : ReserveAt m op := by
  rcases m with _ | stage
  · intro effect _
    simp [heffect]
  · cases stage with
    | unseen => exact fun effect _ => by simp [heffect]
    | absent => exact fun effect _ => by simp [heffect]
    | taken => exact htaken rfl
    | reserved => trivial

/-- One operation, followed where its answer is a value. -/
theorem reserving_perform {op : Op} {view : Ans op → Except PyExc α}
    {Q : α → Dict → Option Stage → Prop} (hat : ReserveAt m op)
    (h : ∀ r a, view r = .ok a → Q a s (reservation d m ⟨op, r⟩)) :
    Co.Leads (ReserveSpec d) (Act.perform op view) Q s m := by
  show Co.wp _ _ _ _ s m
  rw [Act.wp_perform]
  refine ⟨hat, fun r => ?_⟩
  dsimp only
  cases hview : view r with
  | error e => trivial
  | ok a => exact h r a hview

/-- A part that performs silent operations only, all allowed here. -/
theorem reserving_silent {G : Op → Prop} {c : Act α} (hc : c.Only G)
    (hG : ∀ op, G op → op.isSilent = true ∧ ReserveAt m op) :
    Co.Leads (ReserveSpec d) c (fun _ s' m' => s' = s ∧ m' = m) s m :=
  Co.wp_of_only hc (fun op hop => (hG op hop).2)
    (fun op r hop => reservation_silent (hG op hop).1 m r)
    (fun _ => ⟨rfl, rfl⟩) fun _ => trivial

/-- A look that tells nothing about any path. -/
theorem reserving_look (op : Op) (view : Ans op → Except PyExc α) (hsilent : op.isSilent = true)
    (heffect : op.effect = none) (htaken : m ≠ some .taken) :
    Co.Leads (ReserveSpec d) (Act.perform op view) (fun _ s' m' => s' = s ∧ m' = m) s m := by
  refine reserving_silent (G := fun op' => op' = op)
    (Act.only_perform (G := fun op' => op' = op) rfl view) ?_
  rintro _ rfl
  exact ⟨hsilent, reserveAt_of heffect fun h => absurd h htaken⟩

/-- A look by Git. -/
theorem reserving_git {cwd : PyPath} {args : List String} (heffect : gitEffect args = none)
    (htaken : m ≠ some .taken) :
    Co.Leads (ReserveSpec d) (git cwd args) (fun _ s' m' => s' = s ∧ m' = m) s m := by
  refine reserving_silent (G := fun op => op = .git cwd args) (only_git rfl) ?_
  rintro op rfl
  exact ⟨rfl, reserveAt_of heffect fun h => absurd h htaken⟩

/-- Saving tells nothing about the destination. -/
theorem reserving_saveReceipt :
    Co.Leads (ReserveSpec d) saveReceipt (fun _ _ m' => m' = m) s m := by
  have hsave : ∀ receipt : Dict, Co.Leads (ReserveSpec d) (Ledger.save receipt)
      (fun _ _ m' => m' = m) s m := by
    intro receipt
    unfold Ledger.save
    refine Co.Leads.bind (reserveSpec_mono d) (P := fun _ s' m' => s' = s ∧ m' = m) ?_ ?_
    · refine reserving_silent (G := fun op => op = .now)
        (Act.only_perform (G := fun op => op = .now) rfl _) ?_
      rintro op rfl
      exact ⟨rfl, reserveAt_of rfl fun _ => rfl⟩
    rintro time _ _ ⟨rfl, rfl⟩
    refine Co.Leads.ofExcept_bind fun key _ => ?_
    refine Co.Leads.bind (reserveSpec_mono d)
      (reserving_silent (G := fun op => ∃ receipt, op = .update key receipt)
        (Act.only_perform ⟨_, rfl⟩ _) ?_) ?_
    · rintro op ⟨receipt, rfl⟩
      exact ⟨rfl, reserveAt_of rfl fun _ => rfl⟩
    · rintro _ _ _ ⟨rfl, rfl⟩
      rfl
  show Co.wp _ _ _ _ s m
  unfold CodexRemoteBridge.saveReceipt
  rw [Co.wp_bind, Co.wp_get]
  exact hsave s

theorem reserving_checkpoint (phase : String) (fields : Dict) :
    Co.Leads (ReserveSpec d) (checkpoint phase fields) (fun _ _ m' => m' = m) s m := by
  unfold checkpoint
  refine Co.Leads.bind (P := fun _ _ m' => m' = m) (reserveSpec_mono d) rfl fun _ s' m' hm => ?_
  subst hm
  refine Co.Leads.bind (reserveSpec_mono d) reserving_saveReceipt fun _ s'' m'' hm => ?_
  exact hm

end Steps

/-! ## §3. The action. -/

section Action

variable {d : PyPath} {s : Dict}

/-- A path that is not its own resolution is refused. -/
theorem reserving_canonicalPath (value name : String) :
    Co.Leads (ReserveSpec d) (canonicalPath value name)
      (fun path s' m' => path = PyPath.ofString value ∧ s' = s ∧ m' = some .unseen)
      s (some .unseen) := by
  unfold canonicalPath
  dsimp only
  split
  · trivial
  refine Co.Leads.bind (reserveSpec_mono d)
    (P := fun resolved s' m' => s' = s ∧ (resolved.str = value → m' = some .unseen)) ?_ ?_
  · refine reserving_perform (reserveAt_of rfl nofun) fun r resolved hview => ?_
    refine ⟨rfl, fun hstr => ?_⟩
    have hr : r = .ok resolved := by
      cases r with
      | error f => cases hview
      | ok path => cases hview; rfl
    subst hr
    have hfree : occupied d true ⟨.resolve (PyPath.ofString value), .ok resolved⟩ = false := by
      by_cases hd : PyPath.ofString value = d
      · -- a normal path that reads `value` is the path of `value`
        have hown : PyPath.ofString resolved.str = resolved → resolved = d := fun hnormal => by
          rw [← hnormal, hstr, hd]
        by_cases hnormal : PyPath.ofString resolved.str = resolved
        · simp [occupied, hown hnormal]
        · simp [occupied, hnormal]
      · simp [occupied, hd]
    simp [reservation, hfree, looked]
  · rintro resolved s' m' ⟨rfl, hm⟩
    split
    · trivial
    · rename_i hstr
      exact ⟨rfl, rfl, hm (not_not.mp hstr)⟩

namespace Worktree

/-- The destination is found absent, or the run ends here. -/
theorem reserving_unusable :
    Co.Leads (ReserveSpec d) (unusable d)
      (fun bad s' m' => s' = s ∧ (bad = false → m' = some .absent)) s (some .unseen) := by
  unfold unusable
  refine Co.Leads.bind (reserveSpec_mono d)
    (P := fun present s' m' => s' = s ∧ (present = false → m' = some .absent)) ?_ ?_
  · refine reserving_perform (reserveAt_of rfl nofun) fun r present hview => ?_
    refine ⟨rfl, fun hpresent => ?_⟩
    cases r with
    | error f => cases hview
    | ok present' =>
        cases hview
        subst hpresent
        simp [reservation, occupied, looked]
  rintro present s' m' ⟨rfl, hm⟩
  split
  · exact ⟨rfl, fun h => absurd h (by simp)⟩
  rename_i hpresent
  obtain rfl := hm (Bool.eq_false_iff.mpr hpresent)
  refine Co.Leads.bind (reserveSpec_mono d)
    (P := fun symlink s'' m' => s'' = s' ∧ (symlink = false → m' = some .absent)) ?_ ?_
  · refine reserving_perform (reserveAt_of rfl nofun) fun r symlink hview => ?_
    refine ⟨rfl, fun hsymlink => ?_⟩
    cases r with
    | error f => cases hview
    | ok symlink' =>
        cases hview
        subst hsymlink
        simp [reservation, occupied, made]
  rintro symlink s'' m' ⟨rfl, hm⟩
  split
  · exact ⟨rfl, fun h => absurd h (by simp)⟩
  rename_i hsymlink
  obtain rfl := hm (Bool.eq_false_iff.mpr hsymlink)
  refine Co.Leads.bind (reserveSpec_mono d)
    (reserving_look (.isDir d.parent) lift rfl rfl (by simp)) ?_
  rintro parent _ _ ⟨rfl, rfl⟩
  exact ⟨rfl, fun _ => rfl⟩

/-- Looking for a repository around the destination: where the destination
itself is come upon, it is refused. -/
theorem reserving_refuseRepositories (parents : List PyPath) :
    Co.Leads (ReserveSpec d) (refuseRepositories parents)
      (fun _ s' m' => s' = s ∧ m' = some .absent) s (some .absent) := by
  induction parents with
  | nil => exact ⟨rfl, rfl⟩
  | cons parent rest ih =>
      rw [refuseRepositories]
      dsimp only
      refine Co.Leads.bind (reserveSpec_mono d)
        (P := fun present s' m' => s' = s ∧ (present = false → m' = some .absent)) ?_ ?_
      · refine reserving_perform (reserveAt_of rfl (fun h => by cases h)) fun r present hview => ?_
        refine ⟨rfl, fun hpresent => ?_⟩
        cases r with
        | error f => cases hview
        | ok present' =>
            cases hview
            subst hpresent
            simp [reservation, occupied, made]
      rintro present s' m' ⟨rfl, hm⟩
      split
      · trivial
      rename_i hpresent
      obtain rfl := hm (Bool.eq_false_iff.mpr hpresent)
      refine Co.Leads.bind (reserveSpec_mono d)
        (reserving_look (.isFile (parent.child "HEAD")) lift rfl rfl (by simp)) ?_
      rintro head s'' _ ⟨rfl, rfl⟩
      have next : ∀ bare : Bool, Co.Leads (ReserveSpec d)
          (if bare = true then
            Act.raise (.worktreeError "destination must be outside existing repositories")
            else refuseRepositories rest)
          (fun _ s' m' => s' = s'' ∧ m' = some .absent) s'' (some .absent) := by
        intro bare
        split
        · trivial
        · exact ih
      split
      · refine Co.Leads.bind (reserveSpec_mono d)
          (reserving_look (.isDir (parent.child "objects")) lift rfl rfl (by simp)) ?_
        rintro bare _ _ ⟨rfl, rfl⟩
        exact next bare
      · exact next false

/-- After `exists`, a resolution tells nothing more. -/
theorem reserving_insideAny (target : PyPath) (paths : List PyPath) :
    Co.Leads (ReserveSpec d) (insideAny target paths)
      (fun _ s' m' => s' = s ∧ m' = some .absent) s (some .absent) := by
  induction paths with
  | nil => exact ⟨rfl, rfl⟩
  | cons path rest ih =>
      rw [insideAny]
      refine Co.Leads.bind (reserveSpec_mono d)
        (P := fun _ s' m' => s' = s ∧ m' = some .absent) ?_ ?_
      · refine reserving_perform (reserveAt_of rfl (fun h => by cases h)) fun r resolved hview => ?_
        refine ⟨rfl, ?_⟩
        have hfree : occupied d false ⟨.resolve path, r⟩ = false := by
          cases r with
          | error f => rfl
          | ok resolved => simp [occupied]
        simp [reservation, hfree, made]
      rintro resolved _ _ ⟨rfl, rfl⟩
      split
      · exact ⟨rfl, rfl⟩
      · exact ih

/-- What validation found absent is the destination. -/
theorem reserving_validate (sourceRepository startingRevision destination : String) :
    Co.Leads (ReserveSpec (PyPath.ofString destination))
      (validate sourceRepository startingRevision destination)
      (fun w _ m' => w.destination = PyPath.ofString destination ∧ m' = some .absent)
      s (some .unseen) := by
  have hmono := reserveSpec_mono (PyPath.ofString destination)
  unfold validate
  refine Co.Leads.bind hmono (reserving_canonicalPath _ _) ?_
  rintro source _ _ ⟨rfl, rfl, rfl⟩
  refine Co.Leads.bind hmono (reserving_canonicalPath _ _) ?_
  rintro target _ _ ⟨rfl, rfl, rfl⟩
  refine Co.Leads.bind hmono (reserving_look (.isDir _) lift rfl rfl (by simp)) ?_
  rintro sourceIsDir _ _ ⟨rfl, rfl⟩
  split
  · trivial
  split
  · trivial
  refine Co.Leads.bind hmono (reserving_git rfl (by simp)) ?_
  rintro root _ _ ⟨rfl, rfl⟩
  split
  · trivial
  refine Co.Leads.bind hmono (reserving_git rfl (by simp)) ?_
  rintro kind _ _ ⟨rfl, rfl⟩
  split
  · trivial
  refine Co.Leads.bind hmono (reserving_git rfl (by simp)) ?_
  rintro commonText _ _ ⟨rfl, rfl⟩
  refine Co.Leads.bind hmono reserving_unusable ?_
  rintro bad _ m' ⟨rfl, hm⟩
  split
  · trivial
  rename_i hbad
  obtain rfl := hm (Bool.eq_false_iff.mpr hbad)
  refine Co.Leads.bind hmono (reserving_refuseRepositories _) ?_
  rintro _ _ _ ⟨rfl, rfl⟩
  refine Co.Leads.bind hmono (reserving_git rfl (by simp)) ?_
  rintro worktrees _ _ ⟨rfl, rfl⟩
  refine Co.Leads.bind hmono (reserving_insideAny _ _) ?_
  rintro inside _ _ ⟨rfl, rfl⟩
  split
  · trivial
  refine Co.Leads.bind hmono (reserving_look (.resolveThread _) lift rfl rfl (by simp)) ?_
  rintro commonDir _ _ ⟨rfl, rfl⟩
  exact ⟨rfl, rfl⟩

end Worktree

/-- The owner of the destination is followed no further. -/
theorem hosts_reserved (d : PyPath) :
    Hosts (ReserveSpec d) (fun _ => True) (fun _ => True) (fun _ m => m = some .reserved)
      (fun _ _ _ => True) where
  mono := reserveSpec_mono d
  act := by
    rintro op s _ - rfl
    exact ⟨trivial, fun _ => rfl⟩
  update := by
    rintro key updatedAt s _ - rfl
    exact ⟨trivial, fun _ => rfl⟩
  fields := fun _ _ _ _ h => h
  call := by
    rintro method params s _ - rfl
    refine ⟨trivial, fun r => ?_⟩
    cases r <;> trivial
  close := by
    rintro s _ rfl
    refine ⟨trivial, fun r => ?_⟩
    cases r <;> trivial
  own := fun _ _ _ _ => trivial
  goal := fun _ _ _ _ _ => trivial

namespace CreateWorktreeThread

/-- **The exclusive `mkdir` decides**: what follows it is done by its owner. -/
theorem reserving_prepare (a : CreateWorktreeThread) :
    Co.Leads (ReserveSpec (PyPath.ofString a.destination)) a.prepare
      (fun _ _ m' => m' = some .reserved) s (some .unseen) := by
  have hmono := reserveSpec_mono (PyPath.ofString a.destination)
  have after := hosts_reserved (PyPath.ofString a.destination)
  unfold prepare
  refine Co.Leads.bind hmono (reserving_checkpoint _ _) ?_
  rintro _ s _ rfl
  refine Co.Leads.bind hmono (Worktree.reserving_validate _ _ _) ?_
  rintro worktree s _ ⟨hdestination, rfl⟩
  refine Co.Leads.bind hmono (P := fun _ _ m' => m' = some .absent) ?_ ?_
  · cases a.appServerProjectId with
    | none => rfl
    | some project =>
        refine Co.Leads.bind hmono (P := fun _ s' m' => s' = s ∧ m' = some .absent) ?_ ?_
        · refine reserving_perform ?_ fun r _ _ => ⟨rfl, reservation_silent rfl _ r⟩
          show ∀ effect ∈ ownerEffects, _ ≠ some effect
          simp [ownerEffects, Op.effect, requestEffect]
        · rintro _ _ _ ⟨rfl, rfl⟩
          rfl
  rintro _ s _ rfl
  refine Co.Leads.bind hmono (reserving_checkpoint _ _) ?_
  rintro _ s _ rfl
  refine Co.Leads.bind hmono (P := fun _ _ m' => m' = some .reserved) ?_ ?_
  · refine reserving_perform ?_ fun r _ hview => ?_
    · show ∀ effect ∈ ownerEffects, _ ≠ some effect
      simp [ownerEffects, Op.effect]
    · cases r with
      | error f => cases hview
      | ok _ => simp [reservation, occupied, made, hdestination]
  rintro _ s m hm
  have hupdate : ∀ fields, Fills (ReserveSpec (PyPath.ofString a.destination))
      (fun _ m => m = some .reserved) (fun _ _ _ => True) (updateWorktree fields) :=
    fun fields => after.updateWorktree fields trivial
  have hcheckpoint : ∀ phase, Fills (ReserveSpec (PyPath.ofString a.destination))
      (fun _ m => m = some .reserved) (fun _ _ _ => True) (checkpoint phase []) :=
    fun phase => after.checkpoint phase trivial fun _ _ => trivial
  refine Co.Leads.bind hmono (hupdate _ s m hm) fun _ s m hm => ?_
  refine Co.Leads.bind hmono (hcheckpoint _ s m hm) fun _ s m hm => ?_
  refine Co.Leads.bind hmono
    (after.bind (after.git _ _) (fun _ => fills_pure ()) s m hm) fun _ s m hm => ?_
  refine Co.Leads.bind hmono (hupdate _ s m hm) fun _ s m hm => ?_
  refine Co.Leads.bind hmono (hcheckpoint _ s m hm) fun _ s m hm => ?_
  have hcheckout : Fills (ReserveSpec (PyPath.ofString a.destination))
      (fun _ m => m = some .reserved) (fun _ _ _ => True) worktree.checkout :=
    after.bind (after.looks (looks_checkoutFilterConfig _)) fun overrides =>
      after.bind (after.git _ _) fun _ => after.bind (after.git _ _) fun _ => fills_pure _
  refine Co.Leads.bind hmono (hcheckout s m hm) fun _ s m hm => ?_
  refine Co.Leads.bind hmono (hupdate _ s m hm) fun _ s m hm => ?_
  refine Co.Leads.bind hmono (hcheckpoint _ s m hm) fun _ s m hm => ?_
  refine Co.Leads.bind hmono
    (after.looks (Worktree.looks_inspect _) s m hm) fun actual s m hm => ?_
  refine Co.Leads.bind hmono (hupdate _ s m hm) fun _ s m hm => ?_
  refine Co.Leads.bind hmono (hcheckpoint _ s m hm) fun _ s m hm => ?_
  refine Co.Leads.bind hmono
    (after.looks (Worktree.looks_matches _ _) s m hm) fun good s m hm => ?_
  split
  · trivial
  · exact hm

theorem reserving_action (a : CreateWorktreeThread) :
    Co.Leads (ReserveSpec (PyPath.ofString a.destination)) a.action (fun _ _ _ => True)
      s (some .unseen) := by
  have hmono := reserveSpec_mono (PyPath.ofString a.destination)
  have after := hosts_reserved (PyPath.ofString a.destination)
  unfold action
  refine Co.Leads.bind hmono a.reserving_prepare fun worktree s m hm => ?_
  have hrest : Fills (ReserveSpec (PyPath.ofString a.destination))
      (fun _ m => m = some .reserved) (fun _ _ _ => True) (do
        a.start worktree
        whenGiven a.title name
        recheck worktree
        whenGiven a.prompt dispatch
        checkpoint "complete" [("recoveryRequired", .bool false)]) := by
    refine after.bind (fills_start after (fun _ _ => trivial) (fun _ => trivial) a worktree)
      fun _ => ?_
    refine after.bind (fills_whenGiven fun title =>
      after.fills_name title trivial trivial trivial) fun _ => ?_
    refine after.bind (after.fills_recheck worktree trivial trivial) fun _ => ?_
    refine after.bind (fills_whenGiven
      (fills_dispatch after (fun _ _ => trivial) fun _ => trivial)) fun _ => ?_
    exact after.checkpoint _ trivial fun _ _ => trivial
  exact Co.Leads.conseq hmono (hrest s m hm) fun _ _ _ _ => trivial

end CreateWorktreeThread

end Action

/-! ## §4. Whole runs. -/

theorem lenient_reserve (d : PyPath) : Lenient (ReserveSpec d) where
  mono := reserveSpec_mono d
  now := fun _ => ⟨reserveAt_of rfl fun _ => rfl, fun _ => trivial⟩
  update := fun _ _ _ => ⟨reserveAt_of rfl fun _ => rfl, fun _ => trivial⟩

theorem CreateWorktreeThread.reserves_run [Hashlib] (a : CreateWorktreeThread)
    (requestId : String) :
    Interaction.wp (ReserveSpec (PyPath.ofString a.destination))
      ((ToolCall.createWorktreeThread a).prog requestId) (fun _ _ => True) none := by
  have hΦ : Indifferent (ReserveSpec (PyPath.ofString a.destination)) (fun m => m = none) := by
    refine ⟨reserveSpec_mono _, ?_⟩
    rintro op _ hop rfl
    have heffect : op.effect = none := by
      cases op <;> simp_all [Op.isPreparatory, Op.isLook, Op.effect]
    refine ⟨reserveAt_of heffect (fun h => by cases h), fun r => ?_⟩
    have hentered : entered ⟨op, r⟩ = false := by cases op <;> first | rfl | cases hop
    simp [reservation, hentered]
  refine hΦ.wp_tool (P := fun _ _ => True) _ requestId rfl (fun _ _ _ => trivial)
    (fun _ _ _ => ⟨reserveAt_of rfl fun _ => rfl, fun _ => trivial⟩) ?_
  rintro cwd fp startedAt _ hfp rfl
  refine ⟨reserveAt_of rfl fun _ => rfl, fun r => ?_⟩
  rcases r with f | _ | row
  · rfl
  · refine (lenient_reserve _).attempt ⟨?_, fun _ => a.reserving_action⟩
    show ∀ effect ∈ ownerEffects, some Effect.entered ≠ some effect
    simp [ownerEffects]
  · rfl

/-- `ReserveAt`, frame by frame. -/
def ReserveWireAt (m : Option Stage) (op : WireOp) : Prop :=
  match op with
  | .base op => ReserveAt m op
  | .net op =>
      match m with
      | some .reserved => True
      | some .taken => False
      | _ => ∀ effect ∈ ownerEffects, op.effect ≠ some effect

/-- Before the reservation a request may go out that is not the owner's. -/
theorem reserveWireAt_net {m : Option Stage} {op : NetOp} (htaken : m ≠ some .taken)
    (h : m ≠ some .reserved → ∀ effect ∈ ownerEffects, op.effect ≠ some effect) :
    ReserveWireAt m (.net op) := by
  rcases m with _ | stage
  · exact h nofun
  · cases stage with
    | unseen => exact h (by simp)
    | absent => exact h (by simp)
    | taken => exact absurd rfl htaken
    | reserved => trivial

theorem CreateWorktreeThread.reserves [Hashlib] [Endpoint] (a : CreateWorktreeThread)
    (requestId : String) :
    Interaction.wp (observe (onBase (reservation (PyPath.ofString a.destination))) ReserveWireAt)
      ((ToolCall.createWorktreeThread a).wire requestId) (fun _ _ => True) none := by
  refine wp_handle_of (observe_mono _ _) _ ?_ _ (a.reserves_run requestId)
  intro op Q m h
  -- a request is taken apart into frames, which say nothing about a path
  have hrpc : ∀ {α : Type} {c : Net α} {L : List Effect}
      {Q : Except PyExc α → Option Stage → Prop}, Transmits c L → m ≠ some .taken →
      (m ≠ some .reserved → ∀ effect ∈ ownerEffects, effect ∉ L) → (∀ r, Q r m) →
      Interaction.wp (observe (onBase (reservation (PyPath.ofString a.destination)))
        ReserveWireAt) (ofNet c) Q m := by
    intro α c L Q hc htaken hL hQ
    rw [wp_ofNet_eq]
    have hmono : (netSpec (observe (onBase (reservation (PyPath.ofString a.destination)))
        ReserveWireAt)).Mono := fun op _ _ hQ m h => ⟨h.1, fun r => hQ _ _ (h.2 r)⟩
    refine Interaction.wp_mono hmono _ ?_ m
      ((hc ()).keeps hmono (J := fun m' => m' = m) (fun op m' hop hm' => ?_) m rfl)
    · rintro ⟨r | r, _⟩ _ rfl <;> exact hQ _
    · subst hm'
      refine ⟨reserveWireAt_net htaken fun hm effect heffect hop' => ?_, fun _ => rfl⟩
      exact hL hm effect heffect (hop effect hop')
  have hanswer : ∀ r, op.isSilent = true → Q r m := fun r hsilent => by
    have hr := h.2 r
    rwa [reservation_silent hsilent] at hr
  have htaken : op.isRemote = true → m ≠ some .taken := by
    rintro hop rfl
    have hat : op.isRemote = false := h.1
    rw [hat] at hop
    cases hop
  cases op with
  | call method params =>
      refine hrpc (AppServer.transmits_call method params) (htaken rfl) ?_
        fun r => hanswer r rfl
      intro hm effect heffect hmem
      have hat : ∀ effect ∈ ownerEffects, requestEffect method ≠ some effect := by
        have := h.1
        rcases m with _ | stage
        · exact this
        · cases stage with
          | unseen => exact this
          | absent => exact this
          | taken => exact absurd rfl (htaken rfl)
          | reserved => exact absurd rfl hm
      exact hat effect heffect (Option.mem_toList.mp hmem)
  | close =>
      exact hrpc AppServer.transmits_close (htaken rfl) (fun _ _ _ => List.not_mem_nil)
        fun r => hanswer r rfl
  | _ => exact h

/-! ## §5. What a history says of the destination. -/

/-- A property of the operations that are no part of a request. -/
def atBase (P : Event Ans → Bool) : Event WireAns → Bool
  | ⟨.base op, r⟩ => P ⟨op, r⟩
  | ⟨.net _, _⟩ => false

/-- After `pre` the event `e` shows a run that has entered its action, and
has not reserved the destination, that something is there. -/
structure Finds (d : PyPath) (pre : List (Event WireAns)) (e : Event WireAns) : Prop where
  entered : pre.any (atBase entered) = true
  unreserved : pre.any (atBase (made d)) = false
  occupied : atBase (occupied d (!pre.any (atBase (looked d)))) e = true

/-- The stage in terms of the history. -/
structure StageOf (d : PyPath) (tr : List (Event WireAns)) (m : Option Stage) : Prop where
  none : m = none → tr.any (atBase CodexRemoteBridge.entered) = false
  absent : m = some .absent → tr.any (atBase (looked d)) = true
  reserved : m = some .reserved → tr.any (atBase (made d)) = true

section Histories

variable {d : PyPath}

/-- Entering the action is noticed. -/
theorem reservation_none {m : Option Stage} {e : Event Ans} (h : reservation d m e = none) :
    m = none ∧ entered e = false := by
  rcases m with _ | stage
  · by_cases hentered : entered e = true
    · simp [reservation, hentered] at h
    · exact ⟨rfl, by simpa using hentered⟩
  · revert h
    cases stage <;> simp only [reservation] <;> (repeat' split) <;> simp

theorem reservation_absent {m : Option Stage} {e : Event Ans}
    (h : reservation d m e = some .absent) : m = some .absent ∨ looked d e = true := by
  rcases m with _ | stage
  · revert h
    simp only [reservation]
    split <;> simp
  · cases stage with
    | absent => exact .inl rfl
    | unseen =>
        by_cases hlooked : looked d e = true
        · exact .inr hlooked
        · revert h
          simp only [reservation, hlooked]
          split <;> simp
    | taken => cases h
    | reserved => cases h

theorem reservation_reserved {m : Option Stage} {e : Event Ans}
    (h : reservation d m e = some .reserved) : m = some .reserved ∨ made d e = true := by
  rcases m with _ | stage
  · revert h
    simp only [reservation]
    split <;> simp
  · cases stage with
    | reserved => exact .inl rfl
    | absent =>
        by_cases hmade : made d e = true
        · exact .inr hmade
        · revert h
          simp only [reservation, hmade]
          split <;> simp
    | unseen =>
        revert h
        simp only [reservation]
        (repeat' split) <;> simp
    | taken => cases h

theorem stageOf_snoc {tr : List (Event WireAns)} {m : Option Stage} (h : StageOf d tr m)
    (e : Event WireAns) : StageOf d (tr ++ [e]) (onBase (reservation d) m e) := by
  have hany : ∀ P : Event Ans → Bool,
      (tr ++ [e]).any (atBase P) = (tr.any (atBase P) || atBase P e) := by simp
  obtain ⟨op | op, r⟩ := e
  · refine ⟨fun hm => ?_, fun hm => ?_, fun hm => ?_⟩
    · obtain ⟨hnone, hentered⟩ := reservation_none hm
      rw [hany, h.none hnone]
      exact hentered
    · rw [hany]
      rcases reservation_absent hm with habsent | hlooked
      · rw [h.absent habsent]
        rfl
      · rw [show atBase (looked d) ⟨.base op, r⟩ = true from hlooked, Bool.or_true]
    · rw [hany]
      rcases reservation_reserved hm with hreserved | hmade
      · rw [h.reserved hreserved]
        rfl
      · rw [show atBase (made d) ⟨.base op, r⟩ = true from hmade, Bool.or_true]
  · refine ⟨fun hm => ?_, fun hm => ?_, fun hm => ?_⟩
    · rw [hany, h.none hm]
      rfl
    · rw [hany, h.absent hm]
      rfl
    · rw [hany, h.reserved hm]
      rfl

theorem stageOf_foldl (tr : List (Event WireAns)) :
    StageOf d tr (tr.foldl (onBase (reservation d)) none) := by
  induction tr using List.reverseRecOn with
  | nil => refine ⟨?_, ?_, ?_⟩ <;> simp
  | append_singleton tr e ih =>
      rw [List.foldl_append]
      exact stageOf_snoc ih e

/-- What shows before `exists` is asked is more. -/
theorem occupied_unseen {unseen : Bool} {e : Event Ans} (h : occupied d unseen e = true) :
    occupied d true e = true := by
  cases unseen with
  | true => exact h
  | false =>
      revert h
      unfold occupied
      split <;> simp

/-- Where something is found, the run knows. -/
theorem Finds.taken {pre : List (Event WireAns)} {e : Event WireAns} (h : Finds d pre e) :
    onBase (reservation d) (pre.foldl (onBase (reservation d)) none) e = some .taken := by
  have hstage : StageOf d pre (pre.foldl (onBase (reservation d)) none) := stageOf_foldl pre
  generalize pre.foldl (onBase (reservation d)) none = m at hstage
  obtain ⟨op | op, r⟩ := e
  · have hoccupied : CodexRemoteBridge.occupied d (!pre.any (atBase (looked d))) ⟨op, r⟩
        = true := h.occupied
    show reservation d m ⟨op, r⟩ = some .taken
    rcases m with _ | stage
    · have hentered := h.entered
      rw [hstage.none rfl] at hentered
      cases hentered
    · cases stage with
      | unseen => simp [reservation, occupied_unseen hoccupied]
      | absent =>
          rw [hstage.absent rfl] at hoccupied
          simp only [Bool.not_true] at hoccupied
          simp [reservation, hoccupied]
      | taken => rfl
      | reserved =>
          have hmade := h.unreserved
          rw [hstage.reserved rfl] at hmade
          cases hmade
  · cases h.occupied

/-- A run that has found the destination taken knows it from then on. -/
theorem taken_foldl (tr : List (Event WireAns)) :
    tr.foldl (onBase (reservation d)) (some .taken) = some .taken := by
  induction tr with
  | nil => rfl
  | cons e tr ih =>
      have hstep : onBase (reservation d) (some .taken) e = some .taken := by
        obtain ⟨op | op, r⟩ := e <;> rfl
      rw [List.foldl_cons, hstep]
      exact ih

end Histories

/-- A Git command, or anything on the connection. -/
def WireOp.isRemote : WireOp → Bool
  | .base op => op.isRemote
  | .net _ => true

/-- A run that has found the destination taken leaves Git and the server alone. -/
theorem ReserveWireAt.taken {op : WireOp} (h : ReserveWireAt (some .taken) op) :
    op.isRemote = false := by
  cases op with
  | base op => exact h
  | net op => exact h.elim

/-- Only a run that has reserved does what is the owner's. -/
theorem ReserveWireAt.reserved {m : Option Stage} {op : WireOp} {effect : Effect}
    (h : ReserveWireAt m op) (hop : op.effect = some effect) (heffect : effect ∈ ownerEffects) :
    m = some .reserved := by
  have hremote : op.isRemote = true := by
    cases op with
    | net op => rfl
    | base op =>
        have hbase : op.effect = some effect := hop
        cases op with
        | git cwd args => rfl
        | call method params => rfl
        | mkdir path =>
            cases hbase
            simp [ownerEffects] at heffect
        | enter requestId =>
            cases hbase
            simp [ownerEffects] at heffect
        | _ => cases hbase
  rcases m with _ | stage
  · cases op with
    | base op => exact absurd hop (h effect heffect)
    | net op => exact absurd hop (h effect heffect)
  · cases stage with
    | unseen =>
        cases op with
        | base op => exact absurd hop (h effect heffect)
        | net op => exact absurd hop (h effect heffect)
    | absent =>
        cases op with
        | base op => exact absurd hop (h effect heffect)
        | net op => exact absurd hop (h effect heffect)
    | taken =>
        rw [h.taken] at hremote
        cases hremote
    | reserved => rfl

/-! ## §6. Many runs over one destination. -/

section Yard

variable [Hashlib] [Endpoint]

/-- The run has got past `reserve`. -/
def Client.reserved (d : PyPath) (c : Client) : Bool := c.history.any (atBase (made d))

/-- The call creates a worktree at `d`. -/
def Client.Names (d : PyPath) (c : Client) : Prop :=
  ∃ a, c.tool = .createWorktreeThread a ∧ PyPath.ofString a.destination = d

/-- The bridges over one ledger file, and whether there is something at the
destination: a directory, a file or a link. -/
structure Yard where
  system : System
  present : Bool

omit [Hashlib] [Endpoint] in
/-- How the filesystem treats the destination `d`: `mkdir` makes it where
there is nothing, and nobody deletes it.  Whatever else a look is answered
is left open. -/
inductive Occupies (d : PyPath) (present : Bool) : (op : WireOp) → WireAns op → Bool → Prop
  | makes : present = false → Occupies d present (.base (.mkdir d)) (.ok ()) true
  | other {op : WireOp} (r : WireAns op) :
      atBase (made d) ⟨op, r⟩ = false → Occupies d present op r present

/-- A step of the bridges, or of somebody else who puts something at `d`. -/
inductive Yard.Step (d : PyPath) (Y : Yard) : Yard → Prop
  | call (bridge : Nat) (requestId : String) (tool : ToolCall) :
      Yard.Step d Y
        { Y with
          system :=
            { Y.system with
              clients := Y.system.clients ++ [Client.start bridge requestId tool] } }
  | act {i : Nat} {c : Client} {op : WireOp}
      {k : WireAns op → Prog WireOp WireAns (Except PyExc Dict × Dict)}
      {r : WireAns op} {store : Store} {locked : Nat → Bool} {present : Bool} :
      Y.system.clients[i]? = some c → c.stopped = false → c.rest = .op op k →
      Serves Y.system.store op r store → Locks c.bridge Y.system.locked op r locked →
      Occupies d Y.present op r present →
      Yard.Step d Y
        { system :=
            { store := store
              clients := Y.system.clients.set i
                { c with history := c.history ++ [⟨op, r⟩], rest := k r }
              locked := locked }
          present := present }
  | crash (bridge : Nat) :
      Yard.Step d Y
        { Y with
          system :=
            { Y.system with
              clients := Y.system.clients.map fun c =>
                if c.bridge = bridge then { c with stopped := true } else c
              locked := Function.update Y.system.locked bridge false } }
  | appear : Yard.Step d Y { Y with present := true }

/-- The states an execution from `Y₀` passes through. -/
inductive Yard.Reach (d : PyPath) (Y₀ : Yard) : Yard → Prop
  | init : Yard.Reach d Y₀ Y₀
  | step {Y Y' : Yard} : Yard.Reach d Y₀ Y → Y.Step d Y' → Yard.Reach d Y₀ Y'

/-- An existing ledger file, nothing running, and the destination as it may be. -/
def Yard.init (store : Store) (present : Bool) : Yard where
  system := System.init store
  present := present

variable {d : PyPath} {store : Store} {Y Y' : Yard}

/-- To the bridges it is an execution like any other. -/
theorem Yard.Reach.system {S₀ : System} {present : Bool}
    (h : Yard.Reach d ⟨S₀, present⟩ Y) : System.Reach S₀ Y.system := by
  induction h with
  | init => exact .init
  | step _ hstep ih =>
      cases hstep with
      | call bridge requestId tool => exact ih.step (.call bridge requestId tool)
      | act hi hlive hrest hserve hlock _ => exact ih.step (.act hi hlive hrest hserve hlock)
      | crash bridge => exact ih.step (.crash bridge)
      | appear => exact ih

/-- **One step reserves at most once**, and only where there was nothing:
a run that is past `reserve` was so before, or it is the one that made the
directory. -/
theorem Yard.Step.reserved (h : Y.Step d Y') {i : Nat} {c' : Client}
    (hc' : Y'.system.clients[i]? = some c') (hr : c'.reserved d = true) :
    (∃ c, Y.system.clients[i]? = some c ∧ c.reserved d = true) ∨
    (Y.present = false ∧ Y'.present = true ∧
      ∀ (j : Nat) (cj : Client), j ≠ i → Y'.system.clients[j]? = some cj →
        Y.system.clients[j]? = some cj) := by
  cases h with
  | call bridge requestId tool =>
      have hget : (Y.system.clients ++ [Client.start bridge requestId tool])[i]? = some c' := hc'
      rw [List.getElem?_append] at hget
      split at hget
      · exact .inl ⟨c', hget, hr⟩
      · obtain rfl := List.mem_singleton.mp (List.mem_of_getElem? hget)
        cases hr
  | @act i₀ c op k r store locked present hi hlive hrest hserve hlock hocc =>
      have hget : (Y.system.clients.set i₀
          { c with history := c.history ++ [⟨op, r⟩], rest := k r })[i]? = some c' := hc'
      rw [List.getElem?_set] at hget
      split at hget
      · rename_i hij
        subst hij
        split at hget
        · obtain rfl := Option.some.inj hget
          have hsnoc : (c.reserved d || atBase (made d) ⟨op, r⟩) = true := by
            rw [← hr]
            simp [Client.reserved]
          cases hocc with
          | makes hnone =>
              refine .inr ⟨hnone, rfl, fun j cj hj hcj => ?_⟩
              have hother : (Y.system.clients.set i₀ _)[j]? = some cj := hcj
              rwa [List.getElem?_set_ne fun e => hj e.symm] at hother
          | other r hother =>
              rw [hother, Bool.or_false] at hsnoc
              exact .inl ⟨c, hi, hsnoc⟩
        · cases hget
      · exact .inl ⟨c', hget, hr⟩
  | crash bridge =>
      have hget : (Y.system.clients.map fun c =>
          if c.bridge = bridge then { c with stopped := true } else c)[i]? = some c' := hc'
      rw [List.getElem?_map] at hget
      obtain ⟨c, hc, rfl⟩ := Option.map_eq_some_iff.mp hget
      refine .inl ⟨c, hc, ?_⟩
      revert hr
      split <;> exact id
  | appear => exact .inl ⟨c', hc', hr⟩

/-- Nobody deletes the destination. -/
theorem Yard.Step.present (h : Y.Step d Y') (hp : Y.present = true) : Y'.present = true := by
  cases h with
  | call bridge requestId tool => exact hp
  | act _ _ _ _ _ hocc =>
      cases hocc with
      | makes hnone => rfl
      | other r _ => exact hp
  | crash bridge => exact hp
  | appear => rfl

/-- The invariant: at most one run is past `reserve`, and then the
destination is there. -/
structure Exclusive (d : PyPath) (Y : Yard) : Prop where
  one : ∀ (i j : Nat) (ci cj : Client), Y.system.clients[i]? = some ci →
    Y.system.clients[j]? = some cj → ci.reserved d = true → cj.reserved d = true → i = j
  there : ∀ c ∈ Y.system.clients, c.reserved d = true → Y.present = true

namespace Exclusive

omit [Hashlib] [Endpoint] in
theorem init (store : Store) (present : Bool) : Exclusive d (Yard.init store present) where
  one := by simp [Yard.init, System.init]
  there := by simp [Yard.init, System.init]

theorem step (h : Exclusive d Y) (hstep : Y.Step d Y') : Exclusive d Y' where
  one := by
    intro i j ci cj hi hj hri hrj
    rcases hstep.reserved hi hri with ⟨bi, hbi, hbri⟩ | ⟨hnone, -, hothers⟩
    · rcases hstep.reserved hj hrj with ⟨bj, hbj, hbrj⟩ | ⟨hnone, -, -⟩
      · exact h.one i j bi bj hbi hbj hbri hbrj
      · rw [h.there bi (List.mem_of_getElem? hbi) hbri] at hnone
        cases hnone
    · by_cases hij : j = i
      · exact hij.symm
      · have hold := hothers j cj hij hj
        rw [h.there cj (List.mem_of_getElem? hold) hrj] at hnone
        cases hnone
  there := by
    intro c hc hr
    obtain ⟨i, hi⟩ := List.mem_iff_getElem?.mp hc
    rcases hstep.reserved hi hr with ⟨b, hb, hbr⟩ | ⟨-, hpresent, -⟩
    · exact hstep.present (h.there b (List.mem_of_getElem? hb) hbr)
    · exact hpresent

theorem of_reach {present : Bool} (h : Yard.Reach d (Yard.init store present) Y) :
    Exclusive d Y := by
  induction h with
  | init => exact Exclusive.init store present
  | step _ hstep ih => exact ih.step hstep

end Exclusive

/-- Once something is at the destination, nobody reserves it any more. -/
theorem Yard.Reach.reserved_before (h : Yard.Reach d Y Y') (hp : Y.present = true) {i : Nat}
    {c' : Client} (hc' : Y'.system.clients[i]? = some c') (hr : c'.reserved d = true) :
    ∃ c, Y.system.clients[i]? = some c ∧ c.reserved d = true := by
  have hpresent : ∀ {Y'}, Yard.Reach d Y Y' → Y'.present = true := by
    intro Y' h
    induction h with
    | init => exact hp
    | step _ hstep ih => exact hstep.present ih
  induction h generalizing c' with
  | init => exact ⟨c', hc', hr⟩
  | step hreach hstep ih =>
      rcases hstep.reserved hc' hr with ⟨b, hb, hbr⟩ | ⟨hnone, -, -⟩
      · exact ih hb hbr
      · rw [hpresent hreach] at hnone
        cases hnone

/-- Only a run that is past `reserve` begins what is the owner's. -/
theorem Client.reserved_of_begun {c : Client} (hc : c.Names d)
    (hrun : Run (c.tool.wire c.requestId) c.history c.rest) {effect : Effect}
    (heffect : effect ∈ ownerEffects) (hbegun : effect ∈ c.begun) : c.reserved d = true := by
  obtain ⟨a, ha, rfl⟩ := hc
  rw [ha] at hrun
  rcases List.mem_append.mp hbegun with hlabel | hhead
  · obtain ⟨e, he, hlabel⟩ := List.mem_filterMap.mp hlabel
    obtain ⟨pre, post, hsplit⟩ := List.append_of_mem he
    have hat := wp_run_mem (a.reserves c.requestId) hrun hsplit
    have hmade := (stageOf_foldl pre).reserved (hat.reserved hlabel heffect)
    rw [Client.reserved, hsplit, List.any_append, hmade]
    rfl
  · cases hop : c.rest.head? with
    | none => simp [hop] at hhead
    | some op =>
        have hlabel : op.effect = some effect := by simpa [hop] using hhead
        have hat := wp_run_head (a.reserves c.requestId) hrun hop
        exact (stageOf_foldl c.history).reserved (hat.reserved hlabel heffect)

/-- A run that has found the destination taken issues nothing more. -/
theorem Client.stops {c : Client} (hc : c.Names d)
    (hrun : Run (c.tool.wire c.requestId) c.history c.rest) {pre post : List (Event WireAns)}
    {e : Event WireAns} (hsplit : c.history = pre ++ e :: post) (hfinds : Finds d pre e) :
    (∀ e' ∈ post, e'.1.isRemote = false) ∧
      ∀ op, c.rest.head? = some op → op.isRemote = false := by
  obtain ⟨a, ha, rfl⟩ := hc
  rw [ha] at hrun
  have hstage : ∀ tr, (pre ++ e :: tr).foldl
      (onBase (reservation (PyPath.ofString a.destination))) none = some .taken := by
    intro tr
    rw [List.foldl_append, List.foldl_cons, hfinds.taken]
    exact taken_foldl tr
  refine ⟨fun e' he' => ?_, fun op hop => ?_⟩
  · obtain ⟨mid, rest, rfl⟩ := List.append_of_mem he'
    have hmid : c.history = (pre ++ e :: mid) ++ e' :: rest := by simp [hsplit]
    have hat := wp_run_mem (a.reserves c.requestId) hrun hmid
    rw [hstage mid] at hat
    exact hat.taken
  · have hat := wp_run_head (a.reserves c.requestId) hrun hop
    rw [hsplit, hstage post] at hat
    exact hat.taken

/-- **Destination exclusivity.**  In every state of every execution over a
destination `d`, whatever was there at first and whoever else puts something
there: at most one run has got past `reserve`; of the runs that create a
worktree at `d`, only that one begins a Git command that writes there or a
`thread/start`; one that finds `d` taken issues no Git command and nothing
on the connection any more; and once something is at `d`, no further run
gets past `reserve`. -/
theorem Yard.destination_exclusive {present : Bool}
    (h : Yard.Reach d (Yard.init store present) Y) :
    (∀ (i j : Nat) (ci cj : Client), Y.system.clients[i]? = some ci →
      Y.system.clients[j]? = some cj → ci.reserved d = true → cj.reserved d = true → i = j) ∧
    (∀ c ∈ Y.system.clients, c.Names d → ∀ effect ∈ ownerEffects, effect ∈ c.begun →
      c.reserved d = true) ∧
    (∀ c ∈ Y.system.clients, c.Names d → ∀ (pre post : List (Event WireAns))
      (e : Event WireAns), c.history = pre ++ e :: post → Finds d pre e →
      (∀ e' ∈ post, e'.1.isRemote = false) ∧
        ∀ op, c.rest.head? = some op → op.isRemote = false) ∧
    (Y.present = true → ∀ Y', Yard.Reach d Y Y' → ∀ (i : Nat) (c' : Client),
      Y'.system.clients[i]? = some c' → c'.reserved d = true →
      ∃ c, Y.system.clients[i]? = some c ∧ c.reserved d = true) := by
  have hruns := (Owned.of_reach h.system).runs
  refine ⟨(Exclusive.of_reach h).one, ?_, ?_, ?_⟩
  · intro c hc hnames effect heffect hbegun
    exact Client.reserved_of_begun hnames (hruns c hc) heffect hbegun
  · intro c hc hnames pre post e hsplit hfinds
    exact Client.stops hnames (hruns c hc) hsplit hfinds
  · intro hp Y' hreach i c' hc' hr
    exact hreach.reserved_before hp hc' hr

/-- Answering the operation a run stands at, where it makes no `d`. -/
theorem Yard.Reach.answer {Y₀ : Yard} (h : Yard.Reach d Y₀ Y) (i : Nat) (op : WireOp)
    (r : WireAns op) {c : Client}
    {k : WireAns op → Prog WireOp WireAns (Except PyExc Dict × Dict)}
    {store : Store} {locked : Nat → Bool} (hc : Y.system.clients[i]? = some c)
    (hlive : c.stopped = false) (hrest : c.rest = .op op k)
    (hserve : Serves Y.system.store op r store) (hlock : Locks c.bridge Y.system.locked op r locked)
    (hmade : atBase (made d) ⟨op, r⟩ = false) :
    Yard.Reach d Y₀
      { system :=
          { store := store
            clients := Y.system.clients.set i
              { c with history := c.history ++ [⟨op, r⟩], rest := k r }
            locked := locked }
        present := Y.present } :=
  h.step (.act hc hlive hrest hserve hlock (.other r hmade))

end Yard

set_option maxRecDepth 20000 in
/-- A run that finds a link at its destination. -/
theorem Yard.destination_exclusive_link :
    let _ := Hashlib.verbatim
    let _ := Endpoint.sample
    ∃ (Y : Yard) (c : Client) (pre : List (Event WireAns)) (e : Event WireAns),
      Yard.Reach (PyPath.ofString "/d") (Yard.init Store.empty true) Y ∧
      c ∈ Y.system.clients ∧ c.Names (PyPath.ofString "/d") ∧ c.history = pre ++ [e] ∧
      Finds (PyPath.ofString "/d") pre e ∧
      ∀ op, c.rest.head? = some op → op.isRemote = false := by
  intro _ _
  have h := (Yard.Reach.init :
      Yard.Reach (PyPath.ofString "/d") (Yard.init Store.empty true) _)
    |>.step (.call 0 "r" (.createWorktreeThread sampleLaunch))
    |>.answer 0 (.base .acquire) (.ok ()) rfl rfl rfl (.other _ (by simp) (by simp) (by simp))
        (.acquire rfl) rfl
    |>.answer 0 (.base (.select "r")) (.ok none) rfl rfl rfl (.select "r")
        (.other _ (by simp) (by simp)) rfl
    |>.answer 0 (.base .now) "0.0" rfl rfl rfl (.other _ (by simp) (by simp) (by simp))
        (.other _ (by simp) (by simp)) rfl
    |>.answer 0 (.base (.beginRow "r" _ _)) (.ok none) rfl rfl rfl (.insert rfl)
        (.other _ (by simp) (by simp)) rfl
    |>.answer 0 (.base (.enter "r")) () rfl rfl rfl (.other _ (by simp) (by simp) (by simp))
        (.other _ (by simp) (by simp)) rfl
    |>.answer 0 (.base .now) "0.0" rfl rfl rfl (.other _ (by simp) (by simp) (by simp))
        (.other _ (by simp) (by simp)) rfl
    |>.answer 0 (.base (.update (.str "r") _)) (.ok ()) rfl rfl rfl (.update "r" _)
        (.other _ (by simp) (by simp)) rfl
    |>.answer 0 (.base (.resolve _)) (.ok ⟨"/", ["s"]⟩) rfl rfl rfl
        (.other _ (by simp) (by simp) (by simp)) (.other _ (by simp) (by simp)) rfl
    |>.answer 0 (.base (.resolve _)) (.ok ⟨"/", ["s"]⟩) rfl rfl rfl
        (.other _ (by simp) (by simp) (by simp)) (.other _ (by simp) (by simp)) rfl
  have hlink : ∃ (Y : Yard) (c : Client) (pre : List (Event WireAns)) (e : Event WireAns),
      Yard.Reach (PyPath.ofString "/d") (Yard.init Store.empty true) Y ∧
      c ∈ Y.system.clients ∧ c.Names (PyPath.ofString "/d") ∧ c.history = pre ++ [e] ∧
      Finds (PyPath.ofString "/d") pre e := by
    refine ⟨_, _, _, _, h, List.mem_cons_self, ⟨sampleLaunch, rfl, rfl⟩, rfl, ⟨?_, ?_, ?_⟩⟩
    · decide +kernel
    · decide +kernel
    · decide +kernel
  obtain ⟨Y, c, pre, e, hreach, hc, hnames, hhistory, hfinds⟩ := hlink
  exact ⟨Y, c, pre, e, hreach, hc, hnames, hhistory, hfinds,
    ((Yard.destination_exclusive hreach).2.2.1 c hc hnames pre [] e hhistory hfinds).2⟩

end CodexRemoteBridge

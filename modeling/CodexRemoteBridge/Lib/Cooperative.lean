/-
  CodexRemoteBridge.Lib.Cooperative — tasks of one event loop over a state
  they share.

  A task runs until it awaits; only then may another one go on, or the
  surroundings act.  A *script* follows each task by notes on its own
  history; an *outline* says what holds of the state, and of the state and
  the notes of one task.  `Outline.Sound.holds` is the rule: an outline
  that every kind of step keeps holds of every reachable loop.
-/
import CodexRemoteBridge.Lib.Interaction
import Mathlib.Algebra.BigOperators.Group.Finset.Basic

namespace Interaction

/-! ## §1. The event loop. -/

variable {σ τ ι β α J : Type} {ρ : ι → Type}

/-- What operations do to the state.  An operation either acts at once, or
is awaited: it begins, may stir while its task waits, and its answer
resumes the task. -/
structure Machine (σ : Type) {ι : Type} (ρ : ι → Type) (β : Type) where
  acts : Nat → σ → Event ρ → σ → Prop
  begins : Nat → σ → ι → σ → Prop
  stirs : Nat → σ → ι → σ → Prop
  resumes : Nat → σ → Event ρ → σ → Prop
  /-- What happens by itself. -/
  ambient : σ → β → σ → Prop

/-- A task: what it was called with, what it has done, and what is left. -/
structure Fiber (τ : Type) {ι : Type} (ρ : ι → Type) (α : Type) where
  origin : τ
  history : List (Event ρ)
  rest : Prog ι ρ α

/-- The task goes on with an answer. -/
def Fiber.answer (t : Fiber τ ρ α) (i : ι) (r : ρ i) (rest : Prog ι ρ α) : Fiber τ ρ α where
  origin := t.origin
  history := t.history ++ [⟨i, r⟩]
  rest := rest

/-- The state, the task that runs, and all tasks there have been. -/
structure Loop (σ τ : Type) {ι : Type} (ρ : ι → Type) (α : Type) where
  state : σ
  running : Option Nat
  tasks : List (Fiber τ ρ α)

def Loop.init (s : σ) : Loop σ τ ρ α := ⟨s, none, []⟩

/-- What a step is. -/
inductive Label (τ : Type) {ι : Type} (ρ : ι → Type) (β : Type) where
  | invoke (o : τ)
  | act (i : Nat) (e : Event ρ)
  | await (i : Nat) (op : ι)
  | stir (i : Nat) (op : ι)
  | resume (i : Nat) (e : Event ρ)
  | finish (i : Nat)
  | ambient (b : β)

variable (M : Machine σ ρ β) (code : τ → Prog ι ρ α)

/-- One step of the loop.  Where nobody runs, anybody may. -/
inductive Loop.Step : Loop σ τ ρ α → Label τ ρ β → Loop σ τ ρ α → Prop
  | invoke {s : σ} {ts : List (Fiber τ ρ α)} (o : τ) :
      Loop.Step ⟨s, none, ts⟩ (.invoke o) ⟨s, some ts.length, ts ++ [⟨o, [], code o⟩]⟩
  | act {s s' : σ} {ts : List (Fiber τ ρ α)} {i : Nat} {t : Fiber τ ρ α} {op : ι}
      {k : ρ op → Prog ι ρ α} {r : ρ op} :
      ts[i]? = some t → t.rest = .op op k → M.acts i s ⟨op, r⟩ s' →
      Loop.Step ⟨s, some i, ts⟩ (.act i ⟨op, r⟩) ⟨s', some i, ts.set i (t.answer op r (k r))⟩
  | await {s s' : σ} {ts : List (Fiber τ ρ α)} {i : Nat} {t : Fiber τ ρ α} {op : ι}
      {k : ρ op → Prog ι ρ α} :
      ts[i]? = some t → t.rest = .op op k → M.begins i s op s' →
      Loop.Step ⟨s, some i, ts⟩ (.await i op) ⟨s', none, ts⟩
  | stir {s s' : σ} {ts : List (Fiber τ ρ α)} {i : Nat} {t : Fiber τ ρ α} {op : ι}
      {k : ρ op → Prog ι ρ α} :
      ts[i]? = some t → t.rest = .op op k → M.stirs i s op s' →
      Loop.Step ⟨s, none, ts⟩ (.stir i op) ⟨s', none, ts⟩
  | resume {s s' : σ} {ts : List (Fiber τ ρ α)} {i : Nat} {t : Fiber τ ρ α} {op : ι}
      {k : ρ op → Prog ι ρ α} {r : ρ op} :
      ts[i]? = some t → t.rest = .op op k → M.resumes i s ⟨op, r⟩ s' →
      Loop.Step ⟨s, none, ts⟩ (.resume i ⟨op, r⟩) ⟨s', some i, ts.set i (t.answer op r (k r))⟩
  | finish {s : σ} {ts : List (Fiber τ ρ α)} {i : Nat} {t : Fiber τ ρ α} {a : α} :
      ts[i]? = some t → t.rest = .ret a → Loop.Step ⟨s, some i, ts⟩ (.finish i) ⟨s, none, ts⟩
  | ambient {s s' : σ} {ts : List (Fiber τ ρ α)} {b : β} :
      M.ambient s b s' → Loop.Step ⟨s, none, ts⟩ (.ambient b) ⟨s', none, ts⟩

/-- What an execution from `s₀` reaches when all its steps are of a kind
that `P` allows where they are taken. -/
inductive Loop.Reach (P : Loop σ τ ρ α → Label τ ρ β → Prop) (s₀ : σ) : Loop σ τ ρ α → Prop
  | init : Loop.Reach P s₀ (Loop.init s₀)
  | step {L L' : Loop σ τ ρ α} {l : Label τ ρ β} :
      Loop.Reach P s₀ L → P L l → L.Step M code l L' → Loop.Reach P s₀ L'

variable {M code}

/-- A stricter condition reaches less. -/
theorem Loop.Reach.mono {P P' : Loop σ τ ρ α → Label τ ρ β → Prop} {s₀ : σ}
    {L : Loop σ τ ρ α} (h : L.Reach M code P s₀) (hP : ∀ L l, P L l → P' L l) :
    L.Reach M code P' s₀ := by
  induction h with
  | init => exact .init
  | step _ hl hstep ih => exact .step ih (hP _ _ hl) hstep

/-- After a task has gone on: it is the one that has, or it is as it was. -/
theorem get?_set_cases {ts : List (Fiber τ ρ α)} {i i' : Nat} {t t' : Fiber τ ρ α}
    (h : (ts.set i t)[i']? = some t') :
    i' = i ∧ t' = t ∧ i < ts.length ∨ i' ≠ i ∧ ts[i']? = some t' := by
  rw [List.getElem?_set] at h
  by_cases hi : i = i'
  · subst hi
    rw [if_pos rfl] at h
    by_cases hlt : i < ts.length
    · rw [if_pos hlt] at h
      exact .inl ⟨rfl, (Option.some.inj h).symm, hlt⟩
    · rw [if_neg hlt] at h
      cases h
  · rw [if_neg hi] at h
    exact .inr ⟨Ne.symm hi, h⟩

/-- **Every task runs its code.** -/
theorem Loop.Reach.run {P : Loop σ τ ρ α → Label τ ρ β → Prop} {s₀ : σ} {L : Loop σ τ ρ α}
    (h : L.Reach M code P s₀) {i : Nat} {t : Fiber τ ρ α} (ht : L.tasks[i]? = some t) :
    Run (code t.origin) t.history t.rest := by
  induction h generalizing i t with
  | init => simp [Loop.init] at ht
  | step _ _ hstep ih =>
      cases hstep with
      | invoke o =>
          rcases List.mem_append.mp (List.mem_of_getElem? ht) with hold | hnew
          · obtain ⟨i', hi'⟩ := List.getElem?_of_mem hold
            exact ih hi'
          · obtain rfl := List.mem_singleton.mp hnew
            exact .start
      | act hi hrest _ =>
          rcases get?_set_cases ht with ⟨-, rfl, -⟩ | ⟨-, hold⟩
          · have hrun := ih hi
            rw [hrest] at hrun
            exact hrun.step _
          · exact ih hold
      | await _ _ _ => exact ih ht
      | stir _ _ _ => exact ih ht
      | resume hi hrest _ =>
          rcases get?_set_cases ht with ⟨-, rfl, -⟩ | ⟨-, hold⟩
          · have hrun := ih hi
            rw [hrest] at hrun
            exact hrun.step _
          · exact ih hold
      | finish _ _ => exact ih ht
      | ambient _ => exact ih ht

/-- The task that runs is there. -/
theorem Loop.Reach.runner {P : Loop σ τ ρ α → Label τ ρ β → Prop} {s₀ : σ} {L : Loop σ τ ρ α}
    (h : L.Reach M code P s₀) {i : Nat} (hrun : L.running = some i) :
    ∃ t, L.tasks[i]? = some t := by
  cases h with
  | init => cases hrun
  | step _ _ hstep =>
      cases hstep with
      | @invoke s ts o =>
          obtain rfl : ts.length = i := Option.some.inj hrun
          exact ⟨⟨o, [], code o⟩, by simp⟩
      | act ht _ _ =>
          obtain rfl := Option.some.inj hrun
          exact ⟨_, List.getElem?_set_self (List.getElem?_eq_some_iff.mp ht).1⟩
      | resume ht _ _ =>
          obtain rfl := Option.some.inj hrun
          exact ⟨_, List.getElem?_set_self (List.getElem?_eq_some_iff.mp ht).1⟩
      | await _ _ _ => cases hrun
      | stir _ _ _ => cases hrun
      | finish _ _ => cases hrun
      | ambient _ => cases hrun

/-- A task stays in its place, and where it has ended, it stays as it is. -/
theorem Loop.Step.task {L L' : Loop σ τ ρ α} {l : Label τ ρ β} (h : L.Step M code l L') {i : Nat}
    {t : Fiber τ ρ α} (ht : L.tasks[i]? = some t) :
    ∃ t', L'.tasks[i]? = some t' ∧ t'.origin = t.origin ∧ ∀ a, t.rest = .ret a → t' = t := by
  have hgoes : ∀ {k : Nat} {u : Fiber τ ρ α} {op : ι} {f : ρ op → Prog ι ρ α} {r : ρ op},
      L.tasks[k]? = some u → u.rest = .op op f →
      ∃ t', (L.tasks.set k (u.answer op r (f r)))[i]? = some t' ∧ t'.origin = t.origin ∧
        ∀ a, t.rest = .ret a → t' = t := by
    intro k u op f r hu hrest
    by_cases hk : k = i
    · subst hk
      obtain rfl := Option.some.inj (ht.symm.trans hu)
      refine ⟨_, List.getElem?_set_self (List.getElem?_eq_some_iff.mp ht).1, rfl, fun a ha => ?_⟩
      rw [hrest] at ha
      cases ha
    · exact ⟨t, (List.getElem?_set_ne hk).trans ht, rfl, fun _ _ => rfl⟩
  cases h with
  | invoke o =>
      exact ⟨t, (List.getElem?_append_left (List.getElem?_eq_some_iff.mp ht).1).trans ht, rfl,
        fun _ _ => rfl⟩
  | act hu hrest _ => exact hgoes hu hrest
  | resume hu hrest _ => exact hgoes hu hrest
  | await _ _ _ => exact ⟨t, ht, rfl, fun _ _ => rfl⟩
  | stir _ _ _ => exact ⟨t, ht, rfl, fun _ _ => rfl⟩
  | finish _ _ => exact ⟨t, ht, rfl, fun _ _ => rfl⟩
  | ambient _ => exact ⟨t, ht, rfl, fun _ _ => rfl⟩

/-! ## §2. Scripts. -/

/-- Notes that follow a task: which operation comes next where, and how it
may end. -/
structure Script (code : τ → Prog ι ρ α) (J : Type) where
  start : τ → J
  note : J → Event ρ → J
  May : J → ι → Prop
  Ends : J → α → Prop
  follows : ∀ o, wp (observe note May) (code o) (fun a j => Ends j a) (start o)

/-- The notes on a task so far. -/
def Fiber.journal (t : Fiber τ ρ α) (S : Script code J) : J :=
  t.history.foldl S.note (S.start t.origin)

@[simp] theorem Fiber.journal_answer (t : Fiber τ ρ α) (S : Script code J) (i : ι) (r : ρ i)
    (rest : Prog ι ρ α) : (t.answer i r rest).journal S = S.note (t.journal S) ⟨i, r⟩ := by
  simp [Fiber.journal, Fiber.answer]

/-- A task stands where its notes say. -/
theorem Script.may {S : Script code J} {t : Fiber τ ρ α} {i : ι} {k : ρ i → Prog ι ρ α}
    (hrun : Run (code t.origin) t.history t.rest) (hrest : t.rest = .op i k) :
    S.May (t.journal S) i :=
  wp_run_head (S.follows t.origin) hrun (by rw [hrest]; rfl)

/-- A task ends as its notes say. -/
theorem Script.ends {S : Script code J} {t : Fiber τ ρ α} {a : α}
    (hrun : Run (code t.origin) t.history t.rest) (hrest : t.rest = .ret a) :
    S.Ends (t.journal S) a := by
  rw [hrest] at hrun
  exact wp_run_ret (S.follows t.origin) hrun

/-! ## §3. Outlines. -/

/-- What holds of the state and the number of tasks, and of the state and
one task: whether it runs, which one it is, and the notes on it. -/
structure Outline (σ J : Type) where
  Inv : σ → Nat → Prop
  Agree : σ → Bool → Nat → J → Prop

namespace Outline

/-- The outline holds of a loop. -/
structure Holds (O : Outline σ J) (S : Script code J) (L : Loop σ τ ρ α) : Prop where
  inv : O.Inv L.state L.tasks.length
  agrees : ∀ i t, L.tasks[i]? = some t → O.Agree L.state (L.running = some i) i (t.journal S)

/-- Any task but `i` for which `R` holds is left in agreement; it does not
run. -/
def Spares (R : Nat → J → Prop) (O : Outline σ J) (s s' : σ) (i : Nat) (j : J) : Prop :=
  R i j → O.Agree s false i j → O.Agree s' false i j

/-- What a step of task `i` keeps. -/
structure Keeps (R : Nat → J → Prop) (O : Outline σ J) (s s' : σ) (n i : Nat) (runs : Bool)
    (j : J) : Prop where
  inv : O.Inv s' n
  own : O.Agree s' runs i j
  others : ∀ i' j', i' ≠ i → Spares R O s s' i' j'

end Outline

/-- The tasks of a loop, by their notes. -/
def Loop.Peers (L : Loop σ τ ρ α) (S : Script code J) (i : Nat) (j : J) : Prop :=
  ∃ t, L.tasks[i]? = some t ∧ t.journal S = j

namespace Outline

/-- Every kind of step keeps `O`, where `K` is known before it. -/
structure Sound (M : Machine σ ρ β) (S : Script code J)
    (P : Loop σ τ ρ α → Label τ ρ β → Prop) (s₀ : σ) (K : Loop σ τ ρ α → Prop)
    (O : Outline σ J) : Prop where
  init : O.Inv s₀ 0
  invoke : ∀ {L o}, K L → O.Holds S L → P L (.invoke o) → L.running = none →
    O.Inv L.state (L.tasks.length + 1) ∧ O.Agree L.state true L.tasks.length (S.start o)
  act : ∀ {L s' i t} {e : Event ρ}, K L → O.Holds S L → P L (.act i e) →
    L.running = some i → L.tasks[i]? = some t → S.May (t.journal S) e.1 →
    M.acts i L.state e s' →
    Keeps (L.Peers S) O L.state s' L.tasks.length i true (S.note (t.journal S) e)
  await : ∀ {L s' i t op}, K L → O.Holds S L → P L (.await i op) →
    L.running = some i → L.tasks[i]? = some t → S.May (t.journal S) op →
    M.begins i L.state op s' →
    Keeps (L.Peers S) O L.state s' L.tasks.length i false (t.journal S)
  stir : ∀ {L s' i t op}, K L → O.Holds S L → P L (.stir i op) →
    L.running = none → L.tasks[i]? = some t → S.May (t.journal S) op →
    M.stirs i L.state op s' →
    Keeps (L.Peers S) O L.state s' L.tasks.length i false (t.journal S)
  resume : ∀ {L s' i t} {e : Event ρ}, K L → O.Holds S L → P L (.resume i e) →
    L.running = none → L.tasks[i]? = some t → S.May (t.journal S) e.1 →
    M.resumes i L.state e s' →
    Keeps (L.Peers S) O L.state s' L.tasks.length i true (S.note (t.journal S) e)
  finish : ∀ {L i t a}, K L → O.Holds S L → L.running = some i → L.tasks[i]? = some t →
    S.Ends (t.journal S) a → O.Agree L.state false i (t.journal S)
  ambient : ∀ {L s' b}, K L → O.Holds S L → P L (.ambient b) → L.running = none →
    M.ambient L.state b s' →
    O.Inv s' L.tasks.length ∧ ∀ i j, Spares (L.Peers S) O L.state s' i j

variable {S : Script code J} {P : Loop σ τ ρ α → Label τ ρ β → Prop} {s₀ : σ}
  {K : Loop σ τ ρ α → Prop} {O : Outline σ J} {L : Loop σ τ ρ α}

/-- The task that runs. -/
theorem Holds.runner (h : O.Holds S L) {i : Nat} {t : Fiber τ ρ α} (hi : L.running = some i)
    (ht : L.tasks[i]? = some t) : O.Agree L.state true i (t.journal S) := by
  have hagrees := h.agrees i t ht
  rwa [decide_eq_true hi] at hagrees

/-- A task that does not run. -/
theorem Holds.waiter (h : O.Holds S L) {i : Nat} {t : Fiber τ ρ α} (hi : L.running ≠ some i)
    (ht : L.tasks[i]? = some t) : O.Agree L.state false i (t.journal S) := by
  have hagrees := h.agrees i t ht
  rwa [decide_eq_false hi] at hagrees

/-- Where nobody runs. -/
theorem Holds.idle (h : O.Holds S L) {i : Nat} {t : Fiber τ ρ α} (hi : L.running = none)
    (ht : L.tasks[i]? = some t) : O.Agree L.state false i (t.journal S) :=
  h.waiter (by rw [hi]; nofun) ht

/-- A task has gone on and runs; the others are spared. -/
theorem Holds.went {s s' : σ} {ts : List (Fiber τ ρ α)} {i : Nat} {t t' : Fiber τ ρ α}
    {running : Option Nat} (hO : O.Holds S ⟨s, running, ts⟩)
    (hrunning : ∀ i', i' ≠ i → running ≠ some i') (ht : ts[i]? = some t)
    (h : Keeps (Loop.Peers ⟨s, running, ts⟩ S) O s s' ts.length i true (t'.journal S)) :
    O.Holds S ⟨s', some i, ts.set i t'⟩ where
  inv := by
    show O.Inv s' (ts.set i t').length
    rw [List.length_set]
    exact h.inv
  agrees := by
    intro i' u hu
    rcases get?_set_cases hu with ⟨rfl, rfl, -⟩ | ⟨hne, hold⟩
    · have hself : decide (some i' = some i') = true := decide_eq_true rfl
      show O.Agree s' (decide (some i' = some i')) i' (u.journal S)
      rw [hself]
      exact h.own
    · have ho : O.Agree s false i' (u.journal S) := hO.waiter (hrunning i' hne) hold
      have hother : decide (some i = some i') = false :=
        decide_eq_false fun e => hne (Option.some.inj e).symm
      show O.Agree s' (decide (some i = some i')) i' (u.journal S)
      rw [hother]
      exact h.others i' _ hne ⟨u, hold, rfl⟩ ho

/-- Task `i` stands where it stood, and nobody runs. -/
theorem Holds.paused {s s' : σ} {ts : List (Fiber τ ρ α)} {i : Nat} {t : Fiber τ ρ α}
    {running : Option Nat} (hO : O.Holds S ⟨s, running, ts⟩)
    (hrunning : ∀ i', i' ≠ i → running ≠ some i') (ht : ts[i]? = some t)
    (h : Keeps (Loop.Peers ⟨s, running, ts⟩ S) O s s' ts.length i false (t.journal S)) :
    O.Holds S ⟨s', none, ts⟩ where
  inv := h.inv
  agrees := by
    intro i' u hu
    show O.Agree s' (decide (none = some i')) i' (u.journal S)
    rw [decide_eq_false (by simp)]
    by_cases hne : i' = i
    · subst hne
      obtain rfl := Option.some.inj (hu.symm.trans ht)
      exact h.own
    · have ho : O.Agree s false i' (u.journal S) := hO.waiter (hrunning i' hne) hu
      exact h.others i' _ hne ⟨u, hu, rfl⟩ ho

/-- The step lemma. -/
theorem Sound.step (hS : Sound M S P s₀ K O) {L' : Loop σ τ ρ α} {l : Label τ ρ β}
    (hruns : ∀ (i : Nat) (t : Fiber τ ρ α), L.tasks[i]? = some t →
      Run (code t.origin) t.history t.rest)
    (hK : K L) (hP : P L l) (hstep : L.Step M code l L') (hO : O.Holds S L) :
    O.Holds S L' := by
  have hself : ∀ {i i' : Nat}, i' ≠ i → some i ≠ some i' := fun hne e =>
    hne (Option.some.inj e).symm
  cases hstep with
  | @invoke s ts o =>
      obtain ⟨hinv, hagree⟩ := hS.invoke hK hO hP rfl
      refine ⟨?_, fun i t ht => ?_⟩
      · show O.Inv s (ts ++ [_]).length
        rw [List.length_append]
        exact hinv
      · rcases Nat.lt_or_ge i ts.length with hlt | hge
        · have hold : ts[i]? = some t := by rwa [List.getElem?_append_left hlt] at ht
          have ho : O.Agree s false i (t.journal S) := hO.idle rfl hold
          have hother : decide (some ts.length = some i) = false := by
            refine decide_eq_false fun e => ?_
            have heq := Option.some.inj e
            omega
          show O.Agree s (decide (some ts.length = some i)) i (t.journal S)
          rw [hother]
          exact ho
        · rw [List.getElem?_append_right hge] at ht
          obtain ⟨hi, rfl⟩ : i - ts.length = 0 ∧ (⟨o, [], code o⟩ : Fiber τ ρ α) = t := by
            rcases Nat.eq_zero_or_pos (i - ts.length) with h0 | hpos
            · rw [h0] at ht
              exact ⟨h0, Option.some.inj ht⟩
            · rw [List.getElem?_eq_none (by simp only [List.length_singleton]; omega)] at ht
              cases ht
          obtain rfl : i = ts.length := by omega
          show O.Agree s (decide (some ts.length = some ts.length)) ts.length _
          rw [decide_eq_true rfl]
          exact hagree
  | @act s s' ts i t op k r ht hrest hacts =>
      refine Holds.went hO (fun i' hne => hself hne) ht ?_
      rw [Fiber.journal_answer]
      exact hS.act hK hO hP rfl ht (Script.may (hruns i t ht) hrest) hacts
  | @await s s' ts i t op k ht hrest hbegins =>
      exact Holds.paused hO (fun i' hne => hself hne) ht
        (hS.await hK hO hP rfl ht (Script.may (hruns i t ht) hrest) hbegins)
  | @stir s s' ts i t op k ht hrest hstirs =>
      exact Holds.paused hO (fun _ _ => nofun) ht
        (hS.stir hK hO hP rfl ht (Script.may (hruns i t ht) hrest) hstirs)
  | @resume s s' ts i t op k r ht hrest hresumes =>
      refine Holds.went hO (fun _ _ => nofun) ht ?_
      rw [Fiber.journal_answer]
      exact hS.resume hK hO hP rfl ht (Script.may (hruns i t ht) hrest) hresumes
  | @finish s ts i t a ht hrest =>
      refine Holds.paused hO (fun i' hne => hself hne) ht ⟨hO.inv, ?_, fun _ _ _ _ h => h⟩
      exact hS.finish hK hO rfl ht (Script.ends (hruns i t ht) hrest)
  | @ambient s s' ts b hambient =>
      obtain ⟨hinv, hspares⟩ := hS.ambient hK hO hP rfl hambient
      exact ⟨hinv, fun i t ht => hspares i _ ⟨t, ht, rfl⟩ (hO.idle rfl ht)⟩

/-- **The rule**: an outline that every kind of step keeps holds of every
loop an execution reaches. -/
theorem Sound.holds (hS : Sound M S P s₀ K O) (hK : ∀ L : Loop σ τ ρ α, L.Reach M code P s₀ → K L)
    (h : L.Reach M code P s₀) : O.Holds S L := by
  induction h with
  | init => exact ⟨hS.init, by simp [Loop.init]⟩
  | step hprev hl hstep ih => exact hS.step (fun i t ht => hprev.run ht) (hK _ hprev) hl hstep ih

/-- The rule with an invariant `K` of the whole loop beside the outline. -/
theorem Sound.holds_with (hS : Sound M S P s₀ K O) (hinit : K (Loop.init s₀))
    (hK : ∀ {L L' : Loop σ τ ρ α} {l : Label τ ρ β}, L.Reach M code P s₀ → K L → O.Holds S L →
      P L l → L.Step M code l L' → O.Holds S L' → K L')
    (h : L.Reach M code P s₀) : K L ∧ O.Holds S L := by
  induction h with
  | init => exact ⟨hinit, hS.init, by simp [Loop.init]⟩
  | step hprev hl hstep ih =>
      obtain ⟨hknown, hO⟩ := ih
      have hO' := hS.step (fun i t ht => hprev.run ht) hknown hl hstep hO
      exact ⟨hK hprev hknown hO hl hstep hO', hO'⟩

end Outline

/-! ## §4. Steps by the notes. -/

/-- After task `i` has gone on, by the notes. -/
def Loop.Went (S : Script code J) (L L' : Loop σ τ ρ α) (i : Nat) (j : J) : Prop :=
  L'.running = some i ∧
    ∀ i' j', L'.Peers S i' j' ↔ i' = i ∧ j' = j ∨ i' ≠ i ∧ L.Peers S i' j'

/-- After a task has come to wait, or waits on. -/
def Loop.Paused (S : Script code J) (L L' : Loop σ τ ρ α) : Prop :=
  L'.running = none ∧ ∀ i j, L'.Peers S i j ↔ L.Peers S i j

/-- What a step does, by the notes. -/
inductive Loop.Noted (M : Machine σ ρ β) (S : Script code J) (L L' : Loop σ τ ρ α) :
    Label τ ρ β → Prop
  | invoke {o : τ} : L.running = none → L'.state = L.state →
      L'.tasks.length = L.tasks.length + 1 → L.Went S L' L.tasks.length (S.start o) →
      Loop.Noted M S L L' (.invoke o)
  | act {i : Nat} {e : Event ρ} {j : J} : L.running = some i → L.Peers S i j → S.May j e.1 →
      M.acts i L.state e L'.state → L'.tasks.length = L.tasks.length →
      L.Went S L' i (S.note j e) → Loop.Noted M S L L' (.act i e)
  | await {i : Nat} {op : ι} {j : J} : L.running = some i → L.Peers S i j → S.May j op →
      M.begins i L.state op L'.state → L'.tasks.length = L.tasks.length → L.Paused S L' →
      Loop.Noted M S L L' (.await i op)
  | stir {i : Nat} {op : ι} {j : J} : L.running = none → L.Peers S i j → S.May j op →
      M.stirs i L.state op L'.state → L'.tasks.length = L.tasks.length → L.Paused S L' →
      Loop.Noted M S L L' (.stir i op)
  | resume {i : Nat} {e : Event ρ} {j : J} : L.running = none → L.Peers S i j → S.May j e.1 →
      M.resumes i L.state e L'.state → L'.tasks.length = L.tasks.length →
      L.Went S L' i (S.note j e) → Loop.Noted M S L L' (.resume i e)
  | finish {i : Nat} {j : J} {a : α} : L.running = some i → L.Peers S i j → S.Ends j a →
      L'.state = L.state → L'.tasks.length = L.tasks.length → L.Paused S L' →
      Loop.Noted M S L L' (.finish i)
  | ambient {b : β} : L.running = none → M.ambient L.state b L'.state →
      L'.tasks.length = L.tasks.length → L.Paused S L' → Loop.Noted M S L L' (.ambient b)

/-- A task has its place. -/
theorem Loop.Peers.lt {S : Script code J} {L : Loop σ τ ρ α} {i : Nat} {j : J}
    (h : L.Peers S i j) : i < L.tasks.length := by
  obtain ⟨t, ht, -⟩ := h
  exact (List.getElem?_eq_some_iff.mp ht).1

/-- The notes on a task are its own. -/
theorem Loop.Peers.unique {S : Script code J} {L : Loop σ τ ρ α} {i : Nat} {j j' : J}
    (h : L.Peers S i j) (h' : L.Peers S i j') : j = j' := by
  obtain ⟨t, ht, rfl⟩ := h
  obtain ⟨t', ht', rfl⟩ := h'
  rw [Option.some.inj (ht.symm.trans ht')]

/-- Task `i` has an answer. -/
theorem went_of_set {S : Script code J} {s s' : σ} {running : Option Nat}
    {ts : List (Fiber τ ρ α)} {i : Nat} {t t' : Fiber τ ρ α} (ht : ts[i]? = some t) :
    Loop.Went S ⟨s, running, ts⟩ ⟨s', some i, ts.set i t'⟩ i (t'.journal S) := by
  refine ⟨rfl, fun i' j' => ⟨?_, ?_⟩⟩
  · rintro ⟨u, hu, rfl⟩
    rcases get?_set_cases hu with ⟨rfl, rfl, -⟩ | ⟨hne, hold⟩
    · exact .inl ⟨rfl, rfl⟩
    · exact .inr ⟨hne, u, hold, rfl⟩
  · rintro (⟨rfl, rfl⟩ | ⟨hne, u, hu, rfl⟩)
    · exact ⟨t', List.getElem?_set_self (List.getElem?_eq_some_iff.mp ht).1, rfl⟩
    · exact ⟨u, (List.getElem?_set_ne (Ne.symm hne)).trans hu, rfl⟩

/-- Another task is there. -/
theorem went_of_snoc {S : Script code J} {s s' : σ} {running : Option Nat}
    {ts : List (Fiber τ ρ α)} {t : Fiber τ ρ α} :
    Loop.Went S ⟨s, running, ts⟩ ⟨s', some ts.length, ts ++ [t]⟩ ts.length (t.journal S) := by
  have hlast : (ts ++ [t])[ts.length]? = some t := by simp
  refine ⟨rfl, fun i' j' => ⟨?_, ?_⟩⟩
  · rintro ⟨u, hu, rfl⟩
    have hu : (ts ++ [t])[i']? = some u := hu
    by_cases heq : i' = ts.length
    · subst heq
      obtain rfl := Option.some.inj (hlast.symm.trans hu)
      exact .inl ⟨rfl, rfl⟩
    · have hlt := (List.getElem?_eq_some_iff.mp hu).1
      rw [List.length_append, List.length_singleton] at hlt
      rw [List.getElem?_append_left (by omega)] at hu
      exact .inr ⟨heq, u, hu, rfl⟩
  · rintro (⟨rfl, rfl⟩ | ⟨-, u, hu, rfl⟩)
    · exact ⟨t, hlast, rfl⟩
    · have hu : ts[i']? = some u := hu
      exact ⟨u, (List.getElem?_append_left (List.getElem?_eq_some_iff.mp hu).1).trans hu, rfl⟩

/-- **Steps by the notes.** -/
theorem Loop.Step.noted {S : Script code J} {P : Loop σ τ ρ α → Label τ ρ β → Prop} {s₀ : σ}
    {L L' : Loop σ τ ρ α} {l : Label τ ρ β} (hreach : L.Reach M code P s₀)
    (h : L.Step M code l L') : L.Noted M S L' l := by
  have hmay : ∀ {i : Nat} {t : Fiber τ ρ α} {op : ι} {k : ρ op → Prog ι ρ α},
      L.tasks[i]? = some t → t.rest = .op op k → S.May (t.journal S) op :=
    fun ht hrest => Script.may (hreach.run ht) hrest
  cases h with
  | invoke o => exact .invoke rfl rfl List.length_append went_of_snoc
  | @act s s' ts i t op k r ht hrest hacts =>
      refine .act rfl ⟨t, ht, rfl⟩ (hmay ht hrest) hacts List.length_set ?_
      rw [← Fiber.journal_answer t S op r (k r)]
      exact went_of_set ht
  | await ht hrest hbegins =>
      exact .await rfl ⟨_, ht, rfl⟩ (hmay ht hrest) hbegins rfl ⟨rfl, fun _ _ => .rfl⟩
  | stir ht hrest hstirs =>
      exact .stir rfl ⟨_, ht, rfl⟩ (hmay ht hrest) hstirs rfl ⟨rfl, fun _ _ => .rfl⟩
  | @resume s s' ts i t op k r ht hrest hresumes =>
      refine .resume rfl ⟨t, ht, rfl⟩ (hmay ht hrest) hresumes List.length_set ?_
      rw [← Fiber.journal_answer t S op r (k r)]
      exact went_of_set ht
  | finish ht hrest =>
      exact .finish rfl ⟨_, ht, rfl⟩ (Script.ends (hreach.run ht) hrest) rfl rfl
        ⟨rfl, fun _ _ => .rfl⟩
  | ambient hambient => exact .ambient rfl hambient rfl ⟨rfl, fun _ _ => .rfl⟩

/-! ## §5. What steps use up. -/

/-- What all tasks still have before them, where `w` weighs the notes. -/
def Loop.weight (S : Script code J) (w : Nat → J → Nat) (L : Loop σ τ ρ α) : Nat :=
  ∑ i ∈ Finset.range L.tasks.length, (L.tasks[i]?).elim 0 fun t => w i (t.journal S)

/-- One task's share. -/
theorem Loop.Peers.share {S : Script code J} {L : Loop σ τ ρ α} {i : Nat} {j : J}
    (h : L.Peers S i j) (w : Nat → J → Nat) :
    ((L.tasks[i]?).elim 0 fun t => w i (t.journal S)) = w i j := by
  obtain ⟨t, ht, rfl⟩ := h
  rw [ht]
  rfl

/-- A task that stands where it stood has the same share. -/
theorem share_congr {S : Script code J} {L L' : Loop σ τ ρ α} {i : Nat} {w w' : Nat → J → Nat}
    (hlt : i < L.tasks.length) (hpeers : ∀ j, L.Peers S i j → L'.Peers S i j)
    (hw : ∀ j, w' i j = w i j) :
    ((L'.tasks[i]?).elim 0 fun t => w' i (t.journal S)) =
      (L.tasks[i]?).elim 0 fun t => w i (t.journal S) := by
  have hpeer : L.Peers S i (L.tasks[i].journal S) := ⟨_, List.getElem?_eq_getElem hlt, rfl⟩
  rw [(hpeers _ hpeer).share w', hpeer.share w, hw]

/-- Where one task's share changes, so does the weight. -/
theorem weight_change {S : Script code J} {L L' : Loop σ τ ρ α} {i : Nat} {j j' : J}
    {w w' : Nat → J → Nat} (hlength : L'.tasks.length = L.tasks.length) (hpeer : L.Peers S i j)
    (hpeer' : L'.Peers S i j') (hothers : ∀ i' k, i' ≠ i → L.Peers S i' k → L'.Peers S i' k)
    (hw : ∀ i' k, i' ≠ i → w' i' k = w i' k) :
    L'.weight S w' + w i j = L.weight S w + w' i j' := by
  have hmem : i ∈ Finset.range L.tasks.length := Finset.mem_range.mpr hpeer.lt
  have hrest : ∑ k ∈ (Finset.range L.tasks.length).erase i,
        ((L'.tasks[k]?).elim 0 fun t => w' k (t.journal S)) =
      ∑ k ∈ (Finset.range L.tasks.length).erase i,
        ((L.tasks[k]?).elim 0 fun t => w k (t.journal S)) := by
    refine Finset.sum_congr rfl fun k hk => ?_
    obtain ⟨hne, hk⟩ := Finset.mem_erase.mp hk
    exact share_congr (Finset.mem_range.mp hk) (fun j => hothers k j hne) fun j => hw k j hne
  unfold Loop.weight
  rw [hlength, ← Finset.sum_erase_add _ _ hmem, ← Finset.sum_erase_add _ _ hmem, hrest,
    hpeer'.share w', hpeer.share w]
  omega

/-- Task `i` goes on. -/
theorem Loop.Went.weight {S : Script code J} {L L' : Loop σ τ ρ α} {i : Nat} {j j' : J}
    {w w' : Nat → J → Nat} (h : L.Went S L' i j') (hlength : L'.tasks.length = L.tasks.length)
    (hpeer : L.Peers S i j) (hw : ∀ i' k, i' ≠ i → w' i' k = w i' k) :
    L'.weight S w' + w i j = L.weight S w + w' i j' :=
  weight_change hlength hpeer ((h.2 i j').mpr (.inl ⟨rfl, rfl⟩))
    (fun i' k hne hk => (h.2 i' k).mpr (.inr ⟨hne, hk⟩)) hw

/-- Task `i` waits. -/
theorem Loop.Paused.weight {S : Script code J} {L L' : Loop σ τ ρ α} {i : Nat} {j : J}
    {w w' : Nat → J → Nat} (h : L.Paused S L') (hlength : L'.tasks.length = L.tasks.length)
    (hpeer : L.Peers S i j) (hw : ∀ i' k, i' ≠ i → w' i' k = w i' k) :
    L'.weight S w' + w i j = L.weight S w + w' i j :=
  weight_change hlength hpeer ((h.2 i j).mpr hpeer) (fun i' k _ hk => (h.2 i' k).mpr hk) hw

/-- Nobody goes on. -/
theorem Loop.Paused.weight_eq {S : Script code J} {L L' : Loop σ τ ρ α} {w w' : Nat → J → Nat}
    (h : L.Paused S L') (hlength : L'.tasks.length = L.tasks.length)
    (hw : ∀ i j, w' i j = w i j) : L'.weight S w' = L.weight S w := by
  unfold Loop.weight
  rw [hlength]
  refine Finset.sum_congr rfl fun i hi => ?_
  exact share_congr (Finset.mem_range.mp hi) (fun j => (h.2 i j).mpr) (hw i)

/-- Where every move lowers a rank, there is no endless sequence of moves. -/
theorem Loop.Reach.acc {P : Loop σ τ ρ α → Label τ ρ β → Prop} {s₀ : σ}
    {Moves : Loop σ τ ρ α → Loop σ τ ρ α → Prop} {rank : Loop σ τ ρ α → Nat}
    (hreach : ∀ {L L'}, L.Reach M code P s₀ → Moves L L' → L'.Reach M code P s₀)
    (hrank : ∀ {L L'}, L.Reach M code P s₀ → Moves L L' → rank L' < rank L)
    {L : Loop σ τ ρ α} (h : L.Reach M code P s₀) : Acc (fun L' L => Moves L L') L := by
  induction hn : rank L using Nat.strong_induction_on generalizing L with
  | _ n ih =>
      subst hn
      exact ⟨L, fun L' hmove => ih (rank L') (hrank h hmove) (hreach h hmove) rfl⟩

/-! ## §6. Executions by their notes. -/

/-- The notes tell the operation, or that there is none. -/
structure Script.Exact (S : Script code J) : Prop where
  one : ∀ {j op op'}, S.May j op → S.May j op' → op = op'
  apart : ∀ {j op a}, S.May j op → ¬ S.Ends j a

/-- A task performs the operation its notes tell. -/
theorem Script.Exact.stands {S : Script code J} (hS : S.Exact) {t : Fiber τ ρ α} {op : ι}
    (hrun : Run (code t.origin) t.history t.rest) (hmay : S.May (t.journal S) op) :
    ∃ k, t.rest = .op op k := by
  cases hrest : t.rest with
  | ret a => exact absurd (Script.ends hrun hrest) (hS.apart hmay)
  | op op' k =>
      obtain rfl := hS.one hmay (Script.may hrun hrest)
      exact ⟨k, rfl⟩

/-- The task that runs does what its notes tell. -/
theorem Script.Exact.acts {S : Script code J} (hS : S.Exact) {P : Loop σ τ ρ α → Label τ ρ β → Prop}
    {s₀ s' : σ} {L : Loop σ τ ρ α} {i : Nat} {t : Fiber τ ρ α} {op : ι} {r : ρ op}
    (hreach : L.Reach M code P s₀) (hrun : L.running = some i) (ht : L.tasks[i]? = some t)
    (hmay : S.May (t.journal S) op) (hacts : M.acts i L.state ⟨op, r⟩ s') :
    ∃ L' t', L.Step M code (.act i ⟨op, r⟩) L' ∧ L'.state = s' ∧ L'.running = some i ∧
      L'.tasks[i]? = some t' ∧ t'.journal S = S.note (t.journal S) ⟨op, r⟩ := by
  obtain ⟨s, running, ts⟩ := L
  obtain rfl : running = some i := hrun
  obtain ⟨k, hk⟩ := hS.stands (hreach.run ht) hmay
  have ht : ts[i]? = some t := ht
  refine ⟨_, t.answer op r (k r), .act ht hk hacts, rfl, rfl, ?_, t.journal_answer S op r (k r)⟩
  show (ts.set i (t.answer op r (k r)))[i]? = some (t.answer op r (k r))
  rw [List.getElem?_set_self (List.getElem?_eq_some_iff.mp ht).1]

/-- What a task awaits can stir. -/
theorem Script.Exact.stirs {S : Script code J} (hS : S.Exact)
    {P : Loop σ τ ρ α → Label τ ρ β → Prop} {s₀ s' : σ} {L : Loop σ τ ρ α} {i : Nat}
    {t : Fiber τ ρ α} {op : ι} (hreach : L.Reach M code P s₀) (hrun : L.running = none)
    (ht : L.tasks[i]? = some t) (hmay : S.May (t.journal S) op)
    (hstirs : M.stirs i L.state op s') : ∃ L', L.Step M code (.stir i op) L' := by
  obtain ⟨s, running, ts⟩ := L
  obtain rfl : running = none := hrun
  obtain ⟨k, hk⟩ := hS.stands (hreach.run ht) hmay
  exact ⟨_, .stir ht hk hstirs⟩

/-- A task can be resumed with an answer to what it awaits. -/
theorem Script.Exact.resumes {S : Script code J} (hS : S.Exact)
    {P : Loop σ τ ρ α → Label τ ρ β → Prop} {s₀ s' : σ} {L : Loop σ τ ρ α} {i : Nat}
    {t : Fiber τ ρ α} {op : ι} {r : ρ op} (hreach : L.Reach M code P s₀) (hrun : L.running = none)
    (ht : L.tasks[i]? = some t) (hmay : S.May (t.journal S) op)
    (hresumes : M.resumes i L.state ⟨op, r⟩ s') :
    ∃ L', L.Step M code (.resume i ⟨op, r⟩) L' := by
  obtain ⟨s, running, ts⟩ := L
  obtain rfl : running = none := hrun
  obtain ⟨k, hk⟩ := hS.stands (hreach.run ht) hmay
  exact ⟨_, .resume ht hk hresumes⟩

/-- From the state `s`, with this task running and these notes on the tasks,
the step `l` leads to those. -/
def Script.Leads (S : Script code J) (M : Machine σ ρ β) (s : σ) (running : Option Nat)
    (js : List J) (l : Label τ ρ β) (s' : σ) (running' : Option Nat) (js' : List J) : Prop :=
  ∀ L : Loop σ τ ρ α,
    (∀ (i : Nat) (t : Fiber τ ρ α), L.tasks[i]? = some t →
      Run (code t.origin) t.history t.rest) →
    L.state = s → L.running = running → L.tasks.map (·.journal S) = js →
    ∃ L', L.Step M code l L' ∧ L'.state = s' ∧ L'.running = running' ∧
      L'.tasks.map (·.journal S) = js'

/-- Some execution reaches the state `s`, with the given task running and
the given notes on the tasks; `P` looks at the state. -/
def Script.Shows (S : Script code J) (M : Machine σ ρ β) (P : σ → Label τ ρ β → Prop)
    (s₀ s : σ) (running : Option Nat) (js : List J) : Prop :=
  ∃ L : Loop σ τ ρ α, L.Reach M code (fun L => P L.state) s₀ ∧ L.state = s ∧
    L.running = running ∧ L.tasks.map (·.journal S) = js

namespace Script

variable {S : Script code J} {P : σ → Label τ ρ β → Prop} {s₀ s s' : σ} {i : Nat} {op : ι}
  {js js' : List J} {j : J} {running running' : Option Nat}

/-- The task behind a note. -/
theorem task_of_note (hS : S.Exact) {ts : List (Fiber τ ρ α)}
    (hruns : ∀ (i : Nat) (t : Fiber τ ρ α), ts[i]? = some t → Run (code t.origin) t.history t.rest)
    (hj : (ts.map (·.journal S))[i]? = some j) (hmay : S.May j op) :
    ∃ t k, ts[i]? = some t ∧ t.journal S = j ∧ t.rest = .op op k := by
  rw [List.getElem?_map] at hj
  obtain ⟨t, ht, rfl⟩ := Option.map_eq_some_iff.mp hj
  obtain ⟨k, hk⟩ := hS.stands (hruns i t ht) hmay
  exact ⟨t, k, ht, rfl, hk⟩

theorem leads_invoke (o : τ) :
    S.Leads M s none js (.invoke o) s (some js.length) (js ++ [S.start o]) := by
  rintro ⟨_, _, ts⟩ hruns rfl rfl rfl
  refine ⟨_, .invoke o, rfl, ?_, ?_⟩
  · simp
  · simp [Fiber.journal]

theorem leads_act (hS : S.Exact) (hj : js[i]? = some j) (hmay : S.May j op) {r : ρ op}
    (hacts : M.acts i s ⟨op, r⟩ s') :
    S.Leads M s (some i) js (.act i ⟨op, r⟩) s' (some i) (js.set i (S.note j ⟨op, r⟩)) := by
  rintro ⟨_, _, ts⟩ hruns rfl rfl rfl
  obtain ⟨t, k, ht, rfl, hk⟩ := task_of_note hS hruns hj hmay
  refine ⟨_, .act ht hk hacts, rfl, rfl, ?_⟩
  simp [List.map_set]

theorem leads_await (hS : S.Exact) (hj : js[i]? = some j) (hmay : S.May j op)
    (hbegins : M.begins i s op s') : S.Leads M s (some i) js (.await i op) s' none js := by
  rintro ⟨_, _, ts⟩ hruns rfl rfl rfl
  obtain ⟨t, k, ht, rfl, hk⟩ := task_of_note hS hruns hj hmay
  exact ⟨_, .await ht hk hbegins, rfl, rfl, rfl⟩

theorem leads_stir (hS : S.Exact) (hj : js[i]? = some j) (hmay : S.May j op)
    (hstirs : M.stirs i s op s') : S.Leads M s none js (.stir i op) s' none js := by
  rintro ⟨_, _, ts⟩ hruns rfl rfl rfl
  obtain ⟨t, k, ht, rfl, hk⟩ := task_of_note hS hruns hj hmay
  exact ⟨_, .stir ht hk hstirs, rfl, rfl, rfl⟩

theorem leads_resume (hS : S.Exact) (hj : js[i]? = some j) (hmay : S.May j op) {r : ρ op}
    (hresumes : M.resumes i s ⟨op, r⟩ s') :
    S.Leads M s none js (.resume i ⟨op, r⟩) s' (some i) (js.set i (S.note j ⟨op, r⟩)) := by
  rintro ⟨_, _, ts⟩ hruns rfl rfl rfl
  obtain ⟨t, k, ht, rfl, hk⟩ := task_of_note hS hruns hj hmay
  refine ⟨_, .resume ht hk hresumes, rfl, rfl, ?_⟩
  simp [List.map_set]

theorem leads_finish (hj : js[i]? = some j) (hmay : ∀ op, ¬ S.May j op) :
    S.Leads M s (some i) js (.finish i) s none js := by
  rintro ⟨_, _, ts⟩ hruns rfl rfl rfl
  rw [List.getElem?_map] at hj
  obtain ⟨t, ht, rfl⟩ := Option.map_eq_some_iff.mp hj
  cases hrest : t.rest with
  | op op k => exact absurd (Script.may (hruns i t ht) hrest) (hmay op)
  | ret a => exact ⟨_, .finish ht hrest, rfl, rfl, rfl⟩

theorem leads_ambient (b : β) (hambient : M.ambient s b s') :
    S.Leads M s none js (.ambient b) s' none js := by
  rintro ⟨_, _, ts⟩ hruns rfl rfl rfl
  exact ⟨_, .ambient hambient, rfl, rfl, rfl⟩

theorem set_of_getElem? (h : js[i]? = some j) : js.set i j = js := by
  obtain ⟨hlt, rfl⟩ := List.getElem?_eq_some_iff.mp h
  exact List.set_getElem_self hlt

theorem shows_init : S.Shows M P s₀ s₀ none [] := ⟨Loop.init s₀, .init, rfl, rfl, rfl⟩

/-- A stricter condition shows less. -/
theorem Shows.mono {P' : σ → Label τ ρ β → Prop} (h : S.Shows M P s₀ s running js)
    (hP : ∀ s l, P s l → P' s l) : S.Shows M P' s₀ s running js := by
  obtain ⟨L, hreach, hrest⟩ := h
  exact ⟨L, hreach.mono fun L l => hP L.state l, hrest⟩

theorem Shows.go {l : Label τ ρ β} (h : S.Shows M P s₀ s running js) (hP : P s l)
    (hl : S.Leads M s running js l s' running' js') : S.Shows M P s₀ s' running' js' := by
  obtain ⟨L, hreach, rfl, rfl, rfl⟩ := h
  obtain ⟨L', hstep, hrest⟩ := hl L (fun _ _ ht => hreach.run ht) rfl rfl rfl
  exact ⟨L', .step hreach hP hstep, hrest⟩

theorem Shows.invoke (h : S.Shows M P s₀ s none js) (o : τ) (hP : P s (.invoke o)) :
    S.Shows M P s₀ s (some js.length) (js ++ [S.start o]) :=
  h.go hP (leads_invoke o)

/-- Task `i` goes on from the notes `j`, with whatever goes on by itself, and
no other task does. -/
inductive Walk (S : Script code J) (M : Machine σ ρ β) (P : σ → Label τ ρ β → Prop) (i : Nat)
    (s : σ) (running : Option Nat) (j : J) : σ → Option Nat → J → Prop
  | refl : Walk S M P i s running j s running j
  | step {s' s'' : σ} {running' running'' : Option Nat} {j' j'' : J} {l : Label τ ρ β} :
      Walk S M P i s running j s' running' j' → P s' l → (∀ o, l ≠ .invoke o) →
      (∀ js, js[i]? = some j' → S.Leads M s' running' js l s'' running'' (js.set i j'')) →
      Walk S M P i s running j s'' running'' j''

/-- Where nothing else happens, others see what the task does. -/
theorem Shows.along (h : S.Shows M P s₀ s running js) (hj : js[i]? = some j)
    (hwalk : S.Walk M P i s running j s' running' j') :
    S.Shows M P s₀ s' running' (js.set i j') := by
  have hlt := (List.getElem?_eq_some_iff.mp hj).1
  induction hwalk with
  | refl => rwa [set_of_getElem? hj]
  | @step _ _ _ _ j' j'' l _ hP _ hleads ih =>
      have hnext := ih.go hP (hleads _ (List.getElem?_set_self hlt))
      rwa [List.set_set] at hnext

namespace Walk

variable {s₁ s₂ s₃ : σ} {running₁ running₂ running₃ : Option Nat} {j₁ j₂ j₃ : J}

theorem trans (h : S.Walk M P i s₁ running₁ j₁ s₂ running₂ j₂)
    (h' : S.Walk M P i s₂ running₂ j₂ s₃ running₃ j₃) :
    S.Walk M P i s₁ running₁ j₁ s₃ running₃ j₃ := by
  induction h' with
  | refl => exact h
  | step _ hP hinvoke hleads ih => exact ih.step hP hinvoke hleads

theorem mono {P' : σ → Label τ ρ β → Prop} (h : S.Walk M P i s₁ running₁ j₁ s₂ running₂ j₂)
    (hP : ∀ s l, P s l → P' s l) : S.Walk M P' i s₁ running₁ j₁ s₂ running₂ j₂ := by
  induction h with
  | refl => exact .refl
  | step _ hl hinvoke hleads ih => exact ih.step (hP _ _ hl) hinvoke hleads

theorem act (h : S.Walk M P i s₁ running₁ j₁ s (some i) j) (hS : S.Exact) (hmay : S.May j op)
    {r : ρ op} (hP : P s (.act i ⟨op, r⟩)) (hacts : M.acts i s ⟨op, r⟩ s') :
    S.Walk M P i s₁ running₁ j₁ s' (some i) (S.note j ⟨op, r⟩) :=
  h.step hP nofun fun _ hj => leads_act hS hj hmay hacts

theorem await (h : S.Walk M P i s₁ running₁ j₁ s (some i) j) (hS : S.Exact) (hmay : S.May j op)
    (hP : P s (.await i op)) (hbegins : M.begins i s op s') :
    S.Walk M P i s₁ running₁ j₁ s' none j := by
  refine h.step hP nofun fun js hj => ?_
  rw [set_of_getElem? hj]
  exact leads_await hS hj hmay hbegins

theorem stir (h : S.Walk M P i s₁ running₁ j₁ s none j) (hS : S.Exact) (hmay : S.May j op)
    (hP : P s (.stir i op)) (hstirs : M.stirs i s op s') :
    S.Walk M P i s₁ running₁ j₁ s' none j := by
  refine h.step hP nofun fun js hj => ?_
  rw [set_of_getElem? hj]
  exact leads_stir hS hj hmay hstirs

theorem resume (h : S.Walk M P i s₁ running₁ j₁ s none j) (hS : S.Exact) (hmay : S.May j op)
    {r : ρ op} (hP : P s (.resume i ⟨op, r⟩)) (hresumes : M.resumes i s ⟨op, r⟩ s') :
    S.Walk M P i s₁ running₁ j₁ s' (some i) (S.note j ⟨op, r⟩) :=
  h.step hP nofun fun _ hj => leads_resume hS hj hmay hresumes

theorem finish (h : S.Walk M P i s₁ running₁ j₁ s (some i) j) (hmay : ∀ op, ¬ S.May j op)
    (hP : P s (.finish i)) : S.Walk M P i s₁ running₁ j₁ s none j := by
  refine h.step hP nofun fun js hj => ?_
  rw [set_of_getElem? hj]
  exact leads_finish hj hmay

theorem ambient (h : S.Walk M P i s₁ running₁ j₁ s none j) (b : β) (hP : P s (.ambient b))
    (hambient : M.ambient s b s') : S.Walk M P i s₁ running₁ j₁ s' none j := by
  refine h.step hP nofun fun js hj => ?_
  rw [set_of_getElem? hj]
  exact leads_ambient b hambient

end Walk

end Script

/-! ## §7. Programs that are answered one at a time. -/

/-- One of the programs has the operation answered that it stands at. -/
inductive Answered (ps : List (Prog ι ρ α)) : List (Prog ι ρ α) → Prop
  | answer {n : Nat} {i : ι} {k : ρ i → Prog ι ρ α} (r : ρ i) :
      ps[n]? = some (.op i k) → Answered ps (ps.set n (k r))

/-- A further program makes no difference: it has its own end. -/
theorem Answered.acc_cons {ps : List (Prog ι ρ α)}
    (h : Acc (fun qs ps => Answered ps qs) ps) (p : Prog ι ρ α) :
    Acc (fun qs ps => Answered ps qs) (p :: ps) := by
  induction h generalizing p with
  | intro ps _ ihs =>
      -- the other programs stay as they are until one of them is answered
      induction p with
      | ret a =>
          constructor
          intro qs hqs
          obtain @⟨n, i, k, r, hn⟩ := hqs
          cases n with
          | zero => cases hn
          | succ n => exact ihs _ (.answer r hn) (.ret a)
      | op i k ih =>
          constructor
          intro qs hqs
          obtain @⟨n, i', k', r, hn⟩ := hqs
          cases n with
          | zero =>
              cases hn
              exact ih r
          | succ n => exact ihs _ (.answer r hn) (.op i k)

/-- **Programs come to an end**, in whatever order and with whatever they are
answered. -/
theorem Answered.acc (ps : List (Prog ι ρ α)) : Acc (fun qs ps => Answered ps qs) ps := by
  induction ps with
  | nil =>
      constructor
      intro qs hqs
      obtain @⟨n, i, k, r, hn⟩ := hqs
      cases hn
  | cons p ps ih => exact Answered.acc_cons ih p

end Interaction

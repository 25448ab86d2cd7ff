/-
  CodexRemoteBridge.Lib.Interaction — programs that talk to an environment.

  A program performs operations of an interface `ι`; operation `i` is
  answered by the environment with a value of `ρ i`.  Every stopping point
  of a run is a residual program together with the history that led there,
  so a claim about crashes, cancellation or lost answers is a claim about
  all histories and all residuals.

  Main results:
    • `wp_bind`, `wp_mono`, `wp_handle` — weakest preconditions compose
      through sequencing and through the implementation of one interface
      by another;
    • `wp_run` — a weakest precondition proved for an observer holds at
      every point a run can reach;
    • `Emits.run` — the labels a run shows are a sublist of the declared
      ones, whatever the environment answers.
-/
import Mathlib.Data.List.Basic
import Mathlib.Data.List.Nodup
import Mathlib.Data.List.Sublists

namespace Interaction

/-! ## §1. Programs. -/

/-- A program over the interface `(ι, ρ)` that ends with an `α`. -/
inductive Prog (ι : Type) (ρ : ι → Type) (α : Type) : Type where
  | ret (a : α)
  | op (i : ι) (k : ρ i → Prog ι ρ α)

variable {ι κ : Type} {ρ : ι → Type} {σ : κ → Type} {α β γ M : Type}

namespace Prog

/-- Run `p`, then continue with its result. -/
def bind : Prog ι ρ α → (α → Prog ι ρ β) → Prog ι ρ β
  | .ret a, f => f a
  | .op i k, f => .op i fun r => (k r).bind f

@[simp] theorem ret_bind (a : α) (f : α → Prog ι ρ β) :
    (Prog.ret a : Prog ι ρ α).bind f = f a := rfl

@[simp] theorem op_bind (i : ι) (k : ρ i → Prog ι ρ α) (f : α → Prog ι ρ β) :
    (Prog.op i k).bind f = .op i fun r => (k r).bind f := rfl

theorem bind_assoc (p : Prog ι ρ α) (f : α → Prog ι ρ β) (g : β → Prog ι ρ γ) :
    (p.bind f).bind g = p.bind fun a => (f a).bind g := by
  induction p with
  | ret a => rfl
  | op i k ih =>
      simp only [op_bind]
      congr 1
      funext r
      exact ih r

/-- Implement every operation of `(ι, ρ)` by a program over `(κ, σ)`. -/
def handle (h : (i : ι) → Prog κ σ (ρ i)) : Prog ι ρ α → Prog κ σ α
  | .ret a => .ret a
  | .op i k => (h i).bind fun r => (k r).handle h

theorem bind_ret (p : Prog ι ρ α) : p.bind .ret = p := by
  induction p with
  | ret a => rfl
  | op i k ih =>
      rw [op_bind]
      congr 1
      funext r
      exact ih r

theorem handle_bind (h : (i : ι) → Prog κ σ (ρ i)) (p : Prog ι ρ α) (f : α → Prog ι ρ β) :
    (p.bind f).handle h = (p.handle h).bind fun a => (f a).handle h := by
  induction p with
  | ret a => rfl
  | op i k ih =>
      show (h i).bind (fun r => ((k r).bind f).handle h) =
        ((h i).bind fun r => (k r).handle h).bind fun a => (f a).handle h
      rw [bind_assoc]
      congr 1
      funext r
      exact ih r

theorem handle_handle {μ : Type} {υ : μ → Type} (h : (i : ι) → Prog κ σ (ρ i))
    (h' : (j : κ) → Prog μ υ (σ j)) (p : Prog ι ρ α) :
    (p.handle h).handle h' = p.handle fun i => (h i).handle h' := by
  induction p with
  | ret a => rfl
  | op i k ih =>
      show ((h i).bind fun r => (k r).handle h).handle h' =
        ((h i).handle h').bind fun r => (k r).handle fun i => (h i).handle h'
      rw [handle_bind]
      congr 1
      funext r
      exact ih r

/-- The operation a program is about to perform, if it has not ended. -/
def head? : Prog ι ρ α → Option ι
  | .ret _ => none
  | .op i _ => some i

end Prog

/-! ## §2. Runs and their histories. -/

/-- One operation together with the answer it got. -/
abbrev Event (ρ : ι → Type) : Type := Σ i, ρ i

/-- `Run p tr q`: after the operations and answers `tr`, what is left of
`p` is `q`. -/
inductive Run (p : Prog ι ρ α) : List (Event ρ) → Prog ι ρ α → Prop
  | start : Run p [] p
  | step {tr : List (Event ρ)} {i : ι} {k : ρ i → Prog ι ρ α} (r : ρ i) :
      Run p tr (.op i k) → Run p (tr ++ [⟨i, r⟩]) (k r)

theorem Run.trans {p q r : Prog ι ρ α} {tr tr' : List (Event ρ)}
    (h : Run p tr q) (h' : Run q tr' r) : Run p (tr ++ tr') r := by
  induction h' with
  | start => simpa using h
  | step a _ ih => simpa [List.append_assoc] using Run.step a ih

/-- Every prefix of a history was itself a stopping point of the run. -/
theorem Run.split {p q : Prog ι ρ α} {tr : List (Event ρ)} (h : Run p tr q) :
    ∀ {pre post : List (Event ρ)} {e : Event ρ}, tr = pre ++ e :: post →
      ∃ k, Run p pre (.op e.1 k) ∧ Run (k e.2) post q := by
  induction h with
  | start => intro pre post e he; simp at he
  | @step tr i k r hr ih =>
      intro pre post e he
      rcases List.eq_nil_or_concat post with hp | ⟨post', e', hp⟩
      · subst hp
        obtain ⟨rfl, he'⟩ := List.append_inj' he rfl
        obtain rfl : (⟨i, r⟩ : Event ρ) = e := by simpa using he'
        exact ⟨k, hr, .start⟩
      · subst hp
        rw [List.concat_eq_append, ← List.cons_append, ← List.append_assoc] at he
        obtain ⟨htr, he'⟩ := List.append_inj' he rfl
        obtain rfl : (⟨i, r⟩ : Event ρ) = e' := by simpa using he'
        obtain ⟨k', hk, hq⟩ := ih htr
        exact ⟨k', hk, by simpa using Run.step r hq⟩

/-- An ended program does nothing more. -/
theorem Run.ret_inv {a : α} {tr : List (Event ρ)} {q : Prog ι ρ α}
    (h : Run (.ret a) tr q) : tr = [] ∧ q = .ret a := by
  induction h with
  | start => exact ⟨rfl, rfl⟩
  | step r _ ih => cases ih.2

/-- A run of a sequence is a run of its first part, or a finished run of
the first part followed by a run of the rest. -/
theorem Run.of_bind {p : Prog ι ρ α} {f : α → Prog ι ρ β}
    {tr : List (Event ρ)} {q : Prog ι ρ β} (h : Run (p.bind f) tr q) :
    (∃ p', Run p tr p' ∧ q = p'.bind f) ∨
    (∃ a tr₁ tr₂, tr = tr₁ ++ tr₂ ∧ Run p tr₁ (.ret a) ∧ Run (f a) tr₂ q) := by
  induction h with
  | start => exact .inl ⟨p, .start, rfl⟩
  | @step tr i k r _ ih =>
      rcases ih with ⟨p', hp, hq⟩ | ⟨a, tr₁, tr₂, rfl, h₁, h₂⟩
      · cases p' with
        | ret a =>
            have h₂ : Run (f a) [] (.op i k) := by
              rw [hq]
              exact .start
            exact .inr ⟨a, tr, [⟨i, r⟩], rfl, hp, by simpa using Run.step r h₂⟩
        | op j k' =>
            simp only [Prog.op_bind, Prog.op.injEq] at hq
            obtain ⟨rfl, hk⟩ := hq
            obtain rfl := eq_of_heq hk
            exact .inl ⟨k' r, .step r hp, rfl⟩
      · exact .inr ⟨a, tr₁, tr₂ ++ [⟨i, r⟩], by simp, h₁, .step r h₂⟩

/-- A run of an implemented program is a run of the program above it: the
finished operations got their answers from finished runs of their
implementations, and at most one implementation is still under way. -/
inductive Implements (h : (i : ι) → Prog κ σ (ρ i)) :
    List (Event ρ) → List (Event σ) → Prop
  | nil : Implements h [] []
  | snoc {tr : List (Event ρ)} {fine fine' : List (Event σ)} {i : ι} {r : ρ i} :
      Implements h tr fine → Run (h i) fine' (.ret r) →
      Implements h (tr ++ [⟨i, r⟩]) (fine ++ fine')

theorem Implements.append {h : (i : ι) → Prog κ σ (ρ i)} {tr tr' : List (Event ρ)}
    {fine fine' : List (Event σ)} (h₁ : Implements h tr fine)
    (h₂ : Implements h tr' fine') : Implements h (tr ++ tr') (fine ++ fine') := by
  induction h₂ with
  | nil => simpa using h₁
  | snoc _ hr ih => simpa only [← List.append_assoc] using Implements.snoc ih hr

theorem Run.of_handle (h : (i : ι) → Prog κ σ (ρ i)) :
    ∀ (p : Prog ι ρ α) {fine : List (Event σ)} {q : Prog κ σ α},
      Run (p.handle h) fine q →
      ∃ tr p' done rest, Run p tr p' ∧ fine = done ++ rest ∧ Implements h tr done ∧
        ((rest = [] ∧ q = p'.handle h) ∨
         (∃ i k w, p' = .op i k ∧ Run (h i) rest w ∧
            q = w.bind fun r => (k r).handle h)) := by
  intro p
  induction p with
  | ret a =>
      intro fine q hrun
      obtain ⟨rfl, rfl⟩ := Run.ret_inv hrun
      exact ⟨[], .ret a, [], [], .start, rfl, .nil, .inl ⟨rfl, rfl⟩⟩
  | op i k ih =>
      intro fine q hrun
      rcases Run.of_bind hrun with ⟨w, hw, hq⟩ | ⟨r, fine₁, fine₂, rfl, h₁, h₂⟩
      · exact ⟨[], .op i k, [], fine, .start, rfl, .nil,
          .inr ⟨i, k, w, rfl, hw, hq⟩⟩
      · obtain ⟨tr, p', done, rest, hp, rfl, himp, hcase⟩ := ih r h₂
        have hone : Run (.op i k) [⟨i, r⟩] (k r) := by
          simpa using Run.step r (Run.start (p := .op i k))
        refine ⟨⟨i, r⟩ :: tr, p', fine₁ ++ done, rest, ?_, by simp, ?_, hcase⟩
        · simpa using hone.trans hp
        · simpa using (Implements.snoc .nil h₁).append himp

/-- Run `p` for `n` operations against an environment that answers from
the history. -/
def Prog.follow (env : List (Event ρ) → (i : ι) → ρ i) :
    Nat → List (Event ρ) → Prog ι ρ α → List (Event ρ) × Prog ι ρ α
  | 0, tr, p => (tr, p)
  | _ + 1, tr, .ret a => (tr, .ret a)
  | n + 1, tr, .op i k => (k (env tr i)).follow env n (tr ++ [⟨i, env tr i⟩])

theorem Run.follow (env : List (Event ρ) → (i : ι) → ρ i) {p : Prog ι ρ α} (n : Nat) :
    ∀ {tr : List (Event ρ)} {q : Prog ι ρ α}, Run p tr q →
      Run p (q.follow env n tr).1 (q.follow env n tr).2 := by
  induction n with
  | zero => exact fun h => h
  | succ n ih =>
      intro tr q h
      cases q with
      | ret a => exact h
      | op i k => exact ih (h.step (env tr i))

/-! ## §3. Weakest preconditions. -/

/-- What one operation guarantees, as a predicate transformer on an
observer's state `M`. -/
abbrev OpSpec (ρ : ι → Type) (M : Type) : Type :=
  (i : ι) → (ρ i → M → Prop) → M → Prop

/-- A specification is monotone in what is asked of the answer. -/
def OpSpec.Mono (Φ : OpSpec ρ M) : Prop :=
  ∀ i {Q Q' : ρ i → M → Prop}, (∀ r m, Q r m → Q' r m) → ∀ m, Φ i Q m → Φ i Q' m

/-- Fold the specifications of the operations over a program. -/
def wp (Φ : OpSpec ρ M) : Prog ι ρ α → (α → M → Prop) → M → Prop
  | .ret a, Q => Q a
  | .op i k, Q => Φ i fun r => wp Φ (k r) Q

@[simp] theorem wp_ret (Φ : OpSpec ρ M) (a : α) (Q : α → M → Prop) :
    wp Φ (.ret a) Q = Q a := rfl

@[simp] theorem wp_op (Φ : OpSpec ρ M) (i : ι) (k : ρ i → Prog ι ρ α)
    (Q : α → M → Prop) : wp Φ (.op i k) Q = Φ i fun r => wp Φ (k r) Q := rfl

theorem wp_bind (Φ : OpSpec ρ M) (p : Prog ι ρ α) (f : α → Prog ι ρ β)
    (Q : β → M → Prop) : wp Φ (p.bind f) Q = wp Φ p fun a => wp Φ (f a) Q := by
  induction p with
  | ret a => rfl
  | op i k ih =>
      show (Φ i fun r => wp Φ ((k r).bind f) Q) = _
      rw [show (fun r => wp Φ ((k r).bind f) Q)
            = fun r => wp Φ (k r) fun a => wp Φ (f a) Q from funext ih]
      rfl

theorem wp_mono {Φ : OpSpec ρ M} (hΦ : Φ.Mono) (p : Prog ι ρ α)
    {Q Q' : α → M → Prop} (h : ∀ a m, Q a m → Q' a m) :
    ∀ m, wp Φ p Q m → wp Φ p Q' m := by
  induction p with
  | ret a => exact h a
  | op i k ih => exact hΦ i fun r m hr => ih r m hr

/-- The specification an implementation gives to the interface above it. -/
def OpSpec.through (Φ : OpSpec σ M) (h : (i : ι) → Prog κ σ (ρ i)) : OpSpec ρ M :=
  fun i Q => wp Φ (h i) Q

theorem wp_handle (Φ : OpSpec σ M) (h : (i : ι) → Prog κ σ (ρ i))
    (p : Prog ι ρ α) (Q : α → M → Prop) :
    wp Φ (p.handle h) Q = wp (Φ.through h) p Q := by
  induction p with
  | ret a => rfl
  | op i k ih =>
      show wp Φ ((h i).bind fun r => (k r).handle h) Q = _
      rw [wp_bind, show (fun r => wp Φ ((k r).handle h) Q)
            = fun r => wp (Φ.through h) (k r) Q from funext ih]
      rfl

theorem OpSpec.Mono.through {Φ : OpSpec σ M} (hΦ : Φ.Mono)
    (h : (i : ι) → Prog κ σ (ρ i)) : (Φ.through h).Mono :=
  fun i _ _ hQ m => wp_mono hΦ (h i) hQ m

/-- **Simulation.**  If every implementation meets the specification of its
operation, the implemented program meets what the program above it does. -/
theorem wp_handle_of {Φ : OpSpec ρ M} {Ψ : OpSpec σ M} (hΦ : Φ.Mono)
    (h : (i : ι) → Prog κ σ (ρ i)) (himp : ∀ i Q m, Φ i Q m → wp Ψ (h i) Q m)
    (p : Prog ι ρ α) {Q : α → M → Prop} :
    ∀ {m : M}, wp Φ p Q m → wp Ψ (p.handle h) Q m := by
  rw [wp_handle]
  induction p with
  | ret a => exact fun hm => hm
  | op i k ih =>
      intro m hm
      exact himp i _ m (hΦ i (fun r m' hr => ih r hr) m hm)

/-! ## §4. A fixed environment. -/

/-- Run `p` to its end, each operation answered by `env`. -/
def Prog.eval (env : (i : ι) → ρ i) : Prog ι ρ α → List (Event ρ) × α
  | .ret a => ([], a)
  | .op i k => (⟨i, env i⟩ :: ((k (env i)).eval env).1, ((k (env i)).eval env).2)

/-- Evaluating is one of the runs. -/
theorem Run.eval (env : (i : ι) → ρ i) (p : Prog ι ρ α) :
    Run p (p.eval env).1 (.ret (p.eval env).2) := by
  induction p with
  | ret a => exact .start
  | op i k ih =>
      have hone : Run (.op i k) [⟨i, env i⟩] (k (env i)) := .step (env i) .start
      exact hone.trans (ih (env i))

/-- The specification of a fixed environment, with the history it makes. -/
def answering (env : (i : ι) → ρ i) : OpSpec ρ (List (Event ρ)) :=
  fun i Q h => Q (env i) (h ++ [⟨i, env i⟩])

theorem wp_answering (env : (i : ι) → ρ i) (p : Prog ι ρ α)
    (Q : α → List (Event ρ) → Prop) :
    ∀ h, wp (answering env) p Q h ↔ Q (p.eval env).2 (h ++ (p.eval env).1) := by
  induction p with
  | ret a => intro h; simp [Prog.eval]
  | op i k ih =>
      intro h
      show wp (answering env) (k (env i)) Q (h ++ [⟨i, env i⟩]) ↔ _
      rw [ih (env i)]
      simp [Prog.eval]

/-! ## §5. Observers. -/

/-- An observer that follows a run: `step` takes in each operation with its
answer, and `I` has to hold whenever an operation is about to be performed. -/
def observe (step : M → Event ρ → M) (I : M → ι → Prop) : OpSpec ρ M :=
  fun i Q m => I m i ∧ ∀ r, Q r (step m ⟨i, r⟩)

theorem observe_mono (step : M → Event ρ → M) (I : M → ι → Prop) : (observe step I).Mono :=
  fun _ _ _ hQ _ h => ⟨h.1, fun r => hQ _ _ (h.2 r)⟩

/-- **Adequacy.**  A weakest precondition proved at the start holds of the
residual at every stopping point of every run. -/
theorem wp_run {step : M → Event ρ → M} {I : M → ι → Prop} {p q : Prog ι ρ α}
    {Q : α → M → Prop} {m : M} {tr : List (Event ρ)}
    (h : wp (observe step I) p Q m) (hr : Run p tr q) :
    wp (observe step I) q Q (tr.foldl step m) := by
  induction hr with
  | start => exact h
  | step r _ ih =>
      rw [List.foldl_append]
      exact ih.2 r

/-- The point condition holds whenever a run is about to act. -/
theorem wp_run_head {step : M → Event ρ → M} {I : M → ι → Prop} {p q : Prog ι ρ α}
    {Q : α → M → Prop} {m : M} {tr : List (Event ρ)} {i : ι}
    (h : wp (observe step I) p Q m) (hr : Run p tr q) (hi : q.head? = some i) :
    I (tr.foldl step m) i := by
  have hq := wp_run h hr
  cases q with
  | ret a => simp [Prog.head?] at hi
  | op j k =>
      obtain rfl : j = i := by simpa [Prog.head?] using hi
      exact hq.1

/-- The postcondition holds whenever a run has ended. -/
theorem wp_run_ret {step : M → Event ρ → M} {I : M → ι → Prop} {p : Prog ι ρ α} {a : α}
    {Q : α → M → Prop} {m : M} {tr : List (Event ρ)}
    (h : wp (observe step I) p Q m) (hr : Run p tr (.ret a)) : Q a (tr.foldl step m) :=
  wp_run h hr

/-- The point condition held at every operation a run has performed. -/
theorem wp_run_mem {step : M → Event ρ → M} {I : M → ι → Prop} {p q : Prog ι ρ α}
    {Q : α → M → Prop} {m : M} {tr : List (Event ρ)} {pre post : List (Event ρ)} {e : Event ρ}
    (h : wp (observe step I) p Q m) (hr : Run p tr q) (he : tr = pre ++ e :: post) :
    I (pre.foldl step m) e.1 := by
  obtain ⟨k, hk, -⟩ := hr.split he
  exact wp_run_head h hk rfl

/-- A condition no event can break holds along any program. -/
theorem wp_of_stable {step : M → Event ρ → M} {I : M → ι → Prop} {P : M → Prop}
    (hI : ∀ m i, P m → I m i) (hP : ∀ m e, P m → P (step m e)) (p : Prog ι ρ α) :
    ∀ {m : M}, P m → wp (observe step I) p (fun _ m => P m) m := by
  induction p with
  | ret a => exact fun h => h
  | op i k ih => exact fun {m} h => ⟨hI m i h, fun r => ih r (hP m ⟨i, r⟩ h)⟩

/-- What two observers of one kind find out about a program, together. -/
theorem wp_observe_and {step : M → Event ρ → M} {I I' : M → ι → Prop} (p : Prog ι ρ α)
    {Q Q' : α → M → Prop} : ∀ {m : M}, wp (observe step I) p Q m → wp (observe step I') p Q' m →
      wp (observe step I) p (fun a m => Q a m ∧ Q' a m) m := by
  induction p with
  | ret a => exact fun h h' => ⟨h, h'⟩
  | op i k ih => exact fun h h' => ⟨h.1, fun r => ih r (h.2 r) (h'.2 r)⟩

/-- An observer of the runs whose events are all of a kind that `ok` allows
where the observer is. -/
def observeOn (ok : M → Event ρ → Prop) (step : M → Event ρ → M) (I : M → ι → Prop) :
    OpSpec ρ M :=
  fun i Q m => I m i ∧ ∀ r, ok m ⟨i, r⟩ → Q r (step m ⟨i, r⟩)

theorem observeOn_mono (ok : M → Event ρ → Prop) (step : M → Event ρ → M)
    (I : M → ι → Prop) : (observeOn ok step I).Mono :=
  fun _ _ _ hQ _ h => ⟨h.1, fun r hr => hQ _ _ (h.2 r hr)⟩

/-- **Adequacy** for those runs. -/
theorem wp_run_on {ok : M → Event ρ → Prop} {step : M → Event ρ → M} {I : M → ι → Prop}
    {p q : Prog ι ρ α} {Q : α → M → Prop} {m : M} {tr : List (Event ρ)}
    (h : wp (observeOn ok step I) p Q m) (hr : Run p tr q)
    (hok : ∀ pre e post, tr = pre ++ e :: post → ok (pre.foldl step m) e) :
    wp (observeOn ok step I) q Q (tr.foldl step m) := by
  induction hr with
  | start => exact h
  | @step tr i k r _ ih =>
      have hpre := ih fun pre e post he => hok pre e (post ++ [⟨i, r⟩]) (by simp [he])
      rw [List.foldl_append]
      exact hpre.2 r (hok tr ⟨i, r⟩ [] rfl)

/-- The observer that remembers everything. -/
abbrev remember (h : List (Event ρ)) (e : Event ρ) : List (Event ρ) := h ++ [e]

@[simp] theorem foldl_remember (tr h : List (Event ρ)) : tr.foldl remember h = h ++ tr := by
  induction tr generalizing h with
  | nil => simp
  | cons e tr ih => simp [remember, ih]

/-- The history semantics. -/
abbrev history (I : List (Event ρ) → ι → Prop) : OpSpec ρ (List (Event ρ)) :=
  observe remember I

/-- Where a program ends, the history since its start is a run of it. -/
theorem wp_history_run {I : List (Event ρ) → ι → Prop} (p : Prog ι ρ α)
    {Q : α → List (Event ρ) → Prop} :
    ∀ {h : List (Event ρ)}, wp (history I) p Q h →
      wp (history I) p (fun a h' => Q a h' ∧ ∃ tr, h' = h ++ tr ∧ Run p tr (.ret a)) h := by
  induction p with
  | ret a => exact fun hq => ⟨hq, [], by simp, .start⟩
  | op i k ih =>
      intro h hp
      refine ⟨hp.1, fun r => ?_⟩
      refine wp_mono (observe_mono _ _) (k r) ?_ _ (ih r (hp.2 r))
      rintro a h' ⟨hq, tr, rfl, hrun⟩
      have hone : Run (.op i k) [⟨i, r⟩] (k r) := .step r .start
      refine ⟨hq, ⟨i, r⟩ :: tr, ?_, hone.trans hrun⟩
      show (h ++ [⟨i, r⟩]) ++ tr = h ++ ⟨i, r⟩ :: tr
      simp

/-! ## §6. The labels a program can show. -/

/-- `Emits l p L`: on every path of `p` the labels of the operations, in
order, form a sublist of `L`. -/
inductive Emits (l : ι → Option γ) : Prog ι ρ α → List γ → Prop
  | ret (a : α) (L : List γ) : Emits l (.ret a) L
  | silent {i : ι} {k : ρ i → Prog ι ρ α} {L : List γ} :
      l i = none → (∀ r, Emits l (k r) L) → Emits l (.op i k) L
  | label {i : ι} {k : ρ i → Prog ι ρ α} {g : γ} {L : List γ} :
      l i = some g → (∀ r, Emits l (k r) L) → Emits l (.op i k) (g :: L)
  | skip {p : Prog ι ρ α} {g : γ} {L : List γ} : Emits l p L → Emits l p (g :: L)

variable {l : ι → Option γ}

theorem Emits.prepend {p : Prog ι ρ α} {L : List γ} (h : Emits l p L) :
    ∀ L₀ : List γ, Emits l p (L₀ ++ L)
  | [] => h
  | _ :: L₀ => (Emits.prepend h L₀).skip

theorem Emits.bind {p : Prog ι ρ α} {f : α → Prog ι ρ β} {L L' : List γ}
    (hp : Emits l p L) (hf : ∀ a, Emits l (f a) L') : Emits l (p.bind f) (L ++ L') := by
  induction hp with
  | ret a L => exact (hf a).prepend L
  | silent hi _ ih => exact .silent hi fun r => ih r
  | label hi _ ih => exact .label hi fun r => ih r
  | skip _ ih => exact ih.skip

/-- The labels of a list of operations. -/
def labels (l : ι → Option γ) (tr : List (Event ρ)) : List γ :=
  tr.filterMap fun e => l e.1

@[simp] theorem labels_nil : labels l ([] : List (Event ρ)) = [] := rfl

@[simp] theorem labels_append (tr tr' : List (Event ρ)) :
    labels l (tr ++ tr') = labels l tr ++ labels l tr' := List.filterMap_append

/-- An observer that lets labelled operations through only in `P` follows a
program that can show labels only in `P`. -/
theorem Emits.wp {step : M → Event ρ → M} {I : M → ι → Prop} {p : Prog ι ρ α} {L : List γ}
    (h : Emits l p L) {m : M} (hI : ∀ i, (l i = none ∨ L ≠ []) → I m i)
    (hstep : ∀ i r, step m ⟨i, r⟩ = m) : Interaction.wp (observe step I) p (fun _ m' => m' = m) m := by
  induction h with
  | ret a L => rfl
  | silent hi _ ih =>
      refine ⟨hI _ (.inl hi), fun r => ?_⟩
      rw [hstep]
      exact ih r hI
  | label _ _ ih =>
      refine ⟨hI _ (.inr (List.cons_ne_nil _ _)), fun r => ?_⟩
      rw [hstep]
      exact ih r fun i _ => hI i (.inr (List.cons_ne_nil _ _))
  | skip _ ih => exact ih fun i _ => hI i (.inr (List.cons_ne_nil _ _))

/-- What operations with the declared labels, or without one, keep. -/
theorem Emits.keeps {Φ : OpSpec ρ M} (hΦ : Φ.Mono) {p : Prog ι ρ α} {L : List γ}
    (h : Emits l p L) {J : M → Prop}
    (hJ : ∀ i m, (∀ g, l i = some g → g ∈ L) → J m → Φ i (fun _ m' => J m') m) :
    ∀ m, J m → Interaction.wp Φ p (fun _ m' => J m') m := by
  suffices key : ∀ L₀ : List γ, L ⊆ L₀ →
      (∀ i m, (∀ g, l i = some g → g ∈ L₀) → J m → Φ i (fun _ m' => J m') m) →
      ∀ m, J m → Interaction.wp Φ p (fun _ m' => J m') m from key L (fun _ hg => hg) hJ
  clear hJ
  intro L₀ hsub hJ
  induction h with
  | ret a L => exact fun m hm => hm
  | silent hi _ ih =>
      intro m hm
      refine hΦ _ (fun r m' hm' => ih r hsub m' hm') m (hJ _ m (fun g hg => ?_) hm)
      rw [hi] at hg
      cases hg
  | label hi _ ih =>
      intro m hm
      refine hΦ _ (fun r m' hm' => ih r (fun g hg => hsub (List.mem_cons_of_mem _ hg)) m' hm') m
        (hJ _ m (fun g hg => ?_) hm)
      obtain rfl := Option.some.inj (hi.symm.trans hg)
      exact hsub List.mem_cons_self
  | skip _ ih => exact ih fun g hg => hsub (List.mem_cons_of_mem _ hg)

/-- Implementing each operation by a program that shows no more than the
operation's own label keeps the declared labels. -/
theorem Emits.handle {l' : κ → Option γ} {h : (i : ι) → Prog κ σ (ρ i)}
    (hh : ∀ i, Emits l' (h i) (l i).toList) {p : Prog ι ρ α} {L : List γ}
    (hp : Emits l p L) : Emits l' (p.handle h) L := by
  induction hp with
  | ret a L => exact .ret a L
  | @silent i k L hi _ ih =>
      have hs := (hh i).bind (f := fun r => (k r).handle h) ih
      rwa [hi, Option.toList_none, List.nil_append] at hs
  | @label i k g L hi _ ih =>
      have hs := (hh i).bind (f := fun r => (k r).handle h) ih
      rwa [hi, Option.toList_some, List.singleton_append] at hs
  | skip _ ih => exact ih.skip

/-- What an ended or stopped program may still show. -/
theorem Emits.op_inv {i : ι} {k : ρ i → Prog ι ρ α} {L : List γ}
    (h : Emits l (.op i k) L) (r : ρ i) :
    ∃ L', Emits l (k r) L' ∧ ((l i).toList ++ L').Sublist L := by
  generalize hp : Prog.op i k = p at h
  induction h with
  | ret a L => cases hp
  | silent hi hk _ =>
      cases hp
      exact ⟨_, hk r, by simp [hi]⟩
  | label hi hk _ =>
      cases hp
      exact ⟨_, hk r, by simp [hi]⟩
  | skip _ ih =>
      obtain ⟨L', hL, hs⟩ := ih hp
      exact ⟨L', hL, hs.cons _⟩

/-- **Label order.**  The labels of a run, followed by the label of the
operation it stands at, are a sublist of the declared labels. -/
theorem Emits.run {p q : Prog ι ρ α} {tr : List (Event ρ)} {L : List γ}
    (h : Emits l p L) (hr : Run p tr q) :
    (labels l tr ++ (q.head?.bind l).toList).Sublist L := by
  have key : ∃ L', Emits l q L' ∧ (labels l tr ++ L').Sublist L := by
    induction hr with
    | start => exact ⟨L, h, by simp⟩
    | @step tr i k r _ ih =>
        obtain ⟨L', hL, hs⟩ := ih
        obtain ⟨L'', hL', hs'⟩ := hL.op_inv r
        refine ⟨L'', hL', List.Sublist.trans ?_ hs⟩
        have hone : labels l [(⟨i, r⟩ : Event ρ)] = (l i).toList := by
          cases hi : l i <;> simp [labels, hi]
        rw [labels_append, hone, List.append_assoc]
        exact List.Sublist.append_left hs' _
  obtain ⟨L', hL, hs⟩ := key
  refine List.Sublist.trans (List.Sublist.append_left ?_ _) hs
  cases q with
  | ret a => simp [Prog.head?]
  | op i k =>
      show (l i).toList.Sublist L'
      clear hs
      generalize hp : Prog.op i k = p' at hL
      induction hL with
      | ret a L => cases hp
      | silent hi _ _ => cases hp; simp [hi]
      | label hi _ _ => cases hp; simp [hi]
      | skip _ ih => exact (ih hp).cons _

end Interaction

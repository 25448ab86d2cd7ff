/-
  CodexRemoteBridge.Lib.Coroutine — coroutines with exceptions and a
  mutable cell, over an interface of operations.

  A coroutine keeps its cell when it raises, as a Python frame keeps the
  dict it was filling.  The rules below compute the weakest precondition of
  each way of building a coroutine, with one postcondition for a normal
  return and one for a raised exception.
-/
import CodexRemoteBridge.Lib.Interaction

namespace Interaction

/-- A coroutine over `(ι, ρ)` with cell `S` that raises `ε` or returns `α`. -/
def Co (ι : Type) (ρ : ι → Type) (ε S α : Type) : Type :=
  S → Prog ι ρ (Except ε α × S)

namespace Co

variable {ι : Type} {ρ : ι → Type} {ε S α β M : Type}

/-- Return without touching the cell. -/
def pure (a : α) : Co ι ρ ε S α := fun s => .ret (.ok a, s)

/-- Raise, keeping the cell. -/
def throw (e : ε) : Co ι ρ ε S α := fun s => .ret (.error e, s)

/-- Sequence; an exception skips the rest. -/
def bind (c : Co ι ρ ε S α) (f : α → Co ι ρ ε S β) : Co ι ρ ε S β :=
  fun s => (c s).bind fun
    | (.ok a, s') => f a s'
    | (.error e, s') => .ret (.error e, s')

instance : Monad (Co ι ρ ε S) where
  pure := pure
  bind := bind

/-- Perform one operation and take its answer. -/
def ask (i : ι) : Co ι ρ ε S (ρ i) := fun s => .op i fun r => .ret (.ok r, s)

/-- Read the cell. -/
def get : Co ι ρ ε S S := fun s => .ret (.ok s, s)

/-- Update the cell. -/
def modify (g : S → S) : Co ι ρ ε S Unit := fun s => .ret (.ok (), g s)

/-- Catch what `c` raises; `handler` sees the cell as the exception left it. -/
def tryCatch (c : Co ι ρ ε S α) (handler : ε → Co ι ρ ε S α) : Co ι ρ ε S α :=
  fun s => (c s).bind fun
    | (.ok a, s') => .ret (.ok a, s')
    | (.error e, s') => handler e s'

/-- Lift a pure fallible value. -/
def ofExcept : Except ε α → Co ι ρ ε S α
  | .ok a => pure a
  | .error e => throw e

/-- Run `c`, then `last` on both exits; an exception of `last` wins. -/
def tryFinally (c : Co ι ρ ε S α) (last : Co ι ρ ε S Unit) : Co ι ρ ε S α :=
  fun s => (c s).bind fun
    | (.ok a, s') => bind last (fun _ => pure a) s'
    | (.error e, s') => bind last (fun _ => throw e) s'

@[simp] theorem pure_bind (a : α) (f : α → Co ι ρ ε S β) :
    (Pure.pure a : Co ι ρ ε S α) >>= f = f a := rfl

theorem bind_assoc {γ : Type} (c : Co ι ρ ε S α) (f : α → Co ι ρ ε S β)
    (g : β → Co ι ρ ε S γ) : (c >>= f) >>= g = c >>= fun a => f a >>= g := by
  funext s
  show ((c s).bind _).bind _ = (c s).bind _
  rw [Prog.bind_assoc]
  congr 1
  funext r
  obtain ⟨r | r, s'⟩ := r <;> rfl

/-! ## Weakest preconditions. -/

/-- The weakest precondition of a coroutine: `Q` on return, `X` on raise. -/
def wp (Φ : OpSpec ρ M) (c : Co ι ρ ε S α)
    (Q : α → S → M → Prop) (X : ε → S → M → Prop) (s : S) : M → Prop :=
  Interaction.wp Φ (c s) fun
    | (.ok a, s') => Q a s'
    | (.error e, s') => X e s'

variable (Φ : OpSpec ρ M) (Q : α → S → M → Prop) (X : ε → S → M → Prop)

@[simp] theorem wp_pure (a : α) (s : S) :
    wp Φ (Pure.pure a : Co ι ρ ε S α) Q X s = Q a s := rfl

@[simp] theorem wp_pure' (a : α) (s : S) :
    wp Φ (Co.pure a : Co ι ρ ε S α) Q X s = Q a s := rfl

@[simp] theorem wp_throw (e : ε) (s : S) :
    wp Φ (Co.throw e : Co ι ρ ε S α) Q X s = X e s := rfl

theorem wp_ask (i : ι) (Q : ρ i → S → M → Prop) (s : S) :
    wp Φ (Co.ask i : Co ι ρ ε S (ρ i)) Q X s = Φ i fun r => Q r s := rfl

@[simp] theorem wp_get (Q : S → S → M → Prop) (s : S) :
    wp Φ (Co.get : Co ι ρ ε S S) Q X s = Q s s := rfl

@[simp] theorem wp_modify (g : S → S) (Q : Unit → S → M → Prop) (s : S) :
    wp Φ (Co.modify g : Co ι ρ ε S Unit) Q X s = Q () (g s) := rfl

@[simp] theorem wp_ofExcept (r : Except ε α) (s : S) :
    wp Φ (Co.ofExcept r : Co ι ρ ε S α) Q X s
      = match r with
        | .ok a => Q a s
        | .error e => X e s := by
  cases r <;> rfl

theorem wp_bind (c : Co ι ρ ε S α) (f : α → Co ι ρ ε S β)
    (Q : β → S → M → Prop) (s : S) :
    wp Φ (c >>= f) Q X s = wp Φ c (fun a s' => wp Φ (f a) Q X s') X s := by
  show Interaction.wp Φ ((c s).bind _) _ = _
  rw [Interaction.wp_bind]
  unfold wp
  congr 1
  funext r
  obtain ⟨r | r, s'⟩ := r <;> rfl

theorem wp_tryCatch (c : Co ι ρ ε S α) (handler : ε → Co ι ρ ε S α) (s : S) :
    wp Φ (c.tryCatch handler) Q X s
      = wp Φ c Q (fun e s' => wp Φ (handler e) Q X s') s := by
  show Interaction.wp Φ ((c s).bind _) _ = _
  rw [Interaction.wp_bind]
  unfold wp
  congr 1
  funext r
  obtain ⟨r | r, s'⟩ := r <;> rfl

theorem wp_tryFinally (c : Co ι ρ ε S α) (last : Co ι ρ ε S Unit) (s : S) :
    wp Φ (c.tryFinally last) Q X s
      = wp Φ c (fun a s' => wp Φ last (fun _ s'' => Q a s'') X s')
          (fun e s' => wp Φ last (fun _ s'' => X e s'') X s') s := by
  show Interaction.wp Φ ((c s).bind _) _ = _
  rw [Interaction.wp_bind]
  unfold wp
  congr 1
  funext r
  obtain ⟨e | a, s'⟩ := r
  · exact wp_bind Φ (Q := Q) (X := X) last (fun _ => Co.throw e) s'
  · exact wp_bind Φ (Q := Q) (X := X) last (fun _ => Co.pure a) s'

variable {Φ} {Q} {X}

theorem wp_conseq (hΦ : Φ.Mono) {c : Co ι ρ ε S α} {Q' : α → S → M → Prop}
    {X' : ε → S → M → Prop} {s : S} {m : M} (h : wp Φ c Q X s m)
    (hQ : ∀ a s m, Q a s m → Q' a s m) (hX : ∀ e s m, X e s m → X' e s m) :
    wp Φ c Q' X' s m := by
  refine Interaction.wp_mono hΦ (c s) ?_ m h
  rintro ⟨r | r, s'⟩ m' hr
  · exact hX r s' m' hr
  · exact hQ r s' m' hr

/-! ## Coroutines that only act. -/

/-- Whatever it is answered, `c` performs operations of `G` only and leaves
the cell alone. -/
def Only (G : ι → Prop) (c : Co ι ρ ε S α) : Prop :=
  ∀ s, wp (fun i Q (_ : Unit) => G i ∧ ∀ r, Q r ()) c
    (fun _ s' _ => s' = s) (fun _ s' _ => s' = s) s ()

section Only

variable {G : ι → Prop}

theorem only_mono : OpSpec.Mono (ρ := ρ) (fun i Q (_ : Unit) => G i ∧ ∀ r, Q r ()) :=
  fun _ _ _ hQ _ h => ⟨h.1, fun r => hQ r () (h.2 r)⟩

theorem only_pure (a : α) : (Pure.pure a : Co ι ρ ε S α).Only G := fun _ => rfl

theorem only_throw (e : ε) : (Co.throw e : Co ι ρ ε S α).Only G := fun _ => rfl

theorem only_ofExcept (r : Except ε α) : (Co.ofExcept r : Co ι ρ ε S α).Only G := by
  cases r <;> exact fun _ => rfl

theorem only_ask {i : ι} (hi : G i) : (Co.ask i : Co ι ρ ε S (ρ i)).Only G :=
  fun _ => ⟨hi, fun _ => rfl⟩

theorem Only.bind {c : Co ι ρ ε S α} {f : α → Co ι ρ ε S β} (hc : c.Only G)
    (hf : ∀ a, (f a).Only G) : (c >>= f).Only G := by
  intro s
  rw [wp_bind]
  refine wp_conseq only_mono (hc s) ?_ fun _ _ _ h => h
  rintro a s' m rfl
  exact hf a s'

theorem Only.tryCatch {c : Co ι ρ ε S α} {handler : ε → Co ι ρ ε S α} (hc : c.Only G)
    (hh : ∀ e, (handler e).Only G) : (c.tryCatch handler).Only G := by
  intro s
  rw [wp_tryCatch]
  refine wp_conseq only_mono (hc s) (fun _ _ _ h => h) ?_
  rintro e s' m rfl
  exact hh e s'

theorem Only.tryFinally {c : Co ι ρ ε S α} {last : Co ι ρ ε S Unit} (hc : c.Only G)
    (hl : last.Only G) : (c.tryFinally last).Only G := by
  intro s
  rw [wp_tryFinally]
  refine wp_conseq only_mono (hc s) ?_ ?_
  · rintro a s' m rfl
    exact hl s'
  · rintro e s' m rfl
    exact hl s'

theorem Only.weaken {G' : ι → Prop} {c : Co ι ρ ε S α} (hc : c.Only G)
    (hG : ∀ i, G i → G' i) : c.Only G' := by
  have key : ∀ (p : Prog ι ρ (Except ε α × S)) (Q : Except ε α × S → Unit → Prop),
      Interaction.wp (fun i Q (_ : Unit) => G i ∧ ∀ r, Q r ()) p Q () →
      Interaction.wp (fun i Q (_ : Unit) => G' i ∧ ∀ r, Q r ()) p Q () := by
    intro p Q
    induction p with
    | ret a => exact id
    | op i k ih => exact fun h => ⟨hG i h.1, fun r => ih r (h.2 r)⟩
  exact fun s => key _ _ (hc s)

/-- An observer that takes no notice of `G`, and whose point condition
allows it, sees nothing of `c`. -/
theorem wp_of_only {step : M → Event ρ → M} {I : M → ι → Prop} {c : Co ι ρ ε S α}
    {Q : α → S → M → Prop} {X : ε → S → M → Prop} {s : S} {m : M} (hc : c.Only G)
    (hI : ∀ i, G i → I m i) (hstep : ∀ i r, G i → step m ⟨i, r⟩ = m)
    (hQ : ∀ a, Q a s m) (hX : ∀ e, X e s m) :
    wp (observe step I) c Q X s m := by
  have key : ∀ (p : Prog ι ρ (Except ε α × S)) (P : Except ε α × S → Prop),
      Interaction.wp (fun i Q (_ : Unit) => G i ∧ ∀ r, Q r ()) p (fun a _ => P a) () →
      Interaction.wp (observe step I) p (fun a m' => P a ∧ m' = m) m := by
    intro p P
    induction p with
    | ret a => exact fun h => ⟨h, rfl⟩
    | op i k ih =>
        refine fun h => ⟨hI i h.1, fun r => ?_⟩
        rw [hstep i r h.1]
        exact ih r (h.2 r)
  have hs := key (c s) (fun | (.ok _, s') => s' = s | (.error _, s') => s' = s) (by
    refine Interaction.wp_mono only_mono (c s) ?_ () (hc s)
    rintro ⟨e | a, s'⟩ _ h <;> exact h)
  refine Interaction.wp_mono (observe_mono step I) (c s) ?_ m hs
  rintro ⟨e | a, s'⟩ m' ⟨h, rfl⟩
  · obtain rfl : s' = s := h
    exact hX e
  · obtain rfl : s' = s := h
    exact hQ a

end Only

/-! ## Invariants. -/

/-- From `J`, the coroutine returns in `J` or raises in `X`. -/
def Keeps (Φ : OpSpec ρ M) (J : S → M → Prop) (X : ε → S → M → Prop)
    (c : Co ι ρ ε S α) : Prop :=
  ∀ s m, J s m → wp Φ c (fun _ s' m' => J s' m') X s m

section Keeps

variable {Φ : OpSpec ρ M} {J : S → M → Prop} {X : ε → S → M → Prop}

theorem keeps_pure (a : α) : (Pure.pure a : Co ι ρ ε S α).Keeps Φ J X := fun _ _ h => h

theorem keeps_throw {e : ε} (he : ∀ s m, J s m → X e s m) :
    (Co.throw e : Co ι ρ ε S α).Keeps Φ J X := fun s m h => he s m h

theorem keeps_ofExcept {r : Except ε α} (he : ∀ e s m, J s m → X e s m) :
    (Co.ofExcept r : Co ι ρ ε S α).Keeps Φ J X := by
  cases r with
  | ok a => exact fun _ _ h => h
  | error e => exact fun s m h => he e s m h

theorem keeps_modify {g : S → S} (hg : ∀ s m, J s m → J (g s) m) :
    (Co.modify g : Co ι ρ ε S Unit).Keeps Φ J X := fun s m h => hg s m h

theorem Keeps.bind (hΦ : Φ.Mono) {c : Co ι ρ ε S α} {f : α → Co ι ρ ε S β}
    (hc : c.Keeps Φ J X) (hf : ∀ a, (f a).Keeps Φ J X) : (c >>= f).Keeps Φ J X := by
  intro s m hs
  rw [wp_bind]
  exact wp_conseq hΦ (hc s m hs) (fun a s' m' h => hf a s' m' h) fun _ _ _ h => h

/-- A pure step that may raise leaves its value. -/
theorem Keeps.ofExcept_bind {r : Except ε α} {f : α → Co ι ρ ε S β}
    (he : ∀ e s m, J s m → X e s m) (hf : ∀ a, r = .ok a → (f a).Keeps Φ J X) :
    ((Co.ofExcept r : Co ι ρ ε S α) >>= f).Keeps Φ J X := by
  cases r with
  | error e => exact fun s m hs => he e s m hs
  | ok a => exact hf a rfl

/-- Reading the cell gives a state of `J`. -/
theorem Keeps.get_bind {f : S → Co ι ρ ε S β}
    (hf : ∀ s m, J s m → wp Φ (f s) (fun _ s' m' => J s' m') X s m) :
    ((Co.get : Co ι ρ ε S S) >>= f).Keeps Φ J X := by
  intro s m hs
  rw [wp_bind, wp_get]
  exact hf s m hs

theorem Keeps.tryCatch (hΦ : Φ.Mono) {c : Co ι ρ ε S α} {handler : ε → Co ι ρ ε S α}
    (hc : c.Keeps Φ J X)
    (hh : ∀ e s m, X e s m → wp Φ (handler e) (fun _ s' m' => J s' m') X s m) :
    (c.tryCatch handler).Keeps Φ J X := by
  intro s m hs
  rw [wp_tryCatch]
  exact wp_conseq hΦ (hc s m hs) (fun _ _ _ h => h) fun e s' m' h => hh e s' m' h

/-- Operations that keep `J` whatever they are answered. -/
theorem Only.keeps {G : ι → Prop} {c : Co ι ρ ε S α} (hc : c.Only G) (hΦ : Φ.Mono)
    (hG : ∀ i s m, G i → J s m → Φ i (fun _ m' => J s m') m)
    (he : ∀ e s m, J s m → X e s m) : c.Keeps Φ J X := by
  have key : ∀ (s : S) (p : Prog ι ρ (Except ε α × S)) (P : Except ε α × S → Prop),
      Interaction.wp (fun i Q (_ : Unit) => G i ∧ ∀ r, Q r ()) p (fun a _ => P a) () →
      ∀ m, J s m → Interaction.wp Φ p (fun a m' => P a ∧ J s m') m := by
    intro s p P
    induction p with
    | ret a => exact fun h m hm => ⟨h, hm⟩
    | op i k ih =>
        exact fun h m hm => hΦ i (fun r m' hm' => ih r (h.2 r) m' hm') m (hG i s m h.1 hm)
  intro s m hs
  have hp := key s (c s) (fun | (.ok _, s') => s' = s | (.error _, s') => s' = s) (by
    refine Interaction.wp_mono only_mono (c s) ?_ () (hc s)
    rintro ⟨e | a, s'⟩ _ h <;> exact h) m hs
  refine Interaction.wp_mono hΦ (c s) ?_ m hp
  rintro ⟨e | a, s'⟩ m' ⟨h, hm'⟩
  · obtain rfl : s' = s := h
    exact he e _ m' hm'
  · obtain rfl : s' = s := h
    exact hm'

end Keeps

/-! ## What a coroutine hands on. -/

/-- From `J`, the coroutine returns in `J` with a value of `P`, or raises in
`J` an exception of `E`. -/
def Yields (Φ : OpSpec ρ M) (J : S → M → Prop) (E : ε → Prop) (P : α → Prop)
    (c : Co ι ρ ε S α) : Prop :=
  ∀ s m, J s m → wp Φ c (fun a s' m' => J s' m' ∧ P a) (fun e s' m' => J s' m' ∧ E e) s m

section Yields

variable {Φ : OpSpec ρ M} {J : S → M → Prop} {E : ε → Prop} {P : α → Prop} {P' : β → Prop}

theorem yields_pure {a : α} (ha : P a) : (Pure.pure a : Co ι ρ ε S α).Yields Φ J E P :=
  fun _ _ hs => ⟨hs, ha⟩

theorem yields_throw {e : ε} (he : E e) : (Co.throw e : Co ι ρ ε S α).Yields Φ J E P :=
  fun _ _ hs => ⟨hs, he⟩

theorem yields_ofExcept {r : Except ε α} (ha : ∀ a, r = .ok a → P a)
    (he : ∀ e, r = .error e → E e) : (Co.ofExcept r : Co ι ρ ε S α).Yields Φ J E P := by
  cases r with
  | ok a => exact yields_pure (ha a rfl)
  | error e => exact yields_throw (he e rfl)

theorem yields_modify {g : S → S} (hg : ∀ s m, J s m → J (g s) m) :
    (Co.modify g : Co ι ρ ε S Unit).Yields Φ J E fun _ => True :=
  fun s m hs => ⟨hg s m hs, trivial⟩

theorem Yields.bind (hΦ : Φ.Mono) {c : Co ι ρ ε S α} {f : α → Co ι ρ ε S β}
    (hc : c.Yields Φ J E P) (hf : ∀ a, P a → (f a).Yields Φ J E P') :
    (c >>= f).Yields Φ J E P' := by
  intro s m hs
  rw [wp_bind]
  exact wp_conseq hΦ (hc s m hs) (fun a s' m' h => hf a h.2 s' m' h.1) fun _ _ _ h => h

/-- Reading the cell gives a state of `J`. -/
theorem Yields.get_bind {f : S → Co ι ρ ε S β}
    (hf : ∀ s m, J s m → wp Φ (f s) (fun a s' m' => J s' m' ∧ P' a)
      (fun e s' m' => J s' m' ∧ E e) s m) :
    ((Co.get : Co ι ρ ε S S) >>= f).Yields Φ J E P' := by
  intro s m hs
  rw [wp_bind, wp_get]
  exact hf s m hs

theorem Yields.tryCatch (hΦ : Φ.Mono) {c : Co ι ρ ε S α} {handler : ε → Co ι ρ ε S α}
    (hc : c.Yields Φ J E P) (hh : ∀ e, E e → (handler e).Yields Φ J E P) :
    (c.tryCatch handler).Yields Φ J E P := by
  intro s m hs
  rw [wp_tryCatch]
  exact wp_conseq hΦ (hc s m hs) (fun _ _ _ h => h) fun e s' m' h => hh e h.2 s' m' h.1

theorem Yields.tryFinally (hΦ : Φ.Mono) {c : Co ι ρ ε S α} {last : Co ι ρ ε S Unit}
    (hc : c.Yields Φ J E P) (hl : last.Yields Φ J E fun _ => True) :
    (c.tryFinally last).Yields Φ J E P := by
  intro s m hs
  rw [wp_tryFinally]
  refine wp_conseq hΦ (hc s m hs) (fun a s' m' h => ?_) fun e s' m' h => ?_
  · exact wp_conseq hΦ (hl s' m' h.1) (fun _ _ _ h' => ⟨h'.1, h.2⟩) fun _ _ _ h' => h'
  · exact wp_conseq hΦ (hl s' m' h.1) (fun _ _ _ h' => ⟨h'.1, h.2⟩) fun _ _ _ h' => h'

end Yields

/-! ## What a normal return guarantees. -/

/-- If `c` returns, it returns in `Q`; nothing is asked where it raises. -/
abbrev Leads (Φ : OpSpec ρ M) (c : Co ι ρ ε S α) (Q : α → S → M → Prop) (s : S) (m : M) :
    Prop := wp Φ c Q (fun _ _ _ => True) s m

section Leads

variable {Φ : OpSpec ρ M} {s : S} {m : M}

theorem Leads.conseq (hΦ : Φ.Mono) {c : Co ι ρ ε S α} {P Q : α → S → M → Prop}
    (hc : Leads Φ c P s m) (hPQ : ∀ a s m, P a s m → Q a s m) : Leads Φ c Q s m :=
  wp_conseq hΦ hc hPQ fun _ _ _ h => h

theorem Leads.bind (hΦ : Φ.Mono) {c : Co ι ρ ε S α} {f : α → Co ι ρ ε S β}
    {P : α → S → M → Prop} {Q : β → S → M → Prop} (hc : Leads Φ c P s m)
    (hf : ∀ a s' m', P a s' m' → Leads Φ (f a) Q s' m') : Leads Φ (c >>= f) Q s m := by
  show wp _ _ _ _ _ _
  rw [wp_bind]
  exact wp_conseq hΦ hc hf fun _ _ _ h => h

theorem Leads.ofExcept_bind {r : Except ε α} {f : α → Co ι ρ ε S β} {Q : β → S → M → Prop}
    (hf : ∀ a, r = .ok a → Leads Φ (f a) Q s m) :
    Leads Φ ((Co.ofExcept r : Co ι ρ ε S α) >>= f) Q s m := by
  cases r with
  | error e => trivial
  | ok a => exact hf a rfl

end Leads

/-! ## Labels. -/

variable {γ : Type} {l : ι → Option γ} {L L' : List γ}

/-- The labels a coroutine can show, from any cell. -/
def Emits (l : ι → Option γ) (c : Co ι ρ ε S α) (L : List γ) : Prop :=
  ∀ s, Interaction.Emits l (c s) L

theorem emits_pure (a : α) : (Pure.pure a : Co ι ρ ε S α).Emits l [] :=
  fun _ => .ret _ _

theorem emits_throw (e : ε) : (Co.throw e : Co ι ρ ε S α).Emits l [] :=
  fun _ => .ret _ _

theorem emits_get : (Co.get : Co ι ρ ε S S).Emits l [] :=
  fun _ => .ret _ _

theorem emits_modify (g : S → S) : (Co.modify g : Co ι ρ ε S Unit).Emits l [] :=
  fun _ => .ret _ _

theorem emits_ofExcept (r : Except ε α) : (Co.ofExcept r : Co ι ρ ε S α).Emits l [] := by
  cases r <;> exact fun _ => .ret _ _

theorem emits_ask (i : ι) : (Co.ask i : Co ι ρ ε S (ρ i)).Emits l (l i).toList := by
  intro s
  cases hi : l i with
  | none => exact .silent hi fun _ => .ret _ _
  | some g => exact .label hi fun _ => .ret _ _

/-- Operations without a label show nothing. -/
theorem Only.emits {G : ι → Prop} {c : Co ι ρ ε S α} (hc : c.Only G)
    (hl : ∀ i, G i → l i = none) : c.Emits l [] := by
  have key : ∀ (p : Prog ι ρ (Except ε α × S)) (Q : Except ε α × S → Unit → Prop),
      Interaction.wp (fun i Q (_ : Unit) => G i ∧ ∀ r, Q r ()) p Q () →
      Interaction.Emits l p [] := by
    intro p Q
    induction p with
    | ret a => exact fun _ => .ret a []
    | op i k ih => exact fun h => .silent (hl i h.1) fun r => ih r (h.2 r)
  exact fun s => key _ _ (hc s)

theorem Emits.weaken {c : Co ι ρ ε S α} (h : c.Emits l []) : c.Emits l L :=
  fun s => by simpa using (h s).prepend L

theorem Emits.skip {c : Co ι ρ ε S α} {g : γ} (h : c.Emits l L) : c.Emits l (g :: L) :=
  fun s => (h s).skip

theorem Emits.bind {c : Co ι ρ ε S α} {f : α → Co ι ρ ε S β}
    (hc : c.Emits l L) (hf : ∀ a, (f a).Emits l L') : (c >>= f).Emits l (L ++ L') := by
  intro s
  refine (hc s).bind ?_
  rintro ⟨e | a, s'⟩
  · exact .ret _ _
  · exact hf a s'

/-- A step that shows nothing. -/
theorem Emits.silent_bind {c : Co ι ρ ε S α} {f : α → Co ι ρ ε S β}
    (hc : c.Emits l []) (hf : ∀ a, (f a).Emits l L) : (c >>= f).Emits l L :=
  Emits.bind hc hf

/-- A step that shows the first label. -/
theorem Emits.cons_bind {c : Co ι ρ ε S α} {f : α → Co ι ρ ε S β} {g : γ}
    (hc : c.Emits l [g]) (hf : ∀ a, (f a).Emits l L) : (c >>= f).Emits l (g :: L) :=
  Emits.bind hc hf

theorem Emits.tryCatch {c : Co ι ρ ε S α} {handler : ε → Co ι ρ ε S α}
    (hc : c.Emits l L) (hh : ∀ e, (handler e).Emits l L') :
    (c.tryCatch handler).Emits l (L ++ L') := by
  intro s
  refine (hc s).bind ?_
  rintro ⟨e | a, s'⟩
  · exact hh e s'
  · exact .ret _ _

theorem Emits.tryFinally {c : Co ι ρ ε S α} {last : Co ι ρ ε S Unit}
    (hc : c.Emits l L) (hl : last.Emits l L') : (c.tryFinally last).Emits l (L ++ L') := by
  intro s
  refine (hc s).bind ?_
  rintro ⟨e | a, s'⟩
  · have h := Emits.bind (α := Unit) (β := α) hl (fun _ => emits_throw e) s'
    rwa [List.append_nil] at h
  · have h := Emits.bind (α := Unit) (β := α) hl (fun _ => emits_pure a) s'
    rwa [List.append_nil] at h

end Co

end Interaction

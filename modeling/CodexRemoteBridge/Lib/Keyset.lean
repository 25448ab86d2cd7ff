/-
  CodexRemoteBridge.Lib.Keyset — paging through a table that grows.

  The rows of a table are numbered from one in the order of their insertion,
  and a page is the newest rows below a number that a filter lets through.
  Between two pages rows may be added, and the filter may come to let old
  rows through, but not the other way round.

  Main results:
    • `Keyset.page_cases` — what a page is: every row that is left, or the
      newest of them down to the row whose number is handed on.
    • `Keyset.Covered.page` — a page goes on where the last one stopped.
-/
import Mathlib.Data.List.Forall2

namespace CodexRemoteBridge

namespace Keyset

variable {α κ : Type}

/-! ## §1. Pages. -/

/-- `SELECT … WHERE p AND (before IS NULL OR rowid < before) ORDER BY rowid DESC LIMIT count`. -/
def query (p : α → Bool) (rows : List α) (before : Option Nat) (count : Nat) : List (α × Nat) :=
  ((rows.zipIdx 1).reverse.filter fun x => p x.1 && before.all fun bound => x.2 < bound).take count

/-- A page of `limit` rows, with the number the next page has to stay below.
One row more is asked for, to know whether there is a next page. -/
def page (p : α → Bool) (rows : List α) (before : Option Nat) (limit : Nat) :
    List α × Option Nat :=
  let found := query p rows before (limit + 1)
  ((found.take limit).map (·.1),
    if limit < found.length then (found[limit - 1]?).map (·.2) else none)

/-- The newest rows that a filter lets through end at one of them. -/
theorem take_filter {q : α → Bool} {n : Nat} (hn : 0 < n) :
    ∀ l : List α, n ≤ (l.filter q).length →
      ∃ high a low, l = high ++ a :: low ∧ q a = true ∧
        (l.filter q).take n = high.filter q ++ [a] := by
  intro l
  induction l generalizing n with
  | nil =>
      intro h
      simp at h
      omega
  | cons b rest ih =>
      intro h
      by_cases hb : q b = true
      · rw [List.filter_cons_of_pos hb] at h ⊢
        obtain ⟨n, rfl⟩ : ∃ m, n = m + 1 := ⟨n - 1, by omega⟩
        by_cases hzero : n = 0
        · exact ⟨[], b, rest, rfl, hb, by simp [hzero]⟩
        · obtain ⟨high, a, low, hrest, ha, htake⟩ :=
            ih (n := n) (by omega) (by simpa using h)
          refine ⟨b :: high, a, low, by rw [hrest]; rfl, ha, ?_⟩
          rw [List.take_succ_cons, htake, List.filter_cons_of_pos hb]
          rfl
      · rw [List.filter_cons_of_neg hb] at h ⊢
        obtain ⟨high, a, low, hrest, ha, htake⟩ := ih hn h
        refine ⟨b :: high, a, low, by rw [hrest]; rfl, ha, ?_⟩
        rw [htake, List.filter_cons_of_neg hb]

/-- The rows below a number are the rows of an older table. -/
theorem query_below (p : α → Bool) (rows : List α) (k count : Nat) :
    query p rows (some (k + 1)) count = query p (rows.take k) none count := by
  unfold query
  congr 1
  conv_lhs => rw [← List.take_append_drop k rows, List.zipIdx_append, List.reverse_append,
    List.filter_append]
  have hnew : (((rows.drop k).zipIdx (1 + (rows.take k).length)).reverse.filter fun x =>
      p x.1 && (some (k + 1)).all fun bound => x.2 < bound) = [] := by
    refine List.filter_eq_nil_iff.mpr fun x hx => ?_
    have hle := List.le_snd_of_mem_zipIdx (List.mem_reverse.mp hx)
    have hlt := List.snd_lt_of_mem_zipIdx (List.mem_reverse.mp hx)
    simp only [List.length_take, List.length_drop] at hle hlt
    have hnot : ¬ x.2 < k + 1 := by omega
    simp [hnot]
  rw [hnew, List.nil_append]
  refine List.filter_congr fun x hx => ?_
  have hlt := List.snd_lt_of_mem_zipIdx (List.mem_reverse.mp hx)
  simp only [List.length_take] at hlt
  have hbelow : x.2 < k + 1 := by omega
  simp [hbelow]

theorem page_below (p : α → Bool) (rows : List α) (k limit : Nat) :
    page p rows (some (k + 1)) limit = page p (rows.take k) none limit := by
  unfold page
  rw [query_below]

/-- The same for any bound; below zero there is nothing. -/
theorem page_bound (p : α → Bool) (rows : List α) (before limit : Nat) :
    page p rows (some before) limit = page p (rows.take (before - 1)) none limit := by
  cases before with
  | zero =>
      have hnone : query p rows (some 0) (limit + 1) = [] := by
        unfold query
        rw [List.filter_eq_nil_iff.mpr (by simp), List.take_nil]
      have hempty : query p (rows.take (0 - 1)) none (limit + 1) = [] := by simp [query]
      unfold page
      rw [hnone, hempty]
  | succ k => exact page_below p rows k limit

theorem zipIdx_reverse_filter (p : α → Bool) (rows : List α) (n : Nat) :
    ((rows.zipIdx n).reverse.filter fun x => p x.1).map (·.1) = (rows.filter p).reverse := by
  rw [← List.filter_reverse, ← List.zipIdx_map_fst n rows, ← List.map_reverse, List.filter_map,
    List.zipIdx_map_fst]
  rfl

/-- **What a page is.** -/
theorem page_cases (p : α → Bool) (rows : List α) {limit : Nat} (hlimit : 0 < limit) :
    page p rows none limit = ((rows.filter p).reverse, none) ∨
    ∃ low a high, rows = low ++ a :: high ∧ p a = true ∧
      page p rows none limit = (((a :: high).filter p).reverse, some (low.length + 1)) := by
  have hquery : query p rows none (limit + 1)
      = ((rows.zipIdx 1).reverse.filter fun x => p x.1).take (limit + 1) := by
    simp [query]
  unfold page
  rw [hquery]
  generalize hall : ((rows.zipIdx 1).reverse.filter fun x => p x.1) = all
  by_cases hmore : limit < all.length
  · right
    obtain ⟨high, a, low, hsplit, ha, htake⟩ :=
      take_filter (q := fun x : α × Nat => p x.1) hlimit (rows.zipIdx 1).reverse
        (by rw [hall]; omega)
    rw [hall] at htake
    -- the rows in the order of their insertion
    have hrows : rows.zipIdx 1 = low.reverse ++ a :: high.reverse := by
      rw [← List.reverse_reverse (rows.zipIdx 1), hsplit]
      simp
    obtain ⟨older, newer, hparts, hlow, hhigh⟩ := List.zipIdx_eq_append_iff.mp hrows
    obtain ⟨x, rest, hnewer, hx, hrest⟩ := List.zipIdx_eq_cons_iff.mp hhigh.symm
    refine ⟨older, x, rest, by rw [hparts, hnewer], ?_, ?_⟩
    · rw [hx] at ha
      exact ha
    · have hlength : (high.filter fun x => p x.1).length = limit - 1 := by
        have := congrArg List.length htake
        simp only [List.length_take, List.length_append, List.length_singleton] at this
        omega
      have hfirst : (all.take (limit + 1)).take limit = all.take limit := by
        rw [List.take_take]
        congr 1
        omega
      have hlast : (all.take (limit + 1))[limit - 1]? = some a := by
        rw [List.getElem?_take_of_lt (by omega), ← List.getElem?_take_of_lt (i := limit - 1)
          (j := limit) (by omega), htake, ← hlength]
        simp
      have hcount : limit < (all.take (limit + 1)).length := by
        rw [List.length_take]
        omega
      dsimp only
      rw [if_pos hcount, hfirst, hlast, htake]
      refine Prod.ext ?_ (by simp [hx, Nat.add_comm])
      have hhigh' : high = (rest.zipIdx (1 + older.length + 1)).reverse := by
        rw [← hrest, List.reverse_reverse]
      show (high.filter (fun x => p x.1) ++ [a]).map (·.1) = _
      rw [hx] at ha ⊢
      rw [List.map_append, hhigh', zipIdx_reverse_filter, List.filter_cons_of_pos ha,
        List.reverse_cons]
      rfl
  · left
    have htake : all.take (limit + 1) = all := List.take_of_length_le (by omega)
    have htake' : all.take limit = all := List.take_of_length_le (by omega)
    dsimp only
    rw [htake, htake', if_neg hmore, ← hall, zipIdx_reverse_filter]

/-! ## §2. A table that grows. -/

variable {name : α → κ} {p : α → Bool}

/-- A row and what has become of it: the filter lets it through if it did. -/
def Kept (name : α → κ) (p : α → Bool) (a b : α) : Prop := name a = name b ∧ (p a = true → p b = true)

/-- The rows are still there, in their order; what is new comes after them. -/
def Grows (name : α → κ) (p : α → Bool) (old new : List α) : Prop :=
  ∃ kept added, new = kept ++ added ∧ List.Forall₂ (Kept name p) old kept

theorem Kept.refl (a : α) : Kept name p a a := ⟨rfl, id⟩

theorem Kept.trans {a b c : α} (h : Kept name p a b) (h' : Kept name p b c) : Kept name p a c :=
  ⟨h.1.trans h'.1, fun ha => h'.2 (h.2 ha)⟩

theorem forall₂_kept_refl (rows : List α) : List.Forall₂ (Kept name p) rows rows :=
  List.forall₂_same.mpr fun a _ => Kept.refl a

theorem forall₂_kept_trans {xs ys zs : List α} (h : List.Forall₂ (Kept name p) xs ys)
    (h' : List.Forall₂ (Kept name p) ys zs) : List.Forall₂ (Kept name p) xs zs := by
  induction h generalizing zs with
  | nil => exact h'
  | cons hab _ ih =>
      cases h' with
      | cons hbc hrest => exact .cons (hab.trans hbc) (ih hrest)

theorem Grows.refl (rows : List α) : Grows name p rows rows :=
  ⟨rows, [], by simp, forall₂_kept_refl rows⟩

theorem Grows.append (rows added : List α) : Grows name p rows (rows ++ added) :=
  ⟨rows, added, rfl, forall₂_kept_refl rows⟩

theorem Grows.trans {xs ys zs : List α} (h : Grows name p xs ys) (h' : Grows name p ys zs) :
    Grows name p xs zs := by
  obtain ⟨kept, added, rfl, hkept⟩ := h
  obtain ⟨kept', added', rfl, hkept'⟩ := h'
  refine ⟨kept'.take kept.length, kept'.drop kept.length ++ added', ?_, ?_⟩
  · rw [← List.append_assoc, List.take_append_drop]
  · have htake := List.forall₂_take kept.length hkept'
    rw [List.take_left] at htake
    exact forall₂_kept_trans hkept htake

/-- The oldest rows are where they were. -/
theorem Grows.take {old new : List α} (h : Grows name p old new) {k : Nat} (hk : k ≤ old.length) :
    List.Forall₂ (Kept name p) (old.take k) (new.take k) := by
  obtain ⟨kept, added, rfl, hkept⟩ := h
  rw [List.take_append_of_le_length (by rw [← hkept.length_eq]; exact hk)]
  exact List.forall₂_take k hkept

theorem map_eq_of_kept {xs ys : List α} (h : List.Forall₂ (Kept name p) xs ys) :
    xs.map name = ys.map name := by
  induction h with
  | nil => rfl
  | cons hab _ ih => rw [List.map_cons, List.map_cons, hab.1, ih]

/-- A row that the filter let through is still listed. -/
theorem mem_filter_of_kept {xs ys : List α} (h : List.Forall₂ (Kept name p) xs ys) {a : α}
    (ha : a ∈ xs) (hp : p a = true) : name a ∈ (ys.filter p).map name := by
  induction h with
  | nil => cases ha
  | @cons x y xs ys hxy _ ih =>
      rcases List.mem_cons.mp ha with rfl | ha
      · rw [List.filter_cons_of_pos (hxy.2 hp), List.map_cons, hxy.1]
        exact List.mem_cons_self
      · by_cases hy : p y = true
        · rw [List.filter_cons_of_pos hy, List.map_cons]
          exact List.mem_cons_of_mem _ (ih ha)
        · rw [List.filter_cons_of_neg hy]
          exact ih ha

/-! ## §3. Page after page. -/

/-- The pages so far have listed `names`; the `k` oldest rows of the table
they started from are left. -/
structure Covered (name : α → κ) (p : α → Bool) (rows : List α) (k : Nat) (names : List κ) :
    Prop where
  /-- No other rows, and those newest first. -/
  listed : names.Sublist ((rows.drop k).map name).reverse
  complete : ∀ a ∈ rows.drop k, p a = true → name a ∈ names

theorem Covered.start (rows : List α) : Covered name p rows rows.length [] where
  listed := by simp
  complete := by simp

/-- What `Covered` says when nothing is left. -/
theorem Covered.all {rows : List α} {names : List κ} (h : Covered name p rows 0 names) :
    names.Sublist (rows.map name).reverse ∧ ∀ a ∈ rows, p a = true → name a ∈ names :=
  ⟨h.listed, h.complete⟩

/-- Listing the newer part `l` of the rows that are left. -/
theorem Covered.extend {rows now : List α} {k j : Nat} {names : List κ}
    (h : Covered name p rows k names) (hgrows : Grows name p rows now) (hk : k ≤ rows.length)
    (hj : j ≤ k) :
    Covered name p rows j
      (names ++ ((((now.take k).drop j).filter p).reverse).map name) := by
  have hkept := List.forall₂_drop j (hgrows.take hk)
  have hsplit : rows.drop j = (rows.take k).drop j ++ rows.drop k := by
    conv_lhs => rw [← List.take_append_drop k rows]
    rw [List.drop_append_of_le_length (by rw [List.length_take]; omega)]
  constructor
  · rw [hsplit, List.map_append, List.reverse_append, map_eq_of_kept hkept, List.map_reverse]
    refine h.listed.append ?_
    exact ((List.filter_sublist).map name).reverse
  · intro a ha hp
    rw [hsplit] at ha
    rcases List.mem_append.mp ha with ha | ha
    · refine List.mem_append_right _ ?_
      rw [List.map_reverse, List.mem_reverse]
      exact mem_filter_of_kept hkept ha hp
    · exact List.mem_append_left _ (h.complete a ha hp)

/-- The number a reader stays below when `k` rows are left: none when it has
not read anything. -/
def Bound (rows : List α) (k : Nat) (before : Option Nat) (now : List α) : Prop :=
  before = some (k + 1) ∧ k ≤ rows.length ∨ before = none ∧ k = rows.length ∧ now = rows

/-- **The step lemma.**  A page goes on where the last one stopped, also when
the table has grown since: either it is the last one, or it lists something
and hands on the number to go on from. -/
theorem Covered.page {rows now : List α} {k limit : Nat} {before : Option Nat} {names : List κ}
    (h : Covered name p rows k names) (hgrows : Grows name p rows now)
    (hbound : Bound rows k before now) (hlimit : 0 < limit) :
    let next := Keyset.page p now before limit
    (next.2 = none ∧ Covered name p rows 0 (names ++ next.1.map name)) ∨
    ∃ j, j < k ∧ next.2 = some (j + 1) ∧ next.1 ≠ [] ∧
      Covered name p rows j (names ++ next.1.map name) := by
  have hk : k ≤ rows.length := by
    rcases hbound with ⟨-, hk⟩ | ⟨-, rfl, -⟩
    · exact hk
    · exact Nat.le_refl _
  have hpage : Keyset.page p now before limit = Keyset.page p (now.take k) none limit := by
    rcases hbound with ⟨rfl, -⟩ | ⟨rfl, rfl, rfl⟩
    · exact page_below p now k limit
    · rw [List.take_length]
  have hlen : k ≤ now.length := by
    have hcount := (hgrows.take hk).length_eq
    simp only [List.length_take] at hcount
    omega
  dsimp only
  rw [hpage]
  rcases page_cases p (now.take k) hlimit with hlast | ⟨low, a, high, hsplit, ha, hmore⟩
  · left
    rw [hlast]
    have hall := h.extend hgrows hk (Nat.zero_le k)
    rw [List.drop_zero] at hall
    exact ⟨rfl, hall⟩
  · right
    rw [hmore]
    have hlow : low.length < k := by
      have hcount := congrArg List.length hsplit
      simp only [List.length_take, List.length_append, List.length_cons] at hcount
      omega
    have hpart := h.extend hgrows hk (Nat.le_of_lt hlow)
    rw [hsplit, List.drop_left] at hpart
    refine ⟨low.length, hlow, rfl, ?_, hpart⟩
    simp [List.filter_cons_of_pos ha]

end Keyset

end CodexRemoteBridge

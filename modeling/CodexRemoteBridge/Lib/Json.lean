/-
  CodexRemoteBridge.Lib.Json — JSON values as Python's `json` module
  represents them: dicts keep insertion order, `==` compares numbers by
  value (so `False == 0 == 0.0`) and dicts without regard to order.

  A float is kept as its shortest `repr`, which determines it; its value is
  that of the double, so `10 ** 23` is not `1e+23`.
-/
import Mathlib.Algebra.Group.Nat.Defs
import Mathlib.Data.Rat.Defs
import Mathlib.Data.List.Basic
import Mathlib.Data.List.Nodup

/-- A JSON value. -/
inductive Json where
  | null
  | bool (b : Bool)
  | int (n : Int)
  | float (repr : String)
  | str (s : String)
  | arr (items : List Json)
  | obj (fields : List (String × Json))
  deriving Inhabited

/-- A dict: keys in insertion order. -/
abbrev Dict : Type := List (String × Json)

/-! ## §1. Dicts. -/

namespace Dict

/-- `d.get(key)`, without a default. -/
def get? : Dict → String → Option Json
  | [], _ => none
  | (k, v) :: rest, key => if k = key then some v else get? rest key

/-- `d[key] = value`: an existing key keeps its place. -/
def set : Dict → String → Json → Dict
  | [], key, value => [(key, value)]
  | (k, v) :: rest, key, value =>
      if k = key then (k, value) :: rest else (k, v) :: set rest key value

/-- `d.update(other)`, which is also `{**d, **other}`. -/
def update (d : Dict) : Dict → Dict
  | [] => d
  | (k, v) :: rest => update (d.set k v) rest

/-- `set(d)`: the keys. -/
def keys (d : Dict) : List String := d.map (·.1)

@[simp] theorem get?_nil (key : String) : get? [] key = none := rfl

@[simp] theorem get?_cons (k key : String) (v : Json) (rest : Dict) :
    get? ((k, v) :: rest) key = if k = key then some v else get? rest key := rfl

theorem get?_set (d : Dict) (key key' : String) (value : Json) :
    get? (d.set key value) key' = if key = key' then some value else d.get? key' := by
  induction d with
  | nil => simp [set]
  | cons kv rest ih =>
      obtain ⟨k, v⟩ := kv
      by_cases hk : k = key
      · subst hk
        by_cases hk' : k = key' <;> simp [set, hk']
      · by_cases hk' : k = key'
        · subst hk'
          simp [set, hk, Ne.symm hk]
        · simp [set, hk, hk', ih]

@[simp] theorem get?_set_self (d : Dict) (key : String) (value : Json) :
    get? (d.set key value) key = some value := by simp [get?_set]

theorem get?_set_ne (d : Dict) {key key' : String} (value : Json) (h : key ≠ key') :
    get? (d.set key value) key' = d.get? key' := by simp [get?_set, h]

@[simp] theorem update_nil (d : Dict) : d.update [] = d := rfl

@[simp] theorem update_cons (d : Dict) (k : String) (v : Json) (rest : Dict) :
    d.update ((k, v) :: rest) = (d.set k v).update rest := rfl

theorem get?_update_of_notMem (other : Dict) :
    ∀ (d : Dict) {key : String}, key ∉ other.keys → (d.update other).get? key = d.get? key := by
  induction other with
  | nil => intro d key _; rfl
  | cons kv rest ih =>
      intro d key hkey
      obtain ⟨k, v⟩ := kv
      simp only [keys, List.map_cons, List.mem_cons, not_or] at hkey
      rw [update_cons, ih _ hkey.2, get?_set_ne d v (Ne.symm hkey.1)]

theorem mem_set {d : Dict} {key : String} {value : Json} {kv : String × Json}
    (h : kv ∈ d.set key value) : kv = (key, value) ∨ kv ∈ d := by
  induction d with
  | nil => exact .inl (List.mem_singleton.mp h)
  | cons head rest ih =>
      obtain ⟨k, v⟩ := head
      by_cases hk : k = key
      · simp only [set, if_pos hk, List.mem_cons] at h
        rcases h with rfl | h
        · exact .inl (by rw [hk])
        · exact .inr (List.mem_cons_of_mem _ h)
      · simp only [set, if_neg hk, List.mem_cons] at h
        rcases h with rfl | h
        · exact .inr List.mem_cons_self
        · exact (ih h).imp id (List.mem_cons_of_mem _)

theorem nodup_keys_set {d : Dict} (hd : d.keys.Nodup) (key : String) (value : Json) :
    (d.set key value).keys.Nodup := by
  have hkeys : ∀ d : Dict, ∀ k ∈ (d.set key value).keys, k = key ∨ k ∈ d.keys := by
    intro d k hk
    obtain ⟨kv, hkv, rfl⟩ := List.mem_map.mp hk
    rcases mem_set hkv with rfl | hmem
    · exact .inl rfl
    · exact .inr (List.mem_map_of_mem hmem)
  induction d with
  | nil => exact List.nodup_singleton _
  | cons head rest ih =>
      obtain ⟨k, v⟩ := head
      obtain ⟨hnot, hrest⟩ := List.nodup_cons.mp hd
      by_cases hk : k = key
      · simp only [set, if_pos hk]
        exact hd
      · simp only [set, if_neg hk]
        refine List.nodup_cons.mpr ⟨fun hmem => ?_, ih hrest⟩
        exact (hkeys rest k hmem).elim hk hnot

end Dict

/-! ## §2. Python's reading of a value. -/

namespace Json

/-- The decimal digits `cs` as a number. -/
def digits (cs : List Char) : Option Nat :=
  if cs.isEmpty then none
  else cs.foldlM (fun n c => if c.isDigit then some (10 * n + (c.toNat - 48)) else none) 0

/-- Split at the first `c`. -/
def splitAtChar (c : Char) (cs : List Char) : List Char × Option (List Char) :=
  match cs.dropWhile (· != c) with
  | [] => (cs, none)
  | _ :: rest => (cs.takeWhile (· != c), some rest)

/-- A sign, then digits. -/
def signed : List Char → Option Int
  | '-' :: cs => (digits cs).map fun n => -(n : Int)
  | '+' :: cs => (digits cs).map Int.ofNat
  | cs => (digits cs).map Int.ofNat

/-- Round `n / d` to the nearest number, a tie to the even one. -/
def roundEven (n d : Nat) : Nat :=
  if 2 * (n % d) < d then n / d
  else if d < 2 * (n % d) then n / d + 1
  else if n / d % 2 = 0 then n / d else n / d + 1

/-- `n / d / b ^ k`, as a fraction. -/
def scaleBy (b n d : Nat) (k : Int) : Nat × Nat :=
  if 0 ≤ k then (n, d * b ^ k.toNat) else (n * b ^ (-k).toNat, d)

/-- The double nearest to `n / d`, as `m * 2 ^ k`. -/
def nearestDouble (n d : Nat) : Nat × Int :=
  let k₀ : Int := (Nat.log2 n : Int) - Nat.log2 d - 52
  let (p, q) := scaleBy 2 n d k₀
  let k := max (-1074) (if p < q * 2 ^ 52 then k₀ - 1 else k₀)
  let (p, q) := scaleBy 2 n d k
  let m := roundEven p q
  if m = 2 ^ 53 then (2 ^ 52, k + 1) else (m, k)

/-- The value of a double `m * 2 ^ k`. -/
def doubleValue (x : Nat × Int) : ℚ :=
  if 0 ≤ x.2 then x.1 * 2 ^ x.2.toNat else x.1 / 2 ^ (-x.2).toNat

/-- The value of a finite float, which is the double nearest to its `repr`;
`none` for `NaN` and the infinities. -/
def floatValue (repr : String) : Option ℚ := do
  let (negative, cs) := match repr.toList with
    | '-' :: cs => (true, cs)
    | cs => (false, cs)
  let (mantissa, exponent) := splitAtChar 'e' cs
  let (whole, fraction) := splitAtChar '.' mantissa
  let fraction := fraction.getD []
  let n ← digits (whole ++ fraction)
  let e ← match exponent with
    | none => some 0
    | some cs => signed cs
  let e := e - fraction.length
  let (n, d) := if 0 ≤ e then (n * 10 ^ e.toNat, 1) else (n, 10 ^ (-e).toNat)
  let magnitude := doubleValue (nearestDouble n d)
  some (if negative then -magnitude else magnitude)

/-- The numeric value of a number or a boolean. -/
def number? : Json → Option ℚ
  | .bool b => some (if b then 1 else 0)
  | .int n => some n
  | .float repr => floatValue repr
  | _ => none

/-- `==` on two numbers: by value; an infinity equals itself, `NaN` nothing. -/
def numberEq (a b : Json) : Bool :=
  match number? a, number? b with
  | some x, some y => x == y
  | none, none =>
      match a, b with
      | .float x, .float y => x == y && x != "NaN"
      | _, _ => false
  | _, _ => false

/-- `a is b`, where that matters: the decoder has one object for every `NaN`. -/
def oneNaN : Json → Json → Bool
  | .float x, .float y => x == "NaN" && y == "NaN"
  | _, _ => false

mutual
/-- Python's `==`. -/
def pyEq : Json → Json → Bool
  | .null, .null => true
  | .str a, .str b => a == b
  | .arr xs, .arr ys => pyEqItems xs ys
  | .obj xs, .obj ys => xs.length == ys.length && pyEqFields xs ys
  | a, b => numberEq a b

/-- `==` on lists: item by item, where one object is equal to itself. -/
def pyEqItems : List Json → List Json → Bool
  | [], [] => true
  | x :: xs, y :: ys => (oneNaN x y || pyEq x y) && pyEqItems xs ys
  | _, _ => false

/-- Every item of the first dict is an item of the second. -/
def pyEqFields : Dict → Dict → Bool
  | [], _ => true
  | (k, v) :: rest, other =>
      (match Dict.get? other k with
       | some w => oneNaN v w || pyEq v w
       | none => false) && pyEqFields rest other
end

/-- `==` as a container asks it of what it holds. -/
def heldEq (v w : Json) : Bool := oneNaN v w || pyEq v w

@[simp] theorem oneNaN_null (w : Json) : oneNaN .null w = false := rfl

@[simp] theorem oneNaN_bool (b : Bool) (w : Json) : oneNaN (.bool b) w = false := rfl

@[simp] theorem oneNaN_int (n : Int) (w : Json) : oneNaN (.int n) w = false := rfl

@[simp] theorem oneNaN_str (s : String) (w : Json) : oneNaN (.str s) w = false := rfl

@[simp] theorem oneNaN_arr (items : List Json) (w : Json) : oneNaN (.arr items) w = false := rfl

@[simp] theorem oneNaN_obj (fields : Dict) (w : Json) : oneNaN (.obj fields) w = false := rfl

/-- `bool(value)`. -/
def truthy : Json → Bool
  | .null => false
  | .bool b => b
  | .int n => n != 0
  | .float repr => floatValue repr != some 0
  | .str s => s != ""
  | .arr items => !items.isEmpty
  | .obj fields => !fields.isEmpty

/-- `==` with a string holds of that string only. -/
theorem pyEq_str (v : Json) (s : String) : pyEq v (.str s) = true ↔ v = .str s := by
  cases v <;> simp [pyEq, numberEq, number?]
  split <;> simp_all

/-- `==` with a list of one string holds of that list only. -/
theorem pyEq_singleton_str (v : Json) (s : String) :
    pyEq v (.arr [.str s]) = true ↔ v = .arr [.str s] := by
  cases v with
  | arr items =>
      rcases items with _ | ⟨x, _ | ⟨y, ys⟩⟩ <;> simp [pyEq, pyEqItems, pyEq_str, oneNaN]
  | null => simp [pyEq, numberEq, number?]
  | bool b => simp [pyEq, numberEq, number?]
  | int n => simp [pyEq, numberEq, number?]
  | float r =>
      simp [pyEq, numberEq, number?]
      split <;> simp_all
  | str t => simp [pyEq, numberEq, number?]
  | obj fields => simp [pyEq, numberEq, number?]

end Json

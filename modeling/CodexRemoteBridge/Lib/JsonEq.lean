/-
  CodexRemoteBridge.Lib.JsonEq — Python's `==` on decoded JSON, beside the
  equality of JSON values.

  JSON tells `true` from `1`, Python does not; in everything else the two
  agree.  What `json.loads` reads equals itself, unless it is `NaN`: in a
  list or a dict the one object for `NaN` equals itself too.

  Main results:
    • `heldEq_eq_same` — `==` inside a container is the equality of JSON
      values with their booleans read as numbers;
    • `pyEq_eq_same` — so is `==` of any value but `NaN`;
    • `pyEq_self` — a decoded value other than `NaN` equals itself.
-/
import CodexRemoteBridge.Lib.JsonParse
import Mathlib.Data.Rat.Cast.Defs

namespace Json

/-! ## §1. JSON equality. -/

mutual
/-- Equality of JSON values: numbers by value, objects without regard to
order; `NaN` is one value. -/
def same : Json → Json → Bool
  | .null, .null => true
  | .bool a, .bool b => a == b
  | .str a, .str b => a == b
  | .arr xs, .arr ys => sameItems xs ys
  | .obj xs, .obj ys => xs.length == ys.length && sameFields xs ys
  | .bool _, _ => false
  | _, .bool _ => false
  | a, b => oneNaN a b || numberEq a b

def sameItems : List Json → List Json → Bool
  | [], [] => true
  | x :: xs, y :: ys => same x y && sameItems xs ys
  | _, _ => false

def sameFields : Dict → Dict → Bool
  | [], _ => true
  | (k, v) :: rest, other =>
      (match Dict.get? other k with
       | some w => same v w
       | none => false) && sameFields rest other
end

mutual
/-- The value with its booleans read as numbers. -/
def unbool : Json → Json
  | .bool b => .int (if b then 1 else 0)
  | .arr items => .arr (unboolItems items)
  | .obj fields => .obj (unboolFields fields)
  | v => v

def unboolItems : List Json → List Json
  | [] => []
  | v :: rest => unbool v :: unboolItems rest

def unboolFields : Dict → Dict
  | [] => []
  | (k, v) :: rest => (k, unbool v) :: unboolFields rest
end

theorem get?_unboolFields (fields : Dict) (key : String) :
    Dict.get? (unboolFields fields) key = (Dict.get? fields key).map unbool := by
  induction fields with
  | nil => rfl
  | cons kv rest ih =>
      obtain ⟨k, v⟩ := kv
      by_cases hk : k = key <;> simp [unboolFields, hk, ih]

theorem length_unboolFields (fields : Dict) : (unboolFields fields).length = fields.length := by
  induction fields with
  | nil => rfl
  | cons kv rest ih => simp [unboolFields, ih]

theorem number?_unbool (v : Json) : number? (unbool v) = number? v := by
  cases v with
  | bool b => cases b <;> simp [unbool, number?]
  | _ => rfl

theorem numberEq_unbool (v w : Json) : numberEq (unbool v) (unbool w) = numberEq v w := by
  cases v <;> cases w <;> simp [numberEq, number?_unbool] <;> simp [unbool, number?]

mutual
/-- **`==` does not tell a boolean from a number**; it is JSON equality in
everything else. -/
theorem heldEq_eq_same : ∀ v w : Json, heldEq v w = same (unbool v) (unbool w)
  | .null, w => by
      cases w <;> simp [heldEq, oneNaN, pyEq, same, unbool, numberEq, number?]
  | .bool b, w => by
      have h := numberEq_unbool (.bool b) w
      cases w <;> simp_all [heldEq, oneNaN, pyEq, same, unbool]
  | .int n, w => by
      have h := numberEq_unbool (.int n) w
      cases w <;> simp_all [heldEq, oneNaN, pyEq, same, unbool]
  | .float r, w => by
      have h := numberEq_unbool (.float r) w
      cases w <;> simp_all [heldEq, oneNaN, pyEq, same, unbool]
  | .str s, w => by
      cases w <;> simp [heldEq, oneNaN, pyEq, same, unbool, numberEq, number?]
  | .arr xs, w => by
      cases w with
      | arr ys => simp [heldEq, oneNaN, pyEq, same, unbool, pyEqItems_eq_same xs ys]
      | _ => simp [heldEq, oneNaN, pyEq, same, unbool, numberEq, number?]
  | .obj xs, w => by
      cases w with
      | obj ys =>
          simp [heldEq, oneNaN, pyEq, same, unbool, pyEqFields_eq_same xs ys,
            length_unboolFields]
      | _ => simp [heldEq, oneNaN, pyEq, same, unbool, numberEq, number?]

theorem pyEqItems_eq_same : ∀ xs ys : List Json,
    pyEqItems xs ys = sameItems (unboolItems xs) (unboolItems ys)
  | [], ys => by cases ys <;> rfl
  | x :: xs, ys => by
      cases ys with
      | nil => rfl
      | cons y ys =>
          show (heldEq x y && pyEqItems xs ys) = _
          rw [heldEq_eq_same x y, pyEqItems_eq_same xs ys]
          rfl

theorem pyEqFields_eq_same : ∀ xs ys : Dict,
    pyEqFields xs ys = sameFields (unboolFields xs) (unboolFields ys)
  | [], ys => rfl
  | (k, v) :: rest, ys => by
      simp only [pyEqFields, sameFields, unboolFields, get?_unboolFields,
        pyEqFields_eq_same rest ys]
      cases Dict.get? ys k with
      | none => rfl
      | some w =>
          have hheld : (oneNaN v w || pyEq v w) = _ := heldEq_eq_same v w
          simp only [hheld, Option.map_some]
end

/-- A value that is not `NaN` is the same object as no other. -/
theorem oneNaN_eq_false {v : Json} (hv : v ≠ .float "NaN") (w : Json) : oneNaN v w = false := by
  unfold oneNaN
  split
  · rename_i x y
    have hx : x ≠ "NaN" := fun hx => hv (by rw [hx])
    simp [hx]
  · rfl

/-- Of any value but `NaN`, `==` is what a container asks. -/
theorem pyEq_eq_same {v : Json} (hv : v ≠ .float "NaN") (w : Json) :
    pyEq v w = same (unbool v) (unbool w) := by
  rw [← heldEq_eq_same, heldEq, oneNaN_eq_false hv, Bool.false_or]

/-! ## §2. What equals itself. -/

mutual
/-- No dict in the value has a key twice. -/
def distinct : Json → Bool
  | .arr items => distinctItems items
  | .obj fields => decide (Dict.keys fields).Nodup && distinctFields fields
  | _ => true

def distinctItems : List Json → Bool
  | [] => true
  | v :: rest => distinct v && distinctItems rest

def distinctFields : Dict → Bool
  | [] => true
  | (_, v) :: rest => distinct v && distinctFields rest
end

mutual
/-- **What a container holds equals itself.** -/
theorem heldEq_self : ∀ v : Json, distinct v = true → heldEq v v = true
  | .null, _ => rfl
  | .bool b, _ => by simp [heldEq, pyEq, numberEq, number?]
  | .int n, _ => by simp [heldEq, pyEq, numberEq, number?]
  | .float r, _ => by
      simp only [heldEq, oneNaN, pyEq, numberEq, number?]
      by_cases hr : r = "NaN"
      · simp [hr]
      · cases floatValue r with
        | none => simp [hr]
        | some x => simp
  | .str s, _ => by simp [heldEq, pyEq]
  | .arr items, hdistinct => pyEqItems_self items hdistinct
  | .obj fields, hdistinct => by
      simp only [distinct, Bool.and_eq_true, decide_eq_true_eq] at hdistinct
      simp only [heldEq, oneNaN, pyEq, beq_self_eq_true, Bool.true_and, Bool.false_or]
      refine (pyEqFields_iff _ _).mpr fun kv hkv =>
        ⟨kv.2, (get?_eq_some_iff hdistinct.1).mpr hkv, ?_⟩
      exact heldEqValues_self fields hdistinct.2 kv hkv

theorem pyEqItems_self : ∀ items : List Json, distinctItems items = true →
    pyEqItems items items = true
  | [], _ => rfl
  | v :: rest, hdistinct => by
      simp only [distinctItems, Bool.and_eq_true] at hdistinct
      have hv : (oneNaN v v || pyEq v v) = true := heldEq_self v hdistinct.1
      rw [pyEqItems, hv, pyEqItems_self rest hdistinct.2]
      rfl

theorem heldEqValues_self : ∀ fields : Dict, distinctFields fields = true →
    ∀ kv ∈ fields, heldEq kv.2 kv.2 = true
  | [], _ => by simp
  | (k, v) :: rest, hdistinct => by
      simp only [distinctFields, Bool.and_eq_true] at hdistinct
      intro kv hkv
      rcases List.mem_cons.mp hkv with rfl | hkv
      · exact heldEq_self v hdistinct.1
      · exact heldEqValues_self rest hdistinct.2 kv hkv
end

/-- **A decoded value equals itself, unless it is `NaN`.** -/
theorem pyEq_self {v : Json} (hdistinct : distinct v = true) :
    pyEq v v = true ↔ v ≠ .float "NaN" := by
  constructor
  · intro h hv
    subst hv
    exact absurd h (by decide)
  · intro hv
    have hself := heldEq_self v hdistinct
    rwa [heldEq, oneNaN_eq_false hv, Bool.false_or] at hself

/-! ## §3. Decoded dicts have no key twice. -/

theorem distinctFields_iff {fields : Dict} :
    distinctFields fields = true ↔ ∀ kv ∈ fields, distinct kv.2 = true := by
  induction fields with
  | nil => simp [distinctFields]
  | cons kv rest ih => simp [distinctFields, ih]

/-- Writing a decoded member into a decoded dict. -/
theorem distinct_set {d : Dict} (hd : distinct (.obj d) = true) (key : String) {value : Json}
    (hvalue : distinct value = true) : distinct (.obj (d.set key value)) = true := by
  simp only [distinct, Bool.and_eq_true, decide_eq_true_eq, distinctFields_iff] at hd ⊢
  refine ⟨Dict.nodup_keys_set hd.1 key value, fun kv hkv => ?_⟩
  rcases Dict.mem_set hkv with rfl | hmem
  · exact hvalue
  · exact hd.2 kv hmem

/-- A value without parts has no dict. -/
theorem distinct_opening {cs rest : List Char} {v : Json} {result : Option (Json × List Char)}
    (hopen : opening cs = .atom result) (h : result = some (v, rest)) : distinct v = true := by
  have hnumber : ∀ {cs : List Char}, parseNumber cs = some (v, rest) → distinct v = true := by
    intro cs h
    unfold parseNumber at h
    split at h
    · rename_i n mid _
      cases h
      unfold Numeral.value
      split <;> rfl
    · unfold parseConstant at h
      split at h <;> cases h <;> rfl
  unfold opening at hopen
  split at hopen <;> cases hopen
  · cases h
    rfl
  · cases h
    rfl
  · cases h
    rfl
  · exact hnumber h

/-- With `n` fuel, every reader reads dicts with distinct keys. -/
def ReadsDistinct (name : List Nat → Option String) (n : Nat) : Prop :=
  (∀ cs v rest, parseValue name n cs = some (v, rest) → distinct v = true)
  ∧ (∀ cs items rest, parseItems name n cs = some (items, rest) → distinctItems items = true)
  ∧ ∀ d cs fields rest, distinct (.obj d) = true →
      parseMembers name n d cs = some (fields, rest) → distinct (.obj fields) = true

theorem readsDistinct (name : List Nat → Option String) (n : Nat) : ReadsDistinct name n := by
  induction n with
  | zero =>
      refine ⟨?_, ?_, ?_⟩
      · intro cs v rest h
        cases h
      · intro cs items rest h
        cases h
      · intro d cs fields rest _ h
        cases h
  | succ n ih =>
      refine ⟨?_, ?_, ?_⟩
      · intro cs v rest h
        rw [parseValue] at h
        split at h
        · obtain ⟨p, -, he⟩ := Option.map_eq_some_iff.mp h
          cases he
          rfl
        · split at h
          · cases h
            rfl
          · obtain ⟨⟨fields, rest'⟩, hmembers, he⟩ := Option.map_eq_some_iff.mp h
            cases he
            exact ih.2.2 _ _ _ _ rfl hmembers
        · split at h
          · cases h
            rfl
          · obtain ⟨⟨items, rest'⟩, hitems, he⟩ := Option.map_eq_some_iff.mp h
            cases he
            exact ih.2.1 _ _ _ hitems
        · rename_i result hopen
          exact distinct_opening hopen h
      · intro cs items rest h
        rw [parseItems] at h
        obtain ⟨⟨v, mid⟩, hvalue, h⟩ := Option.bind_eq_some_iff.mp h
        obtain ⟨⟨more, tail⟩, -, h⟩ := Option.bind_eq_some_iff.mp h
        have hv := ih.1 _ _ _ hvalue
        dsimp only at h
        split at h
        · obtain ⟨⟨items', rest'⟩, hitems, he⟩ := Option.bind_eq_some_iff.mp h
          cases he
          simp [distinctItems, hv, ih.2.1 _ _ _ hitems]
        · cases h
          simp [distinctItems, hv]
      · intro d cs fields rest hd h
        rw [parseMembers] at h
        obtain ⟨⟨key, mid⟩, -, h⟩ := Option.bind_eq_some_iff.mp h
        obtain ⟨⟨v, mid'⟩, hvalue, h⟩ := Option.bind_eq_some_iff.mp h
        obtain ⟨⟨more, tail⟩, -, h⟩ := Option.bind_eq_some_iff.mp h
        have hset := distinct_set hd key (ih.1 _ _ _ hvalue)
        dsimp only at h
        split at h
        · exact ih.2.2 _ _ _ _ hset h
        · cases h
          exact hset

/-- However the strings are named. -/
theorem distinct_loadsAs {name : List Nat → Option String} {text : String} {v : Json}
    (h : loadsAs name text = some v) : distinct v = true := by
  unfold loadsAs at h
  split at h
  · cases h
  · rename_i w rest hvalue
    split at h
    · cases h
      exact (readsDistinct name _).1 _ _ _ hvalue
    · cases h

end Json

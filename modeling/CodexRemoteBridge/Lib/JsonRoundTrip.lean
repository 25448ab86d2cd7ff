/-
  CodexRemoteBridge.Lib.JsonRoundTrip — `json.dumps` with its default
  arguments, and that `json.loads` reads back what it writes.

  Every text is read with something behind it that STOPS a numeral: the end,
  a comma or a closing bracket.  The induction is on the value; the fuel it
  needs is its size, and beyond `fuelFor` more fuel changes nothing.

  Main result:
    • `loads_dumpsText` — reading back a value gives that value.
-/
import CodexRemoteBridge.Lib.JsonParse
import Mathlib.Data.List.TakeWhile

namespace Json

/-! ## §1. The encoder. -/

/-- `", ".join(texts)`. -/
def joinText : List (List Char) → List Char
  | [] => []
  | [t] => t
  | t :: ts => t ++ ',' :: ' ' :: joinText ts

mutual
/-- `json.dumps(value)`. -/
def dumpsText : Json → List Char
  | .null => ['n', 'u', 'l', 'l']
  | .bool b => if b then ['t', 'r', 'u', 'e'] else ['f', 'a', 'l', 's', 'e']
  | .int n => (toString n).toList
  | .float repr => repr.toList
  | .str s => quote s
  | .arr items => '[' :: (joinText (itemTexts items) ++ [']'])
  | .obj fields => '\x7b' :: (joinText (memberTexts fields) ++ ['\x7d'])

def itemTexts : List Json → List (List Char)
  | [] => []
  | v :: rest => dumpsText v :: itemTexts rest

def memberTexts : Dict → List (List Char)
  | [] => []
  | (k, v) :: rest => (quote k ++ ':' :: ' ' :: dumpsText v) :: memberTexts rest
end

/-- The text is the `repr` of a double. -/
def isFloatText (repr : String) : Bool :=
  match parseNumber repr.toList with
  | some (.float r, []) => r == repr
  | _ => false

mutual
/-- A value Python can hold: no dict has a key twice, a float is its `repr`. -/
def valid : Json → Bool
  | .float repr => isFloatText repr
  | .arr items => validItems items
  | .obj fields => decide (Dict.keys fields).Nodup && validFields fields
  | _ => true

def validItems : List Json → Bool
  | [] => true
  | v :: rest => valid v && validItems rest

def validFields : Dict → Bool
  | [] => true
  | (_, v) :: rest => valid v && validFields rest
end

/-! ## §2. What stands behind a value. -/

/-- Nothing, a comma or a closing bracket: no numeral goes on there. -/
inductive Stops : List Char → Prop
  | nil : Stops []
  | comma (rest : List Char) : Stops (',' :: rest)
  | bracket (rest : List Char) : Stops (']' :: rest)
  | brace (rest : List Char) : Stops ('\x7d' :: rest)

theorem Stops.takeDigits {rest : List Char} (h : Stops rest) :
    takeDigits rest = ([], rest) := by
  cases h <;> rfl

theorem takeDigits_append (cs : List Char) {rest : List Char} (h : Stops rest) :
    takeDigits (cs ++ rest) = ((takeDigits cs).1, (takeDigits cs).2 ++ rest) := by
  induction cs with
  | nil => exact h.takeDigits
  | cons c cs ih =>
      simp only [takeDigits, Prod.mk.injEq] at ih
      by_cases hc : c.isDigit
      · simp only [takeDigits, List.cons_append, List.takeWhile_cons, List.dropWhile_cons, hc,
          if_true, ih.1, ih.2]
      · simp [takeDigits, hc]

theorem scanWhole_append {cs rest : List Char} (h : Stops rest) :
    scanWhole (cs ++ rest) = (scanWhole cs).map fun p => (p.1, p.2 ++ rest) := by
  cases cs with
  | nil => cases h <;> rfl
  | cons c cs =>
      by_cases hzero : c = '0'
      · subst hzero
        rfl
      · by_cases hc : c.isDigit
        · simp only [List.cons_append, scanWhole, hc, if_true, Option.map_some]
          rw [← List.cons_append, takeDigits_append (c :: cs) h]
        · simp [scanWhole, hc]

theorem scanFraction_append (cs : List Char) {rest : List Char} (h : Stops rest) :
    scanFraction (cs ++ rest) = ((scanFraction cs).1, (scanFraction cs).2 ++ rest) := by
  cases cs with
  | nil => cases h <;> rfl
  | cons c cs =>
      by_cases hdot : c = '.'
      · subst hdot
        simp only [List.cons_append, scanFraction, takeDigits_append cs h]
        cases takeDigits cs with
        | mk ds tail => cases ds <;> rfl
      · simp [scanFraction, hdot]

theorem exponentSign_append (cs : List Char) {rest : List Char} (h : Stops rest) :
    exponentSign (cs ++ rest) = ((exponentSign cs).1, (exponentSign cs).2 ++ rest) := by
  cases cs with
  | nil => cases h <;> rfl
  | cons c cs =>
      by_cases hminus : c = '-'
      · subst hminus
        rfl
      · by_cases hplus : c = '+'
        · subst hplus
          rfl
        · simp [exponentSign, hminus, hplus]

theorem exponentDigits_append (start : List Char) (p : Bool × List Char) {rest : List Char}
    (h : Stops rest) :
    exponentDigits (start ++ rest) (p.1, p.2 ++ rest)
      = ((exponentDigits start p).1, (exponentDigits start p).2 ++ rest) := by
  simp only [exponentDigits, takeDigits_append p.2 h]
  cases takeDigits p.2 with
  | mk ds tail => cases ds <;> rfl

theorem scanExponent_append (cs : List Char) {rest : List Char} (h : Stops rest) :
    scanExponent (cs ++ rest) = ((scanExponent cs).1, (scanExponent cs).2 ++ rest) := by
  cases cs with
  | nil => cases h <;> rfl
  | cons c cs =>
      by_cases he : c = 'e' ∨ c = 'E'
      · simp only [List.cons_append, scanExponent, he, if_true, exponentSign_append cs h]
        exact exponentDigits_append (c :: cs) (exponentSign cs) h
      · simp only [List.cons_append, scanExponent, he, if_false]

theorem numeralSign_append (cs : List Char) {rest : List Char} (h : Stops rest) :
    numeralSign (cs ++ rest) = ((numeralSign cs).1, (numeralSign cs).2 ++ rest) := by
  cases cs with
  | nil => cases h <;> rfl
  | cons c cs =>
      by_cases hminus : c = '-'
      · subst hminus
        rfl
      · simp [numeralSign, hminus]

theorem scanNumeral_append (cs : List Char) {rest : List Char} (h : Stops rest) :
    scanNumeral (cs ++ rest) = (scanNumeral cs).map fun p => (p.1, p.2 ++ rest) := by
  unfold scanNumeral
  rw [numeralSign_append cs h]
  dsimp only
  rw [scanWhole_append h]
  cases scanWhole (numeralSign cs).2 with
  | none => rfl
  | some p =>
      simp only [Option.map_some, scanFraction_append p.2 h,
        scanExponent_append (scanFraction p.2).2 h]

/-- **A number is read up to what stops it.** -/
theorem parseNumber_append {cs : List Char} {v : Json} {rest : List Char}
    (hcs : parseNumber cs = some (v, [])) (h : Stops rest) :
    parseNumber (cs ++ rest) = some (v, rest) := by
  unfold parseNumber at hcs ⊢
  rw [scanNumeral_append cs h]
  cases hscan : scanNumeral cs with
  | some p =>
      obtain ⟨n, tail⟩ := p
      rw [hscan] at hcs
      cases hcs
      rfl
  | none =>
      rw [hscan] at hcs
      dsimp only [Option.map_none] at hcs ⊢
      unfold parseConstant at hcs
      split at hcs
      · cases hcs
        rfl
      · cases hcs
        rfl
      · cases hcs
        rfl
      · cases hcs

/-! ## §3. Integers. -/

theorem toDigits_head {m : Nat} (hm : 0 < m) :
    ∃ c cs, Nat.toDigits 10 m = c :: cs ∧ c ≠ '0' := by
  induction m using Nat.strongRecOn with
  | ind m ih =>
      by_cases hlt : m < 10
      · have hdigit : ∀ d < 10, 0 < d → Nat.digitChar d ≠ '0' := by decide
        exact ⟨m.digitChar, [], Nat.toDigits_of_lt_base hlt, hdigit m hlt hm⟩
      · obtain ⟨c, cs, hcs, hc⟩ := ih (m / 10) (by omega) (by omega)
        rw [Nat.toDigits_of_base_le (by decide) (by omega), hcs]
        exact ⟨c, cs ++ [Nat.digitChar (m % 10)], rfl, hc⟩

theorem takeDigits_toDigits (m : Nat) : takeDigits (Nat.toDigits 10 m) = (Nat.toDigits 10 m, []) := by
  have hall : ∀ c ∈ Nat.toDigits 10 m, c.isDigit := fun c hc =>
    Nat.isDigit_of_mem_toDigits (by decide) (by decide) hc
  simp only [takeDigits, Prod.mk.injEq]
  exact ⟨List.takeWhile_eq_self_iff.mpr hall, List.dropWhile_eq_nil_iff.mpr hall⟩

theorem scanWhole_toDigits (m : Nat) :
    scanWhole (Nat.toDigits 10 m) = some (Nat.toDigits 10 m, []) := by
  by_cases hm : m = 0
  · subst hm
    rfl
  · obtain ⟨c, cs, hcs, hc⟩ := toDigits_head (Nat.pos_of_ne_zero hm)
    have hdigit : c.isDigit := Nat.isDigit_of_mem_toDigits (b := 10) (n := m) (by decide)
      (by decide) (by rw [hcs]; exact List.mem_cons_self)
    have htake := takeDigits_toDigits m
    rw [hcs] at htake ⊢
    simp only [scanWhole, hdigit, if_true, htake]

theorem toDigits_ne_minus (m : Nat) (cs : List Char) : Nat.toDigits 10 m ≠ '-' :: cs := by
  intro h
  have hdigit : ('-').isDigit := Nat.isDigit_of_mem_toDigits (b := 10) (n := m) (by decide)
    (by decide) (by rw [h]; exact List.mem_cons_self)
  exact absurd hdigit (by decide)

theorem parseNumber_toDigits (m : Nat) (negative : Bool) :
    parseNumber ((if negative then ['-'] else []) ++ Nat.toDigits 10 m)
      = some (.int (if negative then -(m : Int) else m), []) := by
  have hsign : numeralSign ((if negative then ['-'] else []) ++ Nat.toDigits 10 m)
      = (negative, Nat.toDigits 10 m) := by
    cases negative with
    | true => rfl
    | false =>
        unfold numeralSign
        split
        · rename_i rest h
          exact absurd h (toDigits_ne_minus m rest)
        · rfl
  have hscan : scanNumeral ((if negative then ['-'] else []) ++ Nat.toDigits 10 m)
      = some (⟨negative, Nat.toDigits 10 m, none, none⟩, []) := by
    simp only [scanNumeral, hsign, scanWhole_toDigits]
    rfl
  simp only [parseNumber, hscan, Numeral.value, Nat.ofDigitChars_ten_toDigits]

theorem parseNumber_toString (n : Int) :
    parseNumber (toString n).toList = some (.int n, []) := by
  cases n with
  | ofNat m =>
      have h := parseNumber_toDigits m false
      have htext : (toString (Int.ofNat m)).toList = Nat.toDigits 10 m := Nat.toList_repr
      rw [htext]
      exact h
  | negSucc m =>
      have h := parseNumber_toDigits (m + 1) true
      have htext : (toString (Int.negSucc m)).toList = '-' :: Nat.toDigits 10 (m + 1) := by
        show ("-" ++ Nat.repr (m + 1)).toList = _
        rw [String.toList_append, Nat.toList_repr]
        rfl
      rw [htext]
      exact h

/-! ## §4. Strings. -/

theorem hexValue_hexDigit : ∀ n < 16, hexValue (hexDigit n) = some n := by decide

theorem scanUnits_hex4 {u : Nat} (hu : u < 0x10000) (rest : List Char) :
    scanUnits ('\\' :: 'u' :: (hex4 u ++ rest))
      = (scanUnits rest).map fun p => (u :: p.1, p.2) := by
  have hunit : hexUnit (hexDigit (u / 4096 % 16)) (hexDigit (u / 256 % 16))
      (hexDigit (u / 16 % 16)) (hexDigit (u % 16)) = some u := by
    simp only [hexUnit, hexValue_hexDigit _ (Nat.mod_lt _ (by decide : 16 > 0)),
      Option.bind_eq_bind, Option.bind_some, Option.some.injEq]
    omega
  simp only [hex4, List.cons_append, List.nil_append, scanUnits, hunit]

theorem unescape_of_shortEscape {c e : Char} (h : shortEscape c = some e) :
    unescape e = some c ∧ e ≠ 'u' ∧ c.toNat < 0x10000 := by
  unfold shortEscape at h
  repeat' split at h
  all_goals first
    | (obtain rfl := Option.some.inj h
       subst_vars
       decide)
    | cases h

theorem scanUnits_escapeChar (c : Char) (rest : List Char) :
    scanUnits (escapeChar c ++ rest)
      = (scanUnits rest).map fun p => (units c ++ p.1, p.2) := by
  have hlt := toNat_lt c
  unfold escapeChar
  cases hshort : shortEscape c with
  | some e =>
      obtain ⟨hback, hu, hsmall⟩ := unescape_of_shortEscape hshort
      simp only [List.cons_append, List.nil_append, units, hsmall, if_true]
      rw [scanUnits, hback]
      intro a b c' d rest' he
      exact absurd he hu
  | none =>
      dsimp only
      by_cases hprint : 0x20 ≤ c.toNat ∧ c.toNat ≤ 0x7e
      · have hsmall : c.toNat < 0x10000 := by omega
        have hnot : ¬ c.toNat < 0x20 := by omega
        have hquote := shortEscape_quote hshort
        have hback := shortEscape_backslash hshort
        simp only [hprint, and_self, if_true, List.cons_append, List.nil_append, units, hsmall]
        rw [scanUnits, if_neg hnot]
        · exact hquote
        · intro a b c' d rest' hc
          exact absurd hc hback
        · intro e rest' hc
          exact absurd hc hback
      · rw [if_neg hprint]
        by_cases hsmall : c.toNat < 0x10000
        · simp only [units, hsmall, if_true, List.flatMap_cons, List.flatMap_nil,
            List.append_nil, List.cons_append, List.nil_append]
          exact scanUnits_hex4 hsmall rest
        · -- A surrogate pair: two escapes.
          simp only [units, hsmall, if_false, List.flatMap_cons, List.flatMap_nil,
            List.append_nil, List.cons_append, List.nil_append, List.append_assoc]
          rw [scanUnits_hex4 (by omega), scanUnits_hex4 (by omega), Option.map_map]
          rfl

theorem scanUnits_escapes (cs rest : List Char) :
    scanUnits (cs.flatMap escapeChar ++ '"' :: rest) = some (cs.flatMap units, rest) := by
  induction cs with
  | nil => simp [scanUnits]
  | cons c cs ih =>
      rw [List.flatMap_cons, List.append_assoc, scanUnits_escapeChar, ih]
      rfl

theorem codePoints_units (c : Char) (us : List Nat) :
    codePoints (units c ++ us) = c.toNat :: codePoints us := by
  have hlt := toNat_lt c
  have hsurrogate := toNat_not_surrogate c
  unfold units
  by_cases hsmall : c.toNat < 0x10000
  · have hhigh : isHighSurrogate c.toNat = false := by
      simp only [isHighSurrogate, Bool.and_eq_false_iff, decide_eq_false_iff_not]
      omega
    rw [if_pos hsmall]
    cases us with
    | nil => simp only [List.append_nil, codePoints]
    | cons v us =>
        simp only [List.cons_append, List.nil_append, codePoints, hhigh, Bool.false_and,
          Bool.false_eq_true, if_false]
  · have hhigh : isHighSurrogate (0xd800 + (c.toNat - 0x10000) / 0x400) = true := by
      simp only [isHighSurrogate, Bool.and_eq_true, decide_eq_true_eq]
      omega
    have hlow : isLowSurrogate (0xdc00 + (c.toNat - 0x10000) % 0x400) = true := by
      simp only [isLowSurrogate, Bool.and_eq_true, decide_eq_true_eq]
      omega
    have hcode : 0x10000 + (0xd800 + (c.toNat - 0x10000) / 0x400 - 0xd800) * 0x400
        + (0xdc00 + (c.toNat - 0x10000) % 0x400 - 0xdc00) = c.toNat := by omega
    rw [if_neg hsmall]
    simp only [List.cons_append, List.nil_append, codePoints, hhigh, hlow, Bool.and_self,
      if_true, hcode]

theorem codePoints_flatMap (cs : List Char) :
    codePoints (cs.flatMap units) = cs.map Char.toNat := by
  induction cs with
  | nil => rfl
  | cons c cs ih => rw [List.flatMap_cons, codePoints_units, ih, List.map_cons]

/-- The code points of a string of characters name that string. -/
theorem plainName_toNat (cs : List Char) :
    plainName (cs.map Char.toNat) = some (String.ofList cs) := by
  have hall : ((cs.map Char.toNat).all fun u => !isSurrogate u && u < 0x110000) = true := by
    refine List.all_eq_true.mpr fun u hu => ?_
    obtain ⟨c, -, rfl⟩ := List.mem_map.mp hu
    have hsurrogate := toNat_not_surrogate c
    have hlt := toNat_lt c
    simp only [isSurrogate, Bool.and_eq_true, Bool.not_eq_true', Bool.and_eq_false_iff,
      decide_eq_true_eq, decide_eq_false_iff_not]
    omega
  have hchars : (cs.map Char.toNat).map Char.ofNat = cs := by
    rw [List.map_map]
    exact (List.map_congr_left fun c _ => Char.ofNat_toNat c).trans (List.map_id cs)
  rw [plainName, hall, hchars]
  rfl

/-- **A quoted string is read back.** -/
theorem parseString_quote (s : String) (rest : List Char) :
    parseString plainName ((quote s).tail ++ rest) = some (s, rest) := by
  have htail : (quote s).tail ++ rest = s.toList.flatMap escapeChar ++ '"' :: rest := by
    simp [quote]
  rw [parseString, htail, scanUnits_escapes, Option.bind_some]
  dsimp only
  rw [codePoints_flatMap, plainName_toNat, Option.map_some, String.ofList_toList]

/-! ## §5. Values. -/

/-- The characters a number starts with. -/
def startsNumber (c : Char) : Bool := c = '-' || c = 'N' || c = 'I' || c.isDigit

theorem parseNumber_head {c : Char} {cs rest : List Char} {v : Json}
    (h : parseNumber (c :: cs) = some (v, rest)) : startsNumber c = true := by
  by_contra hne
  simp only [startsNumber, Bool.or_eq_true, decide_eq_true_eq, not_or] at hne
  obtain ⟨⟨⟨hminus, hn⟩, hi⟩, hdigit⟩ := hne
  have hzero : c ≠ '0' := by
    intro hc
    subst hc
    exact hdigit rfl
  have hsign : numeralSign (c :: cs) = (false, c :: cs) := by simp [numeralSign, hminus]
  have hscan : scanNumeral (c :: cs) = none := by simp [scanNumeral, hsign, scanWhole, hdigit]
  simp [parseNumber, hscan, parseConstant, hminus, hn, hi] at h

theorem ne_of_startsNumber {c d : Char} (hc : startsNumber c = true)
    (hd : startsNumber d = false) : c ≠ d := by
  intro h
  rw [h, hd] at hc
  cases hc

theorem opening_number {c : Char} (hc : startsNumber c = true) (cs : List Char) :
    opening (c :: cs) = .atom (parseNumber (c :: cs)) := by
  have h₁ := ne_of_startsNumber hc (d := '"') (by decide)
  have h₂ := ne_of_startsNumber hc (d := '\x7b') (by decide)
  have h₃ := ne_of_startsNumber hc (d := '[') (by decide)
  have h₄ := ne_of_startsNumber hc (d := 'n') (by decide)
  have h₅ := ne_of_startsNumber hc (d := 't') (by decide)
  have h₆ := ne_of_startsNumber hc (d := 'f') (by decide)
  simp [opening, h₁, h₂, h₃, h₄, h₅, h₆]

/-- The characters a text starts with: no white space, no closing bracket. -/
def startsText (c : Char) : Bool := !isJsonSpace c && c != ']' && c != '\x7d'

theorem startsText_of_startsNumber {c : Char} (hc : startsNumber c = true) :
    startsText c = true := by
  have h₁ := ne_of_startsNumber hc (d := ' ') (by decide)
  have h₂ := ne_of_startsNumber hc (d := '\t') (by decide)
  have h₃ := ne_of_startsNumber hc (d := '\n') (by decide)
  have h₄ := ne_of_startsNumber hc (d := '\r') (by decide)
  have h₅ := ne_of_startsNumber hc (d := ']') (by decide)
  have h₆ := ne_of_startsNumber hc (d := '\x7d') (by decide)
  simp [startsText, isJsonSpace, h₁, h₂, h₃, h₄, h₅, h₆]

/-- The text of a number, read as one. -/
theorem number_text {text : List Char} {v : Json} (h : parseNumber text = some (v, [])) :
    ∃ c cs, text = c :: cs ∧ startsNumber c = true := by
  cases text with
  | nil => cases h
  | cons c cs => exact ⟨c, cs, rfl, parseNumber_head h⟩

theorem isFloatText_iff (repr : String) :
    isFloatText repr = true ↔ parseNumber repr.toList = some (.float repr, []) := by
  unfold isFloatText
  split
  · rename_i r h
    rw [h]
    simp
  · rename_i hne
    constructor
    · intro h
      cases h
    · intro h
      exact absurd h (hne repr)

theorem dumpsText_head (v : Json) (hv : valid v = true) :
    ∃ c cs, dumpsText v = c :: cs ∧ startsText c = true := by
  cases v with
  | null => exact ⟨_, _, rfl, by decide⟩
  | bool b =>
      cases b with
      | true => exact ⟨_, _, rfl, by decide⟩
      | false => exact ⟨_, _, rfl, by decide⟩
  | int n =>
      obtain ⟨c, cs, htext, hc⟩ := number_text (parseNumber_toString n)
      exact ⟨c, cs, htext, startsText_of_startsNumber hc⟩
  | float repr =>
      obtain ⟨c, cs, htext, hc⟩ := number_text ((isFloatText_iff repr).mp hv)
      exact ⟨c, cs, htext, startsText_of_startsNumber hc⟩
  | str s => exact ⟨_, _, rfl, by decide⟩
  | arr items => exact ⟨_, _, rfl, by decide⟩
  | obj fields => exact ⟨_, _, rfl, by decide⟩

theorem skipSpace_cons {c : Char} (hc : startsText c = true) (cs : List Char) :
    skipSpace (c :: cs) = c :: cs := by
  have hspace : isJsonSpace c = false := by
    simp only [startsText, Bool.and_eq_true, Bool.not_eq_true'] at hc
    exact hc.1.1
  simp [skipSpace, hspace]

theorem skipSpace_space (cs : List Char) : skipSpace (' ' :: cs) = skipSpace cs := rfl

/-- A value of one part is read at once. -/
theorem parseValue_number {text : List Char} {v : Json} (h : parseNumber text = some (v, []))
    {n : Nat} (hn : 0 < n) {rest : List Char} (hrest : Stops rest) :
    parseValue plainName n (text ++ rest) = some (v, rest) := by
  obtain ⟨m, rfl⟩ : ∃ m, n = m + 1 := ⟨n - 1, by omega⟩
  have happend := parseNumber_append h hrest
  obtain ⟨c, cs, rfl, hc⟩ := number_text h
  rw [parseValue, List.cons_append, opening_number hc, ← List.cons_append]
  exact happend

/-- The texts of the items, as `parseItems` meets them. -/
theorem joinText_cons (t : List Char) (ts : List (List Char)) :
    joinText (t :: ts) = t ++ (if ts.isEmpty then [] else ',' :: ' ' :: joinText ts) := by
  cases ts with
  | nil => simp [joinText]
  | cons u us => simp [joinText]

theorem afterItem_comma (close : Char) {c : Char} (hc : startsText c = true) (cs : List Char) :
    afterItem close (',' :: ' ' :: c :: cs) = some (true, c :: cs) := by
  have hskip : skipSpace (',' :: ' ' :: c :: cs) = ',' :: ' ' :: c :: cs := rfl
  simp only [afterItem, hskip, if_true, skipSpace_space, skipSpace_cons hc]

theorem ne_close {c : Char} (hc : startsText c = true) : c ≠ ']' ∧ c ≠ '\x7d' := by
  simp only [startsText, Bool.and_eq_true, bne_iff_ne] at hc
  exact ⟨hc.1.2, hc.2⟩

theorem parseValue_array {c : Char} (hc : startsText c = true) (n : Nat) (cs : List Char) :
    parseValue plainName (n + 1) ('[' :: c :: cs)
      = (parseItems plainName n (c :: cs)).map fun p => (.arr p.1, p.2) := by
  have hne := (ne_close hc).1
  rw [parseValue]
  simp only [opening, skipSpace_cons hc]
  split
  · rename_i rest h
    exact absurd (List.cons.inj h).1 hne
  · rfl

theorem parseValue_object {c : Char} (hc : startsText c = true) (n : Nat) (cs : List Char) :
    parseValue plainName (n + 1) ('\x7b' :: c :: cs)
      = (parseMembers plainName n [] (c :: cs)).map fun p => (.obj p.1, p.2) := by
  have hne := (ne_close hc).2
  rw [parseValue]
  simp only [opening, skipSpace_cons hc]
  split
  · rename_i rest h
    exact absurd (List.cons.inj h).1 hne
  · rfl

theorem parseKey_quote (k : String) {c : Char} (hc : startsText c = true) (cs : List Char) :
    parseKey plainName (quote k ++ ':' :: ' ' :: c :: cs) = some (k, c :: cs) := by
  have hstring := parseString_quote k (':' :: ' ' :: c :: cs)
  have hskip : skipSpace (':' :: ' ' :: c :: cs) = ':' :: ' ' :: c :: cs := rfl
  have hquote : quote k ++ ':' :: ' ' :: c :: cs =
      '"' :: ((quote k).tail ++ ':' :: ' ' :: c :: cs) := rfl
  rw [hquote, parseKey, hstring]
  dsimp only
  rw [hskip]
  simp only [skipSpace_space, skipSpace_cons hc]

theorem joinText_itemTexts_head (v : Json) (items : List Json) (hv : valid v = true) :
    ∃ c cs, joinText (itemTexts (v :: items)) = c :: cs ∧ startsText c = true := by
  obtain ⟨c, cs, htext, hc⟩ := dumpsText_head v hv
  rw [itemTexts, joinText_cons, htext]
  exact ⟨c, _, rfl, hc⟩

theorem joinText_memberTexts_head (k : String) (v : Json) (fields : Dict) :
    ∃ c cs, joinText (memberTexts ((k, v) :: fields)) = c :: cs ∧ startsText c = true := by
  rw [memberTexts, joinText_cons]
  exact ⟨'"', _, rfl, by decide⟩

theorem set_eq_append {d : Dict} {k : String} (hk : k ∉ d.keys) (v : Json) :
    d.set k v = d ++ [(k, v)] := by
  induction d with
  | nil => rfl
  | cons kv rest ih =>
      obtain ⟨k', v'⟩ := kv
      simp only [Dict.keys, List.map_cons, List.mem_cons, not_or] at hk
      rw [Dict.set, if_neg (Ne.symm hk.1), ih hk.2, List.cons_append]

/-- A key the dict does not have yet. -/
theorem notMem_of_nodup {d fields : Dict} {k : String} {v : Json}
    (h : (Dict.keys (d ++ (k, v) :: fields)).Nodup) : k ∉ d.keys := by
  simp only [Dict.keys, List.map_append, List.map_cons] at h
  intro hk
  exact (List.nodup_append.mp h).2.2 k hk k List.mem_cons_self rfl

mutual
/-- **Reading the text of a value gives the value back**, whatever stops it. -/
theorem parseValue_dumpsText : ∀ (v : Json), valid v = true →
    ∀ (n : Nat) (rest : List Char), sizeOf v ≤ n → Stops rest →
      parseValue plainName n (dumpsText v ++ rest) = some (v, rest)
  | .null, _, n, rest, hn, _ => by
      obtain ⟨m, rfl⟩ : ∃ m, n = m + 1 := ⟨n - 1, by simp at hn; omega⟩
      rfl
  | .bool b, _, n, rest, hn, _ => by
      obtain ⟨m, rfl⟩ : ∃ m, n = m + 1 := ⟨n - 1, by simp at hn; omega⟩
      cases b with
      | true => rfl
      | false => rfl
  | .int k, _, n, rest, hn, hrest => by
      have hpos : 0 < n := by simp at hn; omega
      exact parseValue_number (parseNumber_toString k) hpos hrest
  | .float repr, hv, n, rest, hn, hrest => by
      have hpos : 0 < n := by simp at hn; omega
      exact parseValue_number ((isFloatText_iff repr).mp hv) hpos hrest
  | .str s, _, n, rest, hn, _ => by
      obtain ⟨m, rfl⟩ : ∃ m, n = m + 1 := ⟨n - 1, by simp at hn; omega⟩
      have hstring := parseString_quote s rest
      show (parseString plainName ((quote s).tail ++ rest)).map _ = _
      rw [hstring]
      rfl
  | .arr [], _, n, rest, hn, _ => by
      obtain ⟨m, rfl⟩ : ∃ m, n = m + 1 := ⟨n - 1, by simp at hn; omega⟩
      rfl
  | .arr (v :: items), hv, n, rest, hn, hrest => by
      obtain ⟨m, rfl⟩ : ∃ m, n = m + 1 := ⟨n - 1, by simp at hn; omega⟩
      simp only [valid, validItems, Bool.and_eq_true] at hv
      have hitems := parseItems_itemTexts v items hv.1 hv.2 m rest (by simp at hn ⊢; omega)
      obtain ⟨c, cs, htext, hc⟩ := joinText_itemTexts_head v items hv.1
      rw [htext, List.cons_append] at hitems
      simp only [dumpsText, htext, List.cons_append, List.append_assoc, List.nil_append]
      rw [parseValue_array hc, hitems, Option.map_some]
  | .obj [], _, n, rest, hn, _ => by
      obtain ⟨m, rfl⟩ : ∃ m, n = m + 1 := ⟨n - 1, by simp at hn; omega⟩
      rfl
  | .obj ((k, v) :: fields), hv, n, rest, hn, hrest => by
      obtain ⟨m, rfl⟩ : ∃ m, n = m + 1 := ⟨n - 1, by simp at hn; omega⟩
      simp only [valid, validFields, Bool.and_eq_true, decide_eq_true_eq] at hv
      have hmembers := parseMembers_memberTexts k v fields hv.2.1 hv.2.2 [] hv.1 m rest
        (by simp at hn ⊢; omega)
      obtain ⟨c, cs, htext, hc⟩ := joinText_memberTexts_head k v fields
      rw [htext, List.cons_append, List.nil_append] at hmembers
      simp only [dumpsText, htext, List.cons_append, List.append_assoc, List.nil_append]
      rw [parseValue_object hc, hmembers, Option.map_some]
termination_by v => sizeOf v
decreasing_by
  all_goals
    simp
    omega

theorem parseItems_itemTexts : ∀ (v : Json) (items : List Json), valid v = true →
    validItems items = true → ∀ (n : Nat) (rest : List Char), sizeOf (v :: items) ≤ n →
      parseItems plainName n (joinText (itemTexts (v :: items)) ++ ']' :: rest) = some (v :: items, rest)
  | v, [], hv, _, n, rest, hn => by
      obtain ⟨m, rfl⟩ : ∃ m, n = m + 1 := ⟨n - 1, by simp at hn; omega⟩
      have hvalue := parseValue_dumpsText v hv m (']' :: rest) (by simp at hn; omega) (.bracket rest)
      show parseItems plainName (m + 1) (dumpsText v ++ ']' :: rest) = _
      rw [parseItems, hvalue]
      rfl
  | v, w :: items, hv, hitems, n, rest, hn => by
      obtain ⟨m, rfl⟩ : ∃ m, n = m + 1 := ⟨n - 1, by simp at hn; omega⟩
      simp only [validItems, Bool.and_eq_true] at hitems
      have hvalue := parseValue_dumpsText v hv m
        (',' :: ' ' :: (joinText (itemTexts (w :: items)) ++ ']' :: rest))
        (by simp at hn; omega) (.comma _)
      have hmore := parseItems_itemTexts w items hitems.1 hitems.2 m rest (by simp at hn ⊢; omega)
      obtain ⟨c, cs, htext, hc⟩ := joinText_itemTexts_head w items hitems.1
      have hjoin : joinText (itemTexts (v :: w :: items)) ++ ']' :: rest
          = dumpsText v ++ ',' :: ' ' :: (joinText (itemTexts (w :: items)) ++ ']' :: rest) := by
        simp [itemTexts, joinText]
      rw [hjoin, parseItems, hvalue]
      rw [htext, List.cons_append] at hmore ⊢
      simp only [Option.bind_eq_bind, Option.bind_some, afterItem_comma ']' hc, hmore, if_true]
termination_by v items => sizeOf v + sizeOf items + 1
decreasing_by
  all_goals
    simp
    try omega

theorem parseMembers_memberTexts : ∀ (k : String) (v : Json) (fields : Dict), valid v = true →
    validFields fields = true → ∀ (d : Dict), (Dict.keys (d ++ (k, v) :: fields)).Nodup →
      ∀ (n : Nat) (rest : List Char), sizeOf ((k, v) :: fields) ≤ n →
        parseMembers plainName n d (joinText (memberTexts ((k, v) :: fields)) ++ '\x7d' :: rest)
          = some (d ++ (k, v) :: fields, rest)
  | k, v, [], hv, _, d, hkeys, n, rest, hn => by
      obtain ⟨m, rfl⟩ : ∃ m, n = m + 1 := ⟨n - 1, by simp at hn; omega⟩
      have hvalue := parseValue_dumpsText v hv m ('\x7d' :: rest) (by simp at hn; omega) (.brace rest)
      obtain ⟨c, cs, htext, hc⟩ := dumpsText_head v hv
      have hjoin : joinText (memberTexts [(k, v)]) ++ '\x7d' :: rest
          = quote k ++ ':' :: ' ' :: (dumpsText v ++ '\x7d' :: rest) := by
        simp [memberTexts, joinText]
      rw [hjoin, parseMembers]
      rw [htext, List.cons_append] at hvalue ⊢
      rw [parseKey_quote k hc]
      simp only [Option.bind_eq_bind, Option.bind_some, hvalue]
      rw [set_eq_append (notMem_of_nodup hkeys)]
      rfl
  | k, v, (k', w) :: fields, hv, hfields, d, hkeys, n, rest, hn => by
      obtain ⟨m, rfl⟩ : ∃ m, n = m + 1 := ⟨n - 1, by simp at hn; omega⟩
      simp only [validFields, Bool.and_eq_true] at hfields
      have hvalue := parseValue_dumpsText v hv m
        (',' :: ' ' :: (joinText (memberTexts ((k', w) :: fields)) ++ '\x7d' :: rest))
        (by simp at hn; omega) (.comma _)
      have hkeys' : (Dict.keys ((d ++ [(k, v)]) ++ (k', w) :: fields)).Nodup := by
        rw [List.append_assoc]
        exact hkeys
      have hmore := parseMembers_memberTexts k' w fields hfields.1 hfields.2 (d ++ [(k, v)]) hkeys'
        m rest (by simp at hn ⊢; omega)
      obtain ⟨c, cs, htext, hc⟩ := dumpsText_head v hv
      obtain ⟨c', cs', htext', hc'⟩ := joinText_memberTexts_head k' w fields
      have hjoin : joinText (memberTexts ((k, v) :: (k', w) :: fields)) ++ '\x7d' :: rest
          = quote k ++ ':' :: ' ' :: (dumpsText v
            ++ ',' :: ' ' :: (joinText (memberTexts ((k', w) :: fields)) ++ '\x7d' :: rest)) := by
        simp [memberTexts, joinText]
      rw [hjoin, parseMembers]
      rw [htext, List.cons_append] at hvalue ⊢
      rw [parseKey_quote k hc]
      rw [htext', List.cons_append] at hmore hvalue ⊢
      simp only [Option.bind_eq_bind, Option.bind_some, hvalue, afterItem_comma '\x7d' hc',
        if_true]
      rw [set_eq_append (notMem_of_nodup hkeys), hmore, List.append_assoc]
      rfl
termination_by _ v fields => sizeOf v + sizeOf fields + 1
decreasing_by
  all_goals
    simp
    try omega
end

/-- `json.loads(json.dumps(v))` is `v`. -/
theorem loads_dumpsText {v : Json} (hv : valid v = true) :
    loads (String.ofList (dumpsText v)) = some v := by
  obtain ⟨c, cs, htext, hc⟩ := dumpsText_head v hv
  have hread := parseValue_dumpsText v hv (fuelFor (dumpsText v) + sizeOf v) []
    (Nat.le_add_left _ _) .nil
  rw [List.append_nil, parseValue_fuel] at hread
  have hskip : skipSpace (dumpsText v) = dumpsText v := by
    rw [htext]
    exact skipSpace_cons hc cs
  simp only [loads, loadsAs, String.toList_ofList, hskip, hread]
  rfl

end Json

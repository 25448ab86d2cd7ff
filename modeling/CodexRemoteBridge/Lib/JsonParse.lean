/-
  CodexRemoteBridge.Lib.JsonParse — `json.loads` with its default arguments.

  A Python string may hold a lone surrogate, which no Lean character is.  So
  the decoder is given how a Python string is named: `loads` has a name for
  the strings without one only, `decode` spells every string.

  Main result: `parseValue_fuel` — the fuel of the decoder is never what
  stops it.
-/
import CodexRemoteBridge.Lib.JsonText
import Mathlib.Data.Nat.Log

namespace Json

/-! ## §1. Strings. -/

/-- `" \t\n\r"`. -/
def isJsonSpace (c : Char) : Bool := c = ' ' || c = '\t' || c = '\n' || c = '\r'

def skipSpace (cs : List Char) : List Char := cs.dropWhile isJsonSpace

/-- The value of a hexadecimal digit. -/
def hexValue (c : Char) : Option Nat :=
  if '0' ≤ c ∧ c ≤ '9' then some (c.toNat - 48)
  else if 'a' ≤ c ∧ c ≤ 'f' then some (c.toNat - 87)
  else if 'A' ≤ c ∧ c ≤ 'F' then some (c.toNat - 55)
  else none

/-- The code unit of `\uabcd`. -/
def hexUnit (a b c d : Char) : Option Nat := do
  let a ← hexValue a
  let b ← hexValue b
  let c ← hexValue c
  let d ← hexValue d
  some (a * 4096 + b * 256 + c * 16 + d)

/-- The character a one-letter escape stands for. -/
def unescape (e : Char) : Option Char :=
  if e = '"' then some '"'
  else if e = '\\' then some '\\'
  else if e = '/' then some '/'
  else if e = 'b' then some '\x08'
  else if e = 'f' then some '\x0c'
  else if e = 'n' then some '\n'
  else if e = 'r' then some '\r'
  else if e = 't' then some '\t'
  else none

/-- The code units of a string, up to its closing quote. -/
def scanUnits : List Char → Option (List Nat × List Char)
  | [] => none
  | '"' :: rest => some ([], rest)
  | '\\' :: 'u' :: a :: b :: c :: d :: rest =>
      match hexUnit a b c d with
      | some u => (scanUnits rest).map fun p => (u :: p.1, p.2)
      | none => none
  | '\\' :: e :: rest =>
      match unescape e with
      | some c => (scanUnits rest).map fun p => (c.toNat :: p.1, p.2)
      | none => none
  | c :: rest =>
      -- A control character has to be escaped.
      if c.toNat < 0x20 then none
      else (scanUnits rest).map fun p => (c.toNat :: p.1, p.2)

def isHighSurrogate (u : Nat) : Bool := 0xd800 ≤ u && u < 0xdc00

def isLowSurrogate (u : Nat) : Bool := 0xdc00 ≤ u && u < 0xe000

/-- Surrogate pairs are one code point. -/
def codePoints : List Nat → List Nat
  | [] => []
  | [u] => [u]
  | u :: v :: rest =>
      if isHighSurrogate u && isLowSurrogate v then
        (0x10000 + (u - 0xd800) * 0x400 + (v - 0xdc00)) :: codePoints rest
      else u :: codePoints (v :: rest)

def isSurrogate (u : Nat) : Bool := 0xd800 ≤ u && u < 0xe000

/-- The string of these code points, if all of them are characters: none is
a lone surrogate. -/
def plainName (points : List Nat) : Option String :=
  if points.all fun u => !isSurrogate u && u < 0x110000 then
    some (String.ofList (points.map Char.ofNat))
  else none

/-- What stands before a surrogate that is spelled. -/
def surrogateMark : Char := Char.ofNat 0x10ffff

/-- A code point, spelled: a character as it is, the mark twice. -/
def spellPoint (u : Nat) : List Char :=
  if isSurrogate u then [surrogateMark, Char.ofNat (u - 0xd800)]
  else if u = 0x10ffff then [surrogateMark, surrogateMark]
  else [Char.ofNat u]

/-- Any string of Python, spelled. -/
def spell (points : List Nat) : String := String.ofList (points.flatMap spellPoint)

/-- `scanstring`, behind the opening quote. -/
def parseString (name : List Nat → Option String) (cs : List Char) :
    Option (String × List Char) :=
  (scanUnits cs).bind fun p => (name (codePoints p.1)).map fun s => (s, p.2)

/-! ## §2. Numbers. -/

/-- The decimal exponent of `n / d`. -/
def decimalExponent (n d : Nat) : Int :=
  if d ≤ n then ((Nat.toDigits 10 (n / d)).length : Int) - 1
  else
    match (List.range 400).find? fun j => d ≤ n * 10 ^ j with
    | some j => -(j : Int)
    | none => 0

/-- The decimal of `p` digits next to `n / d` that rounds to `target`. -/
def decimalOf (n d : Nat) (target : Nat × Int) (p : Nat) : Option (Nat × Int) :=
  let x := decimalExponent n d - p + 1
  let (a, b) := scaleBy 10 n d x
  let rounds (m : Nat) : Bool :=
    let (a, b) := if 0 ≤ x then (m * 10 ^ x.toNat, 1) else (m, 10 ^ (-x).toNat)
    nearestDouble a b = target
  let low := a / b
  let candidates := if 2 * (a % b) < b then [low, low + 1] else [low + 1, low]
  (candidates.find? rounds).map fun m =>
    if m = 10 ^ p then (m / 10, decimalExponent n d + 1) else (m, decimalExponent n d)

/-- The shortest decimal that rounds to `target`: its digits, and the
exponent of the first one. -/
def shortestDecimal (target : Nat × Int) : Nat × Int :=
  let (n, d) := if 0 ≤ target.2 then (target.1 * 2 ^ target.2.toNat, 1)
    else (target.1, 2 ^ (-target.2).toNat)
  ((List.range 17).findSome? fun i => decimalOf n d target (i + 1)).getD (n, 0)

/-- `repr` of a double, from its shortest decimal. -/
def layoutDecimal (m : Nat) (e : Int) : List Char :=
  let ds := Nat.toDigits 10 m
  let point := e + 1
  let zeros (k : Int) : List Char := List.replicate k.toNat '0'
  if -4 < point ∧ point ≤ 16 then
    if point ≤ 0 then '0' :: '.' :: (zeros (-point) ++ ds)
    else if (ds.length : Int) ≤ point then ds ++ zeros (point - ds.length) ++ ['.', '0']
    else ds.take point.toNat ++ '.' :: ds.drop point.toNat
  else
    let sign := if e < 0 then '-' else '+'
    let exponent := Nat.toDigits 10 e.natAbs
    let exponent := if exponent.length < 2 then '0' :: exponent else exponent
    match ds with
    | [] => []
    | [c] => c :: 'e' :: sign :: exponent
    | c :: rest => c :: '.' :: (rest ++ 'e' :: sign :: exponent)

/-- `repr(float(text))` of a decimal `m * 10 ^ e`. -/
def reprDecimal (m : Nat) (e : Int) : List Char :=
  if m = 0 then ['0', '.', '0']
  else
    let (n, d) := if 0 ≤ e then (m * 10 ^ e.toNat, 1) else (m, 10 ^ (-e).toNat)
    let target := nearestDouble n d
    if target.1 = 0 then ['0', '.', '0']
    else if 2 ^ 52 ≤ target.1 ∧ 971 < target.2 then "Infinity".toList
    else
      let (m, e) := shortestDecimal target
      layoutDecimal m e

/-- A numeral: sign, whole part, fraction and exponent, where they are. -/
structure Numeral where
  negative : Bool
  whole : List Char
  fraction : Option (List Char)
  exponent : Option (Bool × List Char)

/-- The digits at the start, and what follows them. -/
def takeDigits (cs : List Char) : List Char × List Char :=
  (cs.takeWhile Char.isDigit, cs.dropWhile Char.isDigit)

/-- `-?(0|[1-9][0-9]*)`, behind the sign. -/
def scanWhole : List Char → Option (List Char × List Char)
  | '0' :: rest => some (['0'], rest)
  | c :: rest => if c.isDigit then some (takeDigits (c :: rest)) else none
  | [] => none

/-- `(\.[0-9]+)?`. -/
def scanFraction : List Char → Option (List Char) × List Char
  | '.' :: rest =>
      match takeDigits rest with
      | ([], _) => (none, '.' :: rest)
      | (ds, rest) => (some ds, rest)
  | rest => (none, rest)

/-- `[-+]?`, and whether it is a minus. -/
def exponentSign : List Char → Bool × List Char
  | '-' :: rest => (true, rest)
  | '+' :: rest => (false, rest)
  | rest => (false, rest)

/-- `[0-9]+`; without a digit the exponent that started at `start` is none. -/
def exponentDigits (start : List Char) (p : Bool × List Char) :
    Option (Bool × List Char) × List Char :=
  match takeDigits p.2 with
  | ([], _) => (none, start)
  | (ds, rest) => (some (p.1, ds), rest)

/-- `([eE][-+]?[0-9]+)?`. -/
def scanExponent : List Char → Option (Bool × List Char) × List Char
  | c :: rest =>
      if c = 'e' ∨ c = 'E' then exponentDigits (c :: rest) (exponentSign rest)
      else (none, c :: rest)
  | [] => (none, [])

/-- `-?`, and whether it is there. -/
def numeralSign : List Char → Bool × List Char
  | '-' :: rest => (true, rest)
  | rest => (false, rest)

def scanNumeral (cs : List Char) : Option (Numeral × List Char) :=
  match scanWhole (numeralSign cs).2 with
  | none => none
  | some (whole, rest) =>
      let (fraction, rest) := scanFraction rest
      let (exponent, rest) := scanExponent rest
      some (⟨(numeralSign cs).1, whole, fraction, exponent⟩, rest)

/-- `int(text)` or `float(text)`. -/
def Numeral.value (n : Numeral) : Json :=
  match n.fraction, n.exponent with
  | none, none =>
      let m : Int := Nat.ofDigitChars 10 n.whole 0
      .int (if n.negative then -m else m)
  | fraction, exponent =>
      let fraction := fraction.getD []
      let shift : Int := match exponent with
        | none => 0
        | some (negative, ds) =>
            if negative then -(Nat.ofDigitChars 10 ds 0 : Int) else Nat.ofDigitChars 10 ds 0
      let magnitude := reprDecimal (Nat.ofDigitChars 10 (n.whole ++ fraction) 0)
        (shift - fraction.length)
      .float (String.ofList (if n.negative then '-' :: magnitude else magnitude))

/-- The constants of the decoder that are no JSON. -/
def parseConstant : List Char → Option (Json × List Char)
  | 'N' :: 'a' :: 'N' :: rest => some (.float "NaN", rest)
  | 'I' :: 'n' :: 'f' :: 'i' :: 'n' :: 'i' :: 't' :: 'y' :: rest => some (.float "Infinity", rest)
  | '-' :: 'I' :: 'n' :: 'f' :: 'i' :: 'n' :: 'i' :: 't' :: 'y' :: rest =>
      some (.float "-Infinity", rest)
  | _ => none

def parseNumber (cs : List Char) : Option (Json × List Char) :=
  match scanNumeral cs with
  | some (n, rest) => some (n.value, rest)
  | none => parseConstant cs

/-! ## §3. Values. -/

/-- How a value starts. -/
inductive Opening where
  | string (rest : List Char)
  | object (rest : List Char)
  | array (rest : List Char)
  /-- A value without parts, read at once. -/
  | atom (result : Option (Json × List Char))

/-- The dispatch of `scan_once` on the next characters. -/
def opening : List Char → Opening
  | '"' :: rest => .string rest
  | '\x7b' :: rest => .object rest
  | '[' :: rest => .array rest
  | 'n' :: 'u' :: 'l' :: 'l' :: rest => .atom (some (.null, rest))
  | 't' :: 'r' :: 'u' :: 'e' :: rest => .atom (some (.bool true, rest))
  | 'f' :: 'a' :: 'l' :: 's' :: 'e' :: rest => .atom (some (.bool false, rest))
  | cs => .atom (parseNumber cs)

/-- What follows an item: whether there is another one. -/
def afterItem (close : Char) (cs : List Char) : Option (Bool × List Char) :=
  match skipSpace cs with
  | [] => none
  | c :: rest =>
      if c = ',' then some (true, skipSpace rest)
      else if c = close then some (false, rest)
      else none

/-- A key and its colon. -/
def parseKey (name : List Nat → Option String) : List Char → Option (String × List Char)
  | '"' :: rest =>
      match parseString name rest with
      | none => none
      | some (key, rest) =>
          match skipSpace rest with
          | ':' :: rest => some (key, skipSpace rest)
          | _ => none
  | _ => none

mutual
/-- `scan_once`. -/
def parseValue (name : List Nat → Option String) : Nat → List Char → Option (Json × List Char)
  | 0, _ => none
  | n + 1, cs =>
      match opening cs with
      | .string rest => (parseString name rest).map fun p => (.str p.1, p.2)
      | .object rest =>
          match skipSpace rest with
          | '\x7d' :: rest => some (.obj [], rest)
          | rest => (parseMembers name n [] rest).map fun p => (.obj p.1, p.2)
      | .array rest =>
          match skipSpace rest with
          | ']' :: rest => some (.arr [], rest)
          | rest => (parseItems name n rest).map fun p => (.arr p.1, p.2)
      | .atom result => result

/-- `JSONArray`, behind the bracket. -/
def parseItems (name : List Nat → Option String) :
    Nat → List Char → Option (List Json × List Char)
  | 0, _ => none
  | n + 1, cs => do
      let (v, rest) ← parseValue name n cs
      let (more, rest) ← afterItem ']' rest
      if more then
        let (items, rest) ← parseItems name n rest
        some (v :: items, rest)
      else some ([v], rest)

/-- `JSONObject`, behind the brace, with the members read so far. -/
def parseMembers (name : List Nat → Option String) :
    Nat → Dict → List Char → Option (Dict × List Char)
  | 0, _, _ => none
  | n + 1, d, cs => do
      let (key, rest) ← parseKey name cs
      let (v, rest) ← parseValue name n rest
      let (more, rest) ← afterItem '\x7d' rest
      if more then parseMembers name n (d.set key v) rest
      else some (d.set key v, rest)
end

/-- Enough for any text of this length. -/
def fuelFor (cs : List Char) : Nat := 2 * cs.length + 1

/-- `json.loads(text)`, with its strings named; `none` where it raises, or
where a string has no name. -/
def loadsAs (name : List Nat → Option String) (text : String) : Option Json :=
  match parseValue name (fuelFor (skipSpace text.toList)) (skipSpace text.toList) with
  | none => none
  | some (v, rest) => if skipSpace rest = [] then some v else none

theorem loadsAs_ofList (name : List Nat → Option String) (cs : List Char) :
    loadsAs name (String.ofList cs) =
      match parseValue name (fuelFor (skipSpace cs)) (skipSpace cs) with
      | none => none
      | some (v, rest) => if skipSpace rest = [] then some v else none := by
  rw [loadsAs, String.toList_ofList]

/-- `json.loads(text)` of a text without lone surrogates. -/
def loads (text : String) : Option Json := loadsAs plainName text

/-- `json.loads(text)` of any text, with the strings spelled. -/
def decode (text : String) : Option Json := loadsAs (fun points => some (spell points)) text

/-! ## §4. The fuel is never what stops the decoder. -/

section Fuel

variable {name : List Nat → Option String}

theorem skipSpace_length (cs : List Char) : (skipSpace cs).length ≤ cs.length :=
  (List.dropWhile_sublist _).length_le

theorem scanUnits_length :
    ∀ {cs : List Char} {us : List Nat} {rest : List Char}, scanUnits cs = some (us, rest) →
      rest.length < cs.length := by
  intro cs
  fun_induction scanUnits cs with
  | case1 => intro us rest h; cases h
  | case2 rest =>
      intro us rest' h
      cases h
      simp
  | case3 a b c d rest u hu ih =>
      intro us rest' h
      obtain ⟨⟨us', rest''⟩, hp, he⟩ := Option.map_eq_some_iff.mp h
      cases he
      have hlt := ih hp
      simp only [List.length_cons]
      omega
  | case4 => intro us rest h; cases h
  | case5 e rest _ c hc ih =>
      intro us rest' h
      obtain ⟨⟨us', rest''⟩, hp, he⟩ := Option.map_eq_some_iff.mp h
      cases he
      have hlt := ih hp
      simp only [List.length_cons]
      omega
  | case6 => intro us rest h; cases h
  | case7 => intro us rest h; cases h
  | case8 c rest _ _ _ _ ih =>
      intro us rest' h
      obtain ⟨⟨us', rest''⟩, hp, he⟩ := Option.map_eq_some_iff.mp h
      cases he
      have hlt := ih hp
      simp only [List.length_cons]
      omega

theorem parseString_length {cs : List Char} {s : String} {rest : List Char}
    (h : parseString name cs = some (s, rest)) : rest.length < cs.length := by
  obtain ⟨⟨us, rest'⟩, hp, h⟩ := Option.bind_eq_some_iff.mp h
  obtain ⟨s', -, he⟩ := Option.map_eq_some_iff.mp h
  cases he
  exact scanUnits_length hp

theorem afterItem_length {close : Char} {cs : List Char} {more : Bool} {rest : List Char}
    (h : afterItem close cs = some (more, rest)) : rest.length < cs.length := by
  have hskip := skipSpace_length cs
  unfold afterItem at h
  split at h
  · cases h
  · rename_i c tail hcs
    rw [hcs, List.length_cons] at hskip
    have htail := skipSpace_length tail
    split at h
    · cases h
      omega
    · split at h
      · cases h
        omega
      · cases h

theorem parseKey_length {cs : List Char} {key : String} {rest : List Char}
    (h : parseKey name cs = some (key, rest)) : rest.length < cs.length := by
  unfold parseKey at h
  split at h
  · rename_i tail
    split at h
    · cases h
    · rename_i key' mid hstring
      have hlt := parseString_length hstring
      have hskip := skipSpace_length mid
      split at h
      · rename_i last hcolon
        cases h
        rw [hcolon, List.length_cons] at hskip
        have hlast := skipSpace_length last
        simp only [List.length_cons]
        omega
      · cases h
  · cases h

theorem takeDigits_length (cs : List Char) : (takeDigits cs).2.length ≤ cs.length :=
  (List.dropWhile_sublist _).length_le

theorem scanWhole_length {cs whole rest : List Char}
    (h : scanWhole cs = some (whole, rest)) : rest.length < cs.length := by
  unfold scanWhole at h
  split at h
  · cases h
    simp
  · rename_i c tail _
    split at h
    · rename_i hdigit
      -- The digit at the head is taken.
      have htail := takeDigits_length tail
      have hrest : rest = (takeDigits tail).2 := by
        simp only [takeDigits, Option.some.injEq, Prod.mk.injEq] at h
        simp only [takeDigits, ← h.2, List.dropWhile_cons, hdigit, if_true]
      rw [hrest, List.length_cons]
      omega
    · cases h
  · cases h

theorem scanFraction_length (cs : List Char) : (scanFraction cs).2.length ≤ cs.length := by
  unfold scanFraction
  split
  · rename_i rest
    have hrest := takeDigits_length rest
    split
    · exact le_refl _
    · rename_i ds rest' _ htake
      rw [htake] at hrest
      simp only [List.length_cons] at hrest ⊢
      omega
  · exact le_refl _

theorem exponentSign_length (cs : List Char) : (exponentSign cs).2.length ≤ cs.length := by
  unfold exponentSign
  split <;> simp

theorem scanExponent_length (cs : List Char) : (scanExponent cs).2.length ≤ cs.length := by
  unfold scanExponent
  split
  · rename_i c rest
    have hsign := exponentSign_length rest
    have htake := takeDigits_length (exponentSign rest).2
    split
    · unfold exponentDigits
      split
      · exact le_refl _
      · rename_i ds rest' _ hdigits
        rw [hdigits] at htake
        simp only [List.length_cons] at htake ⊢
        omega
    · exact le_refl _
  · exact le_refl _

theorem numeralSign_length (cs : List Char) : (numeralSign cs).2.length ≤ cs.length := by
  unfold numeralSign
  split <;> simp

theorem scanNumeral_length {cs rest : List Char} {n : Numeral}
    (h : scanNumeral cs = some (n, rest)) : rest.length < cs.length := by
  have hsign := numeralSign_length cs
  unfold scanNumeral at h
  split at h
  · cases h
  · rename_i whole mid hwhole
    have hmid := scanWhole_length hwhole
    have hfraction := scanFraction_length mid
    have hexponent := scanExponent_length (scanFraction mid).2
    have hrest : (scanExponent (scanFraction mid).2).2 = rest := congrArg Prod.snd
      (Option.some.inj h)
    rw [← hrest]
    omega

theorem parseConstant_length {cs rest : List Char} {v : Json}
    (h : parseConstant cs = some (v, rest)) : rest.length < cs.length := by
  unfold parseConstant at h
  split at h <;> cases h <;> simp only [List.length_cons] <;> omega

theorem parseNumber_length {cs rest : List Char} {v : Json}
    (h : parseNumber cs = some (v, rest)) : rest.length < cs.length := by
  unfold parseNumber at h
  split at h
  · rename_i n mid hscan
    cases h
    exact scanNumeral_length hscan
  · exact parseConstant_length h

/-- What is left of the text behind the opening of a value is shorter. -/
def Opening.Shorter (cs : List Char) : Opening → Prop
  | .string rest => rest.length < cs.length
  | .object rest => rest.length < cs.length
  | .array rest => rest.length < cs.length
  | .atom result => ∀ v rest, result = some (v, rest) → rest.length < cs.length

theorem opening_shorter (cs : List Char) : (opening cs).Shorter cs := by
  unfold opening
  split
  · exact Nat.lt_succ_self _
  · exact Nat.lt_succ_self _
  · exact Nat.lt_succ_self _
  · intro v rest h
    cases h
    simp only [List.length_cons]
    omega
  · intro v rest h
    cases h
    simp only [List.length_cons]
    omega
  · intro v rest h
    cases h
    simp only [List.length_cons]
    omega
  · intro v rest h
    exact parseNumber_length h

/-- With `n` fuel, every reader leaves less than it got. -/
def Consumes (name : List Nat → Option String) (n : Nat) : Prop :=
  (∀ cs v rest, parseValue name n cs = some (v, rest) → rest.length < cs.length)
  ∧ (∀ cs items rest, parseItems name n cs = some (items, rest) → rest.length < cs.length)
  ∧ ∀ d cs fields rest, parseMembers name n d cs = some (fields, rest) → rest.length < cs.length

theorem parseValue_length_succ {n : Nat} (hn : Consumes name n) {cs rest : List Char} {v : Json}
    (h : parseValue name (n + 1) cs = some (v, rest)) : rest.length < cs.length := by
  have hshort := opening_shorter cs
  rw [parseValue] at h
  split at h
  · rename_i tail hopen
    rw [hopen] at hshort
    obtain ⟨⟨s, rest'⟩, hstring, he⟩ := Option.map_eq_some_iff.mp h
    cases he
    exact lt_trans (parseString_length hstring) hshort
  · rename_i tail hopen
    rw [hopen] at hshort
    have hskip := skipSpace_length tail
    have hlt : tail.length < cs.length := hshort
    split at h
    · rename_i last hclose
      cases h
      rw [hclose, List.length_cons] at hskip
      omega
    · obtain ⟨⟨fields, rest'⟩, hmembers, he⟩ := Option.map_eq_some_iff.mp h
      obtain ⟨-, rfl⟩ := Prod.mk.inj he
      have hrest := hn.2.2 _ _ _ _ hmembers
      dsimp only
      omega
  · rename_i tail hopen
    rw [hopen] at hshort
    have hskip := skipSpace_length tail
    have hlt : tail.length < cs.length := hshort
    split at h
    · rename_i last hclose
      cases h
      rw [hclose, List.length_cons] at hskip
      omega
    · obtain ⟨⟨items, rest'⟩, hitems, he⟩ := Option.map_eq_some_iff.mp h
      obtain ⟨-, rfl⟩ := Prod.mk.inj he
      have hrest := hn.2.1 _ _ _ hitems
      dsimp only
      omega
  · rename_i result hopen
    rw [hopen] at hshort
    exact hshort v rest h

theorem consumes (n : Nat) : Consumes name n := by
  induction n with
  | zero =>
      refine ⟨?_, ?_, ?_⟩
      · intro cs v rest h
        cases h
      · intro cs items rest h
        cases h
      · intro d cs fields rest h
        cases h
  | succ n ih =>
      refine ⟨fun cs v rest h => parseValue_length_succ ih h, ?_, ?_⟩
      · intro cs items rest h
        rw [parseItems] at h
        obtain ⟨⟨v, mid⟩, hvalue, h⟩ := Option.bind_eq_some_iff.mp h
        obtain ⟨⟨more, tail⟩, hafter, h⟩ := Option.bind_eq_some_iff.mp h
        have hmid := ih.1 _ _ _ hvalue
        have htail := afterItem_length hafter
        dsimp only at h htail
        split at h
        · obtain ⟨⟨items', rest'⟩, hitems, he⟩ := Option.bind_eq_some_iff.mp h
          have hrest := ih.2.1 _ _ _ hitems
          obtain ⟨-, rfl⟩ := Prod.mk.inj (Option.some.inj he)
          dsimp only
          omega
        · cases h
          omega
      · intro d cs fields rest h
        rw [parseMembers] at h
        obtain ⟨⟨key, mid⟩, hkey, h⟩ := Option.bind_eq_some_iff.mp h
        obtain ⟨⟨v, mid'⟩, hvalue, h⟩ := Option.bind_eq_some_iff.mp h
        obtain ⟨⟨more, tail⟩, hafter, h⟩ := Option.bind_eq_some_iff.mp h
        have hmid := parseKey_length hkey
        have hmid' := ih.1 _ _ _ hvalue
        have htail := afterItem_length hafter
        dsimp only at h hmid' htail
        split at h
        · have hrest := ih.2.2 _ _ _ _ h
          omega
        · cases h
          omega

/-- With `n` fuel and more, the readers give one answer. -/
def Settled (name : List Nat → Option String) (n : Nat) : Prop :=
  (∀ cs : List Char, 2 * cs.length + 1 ≤ n → parseValue name (n + 1) cs = parseValue name n cs)
  ∧ (∀ cs : List Char, 2 * cs.length + 2 ≤ n → parseItems name (n + 1) cs = parseItems name n cs)
  ∧ ∀ (d : Dict) (cs : List Char), 2 * cs.length + 2 ≤ n →
      parseMembers name (n + 1) d cs = parseMembers name n d cs

theorem parseValue_settled {n : Nat} (hn : Settled name n) {cs : List Char}
    (hlen : 2 * cs.length + 1 ≤ n + 1) : parseValue name (n + 2) cs = parseValue name (n + 1) cs := by
  have hshort := opening_shorter cs
  rw [parseValue, parseValue]
  cases hopen : opening cs with
  | string rest => rfl
  | object rest =>
      rw [hopen] at hshort
      have hlt : rest.length < cs.length := hshort
      have hskip := skipSpace_length rest
      dsimp only
      split
      · rfl
      · rw [hn.2.2 _ _ (by omega)]
  | array rest =>
      rw [hopen] at hshort
      have hlt : rest.length < cs.length := hshort
      have hskip := skipSpace_length rest
      dsimp only
      split
      · rfl
      · rw [hn.2.1 _ (by omega)]
  | atom result => rfl

theorem settled (n : Nat) : Settled name n := by
  induction n with
  | zero =>
      refine ⟨?_, ?_, ?_⟩
      · intro cs h
        omega
      · intro cs h
        omega
      · intro d cs h
        omega
  | succ n ih =>
      refine ⟨fun cs hlen => parseValue_settled ih hlen, ?_, ?_⟩
      · intro cs hlen
        rw [parseItems, parseItems, ih.1 cs (by omega)]
        refine Option.bind_congr fun p hvalue => ?_
        refine Option.bind_congr fun q hafter => ?_
        have hp := (consumes n).1 _ _ _ hvalue
        have hq := afterItem_length hafter
        dsimp only
        rw [ih.2.1 q.2 (by omega)]
      · intro d cs hlen
        rw [parseMembers, parseMembers]
        refine Option.bind_congr fun p hkey => ?_
        have hp := parseKey_length hkey
        dsimp only
        rw [ih.1 p.2 (by omega)]
        refine Option.bind_congr fun q hvalue => ?_
        refine Option.bind_congr fun r hafter => ?_
        have hq := (consumes n).1 _ _ _ hvalue
        have hr := afterItem_length hafter
        rw [ih.2.2 _ r.2 (by omega)]

/-- **The fuel is never what stops the decoder**: beyond `fuelFor`, more of
it changes nothing. -/
theorem parseValue_fuel (cs : List Char) (k : Nat) :
    parseValue name (fuelFor cs + k) cs = parseValue name (fuelFor cs) cs := by
  induction k with
  | zero => rfl
  | succ k ih =>
      rw [← Nat.add_assoc, (@settled name (fuelFor cs + k)).1 cs (Nat.le_add_right _ _), ih]

end Fuel

end Json

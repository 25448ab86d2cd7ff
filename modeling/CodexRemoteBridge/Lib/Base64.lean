/-
  CodexRemoteBridge.Lib.Base64 — bytes as URL-safe Base64, padded.

  The decoder is strict: whole groups of four digits, padding in the last
  group only and nothing after it.  Like most decoders it takes the digits
  of the standard alphabet as well, and does not look at the bits that
  padding leaves over.

  Main result:
    • `Base64.decode_encode` — what is encoded is decoded again.
-/
import Mathlib.Data.List.Basic

namespace CodexRemoteBridge

namespace Base64

/-! ## §1. Digits. -/

/-- The digit of a value below 64. -/
def char (n : Nat) : Char :=
  if n < 26 then Char.ofNat (n + 65)
  else if n < 52 then Char.ofNat (n + 71)
  else if n < 62 then Char.ofNat (n - 4)
  else if n = 62 then '-'
  else '_'

/-- The value of a digit. -/
def value (c : Char) : Option Nat :=
  if c.isUpper then some (c.toNat - 65)
  else if c.isLower then some (c.toNat - 71)
  else if c.isDigit then some (c.toNat + 4)
  else if c = '-' ∨ c = '+' then some 62
  else if c = '_' ∨ c = '/' then some 63
  else none

theorem value_char : ∀ n < 64, value (char n) = some n := by decide

theorem char_ne_pad : ∀ n < 64, char n ≠ '=' := by decide

/-! ## §2. Groups. -/

/-- Three bytes are four digits; a last group that is short is padded. -/
def encode : List Nat → List Char
  | [] => []
  | [a] => [char (a / 4), char (a % 4 * 16), '=', '=']
  | [a, b] => [char (a / 4), char (a % 4 * 16 + b / 16), char (b % 16 * 4), '=']
  | a :: b :: c :: rest =>
      char (a / 4) :: char (a % 4 * 16 + b / 16) :: char (b % 16 * 4 + c / 64) ::
        char (c % 64) :: encode rest

/-- The bytes of a text, unless it is malformed. -/
def decode : List Char → Option (List Nat)
  | [] => some []
  | w :: x :: y :: z :: rest => do
      let w ← value w
      let x ← value x
      if rest = [] ∧ z = '=' then
        if y = '=' then some [w * 4 + x / 16]
        else do
          let y ← value y
          some [w * 4 + x / 16, x % 16 * 16 + y / 4]
      else do
        let y ← value y
        let z ← value z
        let bytes ← decode rest
        some ((w * 4 + x / 16) :: (x % 16 * 16 + y / 4) :: (y % 4 * 64 + z) :: bytes)
  | _ => none

/-- **The round trip.** -/
theorem decode_encode (bytes : List Nat) (h : ∀ b ∈ bytes, b < 256) :
    decode (encode bytes) = some bytes := by
  induction bytes using encode.induct with
  | case1 => rfl
  | case2 a =>
      have ha : a < 256 := h a (by simp)
      have hw := value_char (a / 4) (by omega)
      have hx := value_char (a % 4 * 16) (by omega)
      simp only [encode, decode, hw, hx, Option.bind_eq_bind, Option.bind_some, and_self, if_true]
      congr 2
      omega
  | case3 a b =>
      have ha : a < 256 := h a (by simp)
      have hb : b < 256 := h b (by simp)
      have hw := value_char (a / 4) (by omega)
      have hx := value_char (a % 4 * 16 + b / 16) (by omega)
      have hy := value_char (b % 16 * 4) (by omega)
      have hpad := char_ne_pad (b % 16 * 4) (by omega)
      simp only [encode, decode, hw, hx, hy, hpad, Option.bind_eq_bind, Option.bind_some,
        and_self, if_true, if_false]
      congr 2
      · omega
      · congr 1
        omega
  | case4 a b c rest ih =>
      have ha : a < 256 := h a (by simp)
      have hb : b < 256 := h b (by simp)
      have hc : c < 256 := h c (by simp)
      have hrest := ih fun d hd => h d (by simp [hd])
      have hw := value_char (a / 4) (by omega)
      have hx := value_char (a % 4 * 16 + b / 16) (by omega)
      have hy := value_char (b % 16 * 4 + c / 64) (by omega)
      have hz := value_char (c % 64) (by omega)
      have hpad := char_ne_pad (c % 64) (by omega)
      simp only [encode, decode, hw, hx, hy, hz, hpad, hrest, Option.bind_eq_bind,
        Option.bind_some, and_false, if_false]
      congr 2
      · omega
      · congr 1
        · omega
        · congr 1
          omega

end Base64

end CodexRemoteBridge

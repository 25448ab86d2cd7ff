/-
  CodexRemoteBridge.Lib.JsonText — `json.dumps(value, sort_keys=True,
  separators=(",", ":"))` with its default ASCII escapes, and why the text
  determines the value.

  The texts of values without numbers form a PREFIX CODE: no text is a
  proper prefix of another, so a text inside a longer one is read back in
  one way only (`text_prefixFree`).  From that:
    • `dumps_str_inj`, `dumps_arr_inj` — strings and lists are determined;
    • `dumps_obj_get?` — two dicts with one text agree on every key.
-/
import CodexRemoteBridge.Lib.Json
import Mathlib.Data.List.Sort
import Mathlib.Data.List.Perm.Basic
import Mathlib.Data.String.Basic

namespace Json

/-! ## §1. The encoder. -/

/-- A lower-case hexadecimal digit. -/
def hexDigit (n : Nat) : Char :=
  if n < 10 then Char.ofNat (48 + n) else Char.ofNat (87 + n)

/-- Four hexadecimal digits. -/
def hex4 (n : Nat) : List Char :=
  [hexDigit (n / 4096 % 16), hexDigit (n / 256 % 16), hexDigit (n / 16 % 16),
   hexDigit (n % 16)]

/-- The characters with an escape of their own. -/
def shortEscape (c : Char) : Option Char :=
  if c = '\\' then some '\\'
  else if c = '"' then some '"'
  else if c = '\n' then some 'n'
  else if c = '\r' then some 'r'
  else if c = '\t' then some 't'
  else if c = '\x08' then some 'b'
  else if c = '\x0c' then some 'f'
  else none

/-- The UTF-16 code units of a character. -/
def units (c : Char) : List Nat :=
  if c.toNat < 0x10000 then [c.toNat]
  else [0xd800 + (c.toNat - 0x10000) / 0x400, 0xdc00 + (c.toNat - 0x10000) % 0x400]

/-- `py_encode_basestring_ascii`, one character. -/
def escapeChar (c : Char) : List Char :=
  match shortEscape c with
  | some e => ['\\', e]
  | none =>
      if 0x20 ≤ c.toNat ∧ c.toNat ≤ 0x7e then [c]
      else (units c).flatMap fun u => '\\' :: 'u' :: hex4 u

/-- A quoted string. -/
def quote (s : String) : List Char := '"' :: (s.toList.flatMap escapeChar ++ ['"'])

/-- `",".join(texts)`. -/
def joinComma : List (List Char) → List Char
  | [] => []
  | [t] => t
  | t :: ts => t ++ ',' :: joinComma ts

/-- The items of a dict in the order `sort_keys=True` writes them. -/
def sortKeys (fields : List (String × List Char)) : List (String × List Char) :=
  fields.insertionSort fun a b => a.1 ≤ b.1

/-- `"key":value`. -/
def member (field : String × List Char) : List Char := quote field.1 ++ ':' :: field.2

mutual
/-- The text of a value. -/
def dumps : Json → List Char
  | .null => ['n', 'u', 'l', 'l']
  | .bool b => if b then ['t', 'r', 'u', 'e'] else ['f', 'a', 'l', 's', 'e']
  | .int n => (toString n).toList
  | .float repr => repr.toList
  | .str s => quote s
  | .arr items => '[' :: (joinComma (dumpsItems items) ++ [']'])
  | .obj fields => '\x7b' :: (joinComma ((sortKeys (dumpsFields fields)).map member) ++ ['\x7d'])

def dumpsItems : List Json → List (List Char)
  | [] => []
  | v :: rest => dumps v :: dumpsItems rest

def dumpsFields : Dict → List (String × List Char)
  | [] => []
  | (k, v) :: rest => (k, dumps v) :: dumpsFields rest
end

theorem dumpsItems_eq_map (items : List Json) : dumpsItems items = items.map dumps := by
  induction items with
  | nil => rfl
  | cons v rest ih => simp [dumpsItems, ih]

theorem dumpsFields_eq_map (fields : Dict) :
    dumpsFields fields = fields.map fun kv => (kv.1, dumps kv.2) := by
  induction fields with
  | nil => rfl
  | cons kv rest ih =>
      obtain ⟨k, v⟩ := kv
      simp [dumpsFields, ih]

/-! ## §2. Escapes are a prefix code. -/

theorem hexDigit_inj : ∀ a < 16, ∀ b < 16, hexDigit a = hexDigit b → a = b := by decide

theorem hex4_inj {a b : Nat} (ha : a < 0x10000) (hb : b < 0x10000)
    (h : hex4 a = hex4 b) : a = b := by
  simp only [hex4, List.cons.injEq, and_true] at h
  obtain ⟨h₁, h₂, h₃, h₄⟩ := h
  have e₁ := hexDigit_inj _ (Nat.mod_lt _ (by decide)) _ (Nat.mod_lt _ (by decide)) h₁
  have e₂ := hexDigit_inj _ (Nat.mod_lt _ (by decide)) _ (Nat.mod_lt _ (by decide)) h₂
  have e₃ := hexDigit_inj _ (Nat.mod_lt _ (by decide)) _ (Nat.mod_lt _ (by decide)) h₃
  have e₄ := hexDigit_inj _ (Nat.mod_lt _ (by decide)) _ (Nat.mod_lt _ (by decide)) h₄
  omega

/-- The character a short escape stands for. -/
def unescapeShort (e : Char) : Char :=
  if e = 'n' then '\n' else if e = 'r' then '\r' else if e = 't' then '\t'
  else if e = 'b' then '\x08' else if e = 'f' then '\x0c' else e

theorem unescapeShort_eq {c e : Char} (h : shortEscape c = some e) : unescapeShort e = c := by
  unfold shortEscape at h
  repeat' split at h
  all_goals first
    | (obtain rfl := Option.some.inj h
       subst_vars
       rfl)
    | cases h

theorem shortEscape_inj {c d e : Char} (hc : shortEscape c = some e)
    (hd : shortEscape d = some e) : c = d := by
  rw [← unescapeShort_eq hc, unescapeShort_eq hd]

theorem shortEscape_ne_u (c : Char) : shortEscape c ≠ some 'u' := by
  unfold shortEscape
  repeat' split
  all_goals simp

theorem shortEscape_backslash {c : Char} (h : shortEscape c = none) : c ≠ '\\' := by
  rintro rfl
  simp [shortEscape] at h

theorem shortEscape_quote {c : Char} (h : shortEscape c = none) : c ≠ '"' := by
  rintro rfl
  simp [shortEscape] at h

/-- A character is no surrogate. -/
theorem toNat_not_surrogate (c : Char) : ¬ (0xd800 ≤ c.toNat ∧ c.toNat < 0xe000) := by
  have h := c.valid
  simp only [UInt32.isValidChar, Nat.isValidChar] at h
  show ¬ (0xd800 ≤ c.val.toNat ∧ c.val.toNat < 0xe000)
  omega

theorem toNat_lt (c : Char) : c.toNat < 0x110000 := by
  have h := c.valid
  simp only [UInt32.isValidChar, Nat.isValidChar] at h
  show c.val.toNat < 0x110000
  omega

theorem char_ext {c d : Char} (h : c.toNat = d.toNat) : c = d :=
  Char.ext (UInt32.toNat_inj.mp h)

/-- The escapes of the code units of two characters are read back in one way. -/
theorem units_prefixFree {c d : Char} {r r' : List Char}
    (h : ((units c).flatMap fun u => '\\' :: 'u' :: hex4 u) ++ r
      = ((units d).flatMap fun u => '\\' :: 'u' :: hex4 u) ++ r') : c = d ∧ r = r' := by
  have hc := toNat_lt c
  have hd := toNat_lt d
  have sc := toNat_not_surrogate c
  have sd := toNat_not_surrogate d
  have split4 : ∀ {a b : Nat} {u u' : List Char},
      hex4 a ++ u = hex4 b ++ u' → hex4 a = hex4 b ∧ u = u' := by
    intro a b u u' hu
    exact List.append_inj hu rfl
  unfold units at h
  split at h <;> split at h <;>
    simp only [List.flatMap_cons, List.flatMap_nil, List.append_nil, List.cons_append,
      List.append_assoc, List.cons.injEq, true_and] at h
  · obtain ⟨h₁, h₂⟩ := split4 h
    exact ⟨char_ext (hex4_inj (by omega) (by omega) h₁), h₂⟩
  · have h₁ := hex4_inj (by omega) (by omega) (split4 h).1
    omega
  · have h₁ := hex4_inj (by omega) (by omega) (split4 h).1
    omega
  · obtain ⟨h₁, h₂⟩ := split4 h
    simp only [List.cons.injEq, true_and] at h₂
    obtain ⟨h₃, h₄⟩ := split4 h₂
    have e₁ := hex4_inj (by omega) (by omega) h₁
    have e₂ := hex4_inj (by omega) (by omega) h₃
    exact ⟨char_ext (by omega), h₄⟩

theorem units_head (c : Char) :
    ∃ t, ((units c).flatMap fun u => '\\' :: 'u' :: hex4 u) = '\\' :: 'u' :: t := by
  unfold units
  split <;> exact ⟨_, rfl⟩

theorem escapeChar_prefixFree {c d : Char} {r r' : List Char}
    (h : escapeChar c ++ r = escapeChar d ++ r') : c = d ∧ r = r' := by
  obtain ⟨tc, htc⟩ := units_head c
  obtain ⟨td, htd⟩ := units_head d
  unfold escapeChar at h
  cases hc : shortEscape c with
  | some e =>
      cases hd : shortEscape d with
      | some e' =>
          simp only [hc, hd, List.cons_append, List.nil_append, List.cons.injEq,
            true_and] at h
          obtain ⟨rfl, rfl⟩ := h
          exact ⟨shortEscape_inj hc hd, rfl⟩
      | none =>
          simp only [hc, hd] at h
          split at h
          · simp only [List.cons_append, List.nil_append, List.cons.injEq] at h
            exact absurd h.1.symm (shortEscape_backslash hd)
          · rw [htd] at h
            simp only [List.cons_append, List.nil_append, List.cons.injEq, true_and] at h
            exact absurd (h.1 ▸ hc) (shortEscape_ne_u c)
  | none =>
      cases hd : shortEscape d with
      | some e' =>
          simp only [hc, hd] at h
          split at h
          · simp only [List.cons_append, List.nil_append, List.cons.injEq] at h
            exact absurd h.1 (shortEscape_backslash hc)
          · rw [htc] at h
            simp only [List.cons_append, List.nil_append, List.cons.injEq, true_and] at h
            exact absurd (h.1 ▸ hd) (shortEscape_ne_u d)
      | none =>
          simp only [hc, hd] at h
          split at h <;> split at h
          · simpa using h
          · rw [htd] at h
            simp only [List.cons_append, List.nil_append, List.cons.injEq] at h
            exact absurd h.1 (shortEscape_backslash hc)
          · rw [htc] at h
            simp only [List.cons_append, List.nil_append, List.cons.injEq] at h
            exact absurd h.1.symm (shortEscape_backslash hd)
          · exact units_prefixFree h

/-- No escape starts with the closing quote. -/
theorem escapeChar_head (c : Char) : ∃ x t, escapeChar c = x :: t ∧ x ≠ '"' := by
  unfold escapeChar
  cases hc : shortEscape c with
  | some e => exact ⟨'\\', [e], rfl, by decide⟩
  | none =>
      obtain ⟨t, ht⟩ := units_head c
      dsimp only
      split
      · exact ⟨c, [], rfl, shortEscape_quote hc⟩
      · exact ⟨'\\', 'u' :: t, ht, by decide⟩

theorem escapes_prefixFree :
    ∀ (cs ds : List Char) {r r' : List Char},
      cs.flatMap escapeChar ++ '"' :: r = ds.flatMap escapeChar ++ '"' :: r' →
      cs = ds ∧ r = r'
  | [], [], r, r', h => by simpa using h
  | [], d :: ds, r, r', h => by
      obtain ⟨x, t, hx, hne⟩ := escapeChar_head d
      simp only [List.flatMap_nil, List.nil_append, List.flatMap_cons, hx, List.cons_append,
        List.cons.injEq] at h
      exact absurd h.1.symm hne
  | c :: cs, [], r, r', h => by
      obtain ⟨x, t, hx, hne⟩ := escapeChar_head c
      simp only [List.flatMap_nil, List.nil_append, List.flatMap_cons, hx, List.cons_append,
        List.cons.injEq] at h
      exact absurd h.1 hne
  | c :: cs, d :: ds, r, r', h => by
      simp only [List.flatMap_cons, List.append_assoc] at h
      obtain ⟨rfl, h'⟩ := escapeChar_prefixFree h
      obtain ⟨rfl, rfl⟩ := escapes_prefixFree cs ds h'
      exact ⟨rfl, rfl⟩

theorem quote_prefixFree {s t : String} {r r' : List Char}
    (h : quote s ++ r = quote t ++ r') : s = t ∧ r = r' := by
  simp only [quote, List.cons_append, List.append_assoc, List.cons.injEq, true_and,
    List.nil_append] at h
  obtain ⟨hs, hr⟩ := escapes_prefixFree _ _ h
  exact ⟨String.toList_inj.mp hs, hr⟩

/-! ## §3. Texts are a prefix code. -/

/-- The texts of the values that hold no number. -/
inductive Text : List Char → Prop
  | null : Text ['n', 'u', 'l', 'l']
  | true : Text ['t', 'r', 'u', 'e']
  | false : Text ['f', 'a', 'l', 's', 'e']
  | str (s : String) : Text (quote s)
  | arr (items : List (List Char)) :
      (∀ t ∈ items, Text t) → Text ('[' :: (joinComma items ++ [']']))
  | obj (fields : List (String × List Char)) :
      (∀ f ∈ fields, Text f.2) →
      Text ('\x7b' :: (joinComma (fields.map member) ++ ['\x7d']))

/-- The first character of a text; never a separator or a closing bracket. -/
theorem Text.head {t : List Char} (h : Text t) :
    ∃ x u, t = x :: u ∧ x ≠ ',' ∧ x ≠ ']' ∧ x ≠ '\x7d' := by
  cases h with
  | null => exact ⟨_, _, rfl, by decide, by decide, by decide⟩
  | true => exact ⟨_, _, rfl, by decide, by decide, by decide⟩
  | false => exact ⟨_, _, rfl, by decide, by decide, by decide⟩
  | str s => exact ⟨_, _, rfl, by decide, by decide, by decide⟩
  | arr items _ => exact ⟨_, _, rfl, by decide, by decide, by decide⟩
  | obj fields _ => exact ⟨_, _, rfl, by decide, by decide, by decide⟩

/-- A comma-separated list of prefix-free, non-empty parts that never start
with the closing character is read back in one way. -/
theorem joinComma_prefixFree (close : Char) (hclose : close ≠ ',') (Part : List Char → Prop)
    (hhead : ∀ t, Part t → ∃ x u, t = x :: u ∧ x ≠ close) :
    ∀ (xs ys : List (List Char)),
      (∀ x ∈ xs, ∀ y, Part y → ∀ r r', x ++ r = y ++ r' → x = y ∧ r = r') →
      (∀ x ∈ xs, Part x) → (∀ y ∈ ys, Part y) →
      ∀ r r', joinComma xs ++ close :: r = joinComma ys ++ close :: r' →
        xs = ys ∧ r = r'
  | [], [], _, _, _, r, r', h => by simpa [joinComma] using h
  | [], y :: ys, _, _, hy, r, r', h => by
      obtain ⟨c, u, hu, hne⟩ := hhead y (hy y List.mem_cons_self)
      cases ys with
      | nil =>
          simp only [joinComma, hu, List.nil_append, List.cons_append, List.cons.injEq] at h
          exact absurd h.1.symm hne
      | cons z zs =>
          simp only [joinComma, hu, List.nil_append, List.cons_append, List.cons.injEq] at h
          exact absurd h.1.symm hne
  | x :: xs, [], _, hx, _, r, r', h => by
      obtain ⟨c, u, hu, hne⟩ := hhead x (hx x List.mem_cons_self)
      cases xs with
      | nil =>
          simp only [joinComma, hu, List.nil_append, List.cons_append, List.cons.injEq] at h
          exact absurd h.1 hne
      | cons z zs =>
          simp only [joinComma, hu, List.nil_append, List.cons_append, List.cons.injEq] at h
          exact absurd h.1 hne
  | [x], [y], hp, _, hy, r, r', h => by
      obtain ⟨rfl, h'⟩ := hp x List.mem_cons_self y (hy y List.mem_cons_self) _ _ h
      exact ⟨rfl, by simpa using h'⟩
  | [x], y :: z :: zs, hp, _, hy, r, r', h => by
      simp only [joinComma, List.append_assoc, List.cons_append] at h
      obtain ⟨rfl, h'⟩ := hp x List.mem_cons_self y (hy y List.mem_cons_self) _ _ h
      simp only [List.cons.injEq] at h'
      exact absurd h'.1 hclose
  | x :: w :: ws, [y], hp, _, hy, r, r', h => by
      simp only [joinComma, List.append_assoc, List.cons_append] at h
      obtain ⟨rfl, h'⟩ := hp x List.mem_cons_self y (hy y List.mem_cons_self) _ _ h
      simp only [List.cons.injEq] at h'
      exact absurd h'.1.symm hclose
  | x :: w :: ws, y :: z :: zs, hp, hx, hy, r, r', h => by
      simp only [joinComma, List.append_assoc, List.cons_append] at h
      obtain ⟨rfl, h'⟩ := hp x List.mem_cons_self y (hy y List.mem_cons_self) _ _ h
      simp only [List.cons.injEq, true_and] at h'
      obtain ⟨hrest, hr⟩ := joinComma_prefixFree close hclose Part hhead (w :: ws) (z :: zs)
        (fun a ha => hp a (List.mem_cons_of_mem _ ha))
        (fun a ha => hx a (List.mem_cons_of_mem _ ha))
        (fun a ha => hy a (List.mem_cons_of_mem _ ha)) r r' h'
      exact ⟨by rw [hrest], hr⟩

theorem member_injective : Function.Injective member := by
  intro f g h
  obtain ⟨hk, ht⟩ := @quote_prefixFree _ _ (':' :: f.2) (':' :: g.2) h
  exact Prod.ext hk (List.cons.inj ht).2

theorem member_prefixFree {f : String × List Char}
    (hf : ∀ y, Text y → ∀ r r', f.2 ++ r = y ++ r' → f.2 = y ∧ r = r')
    {g : String × List Char} (hg : Text g.2) {r r' : List Char}
    (h : member f ++ r = member g ++ r') : f = g ∧ r = r' := by
  simp only [member, List.append_assoc, List.cons_append] at h
  obtain ⟨hk, h'⟩ := quote_prefixFree h
  simp only [List.cons.injEq, true_and] at h'
  obtain ⟨ht, hr⟩ := hf g.2 hg r r' h'
  exact ⟨Prod.ext hk ht, hr⟩

/-- The texts of dict members, over a set of value texts. -/
def MemberText (t : List Char) : Prop := ∃ f : String × List Char, Text f.2 ∧ t = member f

/-- **Texts are a prefix code.** -/
theorem text_prefixFree {x : List Char} (hx : Text x) :
    ∀ y, Text y → ∀ r r', x ++ r = y ++ r' → x = y ∧ r = r' := by
  induction hx with
  | null =>
      intro y hy r r' h
      cases hy <;> simp_all [quote]
  | true =>
      intro y hy r r' h
      cases hy <;> simp_all [quote]
  | false =>
      intro y hy r r' h
      cases hy <;> simp_all [quote]
  | str s =>
      intro y hy r r' h
      cases hy with
      | str t =>
          obtain ⟨rfl, hr⟩ := quote_prefixFree h
          exact ⟨rfl, hr⟩
      | _ => simp [quote] at h
  | arr items hitems ih =>
      intro y hy r r' h
      cases hy with
      | arr items' hitems' =>
          simp only [List.cons_append, List.append_assoc, List.nil_append, List.cons.injEq,
            true_and] at h
          obtain ⟨rfl, hr⟩ := joinComma_prefixFree ']' (by decide) Text
            (fun t ht => by
              obtain ⟨c, u, hu, _, hne, _⟩ := ht.head
              exact ⟨c, u, hu, hne⟩)
            items items' (fun a ha => ih a ha) hitems hitems' r r' h
          exact ⟨rfl, hr⟩
      | _ => simp [quote] at h
  | obj fields hfields ih =>
      intro y hy r r' h
      cases hy with
      | obj fields' hfields' =>
          simp only [List.cons_append, List.append_assoc, List.nil_append, List.cons.injEq,
            true_and] at h
          have hparts : ∀ a ∈ fields.map member, ∀ b, MemberText b →
              ∀ r r', a ++ r = b ++ r' → a = b ∧ r = r' := by
            intro a ha b hb r r' hab
            obtain ⟨f, hf, rfl⟩ := List.mem_map.mp ha
            obtain ⟨g, hg, rfl⟩ := hb
            obtain ⟨rfl, hr⟩ := member_prefixFree (ih f hf) hg hab
            exact ⟨rfl, hr⟩
          have hpart : ∀ fs : List (String × List Char), (∀ f ∈ fs, Text f.2) →
              ∀ a ∈ fs.map member, MemberText a := by
            intro fs hfs a ha
            obtain ⟨f, hf, rfl⟩ := List.mem_map.mp ha
            exact ⟨f, hfs f hf, rfl⟩
          obtain ⟨hmap, hr⟩ := joinComma_prefixFree '\x7d' (by decide) MemberText
            (fun t ht => by
              obtain ⟨f, _, rfl⟩ := ht
              exact ⟨'"', _, rfl, by decide⟩)
            (fields.map member) (fields'.map member) hparts (hpart fields hfields)
            (hpart fields' hfields') r r' h
          exact ⟨by rw [hmap], hr⟩
      | _ => simp [quote] at h

/-! ## §4. The text of a value determines it up to `==`. -/

mutual
/-- No numbers, and no key twice in any dict. -/
def plain : Json → Bool
  | .int _ => false
  | .float _ => false
  | .arr items => plainItems items
  | .obj fields => decide (Dict.keys fields).Nodup && plainFields fields
  | _ => true

def plainItems : List Json → Bool
  | [] => true
  | v :: rest => plain v && plainItems rest

def plainFields : Dict → Bool
  | [] => true
  | (_, v) :: rest => plain v && plainFields rest
end

theorem plainItems_iff (items : List Json) :
    plainItems items = true ↔ ∀ v ∈ items, plain v = true := by
  induction items with
  | nil => simp [plainItems]
  | cons v rest ih => simp [plainItems, ih]

theorem plainFields_iff (fields : Dict) :
    plainFields fields = true ↔ ∀ kv ∈ fields, plain kv.2 = true := by
  induction fields with
  | nil => simp [plainFields]
  | cons kv rest ih =>
      obtain ⟨k, v⟩ := kv
      simp [plainFields, ih]

theorem mem_sortKeys {f : String × List Char} {fields : List (String × List Char)} :
    f ∈ sortKeys fields ↔ f ∈ fields := List.mem_insertionSort _

mutual
theorem text_dumps : ∀ v : Json, plain v = true → Text (dumps v)
  | .null, _ => .null
  | .bool true, _ => .true
  | .bool false, _ => .false
  | .int _, h => by simp [plain] at h
  | .float _, h => by simp [plain] at h
  | .str s, _ => .str s
  | .arr items, h => .arr _ (text_dumpsItems items (by simpa [plain] using h))
  | .obj fields, h => by
      refine .obj _ fun f hf => text_dumpsFields fields ?_ f (mem_sortKeys.mp hf)
      simp only [plain, Bool.and_eq_true] at h
      exact h.2

theorem text_dumpsItems : ∀ items : List Json, plainItems items = true →
    ∀ t ∈ dumpsItems items, Text t
  | [], _, t, ht => by simp [dumpsItems] at ht
  | v :: rest, h, t, ht => by
      simp only [plainItems, Bool.and_eq_true] at h
      simp only [dumpsItems, List.mem_cons] at ht
      rcases ht with rfl | ht
      · exact text_dumps v h.1
      · exact text_dumpsItems rest h.2 t ht

theorem text_dumpsFields : ∀ fields : Dict, plainFields fields = true →
    ∀ f ∈ dumpsFields fields, Text f.2
  | [], _, f, hf => by simp [dumpsFields] at hf
  | (k, v) :: rest, h, f, hf => by
      simp only [plainFields, Bool.and_eq_true] at h
      simp only [dumpsFields, List.mem_cons] at hf
      rcases hf with rfl | hf
      · exact text_dumps v h.1
      · exact text_dumpsFields rest h.2 f hf
end

theorem dumps_str_inj {s t : String} (h : dumps (.str s) = dumps (.str t)) : s = t :=
  (@quote_prefixFree _ _ [] [] (by simpa [dumps] using h)).1

theorem dumps_arr_inj {xs ys : List Json} (hx : plainItems xs = true)
    (hy : plainItems ys = true) (h : dumps (.arr xs) = dumps (.arr ys)) :
    xs.map dumps = ys.map dumps := by
  rw [← dumpsItems_eq_map, ← dumpsItems_eq_map]
  simp only [dumps, List.cons.injEq, true_and] at h
  have htx := text_dumpsItems xs hx
  exact (joinComma_prefixFree ']' (by decide) Text
    (fun t ht => by
      obtain ⟨c, u, hu, _, hne, _⟩ := ht.head
      exact ⟨c, u, hu, hne⟩)
    _ _ (fun a ha => text_prefixFree (htx a ha)) htx (text_dumpsItems ys hy) [] [] h).1

/-- Two dicts with one text have the same members, in some order. -/
theorem dumps_obj_perm {a b : Dict} (ha : plainFields a = true) (hb : plainFields b = true)
    (h : dumps (.obj a) = dumps (.obj b)) : (dumpsFields a).Perm (dumpsFields b) := by
  simp only [dumps, List.cons.injEq, true_and] at h
  have hsub : ∀ {d : Dict}, plainFields d = true → ∀ f ∈ sortKeys (dumpsFields d), Text f.2 :=
    fun hd f hf => text_dumpsFields _ hd f (mem_sortKeys.mp hf)
  have hparts : ∀ m ∈ (sortKeys (dumpsFields a)).map member, ∀ n, MemberText n →
      ∀ r r', m ++ r = n ++ r' → m = n ∧ r = r' := by
    intro m hm n hn r r' hmn
    obtain ⟨f, hf, rfl⟩ := List.mem_map.mp hm
    obtain ⟨g, hg, rfl⟩ := hn
    obtain ⟨rfl, hr⟩ := member_prefixFree (text_prefixFree (hsub ha f hf)) hg hmn
    exact ⟨rfl, hr⟩
  have hmem : ∀ {d : Dict}, plainFields d = true →
      ∀ m ∈ (sortKeys (dumpsFields d)).map member, MemberText m := by
    intro d hd m hm
    obtain ⟨f, hf, rfl⟩ := List.mem_map.mp hm
    exact ⟨f, hsub hd f hf, rfl⟩
  have hmap := (joinComma_prefixFree '\x7d' (by decide) MemberText
    (fun t ht => by
      obtain ⟨f, _, rfl⟩ := ht
      exact ⟨'"', _, rfl, by decide⟩)
    _ _ hparts (hmem ha) (hmem hb) [] [] h).1
  have hsorted := List.map_injective_iff.mpr member_injective hmap
  calc (dumpsFields a).Perm (sortKeys (dumpsFields a)) := (List.perm_insertionSort _ _).symm
    _ = sortKeys (dumpsFields b) := hsorted
    List.Perm _ (dumpsFields b) := List.perm_insertionSort _ _

/-- Members in another order give the same text, if no key occurs twice. -/
theorem sortKeys_eq_of_perm {f g : List (String × List Char)} (hf : (f.map (·.1)).Nodup)
    (h : f.Perm g) : sortKeys f = sortKeys g := by
  have hperm : (sortKeys f).Perm (sortKeys g) :=
    ((List.perm_insertionSort _ f).trans h).trans (List.perm_insertionSort _ g).symm
  have hsorted : ∀ l : List (String × List Char),
      (sortKeys l).Pairwise fun a b => a.1 ≤ b.1 :=
    fun l => List.pairwise_insertionSort _ l
  refine hperm.eq_of_pairwise ?_ (hsorted f) (hsorted g)
  intro a b ha hb hab hba
  exact List.inj_on_of_nodup_map hf (mem_sortKeys.mp ha)
    (h.mem_iff.mpr (mem_sortKeys.mp hb)) (le_antisymm hab hba)

theorem get?_eq_some_iff {d : Dict} (hd : d.keys.Nodup) {k : String} {v : Json} :
    d.get? k = some v ↔ (k, v) ∈ d := by
  induction d with
  | nil => simp
  | cons kv rest ih =>
      obtain ⟨k', v'⟩ := kv
      simp only [Dict.keys, List.map_cons, List.nodup_cons] at hd
      have ih := ih hd.2
      by_cases hk : k' = k
      · subst hk
        have hnot : (k', v) ∉ rest := fun hmem =>
          hd.1 (List.mem_map_of_mem (f := (·.1)) hmem)
        simp [hnot, eq_comm]
      · simp [hk, Ne.symm hk, ih]

theorem pyEqFields_iff (a b : Dict) :
    pyEqFields a b = true ↔ ∀ kv ∈ a, ∃ w, b.get? kv.1 = some w ∧ heldEq kv.2 w = true := by
  induction a with
  | nil => simp [pyEqFields]
  | cons kv rest ih =>
      obtain ⟨k, v⟩ := kv
      simp only [pyEqFields, Bool.and_eq_true, ih, List.mem_cons, forall_eq_or_imp]
      cases b.get? k <;> simp [heldEq]

/-- A value without numbers is asked by its value. -/
theorem heldEq_of_plain {v : Json} (hv : plain v = true) (w : Json) : heldEq v w = pyEq v w := by
  cases v with
  | float repr => cases hv
  | _ => rfl

/-- `==` on what two lookups found. -/
def optionEq : Option Json → Option Json → Bool
  | none, none => true
  | some v, some w => heldEq v w
  | _, _ => false

theorem get?_eq_none_iff {d : Dict} {k : String} : d.get? k = none ↔ k ∉ d.keys := by
  induction d with
  | nil => simp [Dict.keys]
  | cons kv rest ih =>
      obtain ⟨k', v⟩ := kv
      by_cases hk : k' = k
      · simp [Dict.keys, hk]
      · have hk' : ¬ k = k' := fun e => hk e.symm
        simpa [Dict.keys, hk, hk'] using ih

/-- Two dicts are equal when every lookup finds equal values. -/
theorem pyEq_obj_iff {a b : Dict} (ha : a.keys.Nodup) (hb : b.keys.Nodup) :
    pyEq (.obj a) (.obj b) = true ↔ ∀ k, optionEq (a.get? k) (b.get? k) = true := by
  have hlen : ∀ d : Dict, d.keys.length = d.length := fun d => List.length_map _
  simp only [pyEq, Bool.and_eq_true, beq_iff_eq, pyEqFields_iff]
  constructor
  · rintro ⟨hl, hf⟩ k
    cases hk : a.get? k with
    | some v =>
        obtain ⟨w, hw, heq⟩ := hf _ ((get?_eq_some_iff ha).mp hk)
        rw [hw]
        exact heq
    | none =>
        have hsub : a.keys ⊆ b.keys := by
          intro key hkey
          obtain ⟨⟨_, v⟩, hkv, rfl⟩ := List.mem_map.mp hkey
          obtain ⟨w, hw, -⟩ := hf _ hkv
          exact List.mem_map_of_mem (f := (·.1)) ((get?_eq_some_iff hb).mp hw)
        have hperm : a.keys.Perm b.keys :=
          (List.subperm_of_subset ha hsub).perm_of_length_le (by rw [hlen, hlen, hl])
        have hnone : b.get? k = none :=
          get?_eq_none_iff.mpr fun hmem => get?_eq_none_iff.mp hk (hperm.mem_iff.mpr hmem)
        rw [hnone]
        rfl
  · intro h
    have hsub : ∀ {c d : Dict}, (∀ k, (c.get? k).isSome → (d.get? k).isSome) →
        c.keys ⊆ d.keys := by
      intro c d hcd key hkey
      by_contra hnot
      have hnone := get?_eq_none_iff.mpr hnot
      cases hc : c.get? key with
      | none => exact get?_eq_none_iff.mp hc hkey
      | some v => simpa [hnone] using hcd key (by simp [hc])
    have hab : a.keys ⊆ b.keys := hsub fun k hk => by
      have hk' := h k
      cases hb : b.get? k with
      | some w => rfl
      | none =>
          obtain ⟨v, hv⟩ := Option.isSome_iff_exists.mp hk
          simp [hv, hb, optionEq] at hk'
    have hba : b.keys ⊆ a.keys := hsub fun k hk => by
      have hk' := h k
      cases ha : a.get? k with
      | some w => rfl
      | none =>
          obtain ⟨v, hv⟩ := Option.isSome_iff_exists.mp hk
          simp [hv, ha, optionEq] at hk'
    refine ⟨?_, ?_⟩
    · have hle := (List.subperm_of_subset ha hab).length_le
      have hge := (List.subperm_of_subset hb hba).length_le
      rw [hlen, hlen] at hle hge
      omega
    · rintro ⟨k, v⟩ hkv
      have hk := h k
      rw [(get?_eq_some_iff ha).mpr hkv] at hk
      cases hw : b.get? k with
      | none => simp [hw, optionEq] at hk
      | some w => exact ⟨w, rfl, by simpa [hw, optionEq] using hk⟩

/-- The dict case of `dumps_eq_iff_pyEq`, given the case of each value. -/
theorem dumps_obj_eq_iff {a b : Dict} (ha : plain (.obj a) = true) (hb : plain (.obj b) = true)
    (ih : ∀ kv ∈ a, ∀ w, plain w = true → (dumps kv.2 = dumps w ↔ pyEq kv.2 w = true)) :
    dumps (.obj a) = dumps (.obj b) ↔ pyEq (.obj a) (.obj b) = true := by
  simp only [plain, Bool.and_eq_true, decide_eq_true_eq] at ha hb
  have hkeys : ∀ d : Dict, (dumpsFields d).map (·.1) = d.keys := by
    intro d
    simp [dumpsFields_eq_map, Dict.keys, Function.comp_def]
  have hlen : ∀ d : Dict, (dumpsFields d).length = d.length := by
    intro d
    simp [dumpsFields_eq_map]
  have hmem : ∀ {d : Dict} {k : String} {t : List Char},
      (k, t) ∈ dumpsFields d ↔ ∃ v, (k, v) ∈ d ∧ dumps v = t := by
    intro d k t
    simp [dumpsFields_eq_map]
  have hplainA : ∀ kv ∈ a, plain kv.2 = true := (plainFields_iff a).mp ha.2
  have hplain : ∀ kv ∈ b, plain kv.2 = true := (plainFields_iff b).mp hb.2
  simp only [pyEq, Bool.and_eq_true, beq_iff_eq, pyEqFields_iff]
  constructor
  · intro h
    have hperm := dumps_obj_perm ha.2 hb.2 h
    refine ⟨by rw [← hlen, ← hlen]; exact hperm.length_eq, ?_⟩
    rintro ⟨k, v⟩ hkv
    obtain ⟨w, hw, ht⟩ := hmem.mp (hperm.mem_iff.mp (hmem.mpr ⟨v, hkv, rfl⟩))
    refine ⟨w, (get?_eq_some_iff hb.1).mpr hw, ?_⟩
    rw [heldEq_of_plain (hplainA _ hkv)]
    exact (ih _ hkv w (hplain _ hw)).mp ht.symm
  · rintro ⟨hl, hf⟩
    have hsub : dumpsFields a ⊆ dumpsFields b := by
      rintro ⟨k, t⟩ hkt
      obtain ⟨v, hv, rfl⟩ := hmem.mp hkt
      obtain ⟨w, hw, heq⟩ := hf _ hv
      rw [heldEq_of_plain (hplainA _ hv)] at heq
      have hw := (get?_eq_some_iff hb.1).mp hw
      exact hmem.mpr ⟨w, hw, ((ih _ hv w (hplain _ hw)).mpr heq).symm⟩
    have hnodup : (dumpsFields a).Nodup := List.Nodup.of_map (·.1) (by rw [hkeys]; exact ha.1)
    have hperm : (dumpsFields a).Perm (dumpsFields b) :=
      (List.subperm_of_subset hnodup hsub).perm_of_length_le (by rw [hlen, hlen, hl])
    simp only [dumps, sortKeys_eq_of_perm (by rw [hkeys]; exact ha.1) hperm]

mutual
/-- **The text identifies exactly the values Python's `==` identifies**,
among values without numbers. -/
theorem dumps_eq_iff_pyEq : ∀ v w : Json, plain v = true → plain w = true →
    (dumps v = dumps w ↔ pyEq v w = true)
  | .int _, _, h, _ => by simp [plain] at h
  | .float _, _, h, _ => by simp [plain] at h
  | .obj a, .obj b, ha, hb => by
      refine dumps_obj_eq_iff ha hb ?_
      simp only [plain, Bool.and_eq_true] at ha
      exact dumpsFields_eq_iff a ha.2
  | .arr xs, .arr ys, hx, hy => by
      simp only [plain] at hx hy
      rw [show pyEq (.arr xs) (.arr ys) = pyEqItems xs ys from rfl,
        ← dumpsItems_eq_iff xs ys hx hy]
      constructor
      · exact dumps_arr_inj hx hy
      · intro h
        simp only [dumps, dumpsItems_eq_map, h]
  | .str s, .str t, _, _ => by
      simp only [pyEq, beq_iff_eq]
      exact ⟨dumps_str_inj, fun h => by rw [h]⟩
  | .null, w, _, hw => by
      cases w with
      | bool b => cases b <;> simp [dumps, pyEq, numberEq, number?]
      | _ => simp_all [dumps, pyEq, numberEq, number?, plain, quote]
  | .bool b, w, _, hw => by
      cases w with
      | bool b' => cases b <;> cases b' <;> simp [dumps, pyEq, numberEq, number?]
      | _ => cases b <;> simp_all [dumps, pyEq, numberEq, number?, plain, quote]
  | .str s, .null, _, _ => by simp [dumps, pyEq, numberEq, number?, quote]
  | .str s, .bool b, _, _ => by cases b <;> simp [dumps, pyEq, numberEq, number?, quote]
  | .str s, .arr ys, _, _ => by simp [dumps, pyEq, numberEq, number?, quote]
  | .str s, .obj b, _, _ => by simp [dumps, pyEq, numberEq, number?, quote]
  | .arr xs, .null, _, _ => by simp [dumps, pyEq, numberEq, number?]
  | .arr xs, .bool b, _, _ => by cases b <;> simp [dumps, pyEq, numberEq, number?]
  | .arr xs, .str t, _, _ => by simp [dumps, pyEq, numberEq, number?, quote]
  | .arr xs, .obj b, _, _ => by simp [dumps, pyEq, numberEq, number?]
  | .obj a, .null, _, _ => by simp [dumps, pyEq, numberEq, number?]
  | .obj a, .bool b, _, _ => by cases b <;> simp [dumps, pyEq, numberEq, number?]
  | .obj a, .str t, _, _ => by simp [dumps, pyEq, numberEq, number?, quote]
  | .obj a, .arr ys, _, _ => by simp [dumps, pyEq, numberEq, number?]
  | _, .int _, _, h => by simp [plain] at h
  | _, .float _, _, h => by simp [plain] at h

theorem dumpsItems_eq_iff : ∀ xs ys : List Json, plainItems xs = true → plainItems ys = true →
    (xs.map dumps = ys.map dumps ↔ pyEqItems xs ys = true)
  | [], [], _, _ => by simp [pyEqItems]
  | [], y :: ys, _, _ => by simp [pyEqItems]
  | x :: xs, [], _, _ => by simp [pyEqItems]
  | x :: xs, y :: ys, hx, hy => by
      simp only [plainItems, Bool.and_eq_true] at hx hy
      rw [pyEqItems, show (oneNaN x y || pyEq x y) = pyEq x y from heldEq_of_plain hx.1 y]
      simp only [List.map_cons, List.cons.injEq, Bool.and_eq_true,
        dumps_eq_iff_pyEq x y hx.1 hy.1, dumpsItems_eq_iff xs ys hx.2 hy.2]

theorem dumpsFields_eq_iff : ∀ a : Dict, plainFields a = true →
    ∀ kv ∈ a, ∀ w, plain w = true → (dumps kv.2 = dumps w ↔ pyEq kv.2 w = true)
  | [], _, _, hkv, _, _ => by simp at hkv
  | (k, v) :: rest, h, kv, hkv, w, hw => by
      simp only [plainFields, Bool.and_eq_true] at h
      rcases List.mem_cons.mp hkv with rfl | hkv
      · exact dumps_eq_iff_pyEq v w h.1 hw
      · exact dumpsFields_eq_iff rest h.2 kv hkv w hw
end

end Json

/-
  CodexRemoteBridge.Lib.JsonSpelling — the strings `decode` spells, and what
  it makes of a text that `loads` reads.

  Main results:
    • `spell_scanUnits` — no two strings are spelled alike;
    • `decode_of_loads` — what `loads` reads, `decode` reads with its strings
      spelled.
-/
import CodexRemoteBridge.Lib.JsonParse

namespace Json

/-! ## §1. Spelling. -/

/-- The code points that are spelled. -/
def unspell : List Char → List Nat
  | [] => []
  | [c] => [c.toNat]
  | c :: d :: rest =>
      if c = surrogateMark then
        (if d = surrogateMark then 0x10ffff else d.toNat + 0xd800) :: unspell rest
      else c.toNat :: unspell (d :: rest)

theorem unspell_cons {c : Char} (hc : c ≠ surrogateMark) (rest : List Char) :
    unspell (c :: rest) = c.toNat :: unspell rest := by
  cases rest with
  | nil => rfl
  | cons d rest => rw [unspell, if_neg hc]

theorem toNat_ofNat {n : Nat} (h : n.isValidChar) : (Char.ofNat n).toNat = n := by
  rw [Char.ofNat, dif_pos h]
  exact UInt32.toNat_ofNatLT ..

theorem ofNat_ne_mark {n : Nat} (h : n.isValidChar) (hn : n ≠ 0x10ffff) :
    Char.ofNat n ≠ surrogateMark := by
  intro heq
  have hmark : surrogateMark.toNat = 0x10ffff := by decide
  rw [← heq, toNat_ofNat h] at hmark
  exact hn hmark

/-- One code point can be told from what follows it. -/
theorem unspell_spellPoint {u : Nat} (hu : u < 0x110000) (rest : List Char) :
    unspell (spellPoint u ++ rest) = u :: unspell rest := by
  unfold spellPoint
  by_cases hs : isSurrogate u = true
  · rw [if_pos hs]
    simp only [isSurrogate, Bool.and_eq_true, decide_eq_true_eq] at hs
    have hvalid : (u - 0xd800).isValidChar := .inl (by omega)
    show unspell (surrogateMark :: Char.ofNat (u - 0xd800) :: rest) = _
    rw [unspell, if_pos rfl, if_neg (ofNat_ne_mark hvalid (by omega)), toNat_ofNat hvalid]
    congr 1
    omega
  · rw [if_neg hs]
    by_cases hmark : u = 0x10ffff
    · subst hmark
      rw [if_pos rfl]
      rfl
    · rw [if_neg hmark]
      simp only [isSurrogate, Bool.and_eq_true, decide_eq_true_eq] at hs
      have hvalid : u.isValidChar := by
        by_cases hlow : u < 0xd800
        · exact .inl hlow
        · exact .inr ⟨by omega, hu⟩
      show unspell (Char.ofNat u :: rest) = _
      rw [unspell_cons (ofNat_ne_mark hvalid hmark), toNat_ofNat hvalid]

theorem unspell_spell {us : List Nat} (h : ∀ u ∈ us, u < 0x110000) :
    unspell (spell us).toList = us := by
  rw [spell, String.toList_ofList]
  induction us with
  | nil => rfl
  | cons u us ih =>
      rw [List.flatMap_cons, unspell_spellPoint (h u List.mem_cons_self),
        ih fun u' hu' => h u' (List.mem_cons_of_mem _ hu')]

/-- **No two strings are spelled alike.** -/
theorem spell_inj {us vs : List Nat} (hu : ∀ u ∈ us, u < 0x110000) (hv : ∀ v ∈ vs, v < 0x110000)
    (h : spell us = spell vs) : us = vs := by
  rw [← unspell_spell hu, ← unspell_spell hv, h]

/-- Below the surrogates, nothing else is spelled like it. -/
theorem eq_of_unspell {cs ds : List Char} (hds : ∀ d ∈ ds, d.toNat < 0xd800)
    (h : unspell cs = ds.map Char.toNat) : cs = ds := by
  have hmark : surrogateMark.toNat = 0x10ffff := by decide
  induction cs using unspell.induct generalizing ds with
  | case1 =>
      cases ds with
      | nil => rfl
      | cons d ds => cases h
  | case2 c =>
      rcases ds with _ | ⟨d, _ | ⟨e, ds⟩⟩
      · cases h
      · have hhead := (List.cons.inj h).1
        rw [Char.toNat_inj.mp hhead]
      · exact absurd (List.cons.inj h).2 (by simp)
  | case3 d rest ih =>
      -- What a mark spells is no character below the surrogates.
      exfalso
      rw [unspell, if_pos rfl] at h
      cases ds with
      | nil => cases h
      | cons e ds =>
          have he := hds e List.mem_cons_self
          have hhead := (List.cons.inj h).1
          split at hhead <;> omega
  | case4 c d rest hc ih =>
      rw [unspell, if_neg hc] at h
      cases ds with
      | nil => cases h
      | cons e ds =>
          obtain ⟨hhead, htail⟩ := List.cons.inj h
          rw [Char.toNat_inj.mp hhead, ih (fun x hx => hds x (List.mem_cons_of_mem _ hx)) htail]

theorem hexValue_lt {c : Char} {n : Nat} (h : hexValue c = some n) : n < 16 := by
  unfold hexValue at h
  split at h
  · rename_i hc
    have hc : c.toNat ≤ ('9' : Char).toNat := hc.2
    have hnine : ('9' : Char).toNat = 57 := by decide
    cases h
    omega
  · split at h
    · rename_i hc
      have hc : c.toNat ≤ ('f' : Char).toNat := hc.2
      have hf : ('f' : Char).toNat = 102 := by decide
      cases h
      omega
    · split at h
      · rename_i hc
        have hc : c.toNat ≤ ('F' : Char).toNat := hc.2
        have hf : ('F' : Char).toNat = 70 := by decide
        cases h
        omega
      · cases h

theorem hexUnit_lt {a b c d : Char} {u : Nat} (h : hexUnit a b c d = some u) : u < 0x10000 := by
  obtain ⟨a, ha, h⟩ := Option.bind_eq_some_iff.mp h
  obtain ⟨b, hb, h⟩ := Option.bind_eq_some_iff.mp h
  obtain ⟨c, hc, h⟩ := Option.bind_eq_some_iff.mp h
  obtain ⟨d, hd, h⟩ := Option.bind_eq_some_iff.mp h
  have ha := hexValue_lt ha
  have hb := hexValue_lt hb
  have hc := hexValue_lt hc
  have hd := hexValue_lt hd
  cases h
  omega

theorem scanUnits_lt :
    ∀ {cs : List Char} {us : List Nat} {rest : List Char}, scanUnits cs = some (us, rest) →
      ∀ u ∈ us, u < 0x110000 := by
  -- The units of the rest, and one more in front.
  have hcons : ∀ {u : Nat} {cs : List Char} {us : List Nat} {rest : List Char}, u < 0x110000 →
      (∀ {us rest}, scanUnits cs = some (us, rest) → ∀ u ∈ us, u < 0x110000) →
      ((scanUnits cs).map fun p => (u :: p.1, p.2)) = some (us, rest) → ∀ u ∈ us, u < 0x110000 := by
    intro u cs us rest hu ih h
    obtain ⟨⟨us', rest'⟩, hp, he⟩ := Option.map_eq_some_iff.mp h
    cases he
    exact List.forall_mem_cons.mpr ⟨hu, ih hp⟩
  intro cs
  fun_induction scanUnits cs with
  | case1 => intro us rest h; cases h
  | case2 rest =>
      intro us rest' h
      cases h
      simp
  | case3 a b c d rest u hu ih =>
      intro us rest' h
      have hlt := hexUnit_lt hu
      exact hcons (by omega) ih h
  | case4 => intro us rest h; cases h
  | case5 e rest _ c hc ih =>
      intro us rest' h
      exact hcons (toNat_lt c) ih h
  | case6 => intro us rest h; cases h
  | case7 => intro us rest h; cases h
  | case8 c rest _ _ _ _ ih =>
      intro us rest' h
      exact hcons (toNat_lt c) ih h

theorem codePoints_lt :
    ∀ {us : List Nat}, (∀ u ∈ us, u < 0x110000) → ∀ u ∈ codePoints us, u < 0x110000 := by
  intro us
  fun_induction codePoints us with
  | case1 => exact fun h => h
  | case2 u => exact fun h => h
  | case3 u v rest hpair ih =>
      intro h
      simp only [isHighSurrogate, isLowSurrogate, Bool.and_eq_true, decide_eq_true_eq] at hpair
      refine List.forall_mem_cons.mpr ⟨by omega, ih fun w hw => ?_⟩
      exact h w (List.mem_cons_of_mem _ (List.mem_cons_of_mem _ hw))
  | case4 u v rest _ ih =>
      intro h
      obtain ⟨hu, hrest⟩ := List.forall_mem_cons.mp h
      exact List.forall_mem_cons.mpr ⟨hu, ih hrest⟩

/-- **`decode` tells all strings apart**: what it spells alike are the same
code points. -/
theorem spell_scanUnits {cs cs' : List Char} {us us' : List Nat} {rest rest' : List Char}
    (h : scanUnits cs = some (us, rest)) (h' : scanUnits cs' = some (us', rest')) :
    spell (codePoints us) = spell (codePoints us') ↔ codePoints us = codePoints us' :=
  ⟨spell_inj (codePoints_lt (scanUnits_lt h)) (codePoints_lt (scanUnits_lt h')), congrArg spell⟩

/-! ## §2. Another name for every string. -/

mutual
/-- The value with every string, and every key, renamed. -/
def rename (f : String → String) : Json → Json
  | .str s => .str (f s)
  | .arr items => .arr (renameItems f items)
  | .obj fields => .obj (renameFields f fields)
  | v => v

def renameItems (f : String → String) : List Json → List Json
  | [] => []
  | v :: rest => rename f v :: renameItems f rest

def renameFields (f : String → String) : Dict → Dict
  | [] => []
  | (k, v) :: rest => (f k, rename f v) :: renameFields f rest
end

section Rename

variable {f : String → String} {name other : List Nat → Option String}

theorem get?_renameFields (hf : Function.Injective f) (fields : Dict) (key : String) :
    Dict.get? (renameFields f fields) (f key) = (Dict.get? fields key).map (rename f) := by
  induction fields with
  | nil => rfl
  | cons kv rest ih =>
      obtain ⟨k, v⟩ := kv
      by_cases hk : k = key
      · simp [renameFields, hk]
      · simp [renameFields, hk, hf.ne hk, ih]

theorem renameFields_set (hf : Function.Injective f) (d : Dict) (key : String) (value : Json) :
    renameFields f (d.set key value) = (renameFields f d).set (f key) (rename f value) := by
  induction d with
  | nil => rfl
  | cons kv rest ih =>
      obtain ⟨k, v⟩ := kv
      by_cases hk : k = key
      · simp [Dict.set, renameFields, hk]
      · simp [Dict.set, renameFields, hk, hf.ne hk, ih]

/-- Where a string has a name, it has the other one. -/
abbrev Renames (f : String → String) (name other : List Nat → Option String) : Prop :=
  ∀ points s, name points = some s → other points = some (f s)

theorem parseString_rename (h : Renames f name other) {cs : List Char} {s : String}
    {rest : List Char} (hs : parseString name cs = some (s, rest)) :
    parseString other cs = some (f s, rest) := by
  obtain ⟨⟨us, rest'⟩, hscan, hs⟩ := Option.bind_eq_some_iff.mp hs
  obtain ⟨s', hname, he⟩ := Option.map_eq_some_iff.mp hs
  cases he
  rw [parseString, hscan, Option.bind_some, h _ _ hname]
  rfl

theorem parseKey_rename (h : Renames f name other) {cs : List Char} {key : String}
    {rest : List Char} (hkey : parseKey name cs = some (key, rest)) :
    parseKey other cs = some (f key, rest) := by
  unfold parseKey at hkey ⊢
  split at hkey
  · split at hkey
    · cases hkey
    · rename_i hstring
      rw [parseString_rename h hstring]
      dsimp only
      split at hkey
      · cases hkey
        rfl
      · cases hkey
  · cases hkey

/-- A value without parts has no string. -/
theorem rename_opening {cs rest : List Char} {v : Json} {result : Option (Json × List Char)}
    (hopen : opening cs = .atom result) (h : result = some (v, rest)) : rename f v = v := by
  have hnumber : ∀ {cs : List Char}, parseNumber cs = some (v, rest) → rename f v = v := by
    intro cs h
    unfold parseNumber at h
    split at h
    · rename_i n mid _
      cases h
      unfold Numeral.value
      split <;> rfl
    · unfold parseConstant at h
      split at h <;> cases h <;> rfl
  unfold opening at hopen
  split at hopen <;> cases hopen
  · cases h
    rfl
  · cases h
    rfl
  · cases h
    rfl
  · exact hnumber h

/-- With `n` fuel, what is read is read with the other names too. -/
def ReadsRenamed (f : String → String) (name other : List Nat → Option String) (n : Nat) : Prop :=
  (∀ cs v rest, parseValue name n cs = some (v, rest) →
    parseValue other n cs = some (rename f v, rest))
  ∧ (∀ cs items rest, parseItems name n cs = some (items, rest) →
    parseItems other n cs = some (renameItems f items, rest))
  ∧ ∀ d cs fields rest, parseMembers name n d cs = some (fields, rest) →
    parseMembers other n (renameFields f d) cs = some (renameFields f fields, rest)

theorem readsRenamed (hf : Function.Injective f) (h : Renames f name other) (n : Nat) :
    ReadsRenamed f name other n := by
  induction n with
  | zero =>
      refine ⟨?_, ?_, ?_⟩
      · intro cs v rest hv
        cases hv
      · intro cs items rest hitems
        cases hitems
      · intro d cs fields rest hfields
        cases hfields
  | succ n ih =>
      refine ⟨?_, ?_, ?_⟩
      · intro cs v rest hv
        rw [parseValue] at hv ⊢
        cases hopen : opening cs with
        | string tail =>
            simp only [hopen] at hv ⊢
            obtain ⟨⟨s, rest'⟩, hstring, he⟩ := Option.map_eq_some_iff.mp hv
            cases he
            rw [parseString_rename h hstring]
            rfl
        | object tail =>
            simp only [hopen] at hv ⊢
            split at hv
            · cases hv
              rfl
            · obtain ⟨⟨fields, rest'⟩, hmembers, he⟩ := Option.map_eq_some_iff.mp hv
              cases he
              have hrenamed := ih.2.2 _ _ _ _ hmembers
              rw [show renameFields f [] = [] from rfl] at hrenamed
              rw [hrenamed]
              rfl
        | array tail =>
            simp only [hopen] at hv ⊢
            split at hv
            · cases hv
              rfl
            · obtain ⟨⟨items, rest'⟩, hitems, he⟩ := Option.map_eq_some_iff.mp hv
              cases he
              rw [ih.2.1 _ _ _ hitems]
              rfl
        | atom result =>
            simp only [hopen] at hv ⊢
            rw [rename_opening hopen hv, hv]
      · intro cs items rest hitems
        rw [parseItems] at hitems ⊢
        obtain ⟨⟨v, mid⟩, hvalue, hitems⟩ := Option.bind_eq_some_iff.mp hitems
        obtain ⟨⟨more, tail⟩, hafter, hitems⟩ := Option.bind_eq_some_iff.mp hitems
        rw [ih.1 _ _ _ hvalue]
        simp only [Option.bind_eq_bind, Option.bind_some, hafter]
        dsimp only at hitems
        split at hitems
        · rename_i hmore
          obtain ⟨⟨items', rest'⟩, hrest, he⟩ := Option.bind_eq_some_iff.mp hitems
          cases he
          rw [if_pos hmore, ih.2.1 _ _ _ hrest]
          rfl
        · rename_i hmore
          cases hitems
          rw [if_neg hmore]
          rfl
      · intro d cs fields rest hfields
        rw [parseMembers] at hfields ⊢
        obtain ⟨⟨key, mid⟩, hkey, hfields⟩ := Option.bind_eq_some_iff.mp hfields
        obtain ⟨⟨v, mid'⟩, hvalue, hfields⟩ := Option.bind_eq_some_iff.mp hfields
        obtain ⟨⟨more, tail⟩, hafter, hfields⟩ := Option.bind_eq_some_iff.mp hfields
        rw [parseKey_rename h hkey]
        simp only [Option.bind_eq_bind, Option.bind_some, ih.1 _ _ _ hvalue, hafter]
        dsimp only at hfields
        split at hfields
        · rename_i hmore
          rw [if_pos hmore, ← renameFields_set hf]
          exact ih.2.2 _ _ _ _ hfields
        · rename_i hmore
          cases hfields
          rw [if_neg hmore, renameFields_set hf]

end Rename

/-! ## §3. The two decoders. -/

/-- How `decode` spells a string that has a name. -/
def spelling (s : String) : String := spell (s.toList.map Char.toNat)

/-- A string below the surrogates is spelled as it is. -/
theorem spelling_plain {s : String} (h : ∀ c ∈ s.toList, c.toNat < 0xd800) : spelling s = s := by
  have hpoint : ∀ c ∈ s.toList, spellPoint c.toNat = [c] := by
    intro c hc
    have hlt := h c hc
    have hsurrogate : isSurrogate c.toNat = false := by
      simp only [isSurrogate, Bool.and_eq_false_iff, decide_eq_false_iff_not]
      omega
    have hmark : c.toNat ≠ 0x10ffff := by omega
    simp [spellPoint, hsurrogate, hmark, Char.ofNat_toNat]
  have hlist : (s.toList.map Char.toNat).flatMap spellPoint = s.toList := by
    rw [List.flatMap_map]
    exact (List.flatMap_congr hpoint).trans (List.flatMap_singleton' _)
  rw [spelling, spell, hlist, String.ofList_toList]

theorem toNat_map_lt (s : String) : ∀ u ∈ s.toList.map Char.toNat, u < 0x110000 := by
  intro u hu
  obtain ⟨c, -, rfl⟩ := List.mem_map.mp hu
  exact toNat_lt c

theorem spelling_injective : Function.Injective spelling := by
  intro s t h
  have hpoints := spell_inj (toNat_map_lt s) (toNat_map_lt t) h
  have hchars : ∀ cs : List Char, (cs.map Char.toNat).map Char.ofNat = cs := by
    intro cs
    rw [List.map_map]
    exact (List.map_congr_left fun c _ => Char.ofNat_toNat c).trans (List.map_id cs)
  have hlist : s.toList = t.toList := by rw [← hchars s.toList, hpoints, hchars t.toList]
  exact String.toList_inj.mp hlist

theorem renames_spelling :
    Renames spelling plainName fun points => some (spell points) := by
  intro points s h
  unfold plainName at h
  split at h
  · rename_i hall
    cases h
    have hback : (points.map Char.ofNat).map Char.toNat = points := by
      rw [List.map_map]
      refine (List.map_congr_left fun u hu => ?_).trans (List.map_id points)
      have hscalar := List.all_eq_true.mp hall u hu
      simp only [isSurrogate, Bool.and_eq_true, Bool.not_eq_true', Bool.and_eq_false_iff,
        decide_eq_true_eq, decide_eq_false_iff_not] at hscalar
      refine toNat_ofNat ?_
      by_cases hlow : u < 0xd800
      · exact .inl hlow
      · exact .inr ⟨by omega, hscalar.2⟩
    rw [spelling, String.toList_ofList, hback]
  · cases h

/-- **What `loads` reads, `decode` reads too**, with its strings spelled. -/
theorem decode_of_loads {text : String} {v : Json} (h : loads text = some v) :
    decode text = some (rename spelling v) := by
  unfold loads loadsAs at h
  unfold decode loadsAs
  split at h
  · cases h
  · rename_i w rest hvalue
    rw [(readsRenamed spelling_injective renames_spelling _).1 _ _ _ hvalue]
    dsimp only
    split at h
    · rename_i hend
      cases h
      rw [if_pos hend]
    · cases h

end Json

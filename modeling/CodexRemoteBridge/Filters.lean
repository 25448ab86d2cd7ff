/-
  CodexRemoteBridge.Filters — whether git runs a checkout filter under the
  overrides of `checkout_filter_config`.

  §1 is git's reading of a configuration, as far as the overrides lean on
  it: `-c text` is split at the first `=`, the section and the final
  variable name are case-insensitive, the last setting of a key counts.  A
  driver whose name holds an `=` is therefore not the one its overrides set.

  Main result: `filtersDisabled_iff`.
-/
import CodexRemoteBridge.Looks
import Mathlib.Data.List.Dedup
import Mathlib.Data.List.TakeWhile

namespace CodexRemoteBridge

/-! ## §1. Git's configuration. -/

/-- A key up to the case of its section and its final variable name. -/
def canonicalKey (key : List Char) : List Char :=
  let sectionName := key.takeWhile (· != '.')
  let rest := key.dropWhile (· != '.')
  let variableName := (rest.reverse.takeWhile (· != '.')).reverse
  sectionName.map Char.toLower ++ rest.take (rest.length - variableName.length)
    ++ variableName.map Char.toLower

/-- A key with its value; a key without `=` has none. -/
abbrev Written : Type := List Char × Option (List Char)

/-- `-c text`. -/
def parseOverride (text : List Char) : Written :=
  let (key, value) := Json.splitAtChar '=' text
  (canonicalKey key, value)

/-- The `-c` options in front of a command. -/
def commandSettings : List String → List Written
  | "-c" :: text :: rest => parseOverride text.toList :: commandSettings rest
  | _ => []

/-- The value that counts: the last one. -/
def effective (settings : List Written) (key : List Char) : Option (Option (List Char)) :=
  settings.foldl (fun found s => if s.1 = key then some s.2 else found) none

/-- A setting as `git config --list` reports it. -/
structure Setting where
  key : List Char
  value : Option (List Char)
  canonical : canonicalKey key = key
  keyPlain : '\x00' ∉ key ∧ '\n' ∉ key
  valuePlain : ∀ v, value = some v → '\x00' ∉ v

namespace Setting

def written (s : Setting) : Written := (s.key, s.value)

/-- Its entry under `--null`. -/
def entry (s : Setting) : List Char :=
  match s.value with
  | none => s.key
  | some v => s.key ++ '\n' :: v

end Setting

/-- `git config --null --list`. -/
def listing (config : List Setting) : String :=
  String.ofList (config.flatMap fun s => s.entry ++ ['\x00'])

/-! ## §2. Drivers. -/

/-- `filter.N.clean` and so on; a driver goes by its `filter.N`. -/
def filterKey (name setting : List Char) : List Char := name ++ '.' :: setting

/-- Some setting of the driver is there. -/
def IsDriver (config : List Setting) (name : List Char) : Prop :=
  "filter.".toList <+: name ∧
    ∃ s ∈ config, ∃ setting ∈ filterSettings, s.key = filterKey name setting

/-- The spellings of a false boolean. -/
def isFalse (value : List Char) : Bool :=
  ["", "false", "no", "off"].contains (String.ofList (value.map Char.toLower))
    || value.all (· == '0')

/-- The driver runs no program and is not required. -/
structure Neutral (settings : List Written) (name : List Char) : Prop where
  programs : ∀ setting ∈ ["clean".toList, "smudge".toList, "process".toList],
    effective settings (filterKey name setting) = some (some [])
  required : ∃ v, effective settings (filterKey name "required".toList) = some (some v) ∧
    isFalse v = true

/-- The settings a command runs with; the options `git` puts in front of
every command are in the listing too. -/
def settingsOf (config : List Setting) (command : List String) : List Written :=
  config.map Setting.written ++ commandSettings command

/-- Every driver is neutral under the command, and no other key changes. -/
structure FiltersDisabled (config : List Setting) (command : List String) : Prop where
  neutral : ∀ name, IsDriver config name → Neutral (settingsOf config command) name
  frame : ∀ key, (∀ name setting, IsDriver config name → setting ∈ filterSettings →
    key ≠ filterKey name setting) →
    effective (settingsOf config command) key = effective (config.map Setting.written) key

/-! ## §3. Drivers git misreads. -/

/-- The key git takes from an override for the driver, when its name holds
an `=`. -/
def misreadKey (name : List Char) : List Char := canonicalKey (name.takeWhile (· != '='))

/-- What git sets it to, with the last of the four overrides. -/
def misreadValue (name : List Char) : List Char :=
  (name.dropWhile (· != '=')).tail ++ ".required=false".toList

/-- A driver with an `=` in its name. -/
structure Misread (config : List Setting) (name : List Char) : Prop where
  driver : IsDriver config name
  equals : '=' ∈ name

/-- The overrides for a driver with an `=` do nothing that was not done. -/
structure Spared (config : List Setting) (name : List Char) : Prop where
  neutral : Neutral (config.map Setting.written) name
  /-- The misread key belongs to no filter. -/
  foreign : ∀ other setting, "filter.".toList <+: other → setting ∈ filterSettings →
    misreadKey name ≠ filterKey other setting
  /-- It already has the value that the greatest of the drivers misread as
  this key gives it. -/
  already : ∃ greatest, Misread config greatest ∧ misreadKey greatest = misreadKey name ∧
    (∀ other, Misread config other → misreadKey other = misreadKey name →
      String.ofList other ≤ String.ofList greatest) ∧
    effective (config.map Setting.written) (misreadKey name)
      = some (some (misreadValue greatest))

/-! ## §4. The last setting counts. -/

section Effective

variable {α : Type} {key : List Char}

theorem effective_foldl (settings : List Written) (found : Option (Option (List Char))) :
    settings.foldl (fun found s => if s.1 = key then some s.2 else found) found
      = (effective settings key).or found := by
  induction settings generalizing found with
  | nil => rfl
  | cons s rest ih =>
      unfold effective
      rw [List.foldl_cons, List.foldl_cons, ih, ih (if s.1 = key then some s.2 else none)]
      by_cases hs : s.1 = key
      · simp [hs]
      · simp [hs]

@[simp] theorem effective_nil : effective [] key = none := rfl

theorem effective_append (a b : List Written) :
    effective (a ++ b) key = (effective b key).or (effective a key) := by
  rw [effective, List.foldl_append, effective_foldl]
  rfl

theorem effective_cons (s : Written) (rest : List Written) :
    effective (s :: rest) key = (effective rest key).or (if s.1 = key then some s.2 else none) :=
  effective_foldl rest _

theorem effective_eq_none_iff {settings : List Written} :
    effective settings key = none ↔ ∀ s ∈ settings, s.1 ≠ key := by
  induction settings with
  | nil => simp [effective]
  | cons s rest ih =>
      rw [effective_cons, Option.or_eq_none_iff, ih]
      by_cases hs : s.1 = key <;> simp [hs]

/-- What the last part that sets the key sets it to. -/
theorem effective_flatMap {f : α → List Written} {pre post : List α} {a : α}
    {v : Option (List Char)} (ha : effective (f a) key = some v)
    (hpost : ∀ b ∈ post, effective (f b) key = none) :
    effective ((pre ++ a :: post).flatMap f) key = some v := by
  have hnone : effective (post.flatMap f) key = none := by
    rw [effective_eq_none_iff]
    intro s hs
    obtain ⟨b, hb, hmem⟩ := List.mem_flatMap.mp hs
    exact effective_eq_none_iff.mp (hpost b hb) s hmem
  rw [List.flatMap_append, List.flatMap_cons, effective_append, effective_append, hnone, ha]
  rfl

/-- Where some part sets the key, one does so last. -/
theorem exists_last {f : α → List Written} {l : List α}
    (h : ∃ a ∈ l, effective (f a) key ≠ none) :
    ∃ pre a post, l = pre ++ a :: post ∧ effective (f a) key ≠ none ∧
      ∀ b ∈ post, effective (f b) key = none := by
  induction l with
  | nil =>
      obtain ⟨a, ha, -⟩ := h
      cases ha
  | cons b rest ih =>
      by_cases hrest : ∃ a ∈ rest, effective (f a) key ≠ none
      · obtain ⟨pre, a, post, rfl, ha, hpost⟩ := ih hrest
        exact ⟨b :: pre, a, post, rfl, ha, hpost⟩
      · simp only [not_exists, not_and, not_not] at hrest
        obtain ⟨a, ha, hset⟩ := h
        rcases List.mem_cons.mp ha with rfl | ha
        · exact ⟨[], a, rest, rfl, hset, hrest⟩
        · exact absurd (hrest a ha) hset

end Effective

/-! ## §5. The names `checkout_filter_config` finds. -/

/-- `setting` is one of the four, and so holds no dot. -/
theorem dotless {setting : List Char} (h : setting ∈ filterSettings) : '.' ∉ setting := by
  revert setting
  decide

theorem lower_setting {setting : List Char} (h : setting ∈ filterSettings) :
    setting.map Char.toLower = setting := by
  revert setting
  decide

/-- A key ends in one setting only. -/
theorem filterKey_inj {name name' setting setting' : List Char} (h : '.' ∉ setting)
    (h' : '.' ∉ setting') (he : filterKey name setting = filterKey name' setting') :
    name = name' ∧ setting = setting' := by
  have hsuffix : ∀ (n s : List Char), '.' ∉ s →
      (filterKey n s).reverse.takeWhile (· != '.') = s.reverse := by
    intro n s hs
    have hall : ∀ c ∈ s.reverse, (c != '.') = true := by
      intro c hc
      simp only [bne_iff_ne]
      rintro rfl
      exact hs (List.mem_reverse.mp hc)
    simp only [filterKey, List.reverse_append, List.reverse_cons, List.append_assoc]
    rw [List.takeWhile_append_of_pos hall]
    simp
  have hset : setting = setting' := by
    rw [← List.reverse_inj, ← hsuffix name setting h, ← hsuffix name' setting' h', he]
  subst hset
  exact ⟨List.append_cancel_right he, rfl⟩

theorem filterName_some {key name : List Char} (h : filterName key = some name) :
    "filter.".toList <+: name ∧ ∃ setting ∈ filterSettings, key = filterKey name setting := by
  unfold filterName at h
  obtain ⟨setting, hmem, hfound⟩ := List.exists_of_findSome?_eq_some h
  dsimp only at hfound
  split at hfound
  · rename_i hcond
    obtain rfl := Option.some.inj hfound
    rw [Bool.and_eq_true, List.isSuffixOf_iff_suffix, List.isPrefixOf_iff_prefix] at hcond
    obtain ⟨⟨head, hhead⟩, hfilter⟩ := hcond
    refine ⟨hfilter, setting, hmem, ?_⟩
    rw [← hhead]
    simp [filterKey]
  · cases hfound

theorem filterName_filterKey {name setting : List Char} (hfilter : "filter.".toList <+: name)
    (hmem : setting ∈ filterSettings) : filterName (filterKey name setting) = some name := by
  cases hfound : filterName (filterKey name setting) with
  | some other =>
      obtain ⟨-, setting', hmem', he⟩ := filterName_some hfound
      rw [(filterKey_inj (dotless hmem) (dotless hmem') he).1]
  | none =>
      have htake : (filterKey name setting).take
          ((filterKey name setting).length - ('.' :: setting).length) = name := by
        simp [filterKey]
      have hsuffix : ('.' :: setting).isSuffixOf (filterKey name setting) = true :=
        List.isSuffixOf_iff_suffix.mpr ⟨name, rfl⟩
      have hnone := List.findSome?_eq_none_iff.mp hfound setting hmem
      dsimp only at hnone
      rw [htake, hsuffix, List.isPrefixOf_iff_prefix.mpr hfilter] at hnone
      cases hnone

/-- The key of an entry is what stands before its first newline. -/
theorem entry_key (s : Setting) : s.entry.takeWhile (· != '\n') = s.key := by
  have hall : ∀ c ∈ s.key, (c != '\n') = true := by
    intro c hc
    simp only [bne_iff_ne]
    rintro rfl
    exact s.keyPlain.2 hc
  unfold Setting.entry
  cases s.value with
  | none => exact List.takeWhile_eq_self_iff.mpr hall
  | some v =>
      show (s.key ++ '\n' :: v).takeWhile _ = _
      rw [List.takeWhile_append_of_pos hall]
      simp

theorem entry_plain (s : Setting) : '\x00' ∉ s.entry := by
  unfold Setting.entry
  cases hvalue : s.value with
  | none => exact s.keyPlain.1
  | some v =>
      have hv := s.valuePlain v hvalue
      have hkey := s.keyPlain.1
      simp [hv, hkey]

theorem splitChars_entry {c : Char} {entry : List Char} (h : c ∉ entry) (rest : List Char) :
    splitChars c (entry ++ c :: rest) = entry :: splitChars c rest := by
  induction entry with
  | nil => simp [splitChars]
  | cons x xs ih =>
      simp only [List.mem_cons, not_or] at h
      rw [List.cons_append, splitChars, if_neg (Ne.symm h.1), ih h.2]

/-- The listing is read back entry by entry. -/
theorem splitChars_listing (config : List Setting) :
    splitChars '\x00' (listing config).toList = config.map Setting.entry ++ [[]] := by
  unfold listing
  rw [String.toList_ofList]
  induction config with
  | nil => rfl
  | cons s rest ih =>
      simp only [List.flatMap_cons, List.append_assoc, List.map_cons, List.cons_append,
        List.nil_append]
      rw [splitChars_entry (entry_plain s), ih]

/-- **The names are those of the drivers.** -/
theorem mem_filters {config : List Setting} {name : String} :
    name ∈ filters (listing config) ↔ IsDriver config name.toList := by
  unfold filters
  dsimp only
  rw [List.mem_insertionSort, List.mem_dedup, splitChars_listing, List.mem_map]
  constructor
  · rintro ⟨n, hn, rfl⟩
    rw [String.toList_ofList]
    obtain ⟨entry, hentry, hname⟩ := List.mem_filterMap.mp hn
    rcases List.mem_append.mp hentry with hentry | hentry
    · obtain ⟨s, hs, rfl⟩ := List.mem_map.mp hentry
      rw [entry_key] at hname
      obtain ⟨hfilter, setting, hset, hkey⟩ := filterName_some hname
      exact ⟨hfilter, s, hs, setting, hset, hkey⟩
    · obtain rfl := List.mem_singleton.mp hentry
      cases hname
  · rintro ⟨hfilter, s, hs, setting, hset, hkey⟩
    refine ⟨name.toList, ?_, String.ofList_toList⟩
    refine List.mem_filterMap.mpr ⟨s.entry, List.mem_append_left _ (List.mem_map_of_mem hs), ?_⟩
    rw [entry_key, hkey]
    exact filterName_filterKey hfilter hset

theorem pairwise_filters (config : String) : (filters config).Pairwise (· ≤ ·) :=
  List.pairwise_insertionSort _ _

/-! ## §6. What the overrides of one driver set. -/

/-- The four overrides for a driver, as git reads them. -/
def overridesOf (name : List Char) : List Written :=
  ["clean=", "smudge=", "process=", "required=false"].map fun setting =>
    parseOverride (name ++ '.' :: setting.toList)

theorem commandSettings_overrides (names command : List String)
    (hcommand : commandSettings command = []) :
    commandSettings ((names.flatMap fun name =>
      ["clean=", "smudge=", "process=", "required=false"].flatMap fun setting =>
        ["-c", name ++ "." ++ setting]) ++ command)
      = names.flatMap fun name => overridesOf name.toList := by
  induction names with
  | nil => exact hcommand
  | cons name rest ih =>
      simp only [List.flatMap_cons, List.flatMap_nil, List.cons_append, List.nil_append,
        commandSettings, overridesOf, List.map_cons, List.map_nil, String.toList_append] at ih ⊢
      rw [ih]
      simp

/-- The settings of a command behind the overrides. -/
theorem settingsOf_overrides (config : List Setting) {command : List String}
    (hcommand : commandSettings command = []) :
    settingsOf config (filterOverrides (listing config) ++ command)
      = config.map Setting.written
        ++ (filters (listing config)).flatMap fun name => overridesOf name.toList := by
  unfold settingsOf filterOverrides
  rw [commandSettings_overrides _ _ hcommand]

/-- Canonical form: what stands between the first dot and the last stays. -/
theorem canonicalKey_of {sectionName variableName m m' : List Char} (hsection : '.' ∉ sectionName)
    (hvariable : '.' ∉ variableName) (hm : '.' :: m = m' ++ ['.']) :
    canonicalKey (sectionName ++ ('.' :: m ++ variableName))
      = sectionName.map Char.toLower ++ ('.' :: m ++ variableName.map Char.toLower) := by
  have hall : ∀ {cs : List Char}, '.' ∉ cs → ∀ c ∈ cs, (c != '.') = true := by
    intro cs hcs c hc
    simp only [bne_iff_ne]
    rintro rfl
    exact hcs hc
  have hhead : (sectionName ++ ('.' :: m ++ variableName)).takeWhile (· != '.') = sectionName := by
    rw [List.takeWhile_append_of_pos (hall hsection)]
    simp
  have hrest : (sectionName ++ ('.' :: m ++ variableName)).dropWhile (· != '.')
      = '.' :: m ++ variableName := by
    rw [List.dropWhile_append_of_pos (hall hsection)]
    simp
  have hlast : ('.' :: m ++ variableName).reverse.takeWhile (· != '.') = variableName.reverse := by
    rw [hm, List.reverse_append, List.reverse_append]
    rw [List.takeWhile_append_of_pos (hall (by simpa using hvariable))]
    simp
  have htake : ('.' :: m ++ variableName).take
      (('.' :: m ++ variableName).length - variableName.length) = '.' :: m := by
    rw [List.length_append, Nat.add_sub_cancel]
    exact List.take_left
  unfold canonicalKey
  dsimp only
  rw [hhead, hrest, hlast, List.reverse_reverse, htake, List.append_assoc]

theorem canonicalKey_filterKey {name setting : List Char} (hfilter : "filter.".toList <+: name)
    (hmem : setting ∈ filterSettings) :
    canonicalKey (filterKey name setting) = filterKey name setting := by
  obtain ⟨middle, rfl⟩ := hfilter
  have hdot : '.' ∉ "filter".toList := by decide
  have hm : '.' :: (middle ++ ['.']) = ('.' :: middle) ++ ['.'] := rfl
  have hcanonical := canonicalKey_of hdot (dotless hmem) hm
  have hkey : filterKey ("filter.".toList ++ middle) setting
      = "filter".toList ++ ('.' :: (middle ++ ['.']) ++ setting) := by
    simp [filterKey]
  rw [hkey, hcanonical, lower_setting hmem]
  rfl

/-- Below the letters, lower case changes nothing. -/
theorem toLower_eq {c d : Char} (hd : d.toNat < 65) (h : c.toLower = d) : c = d := by
  have hsmall : ∀ n < 91, (Char.ofNat n).toLower = Char.ofNat n
      ∨ 65 ≤ (Char.ofNat n).toLower.toNat := by decide
  by_cases hc : c.toNat < 91
  · have hchar := hsmall c.toNat hc
    rw [Char.ofNat_toNat, h] at hchar
    rcases hchar with hchar | hchar
    · exact hchar.symm
    · omega
  · -- Past `Z` there is no upper case.
    have hkept : c.toLower = c := by
      unfold Char.toLower
      rw [dif_neg]
      rintro ⟨-, hle⟩
      exact hc (Nat.lt_succ_of_le hle)
    rwa [hkept] at h

theorem mem_lower {d : Char} (hd : d.toNat < 65) {cs : List Char} (h : d ∈ cs.map Char.toLower) :
    d ∈ cs := by
  obtain ⟨c, hc, he⟩ := List.mem_map.mp h
  rwa [← toLower_eq hd he]

theorem equals_of_canonicalKey {key : List Char} (h : '=' ∈ canonicalKey key) : '=' ∈ key := by
  have hlower : ∀ {cs : List Char}, '=' ∈ cs.map Char.toLower → '=' ∈ cs := mem_lower (by decide)
  unfold canonicalKey at h
  dsimp only at h
  rcases List.mem_append.mp h with h | h
  · rcases List.mem_append.mp h with h | h
    · exact (List.takeWhile_sublist _).mem (hlower h)
    · exact (List.dropWhile_sublist _).mem (List.mem_of_mem_take h)
  · have hvar := (List.takeWhile_sublist _).mem (List.mem_reverse.mp (hlower h))
    exact (List.dropWhile_sublist _).mem (List.mem_reverse.mp hvar)

/-- No key that git reads off an override holds an `=`. -/
theorem equals_notMem_override (text : List Char) : '=' ∉ (parseOverride text).1 := by
  intro h
  have hkey : '=' ∈ (Json.splitAtChar '=' text).1 := equals_of_canonicalKey h
  unfold Json.splitAtChar at hkey
  split at hkey
  · rename_i hnone
    have hall := List.dropWhile_eq_nil_iff.mp hnone _ hkey
    simp at hall
  · have htake := List.mem_takeWhile_imp hkey
    simp at htake

/-- The override of a driver without `=` in its name. -/
theorem parseOverride_plain {name setting : List Char} (hname : '=' ∉ name) (hset : '=' ∉ setting)
    (value : List Char) :
    parseOverride (name ++ '.' :: (setting ++ '=' :: value))
      = (canonicalKey (filterKey name setting), some value) := by
  have hall : ∀ c ∈ filterKey name setting, (c != '=') = true := by
    intro c hc
    simp only [bne_iff_ne]
    rintro rfl
    simp [filterKey, hname, hset] at hc
  have htext : name ++ '.' :: (setting ++ '=' :: value) = filterKey name setting ++ '=' :: value := by
    simp [filterKey]
  unfold parseOverride Json.splitAtChar
  rw [htext, List.dropWhile_append_of_pos hall, List.takeWhile_append_of_pos hall]
  simp

/-- The override of a driver with an `=` in its name. -/
theorem parseOverride_misread {name : List Char} (hname : '=' ∈ name) (rest : List Char) :
    parseOverride (name ++ rest)
      = (misreadKey name, some ((name.dropWhile (· != '=')).tail ++ rest)) := by
  obtain ⟨front, back, rfl, hfront⟩ := List.eq_append_cons_of_mem hname
  have hall : ∀ c ∈ front, (c != '=') = true := by
    intro c hc
    simp only [bne_iff_ne]
    rintro rfl
    exact hfront hc
  have htake : ∀ tail, (front ++ '=' :: tail).takeWhile (· != '=') = front := by
    intro tail
    rw [List.takeWhile_append_of_pos hall]
    simp
  have hdrop : ∀ tail, (front ++ '=' :: tail).dropWhile (· != '=') = '=' :: tail := by
    intro tail
    rw [List.dropWhile_append_of_pos hall]
    simp
  unfold parseOverride Json.splitAtChar misreadKey
  rw [List.append_assoc, List.cons_append, htake, hdrop, htake, hdrop]
  rfl

/-- The value a driver gets for a setting. -/
def neutralValue (setting : List Char) : List Char :=
  if setting = "required".toList then "false".toList else []

theorem overridesOf_plain {name : List Char} (hname : '=' ∉ name)
    (hfilter : "filter.".toList <+: name) :
    overridesOf name
      = filterSettings.map fun setting => (filterKey name setting, some (neutralValue setting)) := by
  have hone : ∀ setting ∈ filterSettings, ∀ value,
      parseOverride (name ++ '.' :: (setting ++ '=' :: value))
        = (filterKey name setting, some value) := by
    intro setting hmem value
    have hset : '=' ∉ setting := by
      revert setting
      decide
    rw [parseOverride_plain hname hset, canonicalKey_filterKey hfilter hmem]
  have hclean := hone "clean".toList (by decide) []
  have hsmudge := hone "smudge".toList (by decide) []
  have hprocess := hone "process".toList (by decide) []
  have hrequired := hone "required".toList (by decide) "false".toList
  simp only [overridesOf, List.map_cons, List.map_nil]
  exact congrArg₂ _ hclean (congrArg₂ _ hsmudge (congrArg₂ _ hprocess (congrArg₂ _ hrequired rfl)))

theorem overridesOf_misread {name : List Char} (hname : '=' ∈ name) :
    overridesOf name = ["clean=", "smudge=", "process=", "required=false"].map fun setting =>
      (misreadKey name, some ((name.dropWhile (· != '=')).tail ++ '.' :: setting.toList)) := by
  unfold overridesOf
  exact List.map_congr_left fun setting _ => parseOverride_misread hname _

/-- A driver without `=` in its name is set as it is meant to be. -/
theorem effective_plain {name : List Char} (hname : '=' ∉ name)
    (hfilter : "filter.".toList <+: name) {setting : List Char} (hmem : setting ∈ filterSettings) :
    effective (overridesOf name) (filterKey name setting) = some (some (neutralValue setting)) := by
  have hkey : ∀ setting', setting' ∈ filterSettings →
      (filterKey name setting' = filterKey name setting ↔ setting' = setting) := by
    intro setting' hmem'
    constructor
    · intro he
      exact (filterKey_inj (dotless hmem') (dotless hmem) he).2
    · rintro rfl
      rfl
  rw [overridesOf_plain hname hfilter]
  simp only [filterSettings, List.map_cons, List.map_nil, effective_cons]
  rw [if_congr (hkey _ (by decide)) rfl rfl, if_congr (hkey _ (by decide)) rfl rfl,
    if_congr (hkey _ (by decide)) rfl rfl, if_congr (hkey _ (by decide)) rfl rfl, effective_nil]
  clear hkey
  revert setting
  decide

theorem writes_plain {name key : List Char} (hname : '=' ∉ name)
    (hfilter : "filter.".toList <+: name) (h : effective (overridesOf name) key ≠ none) :
    ∃ setting ∈ filterSettings, key = filterKey name setting := by
  by_contra hnot
  refine h (effective_eq_none_iff.mpr fun s hs he => hnot ?_)
  rw [overridesOf_plain hname hfilter] at hs
  obtain ⟨setting, hmem, rfl⟩ := List.mem_map.mp hs
  exact ⟨setting, hmem, he.symm⟩

/-- A driver with an `=` in its name sets the misread key, and no other. -/
theorem effective_misread {name : List Char} (hname : '=' ∈ name) :
    effective (overridesOf name) (misreadKey name) = some (some (misreadValue name)) := by
  rw [overridesOf_misread hname]
  simp [effective_cons, misreadValue]

theorem writes_misread {name key : List Char} (hname : '=' ∈ name)
    (h : effective (overridesOf name) key ≠ none) : key = misreadKey name := by
  by_contra hnot
  refine h (effective_eq_none_iff.mpr fun s hs he => hnot ?_)
  rw [overridesOf_misread hname] at hs
  obtain ⟨setting, -, rfl⟩ := List.mem_map.mp hs
  exact he.symm

theorem not_append_lt (a b : List Char) : ¬ a ++ b < a := by
  induction a with
  | nil =>
      intro h
      cases h
  | cons c cs ih =>
      intro h
      cases h with
      | rel h => exact lt_irrefl c h
      | cons h => exact ih h

theorem ofList_le_append (a b : List Char) : String.ofList a ≤ String.ofList (a ++ b) := by
  rw [String.le_iff_toList_le]
  simp only [String.toList_ofList]
  exact not_lt.mp (not_append_lt a b)

/-- A driver whose setting is misread from another name is a beginning of
that name, and so comes before it. -/
theorem le_of_misreadKey {name other setting : List Char} (hname : '=' ∈ name)
    (hfilter : "filter.".toList <+: name) (hother : "filter.".toList <+: other)
    (hmem : setting ∈ filterSettings) (h : misreadKey name = filterKey other setting) :
    String.ofList other ≤ String.ofList name := by
  obtain ⟨r, rfl⟩ := hfilter
  have hplain : '=' ∉ "filter.".toList := by decide
  have hr : '=' ∈ r := (List.mem_append.mp hname).resolve_left hplain
  obtain ⟨front, back, rfl, hfront⟩ := List.eq_append_cons_of_mem hr
  have hall : ∀ c ∈ "filter.".toList ++ front, (c != '=') = true := by
    intro c hc
    simp only [bne_iff_ne]
    rintro rfl
    exact (List.mem_append.mp hc).elim hplain hfront
  have htake : ("filter.".toList ++ (front ++ '=' :: back)).takeWhile (· != '=')
      = "filter.".toList ++ front := by
    rw [← List.append_assoc, List.takeWhile_append_of_pos hall]
    simp
  have hlower : ∀ {cs : List Char}, '.' ∉ cs → '.' ∉ cs.map Char.toLower :=
    fun hcs hc => hcs (mem_lower (by decide) hc)
  have hdot : '.' ∉ "filter".toList := by decide
  rw [misreadKey, htake] at h
  by_cases hfrontDot : '.' ∈ front
  · -- The last dot of the misread key parts the other name from its setting.
    obtain ⟨v, a, hsplit, hv⟩ := List.eq_append_cons_of_mem (List.mem_reverse.mpr hfrontDot)
    have hfront' : front = a.reverse ++ '.' :: v.reverse := by
      rw [← List.reverse_reverse front, hsplit]
      simp
    have hv' : '.' ∉ v.reverse := by simpa using hv
    have hm : '.' :: (a.reverse ++ ['.']) = ('.' :: a.reverse) ++ ['.'] := rfl
    have hcanonical := canonicalKey_of hdot hv' hm
    have hkey : canonicalKey ("filter.".toList ++ front)
        = filterKey ("filter.".toList ++ a.reverse) (v.reverse.map Char.toLower) := by
      have htext : "filter.".toList ++ front
          = "filter".toList ++ ('.' :: (a.reverse ++ ['.']) ++ v.reverse) := by
        simp [hfront']
      rw [htext, hcanonical]
      simp [filterKey]
    rw [hkey] at h
    obtain ⟨rfl, -⟩ := filterKey_inj (hlower hv') (dotless hmem) h
    have hpre : "filter.".toList ++ (front ++ '=' :: back)
        = ("filter.".toList ++ a.reverse) ++ ('.' :: v.reverse ++ '=' :: back) := by
      simp [hfront']
    rw [hpre]
    exact ofList_le_append _ _
  · -- Without one the key has no subsection, and is no filter's.
    have hm : '.' :: [] = ([] : List Char) ++ ['.'] := rfl
    have hcanonical := canonicalKey_of hdot hfrontDot hm
    have hkey : canonicalKey ("filter.".toList ++ front)
        = filterKey "filter".toList (front.map Char.toLower) := by
      have htext : "filter.".toList ++ front = "filter".toList ++ (['.'] ++ front) := by simp
      rw [htext, hcanonical]
      rfl
    rw [hkey] at h
    obtain ⟨rfl, -⟩ := filterKey_inj (hlower hfrontDot) (dotless hmem) h
    exact absurd hother (by decide)

/-! ## §7. Who sets a key last. -/

section Last

variable {config : List Setting} {command : List String}

/-- What the overrides set a key to. -/
def overridden (config : List Setting) (key : List Char) : Option (Option (List Char)) :=
  effective ((filters (listing config)).flatMap fun name => overridesOf name.toList) key

theorem effective_settingsOf (hcommand : commandSettings command = []) (key : List Char) :
    effective (settingsOf config (filterOverrides (listing config) ++ command)) key
      = (overridden config key).or (effective (config.map Setting.written) key) := by
  rw [settingsOf_overrides config hcommand, effective_append]
  rfl

/-- What sets a key is a driver of the configuration: the one whose key it
is, or one that is misread as it. -/
theorem overridden_ne_none {key : List Char} (h : overridden config key ≠ none) :
    (∃ name, Misread config name ∧ misreadKey name = key) ∨
      ∃ name setting, IsDriver config name ∧ '=' ∉ name ∧ setting ∈ filterSettings ∧
        key = filterKey name setting := by
  by_contra hnot
  refine h (effective_eq_none_iff.mpr fun s hs he => hnot ?_)
  obtain ⟨name, hname, hmem⟩ := List.mem_flatMap.mp hs
  have hdriver := mem_filters.mp hname
  have hset : effective (overridesOf name.toList) key ≠ none := by
    intro hnone
    exact effective_eq_none_iff.mp hnone s hmem he
  by_cases hequals : '=' ∈ name.toList
  · exact .inl ⟨name.toList, ⟨hdriver, hequals⟩, (writes_misread hequals hset).symm⟩
  · obtain ⟨setting, hsetting, hkey⟩ := writes_plain hequals hdriver.1 hset
    exact .inr ⟨name.toList, setting, hdriver, hequals, hsetting, hkey⟩

/-- A key that a driver is misread as is set by the greatest such driver. -/
theorem overridden_misread {name : List Char} (hname : Misread config name) :
    ∃ greatest, Misread config greatest ∧ misreadKey greatest = misreadKey name ∧
      (∀ other, Misread config other → misreadKey other = misreadKey name →
        String.ofList other ≤ String.ofList greatest) ∧
      overridden config (misreadKey name) = some (some (misreadValue greatest)) := by
  have hin : ∀ n, IsDriver config n → String.ofList n ∈ filters (listing config) := by
    intro n hn
    rw [mem_filters, String.toList_ofList]
    exact hn
  have hsets : ∃ n ∈ filters (listing config),
      effective (overridesOf n.toList) (misreadKey name) ≠ none := by
    refine ⟨_, hin name hname.driver, ?_⟩
    rw [String.toList_ofList, effective_misread hname.equals]
    exact Option.some_ne_none _
  obtain ⟨pre, last, post, hsplit, hlast, hpost⟩ := exists_last hsets
  have hsorted := pairwise_filters (listing config)
  rw [hsplit] at hsorted
  -- Every driver misread as the key comes before the last name that sets it.
  have hbefore : ∀ other, Misread config other → misreadKey other = misreadKey name →
      String.ofList other ≤ last := by
    intro other hother hkey
    have hmem := hin other hother.driver
    rw [hsplit] at hmem
    rcases List.mem_append.mp hmem with hmem | hmem
    · exact (List.pairwise_append.mp hsorted).2.2 _ hmem _ List.mem_cons_self
    · rcases List.mem_cons.mp hmem with heq | hmem
      · exact le_of_eq heq
      · have hnone := hpost _ hmem
        rw [String.toList_ofList, ← hkey, effective_misread hother.equals] at hnone
        cases hnone
  have hdriver : IsDriver config last.toList := by
    rw [← mem_filters, hsplit]
    exact List.mem_append_right _ List.mem_cons_self
  have hequals : '=' ∈ last.toList := by
    by_contra hplain
    -- A plain driver with this key would come before the misread one.
    obtain ⟨setting, hmem, hkey⟩ := writes_plain hplain hdriver.1 hlast
    have hle := le_of_misreadKey hname.equals hname.driver.1 hdriver.1 hmem hkey
    rw [String.ofList_toList] at hle
    have heq := le_antisymm hle (hbefore name hname rfl)
    rw [heq, String.toList_ofList] at hplain
    exact hplain hname.equals
  have hkey := writes_misread hequals hlast
  refine ⟨last.toList, ⟨hdriver, hequals⟩, hkey.symm, ?_, ?_⟩
  · intro other hother hsame
    rw [String.ofList_toList]
    exact hbefore other hother hsame
  · unfold overridden
    rw [hsplit]
    refine effective_flatMap ?_ hpost
    rw [hkey, effective_misread hequals]

/-- The overrides leave the settings of a misread driver alone. -/
theorem overridden_filterKey_misread {name : List Char} (hname : '=' ∈ name)
    (setting : List Char) : overridden config (filterKey name setting) = none := by
  refine effective_eq_none_iff.mpr fun s hs he => ?_
  obtain ⟨n, -, hmem⟩ := List.mem_flatMap.mp hs
  obtain ⟨text, -, rfl⟩ := List.mem_map.mp hmem
  refine equals_notMem_override (n.toList ++ '.' :: text.toList) ?_
  rw [he]
  exact List.mem_append_left _ hname

/-- Where no driver is misread as a setting of a plain one, the overrides
set it as they are meant to. -/
theorem overridden_plain {name setting : List Char} (hdriver : IsDriver config name)
    (hname : '=' ∉ name) (hmem : setting ∈ filterSettings)
    (hforeign : ∀ other, Misread config other → misreadKey other ≠ filterKey name setting) :
    overridden config (filterKey name setting) = some (some (neutralValue setting)) := by
  have hin : String.ofList name ∈ filters (listing config) := by
    rw [mem_filters, String.toList_ofList]
    exact hdriver
  have hsets : ∃ n ∈ filters (listing config),
      effective (overridesOf n.toList) (filterKey name setting) ≠ none := by
    refine ⟨_, hin, ?_⟩
    rw [String.toList_ofList, effective_plain hname hdriver.1 hmem]
    exact Option.some_ne_none _
  obtain ⟨pre, last, post, hsplit, hlast, hpost⟩ := exists_last hsets
  have hlastDriver : IsDriver config last.toList := by
    rw [← mem_filters, hsplit]
    exact List.mem_append_right _ List.mem_cons_self
  have hplain : '=' ∉ last.toList := fun hequals =>
    hforeign _ ⟨hlastDriver, hequals⟩ (writes_misread hequals hlast).symm
  obtain ⟨setting', hmem', hkey⟩ := writes_plain hplain hlastDriver.1 hlast
  obtain ⟨hsame, -⟩ := filterKey_inj (dotless hmem) (dotless hmem') hkey
  unfold overridden
  rw [hsplit]
  refine effective_flatMap ?_ hpost
  rw [← hsame]
  exact effective_plain hname hdriver.1 hmem

end Last

/-! ## §8. When every filter is disabled. -/

theorem dot_mem_misreadValue (name : List Char) : '.' ∈ misreadValue name :=
  List.mem_append_right _ (by decide)

theorem isFalse_misreadValue (name : List Char) : isFalse (misreadValue name) = false := by
  have hdot := dot_mem_misreadValue name
  have hlower : '.' ∈ (misreadValue name).map Char.toLower := List.mem_map.mpr ⟨'.', hdot, rfl⟩
  have hwords : ∀ word ∈ ["", "false", "no", "off"],
      String.ofList ((misreadValue name).map Char.toLower) ≠ word := by
    intro word hword he
    have hplain : ∀ word ∈ ["", "false", "no", "off"], '.' ∉ word.toList := by decide
    have htoList := congrArg String.toList he
    rw [String.toList_ofList] at htoList
    rw [htoList] at hlower
    exact hplain word hword hlower
  simp only [isFalse, Bool.or_eq_false_iff]
  constructor
  · rw [← Bool.not_eq_true, List.contains_iff_mem]
    exact fun hmem => hwords _ hmem rfl
  · rw [List.all_eq_false]
    exact ⟨'.', hdot, by decide⟩

theorem misreadValue_ne_nil (name : List Char) : misreadValue name ≠ [] :=
  List.ne_nil_of_mem (dot_mem_misreadValue name)

theorem isDriver_of_effective {config : List Setting} {name setting : List Char}
    (hfilter : "filter.".toList <+: name) (hmem : setting ∈ filterSettings)
    (h : effective (config.map Setting.written) (filterKey name setting) ≠ none) :
    IsDriver config name := by
  by_contra hnot
  refine h (effective_eq_none_iff.mpr fun w hw he => hnot ?_)
  obtain ⟨s, hs, rfl⟩ := List.mem_map.mp hw
  exact ⟨hfilter, s, hs, setting, hmem, he⟩

/-- Reading the settings of a driver that the overrides leave alone. -/
theorem Neutral.congr {settings settings' : List Written} {name : List Char}
    (hn : Neutral settings name)
    (h : ∀ setting ∈ filterSettings,
      effective settings' (filterKey name setting) = effective settings (filterKey name setting)) :
    Neutral settings' name where
  programs := by
    intro setting hmem
    have hset : setting ∈ filterSettings := by
      revert setting
      decide
    rw [h setting hset]
    exact hn.programs setting hmem
  required := by
    rw [h _ (by decide)]
    exact hn.required

section Main

variable {config : List Setting} {command : List String}

theorem spared_of_disabled (hcommand : commandSettings command = [])
    (h : FiltersDisabled config (filterOverrides (listing config) ++ command)) {name : List Char}
    (hname : Misread config name) : Spared config name := by
  obtain ⟨greatest, hgreatest, hkey, hmax, hset⟩ := overridden_misread hname
  have hafter : effective (settingsOf config (filterOverrides (listing config) ++ command))
      (misreadKey name) = some (some (misreadValue greatest)) := by
    rw [effective_settingsOf hcommand, hset]
    rfl
  have hforeign : ∀ other setting, "filter.".toList <+: other → setting ∈ filterSettings →
      misreadKey name ≠ filterKey other setting := by
    intro other setting hother hmem he
    rw [he] at hafter
    by_cases hdriver : IsDriver config other
    · -- The driver would run a program, or be required.
      have hneutral := h.neutral other hdriver
      have hcases : setting ∈ ["clean".toList, "smudge".toList, "process".toList]
          ∨ setting = "required".toList := by
        clear hafter he
        revert setting
        decide
      rcases hcases with hprogram | rfl
      · have hempty := hneutral.programs setting hprogram
        rw [hafter] at hempty
        exact misreadValue_ne_nil greatest (Option.some.inj (Option.some.inj hempty))
      · obtain ⟨v, hv, hfalse⟩ := hneutral.required
        rw [hafter] at hv
        obtain rfl := Option.some.inj (Option.some.inj hv)
        rw [isFalse_misreadValue] at hfalse
        cases hfalse
    · -- A setting appears that no file has.
      have hframe := h.frame (filterKey other setting) fun name' setting' hdriver' hmem' hsame =>
        hdriver ((filterKey_inj (dotless hmem) (dotless hmem') hsame).1 ▸ hdriver')
      rw [hafter] at hframe
      exact hdriver (isDriver_of_effective hother hmem (by rw [← hframe]; exact Option.some_ne_none _))
  refine ⟨?_, hforeign, greatest, hgreatest, hkey, hmax, ?_⟩
  · refine (h.neutral name hname.driver).congr fun setting hmem => ?_
    rw [effective_settingsOf hcommand, overridden_filterKey_misread hname.equals]
    rfl
  · have hframe := h.frame (misreadKey name) fun name' setting' hdriver' hmem' =>
      hforeign name' setting' hdriver'.1 hmem'
    rw [← hframe]
    exact hafter

theorem disabled_of_spared (hcommand : commandSettings command = [])
    (h : ∀ name, Misread config name → Spared config name) :
    FiltersDisabled config (filterOverrides (listing config) ++ command) where
  neutral := by
    intro name hdriver
    by_cases hname : '=' ∈ name
    · refine (h name ⟨hdriver, hname⟩).neutral.congr fun setting _ => ?_
      rw [effective_settingsOf hcommand, overridden_filterKey_misread hname]
      rfl
    · have hset : ∀ setting ∈ filterSettings,
          effective (settingsOf config (filterOverrides (listing config) ++ command))
            (filterKey name setting) = some (some (neutralValue setting)) := by
        intro setting hmem
        rw [effective_settingsOf hcommand, overridden_plain hdriver hname hmem fun other hother =>
          (h other hother).foreign name setting hdriver.1 hmem]
        rfl
      refine ⟨fun setting hmem => ?_, ⟨_, hset _ (by decide), by decide⟩⟩
      have hmem' : setting ∈ filterSettings ∧ neutralValue setting = [] := by
        revert setting
        decide
      rw [hset setting hmem'.1, hmem'.2]
  frame := by
    intro key hkey
    rw [effective_settingsOf hcommand]
    by_cases hnone : overridden config key = none
    · rw [hnone]
      rfl
    · rcases overridden_ne_none hnone with ⟨name, hname, rfl⟩ | ⟨name, setting, hdriver, -, hmem, he⟩
      · obtain ⟨greatest, hgreatest, hsame, hmax, hset⟩ := overridden_misread hname
        obtain ⟨greatest', hgreatest', hsame', hmax', hset'⟩ := (h name hname).already
        have heq := le_antisymm (hmax' greatest hgreatest hsame) (hmax greatest' hgreatest' hsame')
        rw [hset, hset', String.ofList_injective heq]
        rfl
      · exact absurd he (hkey name setting hdriver hmem)

/-- **Filters are disabled** under the overrides, in `checkout-index` and in
`status`, if and only if the overrides for every driver with an `=` in its
name do nothing that was not done: the driver is neutral already, and so is
the key that git reads instead of it.  Any other name is fine. -/
theorem filtersDisabled_iff (config : List Setting)
    (hcommand : command = ["checkout-index", "--all"]
      ∨ command = ["status", "--porcelain=v1", "--untracked-files=all"]) :
    FiltersDisabled config (filterOverrides (listing config) ++ command) ↔
      ∀ name, Misread config name → Spared config name := by
  have hsettings : commandSettings command = [] := by
    rcases hcommand with rfl | rfl <;> rfl
  exact ⟨fun h name hname => spared_of_disabled hsettings h hname,
    disabled_of_spared hsettings⟩

end Main

/-- A clean filter for the driver `a=b`. -/
def equalsConfig : List Setting :=
  [⟨"filter.a=b.clean".toList, some "cat".toList, by decide, by decide,
    fun _ h => Option.some.inj h ▸ (by decide)⟩]

theorem filtersDisabled_iff_equals :
    FiltersDisabled equalsConfig
        (filterOverrides (listing equalsConfig) ++ ["checkout-index", "--all"]) ↔
      ∀ name, Misread equalsConfig name → Spared equalsConfig name :=
  filtersDisabled_iff equalsConfig (.inl rfl)

/-- Its program stays in force. -/
theorem equals_driver_runs :
    effective (settingsOf equalsConfig
        (filterOverrides (listing equalsConfig) ++ ["checkout-index", "--all"]))
        "filter.a=b.clean".toList = some (some "cat".toList) ∧
      ¬ FiltersDisabled equalsConfig
        (filterOverrides (listing equalsConfig) ++ ["checkout-index", "--all"]) := by
  have hruns : effective (settingsOf equalsConfig
      (filterOverrides (listing equalsConfig) ++ ["checkout-index", "--all"]))
      "filter.a=b.clean".toList = some (some "cat".toList) := by decide +kernel
  refine ⟨hruns, fun h => ?_⟩
  have hdriver : IsDriver equalsConfig "filter.a=b".toList :=
    ⟨by decide, _, List.mem_singleton.mpr rfl, "clean".toList, by decide, rfl⟩
  have hempty := (h.neutral _ hdriver).programs "clean".toList (by decide)
  have hkey : filterKey "filter.a=b".toList "clean".toList = "filter.a=b.clean".toList := rfl
  rw [hkey, hruns] at hempty
  cases hempty

end CodexRemoteBridge

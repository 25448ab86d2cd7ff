/-
  CodexRemoteBridge.Cursors — the cursor of `list_threads`, as text from
  outside.

  Decoding is a chain of steps, each of which raises an exception of its
  own; one handler turns them all into the same refusal.  `Inventory` reads
  the chain as an `Option`; here the exceptions are told apart.

  Main result: `cursor_codec`.
-/
import CodexRemoteBridge.Inventory

namespace CodexRemoteBridge

/-! ## §1. The steps of decoding. -/

/-- The bare `raise ValueError` of the checks. -/
def bareValueError : PyExc := .valueError ""

/-- `binascii.Error`; what it says depends on the text, and is not shown. -/
def binasciiError : PyExc := .exception "Error" ""

/-- The failure of `raw.decode("ascii")`. -/
def asciiError : PyExc := .exception "UnicodeDecodeError" "'ascii' codec can't decode byte"

/-- `isinstance(cursor, str) and cursor.startswith("bridge-v1:")`, and then
`cursor[10:]`. -/
def stripPrefix : Json → Except PyExc (List Char)
  | .str cursor =>
      if cursorPrefix.isPrefixOf cursor.toList then .ok (cursor.toList.drop 10)
      else .error bareValueError
  | _ => .error bareValueError

/-- `base64.b64decode(…, altchars=b"-_", validate=True)` of a text. -/
def b64decode (coded : List Char) : Except PyExc (List Nat) :=
  if !coded.all (fun c => c.toNat < 128) then
    .error (.valueError "string argument should contain only ASCII characters")
  else
    match Base64.decode coded with
    | some raw => .ok raw
    | none => .error binasciiError

/-- `raw.decode("ascii")`. -/
def asciiText (raw : List Nat) : Except PyExc (List Char) :=
  match decodeAscii raw with
  | some text => .ok text
  | none => .error asciiError

/-- The decimal test, the length test and the bound. -/
def boundedRowid (text : List Char) : Except PyExc Nat :=
  if text = [] ∨ !text.all Char.isDigit ∨ 19 < text.length then .error bareValueError
  else
    let before := Nat.ofDigitChars 10 text 0
    if maxRowid < before then .error bareValueError else .ok before

/-- The `try` block. -/
def cursorSteps (cursor : Json) : Except PyExc Nat := do
  let coded ← stripPrefix cursor
  let raw ← b64decode coded
  let text ← asciiText raw
  boundedRowid text

/-- `except (ValueError, UnicodeError, binascii.Error)`; the other two are
subclasses of the first. -/
def isCursorError : PyExc → Bool
  | .exception cls _ => cls ∈ ["ValueError", "UnicodeDecodeError", "Error"]
  | _ => false

/-- The refusal of a cursor. -/
def invalidCursor : PyExc := .valueError "Invalid bridge inventory cursor"

/-- What `list_threads` does with its `cursor`. -/
def readCursor : Json → Except PyExc (Option Nat)
  | .null => .ok none
  | cursor =>
      match cursorSteps cursor with
      | .ok before => .ok (some before)
      | .error error => .error (if isCursorError error then invalidCursor else error)

/-! ## §2. One refusal. -/

/-- The digits of the code are ASCII. -/
theorem toNat_lt_of_value {c : Char} {n : Nat} (h : Base64.value c = some n) : c.toNat < 128 := by
  by_cases hlt : c.toNat < 128
  · exact hlt
  · exfalso
    have hupper : c.isUpper = false := by
      rw [Bool.eq_false_iff]
      intro hu
      have hrange : c.val ≥ 'A'.val ∧ c.val ≤ 'Z'.val := of_decide_eq_true hu
      have hle : c.val.toNat ≤ 90 := hrange.2
      exact hlt (show c.val.toNat < 128 by omega)
    have hlower : c.isLower = false := by
      rw [Bool.eq_false_iff]
      intro hl
      have hrange : (decide (c.val ≥ 'a'.val) && decide (c.val ≤ 'z'.val)) = true := hl
      have hle : c.val.toNat ≤ 122 := of_decide_eq_true (Bool.and_eq_true_iff.mp hrange).2
      exact hlt (show c.val.toNat < 128 by omega)
    have hdigit : c.isDigit = false := by
      rw [Bool.eq_false_iff]
      exact fun hd => hlt (toNat_lt_of_isDigit hd)
    have hother : ∀ d : Char, d.toNat < 128 → c ≠ d := by
      rintro d hd rfl
      exact hlt hd
    unfold Base64.value at h
    rw [hupper, hlower, hdigit] at h
    simp [hother '-' (by decide), hother '+' (by decide), hother '_' (by decide),
      hother '/' (by decide)] at h

/-- So a text with any other character is not decoded. -/
theorem ascii_of_decode {coded : List Char} :
    ∀ {raw : List Nat}, Base64.decode coded = some raw → ∀ c ∈ coded, c.toNat < 128 := by
  have hpad : ('=').toNat < 128 := by decide
  induction coded using Base64.decode.induct with
  | case1 => exact fun _ _ hc => absurd hc List.not_mem_nil
  | case2 w x y z rest ih =>
      intro raw h c hc
      unfold Base64.decode at h
      simp only [Option.bind_eq_bind, Option.bind_eq_some_iff] at h
      obtain ⟨wv, hw, xv, hx, h⟩ := h
      by_cases hlast : rest = [] ∧ z = '='
      · rw [if_pos hlast] at h
        obtain ⟨rfl, rfl⟩ := hlast
        by_cases hy : y = '='
        · subst hy
          simp only [List.mem_cons, List.not_mem_nil, or_false] at hc
          rcases hc with rfl | rfl | rfl | rfl
          · exact toNat_lt_of_value hw
          · exact toNat_lt_of_value hx
          · exact hpad
          · exact hpad
        · rw [if_neg hy, Option.bind_eq_some_iff] at h
          obtain ⟨yv, hyv, -⟩ := h
          simp only [List.mem_cons, List.not_mem_nil, or_false] at hc
          rcases hc with rfl | rfl | rfl | rfl
          · exact toNat_lt_of_value hw
          · exact toNat_lt_of_value hx
          · exact toNat_lt_of_value hyv
          · exact hpad
      · rw [if_neg hlast] at h
        simp only [Option.bind_eq_some_iff] at h
        obtain ⟨yv, hyv, zv, hz, bytes, hrest, -⟩ := h
        simp only [List.mem_cons] at hc
        rcases hc with rfl | rfl | rfl | rfl | hc
        · exact toNat_lt_of_value hw
        · exact toNat_lt_of_value hx
        · exact toNat_lt_of_value hyv
        · exact toNat_lt_of_value hz
        · exact ih hrest c hc
  | case3 coded hnil hcons =>
      intro raw h
      rw [Base64.decode] at h
      · cases h
      · exact hnil
      · exact hcons

theorem boundedRowid_eq (text : List Char) :
    boundedRowid text = match parseRowid text with
      | some before => .ok before
      | none => .error bareValueError := by
  unfold boundedRowid parseRowid
  by_cases htext : text = [] ∨ !text.all Char.isDigit ∨ 19 < text.length
  · rw [if_pos htext, if_pos htext]
  · rw [if_neg htext, if_neg htext]
    dsimp only
    by_cases hbig : maxRowid < Nat.ofDigitChars 10 text 0
    · rw [if_pos hbig, if_pos hbig]
    · rw [if_neg hbig, if_neg hbig]

/-- **Nothing else is raised**: whichever step fails, its exception is one the
handler names. -/
theorem cursorSteps_eq (cursor : String) :
    (∃ before, decodeCursor cursor = some before ∧ cursorSteps (.str cursor) = .ok before) ∨
    (decodeCursor cursor = none ∧
      ∃ error, cursorSteps (.str cursor) = .error error ∧ isCursorError error = true) := by
  by_cases hpre : cursorPrefix.isPrefixOf cursor.toList = true
  · have hstrip : stripPrefix (.str cursor) = .ok (cursor.toList.drop 10) := if_pos hpre
    have hsteps : cursorSteps (.str cursor)
        = (b64decode (cursor.toList.drop 10) >>= fun raw => asciiText raw >>= boundedRowid) := by
      unfold cursorSteps
      rw [hstrip]
      rfl
    have hdecode : decodeCursor cursor
        = (Base64.decode (cursor.toList.drop 10) >>= fun raw => decodeAscii raw >>= parseRowid) := by
      unfold decodeCursor
      rw [hpre]
      rfl
    rw [hsteps, hdecode]
    generalize cursor.toList.drop 10 = coded
    cases hraw : Base64.decode coded with
    | none =>
        refine .inr ⟨rfl, ?_⟩
        unfold b64decode
        rw [hraw]
        by_cases hascii : (!coded.all fun c => decide (c.toNat < 128)) = true
        · rw [if_pos hascii]
          exact ⟨_, rfl, rfl⟩
        · rw [if_neg hascii]
          exact ⟨_, rfl, rfl⟩
    | some raw =>
        have hascii : ¬ (!coded.all fun c => decide (c.toNat < 128)) = true := by
          have hall := List.all_eq_true.mpr fun c hc =>
            decide_eq_true (ascii_of_decode hraw c hc)
          simp [hall]
        have hb64 : b64decode coded = .ok raw := by
          unfold b64decode
          rw [if_neg hascii, hraw]
        rw [hb64]
        show (∃ before, (decodeAscii raw >>= parseRowid) = some before ∧
            (asciiText raw >>= boundedRowid) = .ok before) ∨
          ((decodeAscii raw >>= parseRowid) = none ∧
            ∃ error, (asciiText raw >>= boundedRowid) = .error error ∧ isCursorError error = true)
        unfold asciiText
        cases decodeAscii raw with
        | none => exact .inr ⟨rfl, _, rfl, rfl⟩
        | some text =>
            show (∃ before, parseRowid text = some before ∧ boundedRowid text = .ok before) ∨
              (parseRowid text = none ∧
                ∃ error, boundedRowid text = .error error ∧ isCursorError error = true)
            rw [boundedRowid_eq]
            cases parseRowid text with
            | none => exact .inr ⟨rfl, _, rfl, rfl⟩
            | some before => exact .inl ⟨before, rfl, rfl⟩
  · have hstrip : stripPrefix (.str cursor) = .error bareValueError := if_neg hpre
    refine .inr ⟨?_, bareValueError, ?_, rfl⟩
    · unfold decodeCursor
      rw [Bool.eq_false_iff.mpr hpre]
      rfl
    · unfold cursorSteps
      rw [hstrip]
      rfl

/-- The two readings of `cursor` agree. -/
theorem readCursor_eq (cursor : Json) : readCursor cursor = parseCursor cursor := by
  cases cursor with
  | str cursor =>
      show (match cursorSteps (.str cursor) with
        | .ok before => Except.ok (some before)
        | .error error => Except.error (if isCursorError error then invalidCursor else error)) = _
      unfold parseCursor
      rcases cursorSteps_eq cursor with ⟨before, hdecode, hsteps⟩ | ⟨hdecode, error, hsteps, herror⟩
      · rw [hsteps]
        dsimp only
        rw [hdecode]
      · rw [hsteps]
        dsimp only
        rw [hdecode, if_pos herror]
        rfl
  | _ => rfl

/-! ## §3. What an accepted cursor does. -/

theorem decodeCursor_le {cursor : String} {before : Nat} (h : decodeCursor cursor = some before) :
    before ≤ maxRowid := by
  have hbound : ∀ {text : List Char}, parseRowid text = some before → before ≤ maxRowid := by
    intro text h
    unfold parseRowid at h
    split at h
    · cases h
    · dsimp only at h
      split at h
      · cases h
      · obtain rfl := Option.some.inj h
        omega
  unfold decodeCursor at h
  split at h
  · cases h
  · simp only [Option.bind_eq_bind, Option.bind_eq_some_iff] at h
    obtain ⟨raw, -, text, -, h⟩ := h
    exact hbound h

variable [Sqlite]

/-- **A strict upper bound**: only rows below it are listed, newest first. -/
theorem listThreads_below {t : Table} {limit : Json} {cursor : String} {before : Nat} {page : Page}
    (hcursor : readCursor (.str cursor) = .ok (some before))
    (h : listThreads t limit (.str cursor) = .ok page) :
    (page.data.map Except.ok).Sublist ((t.rows.take (before - 1)).map TextRow.item).reverse := by
  obtain ⟨n, before', hn, hparse, hdata, -⟩ := listThreads_ok h
  rw [readCursor_eq, hparse] at hcursor
  obtain rfl := Except.ok.inj hcursor
  rw [hdata, ← List.map_reverse, Keyset.page_bound]
  refine List.Sublist.map _ ?_
  generalize t.rows.take (before - 1) = rows
  rcases Keyset.page_cases TextRow.listed rows hn with hlast | ⟨low, a, high, hsplit, -, hmore⟩
  · rw [hlast]
    exact List.filter_sublist.reverse
  · rw [hmore, hsplit]
    exact (List.filter_sublist.trans (List.sublist_append_right low (a :: high))).reverse

/-- The cursor of a page is the one of the last row it lists. -/
theorem listThreads_emits {t : Table} {limit cursor : Json} {page : Page} {next : String}
    (h : listThreads t limit cursor = .ok page) (hnext : page.nextCursor = some next) :
    ∃ r, 1 ≤ r ∧ r ≤ t.rows.length ∧ next = encodeCursor r ∧
      page.data.getLast?.map Except.ok = (t.rows[r - 1]?).map TextRow.item := by
  obtain ⟨n, before, hn, hparse, hdata, hcursor⟩ := listThreads_ok h
  -- the rows the page is taken from
  have hrows : ∃ rows : List TextRow, rows <+: t.rows ∧
      Keyset.page TextRow.listed t.rows before n = Keyset.page TextRow.listed rows none n := by
    cases before with
    | none => exact ⟨t.rows, List.prefix_rfl, rfl⟩
    | some before =>
        exact ⟨t.rows.take (before - 1), List.take_prefix _ t.rows, Keyset.page_bound _ _ _ _⟩
  obtain ⟨rows, ⟨rest, hrest⟩, hpage⟩ := hrows
  rw [hpage] at hdata hcursor
  rcases Keyset.page_cases TextRow.listed rows hn with hlast | ⟨low, a, high, hsplit, ha, hmore⟩
  · rw [hlast, hnext] at hcursor
    cases hcursor
  · rw [hmore, hnext] at hcursor
    rw [hmore] at hdata
    have hat : t.rows = low ++ (a :: (high ++ rest)) := by
      rw [← hrest, hsplit]
      simp
    refine ⟨low.length + 1, by omega, ?_, Option.some.inj hcursor, ?_⟩
    · rw [hat]
      simp
    · rw [← List.getLast?_map, hdata, hat, List.filter_cons_of_pos ha]
      simp

/-- **The cursor codec.**  What `list_threads` hands out for a row is decoded
to that row; any text is refused with the one error or stands for a number
that SQLite can hold, and then only rows below it are listed. -/
theorem cursor_codec :
    (∀ (t : Table) (limit cursor : Json) (page : Page) (next : String),
      listThreads t limit cursor = .ok page → page.nextCursor = some next →
      ∃ r, 1 ≤ r ∧ r ≤ t.rows.length ∧ next = encodeCursor r ∧
        page.data.getLast?.map Except.ok = (t.rows[r - 1]?).map TextRow.item) ∧
    (∀ r, 1 ≤ r → r ≤ maxRowid → readCursor (.str (encodeCursor r)) = .ok (some r)) ∧
    ∀ cursor : String, readCursor (.str cursor) = .error invalidCursor ∨
      ∃ before, before ≤ maxRowid ∧ readCursor (.str cursor) = .ok (some before) ∧
        ∀ (t : Table) (limit : Json) (page : Page), listThreads t limit (.str cursor) = .ok page →
          (page.data.map Except.ok).Sublist
            ((t.rows.take (before - 1)).map TextRow.item).reverse := by
  refine ⟨fun _ _ _ _ _ h hnext => listThreads_emits h hnext, ?_, ?_⟩
  · intro r _ hr
    rw [readCursor_eq]
    exact parseCursor_encodeCursor hr
  · intro cursor
    have hread := readCursor_eq (.str cursor)
    unfold parseCursor at hread
    dsimp only at hread
    cases hdecode : decodeCursor cursor with
    | none =>
        rw [hdecode] at hread
        exact .inl hread
    | some before =>
        rw [hdecode] at hread
        exact .inr ⟨before, decodeCursor_le hdecode, hread,
          fun _ _ _ h => listThreads_below hread h⟩

end CodexRemoteBridge

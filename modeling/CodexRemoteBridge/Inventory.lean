/-
  CodexRemoteBridge.Inventory — `Ledger.list_threads`: the creations in the
  ledger, page after page.

  A cursor is the `rowid` of the last row of its page.  Rows keep theirs, a
  row that was listed would be listed again, and what is inserted later has
  a larger one: so the pages go through the rows of the first read.

  Main result:
    • `listThreads_covers` — what following `nextCursor` lists, with any
      calls, crashes and imports between the pages.
-/
import CodexRemoteBridge.Import
import CodexRemoteBridge.Naming
import CodexRemoteBridge.Lib.Base64
import CodexRemoteBridge.Lib.JsonSpelling
import CodexRemoteBridge.Lib.Keyset

namespace CodexRemoteBridge

open Interaction

/-! ## §1. The cursor. -/

/-- The largest `rowid` SQLite has. -/
def maxRowid : Nat := 9223372036854775807

/-- What every cursor starts with. -/
def cursorPrefix : List Char := "bridge-v1:".toList

/-- `raw.decode("ascii")`. -/
def decodeAscii (raw : List Nat) : Option (List Char) :=
  if raw.all (· < 128) then some (raw.map Char.ofNat) else none

/-- `int(text)` of a text of decimal digits, as far as a cursor may have them. -/
def parseRowid (text : List Char) : Option Nat :=
  if text = [] ∨ !text.all Char.isDigit ∨ 19 < text.length then none
  else
    let before := Nat.ofDigitChars 10 text 0
    if maxRowid < before then none else some before

/-- The row a cursor stands for. -/
def decodeCursor (cursor : String) : Option Nat := do
  if !cursorPrefix.isPrefixOf cursor.toList then none
  else do
    let raw ← Base64.decode (cursor.toList.drop 10)
    let text ← decodeAscii raw
    parseRowid text

/-- The cursor of a row. -/
def encodeCursor (rowid : Nat) : String :=
  String.ofList (cursorPrefix ++ Base64.encode ((Nat.toDigits 10 rowid).map Char.toNat))

theorem isDigit_toDigits (rowid : Nat) : ∀ c ∈ Nat.toDigits 10 rowid, c.isDigit = true :=
  fun _ hc => Nat.isDigit_of_mem_toDigits (by omega) (by omega) hc

/-- Digits are ASCII. -/
theorem toNat_lt_of_isDigit {c : Char} (h : c.isDigit = true) : c.toNat < 128 := by
  have hle : c.val ≤ 57 := by
    simp only [Char.isDigit, Bool.and_eq_true, decide_eq_true_eq] at h
    exact h.2
  have hle' : c.val.toNat ≤ 57 := hle
  show c.val.toNat < 128
  omega

theorem parseRowid_toDigits {rowid : Nat} (h : rowid ≤ maxRowid) :
    parseRowid (Nat.toDigits 10 rowid) = some rowid := by
  have hne : Nat.toDigits 10 rowid ≠ [] := Nat.toDigits_ne_nil
  have hdigits : (Nat.toDigits 10 rowid).all Char.isDigit = true :=
    List.all_eq_true.mpr (isDigit_toDigits rowid)
  have hlength : (Nat.toDigits 10 rowid).length ≤ 19 := by
    rw [Nat.length_toDigits_le_iff (by omega) (by omega)]
    unfold maxRowid at h
    omega
  unfold parseRowid
  rw [if_neg (by simp [hne, hdigits]; omega)]
  dsimp only
  rw [Nat.ofDigitChars_ten_toDigits, if_neg (by omega)]

/-- **Every cursor that is handed out is understood.** -/
theorem decodeCursor_encodeCursor {rowid : Nat} (h : rowid ≤ maxRowid) :
    decodeCursor (encodeCursor rowid) = some rowid := by
  have hascii : ∀ b ∈ (Nat.toDigits 10 rowid).map Char.toNat, b < 128 := by
    intro b hb
    obtain ⟨c, hc, rfl⟩ := List.mem_map.mp hb
    exact toNat_lt_of_isDigit (isDigit_toDigits rowid c hc)
  have hraw := Base64.decode_encode ((Nat.toDigits 10 rowid).map Char.toNat)
    fun b hb => Nat.lt_trans (hascii b hb) (by omega)
  have htext : decodeAscii ((Nat.toDigits 10 rowid).map Char.toNat)
      = some (Nat.toDigits 10 rowid) := by
    unfold decodeAscii
    rw [if_pos (List.all_eq_true.mpr fun b hb => decide_eq_true (hascii b hb)), List.map_map,
      show Char.ofNat ∘ Char.toNat = id from funext Char.ofNat_toNat, List.map_id]
  have hdrop : (encodeCursor rowid).toList.drop 10
      = Base64.encode ((Nat.toDigits 10 rowid).map Char.toNat) := by
    rw [encodeCursor, String.toList_ofList]
    rfl
  have hpre : cursorPrefix.isPrefixOf (encodeCursor rowid).toList = true := by
    rw [encodeCursor, String.toList_ofList]
    exact List.isPrefixOf_iff_prefix.mpr (List.prefix_append _ _)
  unfold decodeCursor
  rw [hpre, hdrop, hraw]
  show (decodeAscii _ >>= parseRowid) = _
  rw [htext]
  exact parseRowid_toDigits h

/-! ## §2. The JSON functions of SQLite. -/

/-- A value of SQLite; a text is its code points. -/
inductive SqlValue where
  | null
  | integer (n : Int)
  | real (repr : String)
  | text (points : List Nat)
  deriving DecidableEq

/-- The JSON functions of SQLite, which are not this program's: what they make
of the text of a receipt at `$.key`, `none` where they call it malformed. -/
class Sqlite where
  jsonExtract : String → String → Option SqlValue
  jsonType : String → String → Option (Option String)

/-- An exception of `sqlite3`. -/
def operationalError (text : String) : PyExc := .exception "OperationalError" text

/-- The answer of a JSON function; a malformed text fails the statement. -/
def wellFormed {α : Type} : Option α → Except PyExc α
  | some value => .ok value
  | none => .error (operationalError "malformed JSON")

/-- A column as `sqlite3` hands it over: a text has to be UTF-8, which has no
surrogates. -/
def SqlValue.fetch : SqlValue → Except PyExc Json
  | .null => .ok .null
  | .integer n => .ok (.int n)
  | .real repr => .ok (.float repr)
  | .text points =>
      match Json.plainName points with
      | some s => .ok (.str s)
      | none => .error (operationalError "Could not decode to UTF-8 column")

/-- A string literal of the statement. -/
def sqlText (s : String) : SqlValue := .text (s.toList.map Char.toNat)

/-! ## §3. `list_threads`. -/

/-- An entry of the inventory. -/
structure Item where
  requestId : String
  threadId : Json
  operation : Json
  status : Json
  startedAt : Json

section Query

variable [Sqlite]

/-- `json_extract(receipt, '$.key')`. -/
def TextRow.extract (row : TextRow) (key : String) : Except PyExc SqlValue :=
  wellFormed (Sqlite.jsonExtract row.receipt key)

/-- The `WHERE` clause, but for the cursor. -/
def TextRow.selected (row : TextRow) : Except PyExc Bool := do
  let operation ← row.extract "operation"
  if operation ∈ creationOperations.map sqlText then
    let type ← wellFormed (Sqlite.jsonType row.receipt "threadId")
    if type = some "text" then
      let threadId ← row.extract "threadId"
      .ok (threadId ≠ .null && threadId ≠ sqlText "")
    else .ok false
  else .ok false

/-- The columns of a row. -/
def TextRow.item (row : TextRow) : Except PyExc Item := do
  let threadId ← row.extract "threadId" >>= SqlValue.fetch
  let operation ← row.extract "operation" >>= SqlValue.fetch
  let status ← row.extract "status" >>= SqlValue.fetch
  let startedAt ← row.extract "startedAt" >>= SqlValue.fetch
  .ok ⟨row.requestId, threadId, operation, status, startedAt⟩

/-- The rows of the statement, until it has `count` of them. -/
def selectRows (below : Nat → Bool) :
    Nat → List (TextRow × Nat) → Except PyExc (List (Item × Nat))
  | 0, _ => .ok []
  | _ + 1, [] => .ok []
  | count + 1, (row, rowid) :: rest => do
      let selected ← row.selected
      if selected && below rowid then
        let item ← row.item
        let more ← selectRows below count rest
        .ok ((item, rowid) :: more)
      else selectRows below (count + 1) rest

/-- `execute(…).fetchall()`, newest rows first.  No row is ever deleted, so the
row at position `i` has the `rowid` `i + 1`. -/
def Table.select (t : Table) (before : Option Nat) (count : Nat) :
    Except PyExc (List (Item × Nat)) :=
  selectRows (fun rowid => before.all fun bound => rowid < bound) count (t.rows.zipIdx 1).reverse

end Query

/-- What `list_threads` returns. -/
structure Page where
  data : List Item
  nextCursor : Option String
  liveStateChecked : Bool
  scope : String

/-- What the inventory is about. -/
def inventoryScope : String :=
  "Historical creation receipts in this endpoint's local bridge ledger. " ++
  "Status describes the creation operation, not current thread state; " ++
  "existence and archived state are unchecked. Use read_thread for live data."

/-- The check of `limit`: `True` is no integer here. -/
def checkLimit : Json → Except PyExc Nat
  | .int n =>
      if 1 ≤ n ∧ n ≤ 100 then .ok n.toNat
      else .error (.valueError "limit must be an integer between 1 and 100")
  | _ => .error (.valueError "limit must be an integer between 1 and 100")

/-- The check of `cursor`. -/
def parseCursor : Json → Except PyExc (Option Nat)
  | .null => .ok none
  | .str cursor =>
      match decodeCursor cursor with
      | some before => .ok (some before)
      | none => .error (.valueError "Invalid bridge inventory cursor")
  | _ => .error (.valueError "Invalid bridge inventory cursor")

/-- The page of the rows that were found. -/
def makePage (limit : Nat) (rows : List (Item × Nat)) : Page where
  data := (rows.take limit).map (·.1)
  nextCursor :=
    if limit < rows.length then (rows[limit - 1]?).map fun x => encodeCursor x.2 else none
  liveStateChecked := false
  scope := inventoryScope

/-- `Ledger.list_threads`. -/
def listThreads [Sqlite] (t : Table) (limit cursor : Json) : Except PyExc Page := do
  let limit ← checkLimit limit
  let before ← parseCursor cursor
  let rows ← t.select before (limit + 1)
  .ok (makePage limit rows)

/-- An entry, as it is returned. -/
def Item.toJson (item : Item) : Json :=
  .obj [("requestId", .str item.requestId), ("threadId", item.threadId),
    ("operation", item.operation), ("status", item.status), ("startedAt", item.startedAt)]

/-- The page, as it is returned. -/
def Page.toJson (page : Page) : Json :=
  .obj [("data", .arr (page.data.map Item.toJson)), ("nextCursor", nullable page.nextCursor),
    ("liveStateChecked", .bool page.liveStateChecked), ("scope", .str page.scope)]

theorem parseCursor_encodeCursor {rowid : Nat} (h : rowid ≤ maxRowid) :
    parseCursor (.str (encodeCursor rowid)) = .ok (some rowid) := by
  simp only [parseCursor, decodeCursor_encodeCursor h]

theorem checkLimit_ok {limit : Json} {n : Nat} (h : checkLimit limit = .ok n) : 0 < n := by
  unfold checkLimit at h
  split at h
  · split at h
    · rename_i hrange
      cases h
      omega
    · cases h
  · cases h

/-! ## §4. A page of the numbered table. -/

section Query

variable [Sqlite] {below : Nat → Bool}

/-- The row is selected; one that fails the statement is not. -/
def TextRow.listed (row : TextRow) : Bool :=
  match row.selected with
  | .ok selected => selected
  | .error _ => false

theorem TextRow.listed_of_selected {row : TextRow} {selected : Bool}
    (h : row.selected = .ok selected) : row.listed = selected := by
  rw [TextRow.listed, h]

/-- **What the statement returns**, when nothing fails it. -/
theorem selectRows_ok (rows : List (TextRow × Nat)) :
    ∀ {count : Nat} {found : List (Item × Nat)}, selectRows below count rows = .ok found →
      found.map (fun x => (Except.ok x.1, x.2)) =
        ((rows.filter fun x => x.1.listed && below x.2).take count).map
          fun x => (x.1.item, x.2) := by
  induction rows with
  | nil =>
      intro count found h
      cases count <;> cases h <;> rfl
  | cons x rest ih =>
      obtain ⟨row, rowid⟩ := x
      intro count found h
      cases count with
      | zero =>
          cases h
          rfl
      | succ count =>
          rw [selectRows] at h
          obtain ⟨selected, hselected, h⟩ := bind_eq_ok.mp h
          have hlisted := TextRow.listed_of_selected hselected
          by_cases hboth : (selected && below rowid) = true
          · rw [if_pos hboth] at h
            obtain ⟨item, hitem, h⟩ := bind_eq_ok.mp h
            obtain ⟨more, hmore, h⟩ := bind_eq_ok.mp h
            cases h
            rw [List.filter_cons_of_pos (by rw [hlisted]; exact hboth), List.take_succ_cons,
              List.map_cons, List.map_cons, ih hmore, hitem]
          · rw [if_neg hboth] at h
            rw [List.filter_cons_of_neg (by rw [hlisted]; exact hboth)]
            exact ih h

/-- **When nothing fails it**: the rows it fetches have to be text. -/
theorem selectRows_iff (rows : List (TextRow × Nat))
    (hread : ∀ x ∈ rows, x.1.selected = .ok x.1.listed) :
    ∀ count : Nat, (∃ found, selectRows below count rows = .ok found) ↔
      ∀ x ∈ (rows.filter fun x => x.1.listed && below x.2).take count,
        ∃ item, x.1.item = .ok item := by
  induction rows with
  | nil =>
      intro count
      cases count with
      | zero => exact ⟨fun _ => by simp, fun _ => ⟨[], rfl⟩⟩
      | succ count => exact ⟨fun _ => by simp, fun _ => ⟨[], rfl⟩⟩
  | cons x rest ih =>
      obtain ⟨row, rowid⟩ := x
      obtain ⟨hrow, hrest⟩ := List.forall_mem_cons.mp hread
      have ih := ih hrest
      intro count
      cases count with
      | zero => exact ⟨fun _ => by simp, fun _ => ⟨[], rfl⟩⟩
      | succ count =>
          have hrow : row.selected = .ok row.listed := hrow
          rw [selectRows, hrow]
          show (∃ found, (if (row.listed && below rowid) = true then _ else _) = _) ↔ _
          by_cases hboth : (row.listed && below rowid) = true
          · rw [if_pos hboth, List.filter_cons_of_pos (a := (row, rowid)) hboth,
              List.take_succ_cons, List.forall_mem_cons, ← ih count]
            constructor
            · rintro ⟨found, h⟩
              obtain ⟨item, hitem, h⟩ := bind_eq_ok.mp h
              obtain ⟨more, hmore, -⟩ := bind_eq_ok.mp h
              exact ⟨⟨item, hitem⟩, more, hmore⟩
            · rintro ⟨⟨item, hitem⟩, more, hmore⟩
              have hitem : row.item = .ok item := hitem
              rw [hitem, hmore]
              exact ⟨_, rfl⟩
          · rw [if_neg hboth, List.filter_cons_of_neg (a := (row, rowid)) hboth]
            exact ih (count + 1)

/-- A page is the page of the numbered table. -/
theorem listThreads_ok {t : Table} {limit cursor : Json} {page : Page}
    (h : listThreads t limit cursor = .ok page) :
    ∃ n before, 0 < n ∧ parseCursor cursor = .ok before ∧
      page.data.map Except.ok
        = (Keyset.page TextRow.listed t.rows before n).1.map TextRow.item ∧
      page.nextCursor = (Keyset.page TextRow.listed t.rows before n).2.map encodeCursor := by
  unfold listThreads at h
  obtain ⟨n, hn, h⟩ := bind_eq_ok.mp h
  obtain ⟨before, hbefore, h⟩ := bind_eq_ok.mp h
  obtain ⟨rows, hrows, h⟩ := bind_eq_ok.mp h
  obtain rfl := Except.ok.inj h
  have hfound : rows.map (fun x => (Except.ok x.1, x.2))
      = (Keyset.query TextRow.listed t.rows before (n + 1)).map fun x => (x.1.item, x.2) :=
    selectRows_ok _ hrows
  refine ⟨n, before, checkLimit_ok hn, hbefore, ?_, ?_⟩
  · have hdata := congrArg (fun l => (l.take n).map (·.1)) hfound
    simpa only [makePage, Keyset.page, ← List.map_take, List.map_map, Function.comp_def] using hdata
  · have hlength := congrArg List.length hfound
    rw [List.length_map, List.length_map] at hlength
    have hat := congrArg (fun l => (l[n - 1]?).map (·.2)) hfound
    simp only [List.getElem?_map, Option.map_map, Function.comp_def] at hat
    show (if n < rows.length then _ else _)
      = (if n < (Keyset.query TextRow.listed t.rows before (n + 1)).length then _ else _
        : Option Nat).map encodeCursor
    rw [hlength]
    split
    · show (rows[n - 1]?).map (encodeCursor ∘ (·.2)) = _
      rw [← Option.map_map, hat]
    · rfl

end Query

/-! ## §5. What SQLite and Python make of a receipt. -/

/-- `receipt.get(key)`, if the receipt is an object. -/
def receiptField : Json → String → Option Json
  | .obj fields, key => Dict.get? fields key
  | _, _ => none

/-- A creation whose thread has a name. -/
def isCreationReceipt (receipt : Json) : Bool :=
  match receiptField receipt "operation", receiptField receipt "threadId" with
  | some (.str operation), some (.str threadId) =>
      creationOperations.contains operation && threadId != ""
  | _, _ => false

/-- The row is eligible. -/
def Row.isCreation (row : Row) : Bool := isCreationReceipt (.obj row.receipt)

/-- The same of its text, as `json.loads` reads it. -/
def TextRow.isCreation (row : TextRow) : Bool :=
  match Json.decode row.receipt with
  | some receipt => isCreationReceipt receipt
  | none => false

/-- The SQL value of a value of JSON: truth values are integers, an integer of
more than 64 bits is a real, and an array or an object is its own text. -/
inductive SqlReads : Option Json → SqlValue → Prop
  | absent : SqlReads none .null
  | null : SqlReads (some .null) .null
  | bool (b : Bool) : SqlReads (some (.bool b)) (.integer (if b then 1 else 0))
  | int (n : Int) : SqlReads (some (.int n)) (.integer n)
  | bigInt {n : Int} (repr : String) : n < -2 ^ 63 ∨ 2 ^ 63 ≤ n →
      SqlReads (some (.int n)) (.real repr)
  | float (repr : String) : SqlReads (some (.float repr)) (.real repr)
  | str (s : String) : SqlReads (some (.str s)) (.text (Json.unspell s.toList))
  | arr (items : List Json) {points : List Nat} :
      (Json.plainName ('['.toNat :: points)).isSome = true →
      SqlReads (some (.arr items)) (.text ('['.toNat :: points))
  | obj (fields : Dict) {points : List Nat} :
      (Json.plainName ('\x7b'.toNat :: points)).isSome = true →
      SqlReads (some (.obj fields)) (.text ('\x7b'.toNat :: points))

/-- What `json_type` says of it. -/
def sqlTypeName : Option Json → Option String
  | none => none
  | some .null => some "null"
  | some (.bool b) => some (if b then "true" else "false")
  | some (.int _) => some "integer"
  | some (.float _) => some "real"
  | some (.str _) => some "text"
  | some (.arr _) => some "array"
  | some (.obj _) => some "object"

/-- The keys the statement reads. -/
def inventoryKeys : List String := ["threadId", "operation", "status", "startedAt"]

/-- No column of the row is a string with a lone surrogate. -/
def TextRow.Utf8 (row : TextRow) : Prop :=
  ∀ receipt, Json.decode row.receipt = some receipt → ∀ key ∈ inventoryKeys, ∀ s,
    receiptField receipt key = some (.str s) →
    (Json.plainName (Json.unspell s.toList)).isSome = true

section Alike

variable [Sqlite]

/-- SQLite reads the receipt as `json.loads` does. -/
structure TextRow.ReadAlike (row : TextRow) (receipt : Json) : Prop where
  decodes : Json.decode row.receipt = some receipt
  extracts : ∀ key ∈ inventoryKeys, ∃ value,
    Sqlite.jsonExtract row.receipt key = some value ∧ SqlReads (receiptField receipt key) value
  types : Sqlite.jsonType row.receipt "threadId"
    = some (sqlTypeName (receiptField receipt "threadId"))

omit [Sqlite] in
/-- The names of the operations are ASCII. -/
theorem toNat_creationOperations :
    ∀ operation ∈ creationOperations, ∀ c ∈ operation.toList, c.toNat < 0xd800 := by
  have hall : (creationOperations.all fun operation =>
      operation.toList.all fun c => decide (c.toNat < 0xd800)) = true := by decide
  intro operation hmem c hc
  have hchars := List.all_eq_true.mp (List.all_eq_true.mp hall operation hmem) c hc
  exact of_decide_eq_true hchars

omit [Sqlite] in
theorem unspell_creation {operation : String} (h : operation ∈ creationOperations) :
    Json.unspell operation.toList = operation.toList.map Char.toNat := by
  have hspelled := Json.spelling_plain (toNat_creationOperations operation h)
  have hback := Json.unspell_spell (Json.toNat_map_lt operation)
  rwa [← Json.spelling, hspelled] at hback

omit [Sqlite] in
/-- `IN ('create_thread', …)`: only the strings themselves. -/
theorem SqlReads.mem_creations {field : Option Json} {value : SqlValue} (h : SqlReads field value) :
    value ∈ creationOperations.map sqlText ↔
      ∃ operation ∈ creationOperations, field = some (.str operation) := by
  have hbracket : ∀ operation ∈ creationOperations,
      (operation.toList.map Char.toNat).head? ≠ some '['.toNat ∧
      (operation.toList.map Char.toNat).head? ≠ some '\x7b'.toNat := by decide
  rw [List.mem_map]
  constructor
  · rintro ⟨operation, hmem, heq⟩
    refine ⟨operation, hmem, ?_⟩
    cases h with
    | str s =>
        have hpoints := (SqlValue.text.inj heq).symm
        have hlist := Json.eq_of_unspell (toNat_creationOperations operation hmem) hpoints
        rw [String.toList_inj.mp hlist]
    | arr items hplain =>
        have hpoints := SqlValue.text.inj heq
        exact absurd (by rw [hpoints]; rfl) (hbracket operation hmem).1
    | obj fields hplain =>
        have hpoints := SqlValue.text.inj heq
        exact absurd (by rw [hpoints]; rfl) (hbracket operation hmem).2
    | _ => cases heq
  · rintro ⟨operation, hmem, rfl⟩
    cases h with
    | str => exact ⟨operation, hmem, by rw [sqlText, unspell_creation hmem]⟩

omit [Sqlite] in
theorem unspell_eq_nil {cs : List Char} : Json.unspell cs = [] ↔ cs = [] := by
  constructor
  · intro h
    have hnone : ∀ d ∈ ([] : List Char), d.toNat < 0xd800 := by simp
    exact Json.eq_of_unspell hnone h
  · rintro rfl
    rfl

/-- **The `WHERE` clause selects the eligible rows**, where SQLite reads alike. -/
theorem TextRow.ReadAlike.selected {row : TextRow} {receipt : Json}
    (h : row.ReadAlike receipt) : row.selected = .ok row.isCreation := by
  obtain ⟨operation, hextract, hreads⟩ := h.extracts "operation" (by simp [inventoryKeys])
  obtain ⟨threadId, hextract', hreads'⟩ := h.extracts "threadId" (by simp [inventoryKeys])
  have hmem := hreads.mem_creations
  unfold TextRow.selected TextRow.isCreation TextRow.extract
  rw [h.decodes, hextract, hextract', h.types]
  simp only [wellFormed]
  show (if operation ∈ creationOperations.map sqlText then _ else _ : Except PyExc Bool)
    = .ok (isCreationReceipt receipt)
  unfold isCreationReceipt
  by_cases hcreation : operation ∈ creationOperations.map sqlText
  · obtain ⟨name, hname, hfield⟩ := hmem.mp hcreation
    rw [if_pos hcreation, hfield]
    generalize receiptField receipt "threadId" = field at hreads' ⊢
    show (if sqlTypeName field = some "text" then _ else _ : Except PyExc Bool) = _
    cases hreads' with
    | str s =>
        rw [if_pos (show sqlTypeName (some (.str s)) = some "text" from rfl)]
        have hcontains : creationOperations.contains name = true := List.contains_iff_mem.mpr hname
        show Except.ok (decide _ && decide _) = Except.ok (creationOperations.contains name && _)
        rw [hcontains]
        have hempty : Json.unspell s.toList = [] ↔ s = "" := by
          rw [unspell_eq_nil, ← String.toList_inj]
          rfl
        have hnil : sqlText "" = .text [] := rfl
        by_cases hs : s = ""
        · subst hs
          rfl
        · have hne : Json.unspell s.toList ≠ [] := fun hnil => hs (hempty.mp hnil)
          simp [hnil, hne, hs]
    | bool b => cases b <;> rfl
    | _ => rfl
  · rw [if_neg hcreation]
    cases hfield : receiptField receipt "operation" with
    | none => rfl
    | some value =>
        cases value with
        | str name =>
            have hnot : name ∉ creationOperations :=
              fun hname => hcreation (hmem.mpr ⟨name, hname, hfield⟩)
            have hcontains : creationOperations.contains name = false := by
              rw [Bool.eq_false_iff]
              exact fun hc => hnot (List.contains_iff_mem.mp hc)
            generalize receiptField receipt "threadId" = field
            cases field with
            | none => rfl
            | some value =>
                cases value with
                | str threadId =>
                    show Except.ok false = Except.ok (creationOperations.contains name && _)
                    rw [hcontains, Bool.false_and]
                | _ => rfl
        | _ => rfl

omit [Sqlite] in
/-- A column is fetched unless it is a string with a lone surrogate. -/
theorem SqlReads.fetch_iff {field : Option Json} {value : SqlValue} (h : SqlReads field value) :
    (∃ v, value.fetch = .ok v) ↔
      ∀ s, field = some (.str s) → (Json.plainName (Json.unspell s.toList)).isSome = true := by
  have htext : ∀ points, (∃ v, (SqlValue.text points).fetch = .ok v) ↔
      (Json.plainName points).isSome = true := by
    intro points
    cases hpoints : Json.plainName points with
    | none => simp [SqlValue.fetch, hpoints]
    | some s => simp [SqlValue.fetch, hpoints]
  cases h with
  | str s =>
      rw [htext]
      constructor
      · intro hplain s' hs'
        cases hs'
        exact hplain
      · exact fun hall => hall s rfl
  | arr items hplain => exact ⟨fun _ => nofun, fun _ => (htext _).mpr hplain⟩
  | obj fields hplain => exact ⟨fun _ => nofun, fun _ => (htext _).mpr hplain⟩
  | _ => exact ⟨fun _ => nofun, fun _ => ⟨_, rfl⟩⟩

/-- **The columns are fetched**, unless one has a lone surrogate. -/
theorem TextRow.ReadAlike.item_iff {row : TextRow} {receipt : Json}
    (h : row.ReadAlike receipt) : (∃ item, row.item = .ok item) ↔ row.Utf8 := by
  have hfetch : ∀ key ∈ inventoryKeys, (∃ v, (row.extract key >>= SqlValue.fetch) = .ok v) ↔
      ∀ s, receiptField receipt key = some (.str s) →
        (Json.plainName (Json.unspell s.toList)).isSome = true := by
    intro key hkey
    obtain ⟨value, hextract, hreads⟩ := h.extracts key hkey
    rw [← hreads.fetch_iff, TextRow.extract, hextract]
    rfl
  constructor
  · rintro ⟨item, hitem⟩ receipt' hdecode key hkey
    obtain rfl := Option.some.inj (h.decodes.symm.trans hdecode)
    refine (hfetch key hkey).mp ?_
    unfold TextRow.item at hitem
    obtain ⟨threadId, h₁, hitem⟩ := bind_eq_ok.mp hitem
    obtain ⟨operation, h₂, hitem⟩ := bind_eq_ok.mp hitem
    obtain ⟨status, h₃, hitem⟩ := bind_eq_ok.mp hitem
    obtain ⟨startedAt, h₄, -⟩ := bind_eq_ok.mp hitem
    simp only [inventoryKeys, List.mem_cons, List.not_mem_nil, or_false] at hkey
    rcases hkey with rfl | rfl | rfl | rfl
    · exact ⟨_, h₁⟩
    · exact ⟨_, h₂⟩
    · exact ⟨_, h₃⟩
    · exact ⟨_, h₄⟩
  · intro hutf8
    have hall : ∀ key ∈ inventoryKeys, ∃ v, (row.extract key >>= SqlValue.fetch) = .ok v :=
      fun key hkey => (hfetch key hkey).mpr (hutf8 receipt h.decodes key hkey)
    obtain ⟨threadId, h₁⟩ := hall "threadId" (by simp [inventoryKeys])
    obtain ⟨operation, h₂⟩ := hall "operation" (by simp [inventoryKeys])
    obtain ⟨status, h₃⟩ := hall "status" (by simp [inventoryKeys])
    obtain ⟨startedAt, h₄⟩ := hall "startedAt" (by simp [inventoryKeys])
    unfold TextRow.item
    rw [h₁, h₂, h₃, h₄]
    exact ⟨_, rfl⟩

/-- SQLite reads every receipt of the ledger as `json.loads` does. -/
def Table.ReadAlike (t : Table) : Prop := ∀ row ∈ t.rows, ∃ receipt, row.ReadAlike receipt

theorem Table.ReadAlike.listed {t : Table} (h : t.ReadAlike) {row : TextRow} (hrow : row ∈ t.rows) :
    row.listed = row.isCreation ∧ row.selected = .ok row.listed := by
  obtain ⟨receipt, halike⟩ := h row hrow
  have hlisted := TextRow.listed_of_selected halike.selected
  exact ⟨hlisted, by rw [hlisted, halike.selected]⟩

/-- The rows a page fetches: its own, and one more. -/
def Table.fetched (t : Table) (before : Option Nat) (limit : Nat) : List (TextRow × Nat) :=
  Keyset.query TextRow.isCreation t.rows before (limit + 1)

theorem Table.ReadAlike.query {t : Table} (h : t.ReadAlike) (before : Option Nat) (count : Nat) :
    Keyset.query TextRow.listed t.rows before count
      = Keyset.query TextRow.isCreation t.rows before count := by
  unfold Keyset.query
  congr 1
  refine List.filter_congr fun x hx => ?_
  have hmem : x.1 ∈ t.rows := by
    obtain ⟨row, rowid⟩ := x
    exact List.fst_mem_of_mem_zipIdx (List.mem_reverse.mp hx)
  rw [(h.listed hmem).1]

/-- **Where SQLite reads alike**, a cursor that is understood is answered
exactly if no row the page fetches has a lone surrogate. -/
theorem listThreads_returns {t : Table} (h : t.ReadAlike) {cursor : Json} {before : Option Nat}
    (hcursor : parseCursor cursor = .ok before) {n : Int} (hn : 1 ≤ n ∧ n ≤ 100) :
    (∃ page, listThreads t (.int n) cursor = .ok page) ↔
      ∀ x ∈ t.fetched before n.toNat, x.1.Utf8 := by
  have hcheck : checkLimit (.int n) = .ok n.toNat := if_pos hn
  have hmem : ∀ x ∈ (t.rows.zipIdx 1).reverse, x.1 ∈ t.rows := by
    rintro ⟨row, rowid⟩ hx
    exact List.fst_mem_of_mem_zipIdx (List.mem_reverse.mp hx)
  have hread : ∀ x ∈ (t.rows.zipIdx 1).reverse, x.1.selected = .ok x.1.listed :=
    fun x hx => (h.listed (hmem x hx)).2
  have hselect := @selectRows_iff _ (fun rowid => before.all fun bound => rowid < bound) _ hread
    (n.toNat + 1)
  have hpage : (∃ page, listThreads t (.int n) cursor = .ok page) ↔
      ∃ found, t.select before (n.toNat + 1) = .ok found := by
    unfold listThreads
    rw [hcheck, hcursor]
    constructor
    · rintro ⟨page, hpage⟩
      obtain ⟨_, hlimit, hpage⟩ := bind_eq_ok.mp hpage
      obtain ⟨_, hbefore, hpage⟩ := bind_eq_ok.mp hpage
      obtain ⟨found, hfound, -⟩ := bind_eq_ok.mp hpage
      cases hlimit
      cases hbefore
      exact ⟨found, hfound⟩
    · rintro ⟨found, hfound⟩
      show ∃ page, (t.select before (n.toNat + 1) >>= _) = _
      rw [hfound]
      exact ⟨_, rfl⟩
  rw [hpage]
  refine hselect.trans ?_
  show (∀ x ∈ Keyset.query TextRow.listed t.rows before (n.toNat + 1), _) ↔ _
  rw [h.query, Table.fetched]
  refine forall₂_congr fun x hx => ?_
  have hrow : x.1 ∈ t.rows := hmem x (List.mem_of_mem_filter (List.mem_of_mem_take hx))
  obtain ⟨receipt, halike⟩ := h x.1 hrow
  exact halike.item_iff

end Alike

end CodexRemoteBridge

/-
  CodexRemoteBridge.Ledger — `ledger.py`: the table of operations, the
  fingerprint of a request, and the statements that read and write it.

  §1 is the table SQLite keeps: rows in `rowid` order, with `request_id` as
  primary key.  §2 is the code that runs against it; each statement, and
  the one transaction of `begin`, is a single operation of the world.
-/
import CodexRemoteBridge.Effects
import CodexRemoteBridge.Lib.JsonText
import Mathlib.Data.List.Nodup

namespace CodexRemoteBridge

open Interaction

/-! ## §1. The table. -/

/-- A row of `operations`. -/
structure Row where
  requestId : String
  fingerprint : String
  receipt : Dict

/-- The table: no two rows have one `request_id`. -/
structure Store where
  rows : List Row
  primaryKey : (rows.map (·.requestId)).Nodup

namespace Store

/-- A new ledger file. -/
def empty : Store := ⟨[], List.nodup_nil⟩

/-- `SELECT … WHERE request_id = ?`. -/
def find? (s : Store) (requestId : String) : Option Row :=
  s.rows.find? fun row => row.requestId = requestId

theorem find?_eq_none {s : Store} {requestId : String} :
    s.find? requestId = none ↔ requestId ∉ s.rows.map (·.requestId) := by
  simp [find?]

theorem mem_of_find? {s : Store} {requestId : String} {row : Row}
    (h : s.find? requestId = some row) : row ∈ s.rows ∧ row.requestId = requestId :=
  ⟨List.mem_of_find?_eq_some h, by simpa using List.find?_some h⟩

theorem find?_of_mem {s : Store} {row : Row} (h : row ∈ s.rows) :
    s.find? row.requestId = some row := by
  cases hf : s.find? row.requestId with
  | none => exact absurd (List.mem_map_of_mem h) (find?_eq_none.mp hf)
  | some row' =>
      obtain ⟨hmem, hid⟩ := mem_of_find? hf
      rw [List.inj_on_of_nodup_map s.primaryKey hmem h hid]

/-- `INSERT OR IGNORE`, with the number of rows it inserted. -/
def insertOrIgnore (s : Store) (row : Row) : Bool × Store :=
  if h : s.find? row.requestId = none then
    (true, ⟨s.rows ++ [row], by
      rw [List.map_append, List.map_singleton]
      exact s.primaryKey.append (List.nodup_singleton _)
        (by simpa using find?_eq_none.mp h)⟩)
  else (false, s)

/-- `UPDATE operations SET receipt = ? WHERE request_id = ?`. -/
def update (s : Store) (requestId : String) (receipt : Dict) : Store where
  rows := s.rows.map fun row =>
    if row.requestId = requestId then { row with receipt := receipt } else row
  primaryKey := by
    rw [List.map_map, show ((·.requestId) ∘ fun row : Row =>
        if row.requestId = requestId then { row with receipt := receipt } else row)
          = (·.requestId) from by
      funext row
      simp only [Function.comp]
      split <;> rfl]
    exact s.primaryKey

theorem find?_insertOrIgnore (s : Store) (row : Row) (requestId : String) :
    (s.insertOrIgnore row).2.find? requestId
      = if s.find? row.requestId = none ∧ requestId = row.requestId then some row
        else s.find? requestId := by
  unfold insertOrIgnore
  by_cases h : s.find? row.requestId = none
  · rw [dif_pos h]
    by_cases hid : requestId = row.requestId
    · subst hid
      have hnone : s.rows.find? (fun r => decide (r.requestId = row.requestId)) = none := h
      simp [find?, List.find?_append, hnone]
    · have hid' : ¬ row.requestId = requestId := fun e => hid e.symm
      simp [find?, List.find?_append, hid, hid']
  · rw [dif_neg h]
    simp [h]

theorem rows_insertOrIgnore {s : Store} {row : Row} (h : s.find? row.requestId = none) :
    (s.insertOrIgnore row).2.rows = s.rows ++ [row] := by
  unfold insertOrIgnore
  rw [dif_pos h]

theorem find?_update (s : Store) (requestId : String) (receipt : Dict) (other : String) :
    (s.update requestId receipt).find? other
      = if other = requestId then (s.find? other).map fun row => { row with receipt := receipt }
        else s.find? other := by
  have hpred : ∀ row : Row,
      decide ((if row.requestId = requestId then { row with receipt := receipt }
        else row).requestId = other) = decide (row.requestId = other) := by
    intro row
    split <;> rfl
  unfold find? update
  simp only [List.find?_map, Function.comp_def, hpred]
  cases hf : s.rows.find? (fun row => decide (row.requestId = other)) with
  | none => simp
  | some row =>
      have hid : row.requestId = other := by simpa using List.find?_some hf
      by_cases hother : other = requestId <;> simp [hid, hother]

end Store

/-! ## §2. Fingerprints. -/

/-- `hashlib`; the digest of a text, in hexadecimal. -/
class Hashlib where
  sha256 : String → String

/-- A digest that is the text itself; nothing collides. -/
abbrev Hashlib.verbatim : Hashlib := ⟨fun text => text⟩

variable [Hashlib]

/-- What a fingerprint hashes: `json.dumps([method, params], sort_keys=True, …)`. -/
def fingerprintText (method : String) (params : Dict) : String :=
  String.ofList (Json.dumps (.arr [.str method, .obj params]))

/-- `Ledger._fingerprint`. -/
def fingerprint (requestId method : String) (params : Dict) : Except PyExc String :=
  if requestId = "" ∨ requestId.length > 128 then
    .error (.valueError "request_id must contain 1–128 characters")
  else .ok (Hashlib.sha256 (fingerprintText method params))

/-! ## §3. Statements. -/

namespace Ledger

/-- The conflict `lookup` raises. -/
def conflict : PyExc :=
  .valueError "request_id already belongs to different arguments; no action taken"

/-- `receipt.get("fingerprintVersion", 1) == 1`. -/
def isVersionOne (receipt : Dict) : Bool :=
  Json.pyEq ((receipt.get? "fingerprintVersion").getD (.int 1)) (.int 1)

/-- What `lookup` does with a row it read. -/
def matchRow (requestId method fp : String) (legacyParams : Option (Act Dict)) :
    StoredRow → Act Dict
  | (stored, receipt) =>
      if stored = fp then pure receipt
      else
        match isVersionOne receipt, legacyParams with
        | true, some legacyParams => do
            -- The legacy form is only computed here, for a version 1 receipt.
            let params ← legacyParams
            let fp' ← Act.ofExcept (fingerprint requestId method params)
            if stored = fp' then pure receipt else Act.raise conflict
        | _, _ => Act.raise conflict

/-- `Ledger.lookup`. -/
def lookup (requestId method : String) (params : Dict) (legacyParams : Option (Act Dict)) :
    Act (Option Dict) := do
  let fp ← Act.ofExcept (fingerprint requestId method params)
  let row ← Act.perform (.select requestId) lift
  match row with
  | none => pure none
  | some row => do
      let receipt ← matchRow requestId method fp legacyParams row
      pure (some receipt)

/-- The receipt a fresh request starts with. -/
def freshReceipt (requestId method : String) (startedAt : Json) : Dict :=
  [("requestId", .str requestId),
   ("operation", .str method),
   ("status", .str "in_progress_or_unknown"),
   ("startedAt", startedAt),
   ("retrySafe", .bool false),
   ("fingerprintVersion", .int 2)]

/-- `Ledger.begin`: whether the row is new, and the receipt it holds. -/
def begin (requestId method : String) (params : Dict) (legacyParams : Option (Act Dict)) :
    Act (Bool × Dict) := do
  let fp ← Act.ofExcept (fingerprint requestId method params)
  let startedAt ← Act.now
  let receipt := freshReceipt requestId method startedAt
  let found ← Act.perform (.beginRow requestId fp receipt) lift
  let existing ← matchRow requestId method fp legacyParams (found.getD (fp, receipt))
  pure (found.isNone, existing)

omit [Hashlib] in
/-- `Ledger.save`: returns the receipt as it was written. -/
def save (receipt : Dict) : Act Dict := do
  let updatedAt ← Act.now
  let receipt := receipt.update [("updatedAt", updatedAt)]
  let key ← Act.ofExcept (Json.index "requestId" (.obj receipt))
  Act.perform (.update key receipt) lift
  pure receipt

end Ledger

end CodexRemoteBridge

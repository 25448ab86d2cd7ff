/-
  CodexRemoteBridge.Clipping — what `clipped` cuts.

  The flag of the recursion is decided by the nearest object key above a
  leaf: lists hand it on, objects set it anew.  So a leaf can be told by its
  path, and nothing but long text under a display field is touched.

  Main result: `clipped_display_text`.
-/
import CodexRemoteBridge.Waiting

namespace CodexRemoteBridge

/-! ## §1. Places in a JSON value. -/

/-- A step from a value into a part of it. -/
inductive PathStep where
  | key (name : String)
  | index (i : Nat)

/-- The value at the end of a path. -/
def valueAt : List PathStep → Json → Option Json
  | [], v => some v
  | .key name :: rest, .obj fields => (Dict.get? fields name).bind (valueAt rest)
  | .index i :: rest, .arr items => (items[i]?).bind (valueAt rest)
  | _, _ => none

/-- A value without parts. -/
def isLeaf : Json → Bool
  | .arr _ => false
  | .obj _ => false
  | _ => true

/-- The key of a step into an object. -/
def PathStep.key? : PathStep → Option String
  | .key name => some name
  | .index _ => none

/-- The last object key on a path, whatever list indices come after it. -/
def lastKey (q : List PathStep) : Option String := (q.filterMap PathStep.key?).getLast?

mutual
/-- A value with its leaves blanked: their constructors, the lengths of the
lists, and the keys in their order are left. -/
def skeleton : Json → Json
  | .null => .null
  | .bool _ => .bool false
  | .int _ => .int 0
  | .float _ => .float ""
  | .str _ => .str ""
  | .arr items => .arr (skeletonItems items)
  | .obj fields => .obj (skeletonFields fields)

def skeletonItems : List Json → List Json
  | [] => []
  | v :: rest => skeleton v :: skeletonItems rest

def skeletonFields : Dict → Dict
  | [] => []
  | (k, v) :: rest => (k, skeleton v) :: skeletonFields rest
end

/-! ## §2. Same shape. -/

mutual
theorem skeleton_clipped (limit : Nat) :
    ∀ (v : Json) (displayText : Bool), skeleton (clipped limit displayText v) = skeleton v
  | .null, _ => rfl
  | .bool _, _ => rfl
  | .int _, _ => rfl
  | .float _, _ => rfl
  | .str s, displayText => by
      show skeleton (if displayText && limit < s.length then _ else _) = .str ""
      split
      · rfl
      · rfl
  | .arr items, displayText => by
      show Json.arr (skeletonItems (clippedItems limit displayText items)) = _
      rw [skeletonItems_clipped limit items displayText]
      rfl
  | .obj fields, displayText => by
      show Json.obj (skeletonFields (clippedFields limit fields)) = _
      rw [skeletonFields_clipped limit fields]
      rfl

theorem skeletonItems_clipped (limit : Nat) :
    ∀ (items : List Json) (displayText : Bool),
      skeletonItems (clippedItems limit displayText items) = skeletonItems items
  | [], _ => rfl
  | v :: rest, displayText => by
      show skeleton (clipped limit displayText v) :: skeletonItems _ = _
      rw [skeleton_clipped limit v displayText, skeletonItems_clipped limit rest displayText]
      rfl

theorem skeletonFields_clipped (limit : Nat) :
    ∀ fields : Dict, skeletonFields (clippedFields limit fields) = skeletonFields fields
  | [] => rfl
  | (k, v) :: rest => by
      show (k, skeleton (clipped limit _ v)) :: skeletonFields _ = _
      rw [skeleton_clipped limit v, skeletonFields_clipped limit rest]
      rfl
end

/-! ## §3. Leaves by their paths. -/

/-- Whether a leaf is display text, for a path below a place with that flag. -/
def displayed (inherited : Bool) (q : List PathStep) : Bool :=
  match lastKey q with
  | some name => displayFields.contains name
  | none => inherited

theorem displayed_index (inherited : Bool) (i : Nat) (q : List PathStep) :
    displayed inherited (.index i :: q) = displayed inherited q := rfl

/-- Below a key only the flag of that key counts. -/
theorem displayed_key (inherited : Bool) (name : String) (q : List PathStep) :
    displayed inherited (.key name :: q) = displayed (displayFields.contains name) q := by
  have hkeys : (PathStep.key name :: q).filterMap PathStep.key?
      = name :: q.filterMap PathStep.key? := rfl
  unfold displayed lastKey
  rw [hkeys]
  cases hq : q.filterMap PathStep.key? with
  | nil => rfl
  | cons first rest =>
      rw [List.getLast?_cons_cons]
      cases hlast : (first :: rest).getLast? with
      | some last => rfl
      | none => exact absurd (List.getLast?_eq_none_iff.mp hlast) (by simp)

theorem getElem?_clippedItems (limit : Nat) (displayText : Bool) :
    ∀ (items : List Json) (i : Nat), (clippedItems limit displayText items)[i]?
      = (items[i]?).map (clipped limit displayText)
  | [], i => by simp [clippedItems]
  | v :: rest, 0 => rfl
  | v :: rest, i + 1 => by
      show (clippedItems limit displayText rest)[i]? = _
      rw [getElem?_clippedItems limit displayText rest i]
      rfl

/-- **The path law.**  Clipping below a place clips what is at the end of the
path with the flag of the path. -/
theorem valueAt_clipped (limit : Nat) (q : List PathStep) :
    ∀ (v : Json) (inherited : Bool), valueAt q (clipped limit inherited v)
      = (valueAt q v).map (clipped limit (displayed inherited q)) := by
  induction q with
  | nil => exact fun v inherited => rfl
  | cons step q ih =>
      intro v inherited
      cases step with
      | key name =>
          rw [displayed_key]
          cases v with
          | obj fields =>
              show (Dict.get? (clippedFields limit fields) name).bind (valueAt q) = _
              rw [get?_clippedFields]
              show _ = ((Dict.get? fields name).bind (valueAt q)).map _
              cases Dict.get? fields name with
              | none => rfl
              | some w => exact ih w _
          | str s =>
              show valueAt _ (if inherited && limit < s.length then _ else _) = none
              split
              · rfl
              · rfl
          | _ => rfl
      | index i =>
          rw [displayed_index]
          cases v with
          | arr items =>
              show ((clippedItems limit inherited items)[i]?).bind (valueAt q) = _
              rw [getElem?_clippedItems]
              show _ = ((items[i]?).bind (valueAt q)).map _
              cases items[i]? with
              | none => rfl
              | some w => exact ih w _
          | str s =>
              show valueAt _ (if inherited && limit < s.length then _ else _) = none
              split
              · rfl
              · rfl
          | _ => rfl

/-- The first characters of a long text, and the marker with its length. -/
def truncated (limit : Nat) (s : String) : String :=
  String.ofList (s.toList.take limit) ++ "\n[truncated; original length "
    ++ toString s.length ++ " characters]"

/-- The leaf is longer than the limit, and the last key above it is a
display field. -/
def IsLongText (limit : Nat) (q : List PathStep) (leaf : Json) : Prop :=
  ∃ s, leaf = .str s ∧ limit < s.length ∧ ∃ name, lastKey q = some name ∧ name ∈ displayFields

/-- Without a key above it nothing is display text. -/
theorem displayed_iff (q : List PathStep) :
    displayed false q = true ↔ ∃ name, lastKey q = some name ∧ name ∈ displayFields := by
  unfold displayed
  cases hq : lastKey q with
  | none => simp
  | some name => simp

/-- **Clipping touches display text only.** -/
theorem clipped_display_text (limit : Nat) (v : Json) :
    skeleton (clipped limit false v) = skeleton v ∧
    (∀ (q : List PathStep) (s : String), valueAt q v = some (.str s) →
      IsLongText limit q (.str s) →
      valueAt q (clipped limit false v) = some (.str (truncated limit s))) ∧
    ∀ (q : List PathStep) (leaf : Json), valueAt q v = some leaf → isLeaf leaf = true →
      ¬ IsLongText limit q leaf → valueAt q (clipped limit false v) = some leaf := by
  refine ⟨skeleton_clipped limit v false, ?_, ?_⟩
  · intro q s hs hlong
    obtain ⟨s', he, hlength, hname⟩ := hlong
    cases he
    have hflag := (displayed_iff q).mpr hname
    rw [valueAt_clipped, hs, hflag]
    show some (if _ then _ else _) = _
    rw [if_pos (by simpa using hlength)]
    rfl
  · intro q leaf hleaf hisleaf hshort
    rw [valueAt_clipped, hleaf]
    show some (clipped limit (displayed false q) leaf) = _
    cases leaf with
    | str s =>
        have hnot : ¬ ((displayed false q && decide (limit < s.length)) = true) := by
          intro hboth
          rw [Bool.and_eq_true, decide_eq_true_eq, displayed_iff] at hboth
          exact hshort ⟨s, rfl, hboth.2, hboth.1⟩
        show some (if _ then _ else _) = _
        rw [if_neg hnot]
    | arr items => cases hisleaf
    | obj fields => cases hisleaf
    | _ => rfl

/-- A cursor below a display field is left alone, and so is text below it. -/
example : clipped 2 false (.obj [("summary", .arr [.str "long", .obj [("id", .str "long")]])])
    = .obj [("summary", .arr [.str (truncated 2 "long"), .obj [("id", .str "long")]])] := rfl

end CodexRemoteBridge

import Mathlib.Data.Int.Notation
import Mathlib.Tactic.Tauto
import MetaResearch.ToMathlib.Text

/-! # JSON values and their canonical text -/

namespace MetaResearch

/-- A JSON value. A fractional number is given by its literal, so it is finite. -/
inductive Json where
  | null
  | bool (value : Bool)
  | integer (value : ℤ)
  | number (literal : String)
  | text (value : String)
  | array (items : List Json)
  | object (fields : List (String × Json))

namespace Json

/-- The characters that only a fractional number has. -/
def isPoint (char : Char) : Bool := char = '.' || char = 'e'

/-- The characters of a number. -/
def isNumeral (char : Char) : Bool := char.isDigit || char = '-' || char = '+' || isPoint char

/-- The literal of a fractional number: it has a point or an exponent. -/
def isFractional (literal : String) : Bool :=
  literal.toList.all isNumeral && literal.toList.any isPoint

/-- Insert a field by its name; names are compared code point by code point. -/
def insertField (field : String × String) : List (String × String) → List (String × String)
  | [] => [field]
  | other :: rest =>
    if field.1 < other.1 then field :: other :: rest else other :: insertField field rest

def sortFields (fields : List (String × String)) : List (String × String) :=
  fields.foldr insertField []

mutual

/-- `json.dumps` with sorted names and no white space. -/
def dumps : Json → String
  | null => "null"
  | bool value => if value then "true" else "false"
  | integer value => toString value
  | number literal => literal
  | text value => Text.quote value
  | array items => "[" ++ ",".intercalate (dumpsItems items) ++ "]"
  | object fields =>
    "\x7b" ++ ",".intercalate ((sortFields (dumpsFields fields)).map fun field =>
      Text.quote field.1 ++ ":" ++ field.2) ++ "\x7d"
  termination_by structural value => value

def dumpsItems : List Json → List String
  | [] => []
  | item :: rest => dumps item :: dumpsItems rest
  termination_by structural items => items

def dumpsFields : List (String × Json) → List (String × String)
  | [] => []
  | (name, value) :: rest => (name, dumps value) :: dumpsFields rest
  termination_by structural fields => fields

end

/-- An array of strings. -/
def texts (values : List String) : Json := array (values.map text)

example : (object [("b", .array [.integer (-1), .null]), ("a", .text "x\n")]).dumps =
    "\x7b\"a\":\"x\\n\",\"b\":[-1,null]\x7d" := by decide +kernel

/-! ### The length of the text -/

private theorem size_le_intercalate (separator : String) {part : String} {parts : List String}
    (member : part ∈ parts) : part.utf8ByteSize ≤ (separator.intercalate parts).utf8ByteSize := by
  induction parts with
  | nil => cases member
  | cons first rest ih =>
    cases rest with
    | nil =>
      obtain rfl := List.mem_singleton.mp member
      exact Nat.le_of_eq (congrArg String.utf8ByteSize String.intercalate_singleton.symm)
    | cons second others =>
      rw [String.intercalate_cons_cons, String.utf8ByteSize_append, String.utf8ByteSize_append]
      rcases List.mem_cons.mp member with rfl | later
      · omega
      · have := ih later
        omega

private theorem mem_insertField {field other : String × String} {fields : List (String × String)} :
    field ∈ insertField other fields ↔ field = other ∨ field ∈ fields := by
  induction fields with
  | nil => simp [insertField]
  | cons first rest ih =>
    unfold insertField
    split_ifs
    · simp
    · simp only [List.mem_cons, ih]
      tauto

private theorem mem_sortFields {field : String × String} {fields : List (String × String)} :
    field ∈ sortFields fields ↔ field ∈ fields := by
  induction fields with
  | nil => simp [sortFields]
  | cons first rest ih =>
    have step : sortFields (first :: rest) = insertField first (sortFields rest) := rfl
    rw [step, mem_insertField, ih, List.mem_cons]

theorem dumpsItems_eq_map (items : List Json) : dumpsItems items = items.map dumps := by
  induction items with
  | nil => rfl
  | cons item rest ih => rw [dumpsItems, ih, List.map_cons]

theorem dumpsFields_eq_map (fields : List (String × Json)) :
    dumpsFields fields = fields.map fun field => (field.1, field.2.dumps) := by
  induction fields with
  | nil => rfl
  | cons field rest ih => rw [dumpsFields, ih, List.map_cons]

/-- An item is not longer than its array. -/
theorem size_dumps_item_le {item : Json} {items : List Json} (member : item ∈ items) :
    item.dumps.utf8ByteSize ≤ (array items).dumps.utf8ByteSize := by
  have inside : item.dumps ∈ dumpsItems items := by
    rw [dumpsItems_eq_map]
    exact List.mem_map_of_mem member
  have := size_le_intercalate "," inside
  rw [dumps, String.utf8ByteSize_append, String.utf8ByteSize_append]
  omega

/-- The value of a field is not longer than its object. -/
theorem size_dumps_field_le {name : String} {value : Json} {fields : List (String × Json)}
    (member : (name, value) ∈ fields) :
    value.dumps.utf8ByteSize ≤ (object fields).dumps.utf8ByteSize := by
  have inside : (name, value.dumps) ∈ sortFields (dumpsFields fields) := by
    rw [mem_sortFields, dumpsFields_eq_map]
    exact List.mem_map.mpr ⟨(name, value), member, rfl⟩
  have := size_le_intercalate "," (List.mem_map_of_mem (f := fun field =>
    Text.quote field.1 ++ ":" ++ field.2) inside)
  simp only [String.utf8ByteSize_append] at this
  rw [dumps, String.utf8ByteSize_append, String.utf8ByteSize_append]
  omega

end Json

end MetaResearch

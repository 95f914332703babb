import MetaResearch.ToMathlib.JsonText

/-! # A bound on the size of JSON text

The size of a canonical text is bounded by a number that is read off the value, without writing it.
-/

namespace MetaResearch

namespace Text

private theorem size_ofList (chars : List Char) :
    (String.ofList chars).utf8ByteSize = (chars.map Char.utf8Size).sum := by
  induction chars with
  | nil => simp
  | cons char rest ih =>
    rw [← List.singleton_append, String.ofList_append, String.utf8ByteSize_append, ih, List.map_append,
      List.map_singleton, List.sum_append, List.sum_singleton]
    exact congrArg (· + _) String.utf8ByteSize_singleton

/-- A text has at least a byte for each character. -/
theorem length_le_size (text : String) : text.length ≤ text.utf8ByteSize := by
  have each (chars : List Char) : chars.length ≤ (chars.map Char.utf8Size).sum := by
    induction chars with
    | nil => exact Nat.le_refl _
    | cons char rest ih =>
      have one := char.utf8Size_pos
      rw [List.length_cons, List.map_cons, List.sum_cons]
      omega
  rw [← String.ofList_toList (s := text), size_ofList, String.length_ofList]
  exact each text.toList

/-- A text has at most four bytes for each character. -/
theorem size_le_four_mul_length (text : String) : text.utf8ByteSize ≤ 4 * text.length := by
  have each (chars : List Char) : (chars.map Char.utf8Size).sum ≤ 4 * chars.length := by
    induction chars with
    | nil => exact Nat.le_refl _
    | cons char rest ih =>
      have four := char.utf8Size_le_four
      rw [List.length_cons, List.map_cons, List.sum_cons]
      omega
  rw [← String.ofList_toList (s := text), size_ofList, String.length_ofList]
  exact each text.toList

private theorem size_hexDigit (digit : ℕ) : (hexDigit digit).utf8Size = 1 := by
  by_cases small : digit < 16
  · revert digit
    decide
  · have outside : "0123456789abcdef".toList[digit]? = none :=
      List.getElem?_eq_none (Nat.le_of_not_lt small)
    rw [hexDigit, List.getD_eq_getElem?_getD, outside]
    decide

/-- An escaped character is a character, or at most six ASCII characters. -/
private theorem size_escapeChar_le (char : Char) :
    ((escapeChar char).map Char.utf8Size).sum ≤ 6 * char.utf8Size := by
  have one := char.utf8Size_pos
  have marks : ('\\').utf8Size = 1 ∧ ('u').utf8Size = 1 ∧ ('0').utf8Size = 1 := by decide
  have letters : ('n').utf8Size = 1 ∧ ('r').utf8Size = 1 ∧ ('t').utf8Size = 1 ∧ ('b').utf8Size = 1 ∧
      ('f').utf8Size = 1 ∧ ('"').utf8Size = 1 := by decide
  unfold escapeChar
  split_ifs
  all_goals
    simp only [List.map_cons, List.map_nil, List.sum_cons, List.sum_nil, size_hexDigit, marks, letters]
    omega

/-- A string literal is at most six times as long as its text, and two quotation marks. -/
theorem size_quote_le (text : String) : (quote text).utf8ByteSize ≤ 6 * text.utf8ByteSize + 2 := by
  have escaped (chars : List Char) : ((chars.flatMap escapeChar).map Char.utf8Size).sum ≤
      6 * (chars.map Char.utf8Size).sum := by
    induction chars with
    | nil => simp
    | cons char rest ih =>
      have first := size_escapeChar_le char
      rw [List.flatMap_cons, List.map_append, List.sum_append, List.map_cons, List.sum_cons]
      omega
  have mark : ('"').utf8Size = 1 := by decide
  have inner := escaped text.toList
  rw [← size_ofList text.toList, String.ofList_toList] at inner
  rw [quote, size_ofList, List.map_cons, List.map_append, List.map_singleton, List.sum_cons,
    List.sum_append, List.sum_singleton, mark]
  omega

end Text

namespace Json

mutual

/-- A bound on the size of the canonical text. -/
def weight : Json → ℕ
  | null => 4
  | bool _ => 5
  | integer value => (toString value).utf8ByteSize
  | number literal => literal.utf8ByteSize
  | text value => 6 * value.utf8ByteSize + 2
  | array items => itemsWeight items + 2
  | object fields => fieldsWeight fields + 2
  termination_by structural value => value

def itemsWeight : List Json → ℕ
  | [] => 0
  | item :: rest => weight item + 1 + itemsWeight rest
  termination_by structural items => items

def fieldsWeight : List (String × Json) → ℕ
  | [] => 0
  | (name, value) :: rest => (6 * name.utf8ByteSize + 2) + weight value + 2 + fieldsWeight rest
  termination_by structural fields => fields

end

/-- Joined parts are as long as the parts with a separator each. -/
theorem size_intercalate_le (separator : String) (parts : List String) :
    (separator.intercalate parts).utf8ByteSize ≤
      (parts.map fun part => part.utf8ByteSize + separator.utf8ByteSize).sum := by
  induction parts with
  | nil => exact Nat.zero_le _
  | cons first rest ih =>
    cases rest with
    | nil =>
      rw [String.intercalate_singleton]
      simp
    | cons second others =>
      rw [String.intercalate_cons_cons, String.utf8ByteSize_append, String.utf8ByteSize_append,
        List.map_cons, List.sum_cons]
      omega

private theorem sum_sortFields (measure : String × String → ℕ) (fields : List (String × String)) :
    ((sortFields fields).map measure).sum = (fields.map measure).sum := by
  rw [sortFields_eq_sortNamed]
  exact ((sortNamed_perm fields).map measure).sum_nat

mutual

/-- The text is not longer than the bound. -/
theorem size_dumps_le : ∀ value : Json, value.dumps.utf8ByteSize ≤ value.weight
  | null => by decide
  | bool true => by decide
  | bool false => by decide
  | integer value => Nat.le_of_eq rfl
  | number literal => Nat.le_of_eq rfl
  | text value => Text.size_quote_le value
  | array items => by
    have inner := Nat.le_trans (size_intercalate_le "," (dumpsItems items)) (size_dumpsItems_le items)
    have marks : "[".utf8ByteSize = 1 ∧ "]".utf8ByteSize = 1 := by decide
    rw [dumps, String.utf8ByteSize_append, String.utf8ByteSize_append, weight, marks.1, marks.2]
    omega
  | object fields => by
    have inner := Nat.le_trans (size_intercalate_le "," _) (size_dumpsFields_le fields)
    have marks : "\x7b".utf8ByteSize = 1 ∧ "\x7d".utf8ByteSize = 1 := by decide
    rw [dumps, String.utf8ByteSize_append, String.utf8ByteSize_append, weight, marks.1, marks.2]
    omega
  termination_by structural value => value

theorem size_dumpsItems_le : ∀ items : List Json,
    ((dumpsItems items).map fun part => part.utf8ByteSize + ",".utf8ByteSize).sum ≤ itemsWeight items
  | [] => Nat.le_refl _
  | item :: rest => by
    have first := size_dumps_le item
    have others := size_dumpsItems_le rest
    have mark : ",".utf8ByteSize = 1 := by decide
    rw [dumpsItems, List.map_cons, List.sum_cons, itemsWeight]
    omega
  termination_by structural items => items

theorem size_dumpsFields_le : ∀ fields : List (String × Json),
    ((((sortFields (dumpsFields fields)).map fun field => Text.quote field.1 ++ ":" ++ field.2).map
      fun part => part.utf8ByteSize + ",".utf8ByteSize).sum) ≤ fieldsWeight fields
  | [] => by simp [dumpsFields, sortFields, fieldsWeight]
  | (name, value) :: rest => by
    have first := size_dumps_le value
    have others := size_dumpsFields_le rest
    have marks : ",".utf8ByteSize = 1 ∧ ":".utf8ByteSize = 1 := by decide
    have named := Text.size_quote_le name
    rw [List.map_map, sum_sortFields] at others ⊢
    rw [dumpsFields, List.map_cons, List.sum_cons, fieldsWeight]
    simp only [Function.comp_apply, String.utf8ByteSize_append, marks.1, marks.2] at others ⊢
    omega
  termination_by structural fields => fields

end

/-! ### The parts of a text -/

/-- Joined parts are at least as long as the parts. -/
theorem sum_size_le_intercalate (separator : String) (parts : List String) :
    (parts.map String.utf8ByteSize).sum ≤ (separator.intercalate parts).utf8ByteSize := by
  induction parts with
  | nil => exact Nat.zero_le _
  | cons first rest ih =>
    cases rest with
    | nil =>
      rw [String.intercalate_singleton]
      simp
    | cons second others =>
      rw [String.intercalate_cons_cons, String.utf8ByteSize_append, String.utf8ByteSize_append,
        List.map_cons, List.sum_cons]
      omega

/-- The bytes of the items of an array. -/
def itemsSize (items : List Json) : ℕ := (items.map fun item => item.dumps.utf8ByteSize).sum

/-- The bytes of the fields of an object, each with its name and colon. -/
def fieldsSize (fields : List (String × Json)) : ℕ :=
  (fields.map fun field => (Text.quote field.1).utf8ByteSize + 1 + field.2.dumps.utf8ByteSize).sum

theorem itemsSize_cons (item : Json) (rest : List Json) :
    itemsSize (item :: rest) = item.dumps.utf8ByteSize + itemsSize rest := by
  rw [itemsSize, itemsSize, List.map_cons, List.sum_cons]

theorem fieldsSize_cons (name : String) (value : Json) (rest : List (String × Json)) :
    fieldsSize ((name, value) :: rest) =
      (Text.quote name).utf8ByteSize + 1 + value.dumps.utf8ByteSize + fieldsSize rest := by
  rw [fieldsSize, fieldsSize, List.map_cons, List.sum_cons]

theorem itemsSize_le (items : List Json) : itemsSize items ≤ (array items).dumps.utf8ByteSize := by
  have parts : (dumpsItems items).map String.utf8ByteSize =
      items.map fun item => item.dumps.utf8ByteSize := by
    rw [dumpsItems_eq_map, List.map_map]
    rfl
  have joined := sum_size_le_intercalate "," (dumpsItems items)
  rw [parts] at joined
  rw [dumps, String.utf8ByteSize_append, String.utf8ByteSize_append, itemsSize]
  omega

theorem fieldsSize_le (fields : List (String × Json)) :
    fieldsSize fields ≤ (object fields).dumps.utf8ByteSize := by
  have colon : ":".utf8ByteSize = 1 := by decide
  have parts : (((sortFields (dumpsFields fields)).map fun field => Text.quote field.1 ++ ":" ++ field.2).map
      String.utf8ByteSize).sum = fieldsSize fields := by
    rw [List.map_map, sum_sortFields, dumpsFields_eq_map, List.map_map, fieldsSize]
    simp only [Function.comp_def, String.utf8ByteSize_append, colon]
  have joined := sum_size_le_intercalate "," ((sortFields (dumpsFields fields)).map fun field =>
    Text.quote field.1 ++ ":" ++ field.2)
  rw [parts] at joined
  rw [dumps, String.utf8ByteSize_append, String.utf8ByteSize_append]
  omega

/-- A string literal has a byte for each character of its text. -/
theorem length_le_size_quote (text : String) : text.length ≤ (Text.quote text).utf8ByteSize := by
  have each (chars : List Char) : chars.length ≤ (chars.flatMap Text.escapeChar).length := by
    induction chars with
    | nil => exact Nat.le_refl _
    | cons char rest ih =>
      have some : 1 ≤ (Text.escapeChar char).length := by
        unfold Text.escapeChar
        split_ifs <;> simp
      rw [List.flatMap_cons, List.length_append, List.length_cons]
      omega
  have long := Text.length_le_size (Text.quote text)
  have inner := each text.toList
  rw [Text.quote, String.length_ofList, List.length_cons, List.length_append] at long
  rw [String.length_toList] at inner
  rw [Text.quote]
  omega

/-- A string literal has its two quotation marks. -/
theorem two_le_size_quote (text : String) : 2 ≤ (Text.quote text).utf8ByteSize := by
  have long := Text.length_le_size (Text.quote text)
  rw [Text.quote, String.length_ofList, List.length_cons, List.length_append, List.length_singleton] at long
  rw [Text.quote]
  omega

end Json

end MetaResearch

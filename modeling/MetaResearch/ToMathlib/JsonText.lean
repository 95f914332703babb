import Std.Data.String.ToInt
import MetaResearch.ToMathlib.Json

/-! # Canonical JSON text determines its value

The text of a value is read back from its front: where two texts agree up to what follows them, the
values agree up to the order of the fields of their objects.
-/

namespace MetaResearch

namespace Text

/-! ### String literals -/

/-- The value of a hexadecimal digit. -/
def unhex (char : Char) : ℕ := "0123456789abcdef".toList.idxOf char

/-- The character that an escape with one letter stands for. -/
def unnamed (letter : Char) : Char :=
  if letter = 'n' then '\n'
  else if letter = 'r' then '\r'
  else if letter = 't' then '\t'
  else if letter = 'b' then Char.ofNat 8
  else if letter = 'f' then Char.ofNat 12
  else letter

/-- Read one character of a string literal. -/
def unescape : List Char → Option (Char × List Char)
  | '\\' :: 'u' :: _ :: _ :: high :: low :: rest =>
    some (Char.ofNat (16 * unhex high + unhex low), rest)
  | '\\' :: letter :: rest => some (unnamed letter, rest)
  | char :: rest => some (char, rest)
  | [] => none

theorem unhex_hexDigit {digit : ℕ} (bound : digit < 16) : unhex (hexDigit digit) = digit := by
  have all : ∀ digit < 16, unhex (hexDigit digit) = digit := by decide +kernel
  exact all digit bound

private theorem eq_of_code {char : Char} {code : ℕ} (same : char.val.toNat = code) :
    Char.ofNat code = char := by
  rw [← same]
  exact Char.ofNat_toNat char

theorem unescape_escapeChar (char : Char) (rest : List Char) :
    unescape (escapeChar char ++ rest) = some (char, rest) := by
  unfold escapeChar
  split_ifs with quotation backslash line carriage tab bell form control
  · rw [quotation]; rfl
  · rw [backslash]; rfl
  · rw [line]; rfl
  · rw [carriage]; rfl
  · rw [tab]; rfl
  · rw [← eq_of_code bell]; rfl
  · rw [← eq_of_code form]; rfl
  · have high : char.val.toNat / 16 < 16 := by omega
    have low : char.val.toNat % 16 < 16 := by omega
    have sum : 16 * (char.val.toNat / 16) + char.val.toNat % 16 = char.val.toNat := by omega
    simp only [List.cons_append, List.nil_append, unescape, unhex_hexDigit high, unhex_hexDigit low, sum]
    exact congrArg (fun char => some (char, rest)) (Char.ofNat_toNat char)
  · simp [unescape, backslash]

theorem escapeChar_append_inj {first second : Char} {front back : List Char}
    (same : escapeChar first ++ front = escapeChar second ++ back) : first = second ∧ front = back := by
  have read := congrArg unescape same
  rw [unescape_escapeChar, unescape_escapeChar] at read
  simpa using read

/-- No character is written with a leading quotation mark. -/
private theorem escapeChar_ne_quotation {char : Char} {front back : List Char} :
    escapeChar char ++ front ≠ '"' :: back := by
  unfold escapeChar
  split_ifs with quotation
  all_goals
    intro same
    simp_all

/-- A string literal is read back whatever follows it. -/
theorem quote_append_inj {first second : String} {front back : List Char}
    (same : (quote first).toList ++ front = (quote second).toList ++ back) :
    first = second ∧ front = back := by
  have literal : ∀ (chars others : List Char), chars.flatMap escapeChar ++ '"' :: front =
      others.flatMap escapeChar ++ '"' :: back → chars = others ∧ front = back := by
    intro chars
    induction chars with
    | nil =>
      intro others same
      cases others with
      | nil => simpa using same
      | cons other others =>
        rw [List.flatMap_cons, List.append_assoc] at same
        exact (escapeChar_ne_quotation same.symm).elim
    | cons char chars ih =>
      intro others same
      cases others with
      | nil =>
        rw [List.flatMap_cons, List.append_assoc] at same
        exact (escapeChar_ne_quotation same).elim
      | cons other others =>
        rw [List.flatMap_cons, List.flatMap_cons, List.append_assoc, List.append_assoc] at same
        obtain ⟨rfl, later⟩ := escapeChar_append_inj same
        obtain ⟨rfl, rest⟩ := ih others later
        exact ⟨rfl, rest⟩
  simp only [quote, String.toList_ofList, List.cons_append, List.append_assoc, List.nil_append,
    List.cons.injEq, true_and] at same
  obtain ⟨chars, rest⟩ := literal _ _ same
  exact ⟨String.toList_injective chars, rest⟩

end Text

namespace Json

/-! ### Numbers -/

/-- No number goes on here. -/
def Delimited (text : List Char) : Prop := ∀ char rest, text = char :: rest → isNumeral char = false

theorem numeral_append_inj {first second front back : List Char} (firstNumeral : first.all isNumeral)
    (secondNumeral : second.all isNumeral) (frontEnds : Delimited front) (backEnds : Delimited back)
    (same : first ++ front = second ++ back) : first = second ∧ front = back := by
  induction first generalizing second with
  | nil =>
    cases second with
    | nil => exact ⟨rfl, same⟩
    | cons char second =>
      have := frontEnds _ _ same
      simp_all
  | cons char first ih =>
    cases second with
    | nil =>
      have := backEnds _ _ same.symm
      simp_all
    | cons other second =>
      obtain ⟨rfl, later⟩ := List.cons.inj same
      rw [List.all_cons, Bool.and_eq_true] at firstNumeral secondNumeral
      obtain ⟨rfl, rest⟩ := ih firstNumeral.2 secondNumeral.2 later
      exact ⟨rfl, rest⟩

private theorem isNumeral_of_digit {char : Char} (digit : char.isDigit = true) :
    isNumeral char = true ∧ isPoint char = false := by
  refine ⟨by simp [isNumeral, digit], ?_⟩
  rw [isPoint, Bool.or_eq_false_iff, decide_eq_false_iff_not, decide_eq_false_iff_not]
  constructor <;> rintro rfl <;> exact absurd digit (by decide)

theorem isNumeral_of_mem_integer {value : ℤ} {char : Char} (member : char ∈ (toString value).toList) :
    isNumeral char = true ∧ isPoint char = false := by
  have natural {number : ℕ} (member : char ∈ (Nat.repr number).toList) :
      isNumeral char = true ∧ isPoint char = false := by
    rw [Nat.toList_repr] at member
    exact isNumeral_of_digit (Nat.isDigit_of_mem_toDigits (by decide) (by decide) member)
  cases value with
  | ofNat number => exact natural member
  | negSucc number =>
    have signed : (toString (Int.negSucc number)).toList = '-' :: (Nat.repr (number + 1)).toList := by
      rw [Int.toString_eq_repr, Int.repr, String.toList_append]
      rfl
    rw [signed] at member
    rcases List.mem_cons.mp member with rfl | digits
    · decide
    · exact natural digits

/-! ### Text without sorting -/

mutual

/-- The text of a value whose fields are written in their order. -/
def write : Json → List Char
  | null => ['n', 'u', 'l', 'l']
  | bool value => if value then ['t', 'r', 'u', 'e'] else ['f', 'a', 'l', 's', 'e']
  | integer value => (toString value).toList
  | number literal => literal.toList
  | text value => (Text.quote value).toList
  | array [] => ['[', ']']
  | array (item :: rest) => '[' :: (write item ++ writeItems rest)
  | object [] => ['\x7b', '\x7d']
  | object ((name, value) :: rest) =>
    '\x7b' :: ((Text.quote name).toList ++ ':' :: (write value ++ writeFields rest))
  termination_by structural value => value

/-- The items after the first one, and the end of the array. -/
def writeItems : List Json → List Char
  | [] => [']']
  | item :: rest => ',' :: (write item ++ writeItems rest)
  termination_by structural items => items

/-- The fields after the first one, and the end of the object. -/
def writeFields : List (String × Json) → List Char
  | [] => ['\x7d']
  | (name, value) :: rest =>
    ',' :: ((Text.quote name).toList ++ ':' :: (write value ++ writeFields rest))
  termination_by structural fields => fields

end

mutual

/-- Every number literal is one of a fractional number. -/
def wellFormed : Json → Bool
  | number literal => isFractional literal
  | array items => itemsWellFormed items
  | object fields => fieldsWellFormed fields
  | _ => true
  termination_by structural value => value

def itemsWellFormed : List Json → Bool
  | [] => true
  | item :: rest => wellFormed item && itemsWellFormed rest
  termination_by structural items => items

def fieldsWellFormed : List (String × Json) → Bool
  | [] => true
  | (_, value) :: rest => wellFormed value && fieldsWellFormed rest
  termination_by structural fields => fields

end

/-- What the first character of the text tells of the value; the characters of a number tell the same. -/
def lead : Json → Char
  | null => 'n'
  | bool true => 't'
  | bool false => 'f'
  | integer _ => '0'
  | number _ => '0'
  | text _ => '"'
  | array _ => '['
  | object _ => '\x7b'

private theorem numeral_head {token : List Char} (numeral : token.all isNumeral = true)
    (some : token ≠ []) :
    ∃ char rest, token = char :: rest ∧ (if isNumeral char then '0' else char) = '0' := by
  obtain ⟨char, rest, rfl⟩ := List.exists_cons_of_ne_nil some
  rw [List.all_cons, Bool.and_eq_true] at numeral
  exact ⟨char, rest, rfl, if_pos numeral.1⟩

theorem integer_numeral (value : ℤ) : (toString value).toList.all isNumeral = true :=
  List.all_eq_true.mpr fun _ member => (isNumeral_of_mem_integer member).1

theorem integer_ne_nil (value : ℤ) : (toString value).toList ≠ [] := by
  have natural (number : ℕ) : (Nat.repr number).toList ≠ [] := by
    rw [Nat.toList_repr]
    exact Nat.toDigits_ne_nil
  cases value with
  | ofNat number => exact natural number
  | negSucc number =>
    rw [Int.toString_eq_repr, Int.repr, String.toList_append]
    exact List.append_ne_nil_of_left_ne_nil (by decide) _

theorem fractional_ne_nil {literal : String} (fractional : isFractional literal = true) :
    literal.toList ≠ [] := by
  intro empty
  rw [isFractional, empty] at fractional
  exact absurd fractional (by decide)

theorem write_head {value : Json} (formed : value.wellFormed = true) :
    ∃ char rest, write value = char :: rest ∧ (if isNumeral char then '0' else char) = lead value := by
  cases value with
  | null => exact ⟨_, _, rfl, rfl⟩
  | bool value => cases value <;> exact ⟨_, _, rfl, rfl⟩
  | integer value => exact numeral_head (integer_numeral value) (integer_ne_nil value)
  | number literal =>
    have numeral := (Bool.and_eq_true _ _ ▸ formed : _ ∧ _).1
    exact numeral_head numeral (fractional_ne_nil formed)
  | text value => exact ⟨_, _, by rw [write, Text.quote, String.toList_ofList], rfl⟩
  | array items => cases items <;> exact ⟨_, _, rfl, rfl⟩
  | object fields => cases fields <;> exact ⟨_, _, rfl, rfl⟩

/-- Texts that agree up to what follows them begin alike. -/
theorem lead_eq_of_write {first second : Json} {front back : List Char}
    (firstFormed : first.wellFormed = true) (secondFormed : second.wellFormed = true)
    (same : write first ++ front = write second ++ back) : lead first = lead second := by
  obtain ⟨char, rest, firstText, firstLead⟩ := write_head firstFormed
  obtain ⟨other, more, secondText, secondLead⟩ := write_head secondFormed
  rw [firstText, secondText, List.cons_append, List.cons_append] at same
  rw [← firstLead, ← secondLead, (List.cons.inj same).1]

private theorem delimited_cons {char : Char} {rest : List Char} (ends : isNumeral char = false) :
    Delimited (char :: rest) := by
  intro other more same
  rw [← (List.cons.inj same).1, ends]

theorem delimited_writeItems (items : List Json) (rest : List Char) :
    Delimited (writeItems items ++ rest) := by
  cases items <;> exact delimited_cons (by decide)

theorem delimited_writeFields (fields : List (String × Json)) (rest : List Char) :
    Delimited (writeFields fields ++ rest) := by
  cases fields <;> exact delimited_cons (by decide)

/-- The text of an integer is no literal of a fractional number. -/
private theorem integer_ne_fractional {value : ℤ} {literal : String}
    (fractional : isFractional literal = true) : (toString value).toList ≠ literal.toList := by
  intro same
  rw [isFractional, Bool.and_eq_true, ← same] at fractional
  obtain ⟨char, member, point⟩ := List.any_eq_true.mp fractional.2
  rw [(isNumeral_of_mem_integer member).2] at point
  cases point

/-- The token of a number is read back whatever ends it. -/
private theorem number_append_inj {first second : Json} {front back : List Char}
    (firstFormed : first.wellFormed = true) (secondFormed : second.wellFormed = true)
    (firstNumber : lead first = '0') (secondNumber : lead second = '0') (frontEnds : Delimited front)
    (backEnds : Delimited back) (same : write first ++ front = write second ++ back) :
    first = second ∧ front = back := by
  have numeral {literal : String} (fractional : isFractional literal = true) :
      literal.toList.all isNumeral = true := (Bool.and_eq_true _ _ ▸ fractional : _ ∧ _).1
  cases first with
  | integer value =>
    cases second with
    | integer other =>
      obtain ⟨token, rest⟩ := numeral_append_inj (integer_numeral value) (integer_numeral other)
        frontEnds backEnds same
      exact ⟨congrArg integer (Int.repr_injective (String.toList_injective token)), rest⟩
    | number literal =>
      have token := (numeral_append_inj (integer_numeral value) (numeral secondFormed) frontEnds
        backEnds same).1
      exact (integer_ne_fractional secondFormed token).elim
    | bool value => cases value <;> cases secondNumber
    | null => cases secondNumber
    | text _ => cases secondNumber
    | array _ => cases secondNumber
    | object _ => cases secondNumber
  | number literal =>
    cases second with
    | integer other =>
      have token := (numeral_append_inj (numeral firstFormed) (integer_numeral other) frontEnds
        backEnds same).1
      exact (integer_ne_fractional firstFormed token.symm).elim
    | number other =>
      obtain ⟨token, rest⟩ := numeral_append_inj (numeral firstFormed) (numeral secondFormed)
        frontEnds backEnds same
      exact ⟨congrArg number (String.toList_injective token), rest⟩
    | bool value => cases value <;> cases secondNumber
    | null => cases secondNumber
    | text _ => cases secondNumber
    | array _ => cases secondNumber
    | object _ => cases secondNumber
  | bool value => cases value <;> cases firstNumber
  | null => cases firstNumber
  | text _ => cases firstNumber
  | array _ => cases firstNumber
  | object _ => cases firstNumber

/-- No value begins with a closing bracket. -/
private theorem bracket_ne_write {item : Json} {rest : List Json} {front back : List Char}
    (formed : (array (item :: rest)).wellFormed = true) :
    write (array []) ++ front ≠ write (array (item :: rest)) ++ back := by
  intro same
  rw [wellFormed, itemsWellFormed, Bool.and_eq_true] at formed
  obtain ⟨char, text, begins, leads⟩ := write_head formed.1
  rw [write, write, begins] at same
  obtain ⟨bracket, _⟩ := List.cons.inj (List.cons.inj same).2
  rw [← bracket] at leads
  have notLead : lead item ≠ ']' := by
    cases item with
    | bool value => cases value <;> decide
    | _ => simp [lead]
  exact notLead leads.symm

mutual

/-- The text of a value is read back whatever follows it. -/
theorem write_append_inj : ∀ (first second : Json) {front back : List Char},
    first.wellFormed = true → second.wellFormed = true → Delimited front → Delimited back →
      write first ++ front = write second ++ back → first = second ∧ front = back
  | null, second, front, back, firstFormed, secondFormed, _, _, same => by
    have leads := lead_eq_of_write firstFormed secondFormed same
    cases second with
    | null => exact ⟨rfl, by simpa [write] using same⟩
    | bool value => cases value <;> cases leads
    | _ => cases leads
  | bool value, second, front, back, firstFormed, secondFormed, _, _, same => by
    have leads := lead_eq_of_write firstFormed secondFormed same
    cases second with
    | bool other => cases value <;> cases other <;> first
      | exact ⟨rfl, by simpa [write] using same⟩
      | cases leads
    | _ => cases value <;> cases leads
  | integer value, second, front, back, firstFormed, secondFormed, frontEnds, backEnds, same =>
    number_append_inj firstFormed secondFormed rfl
      (lead_eq_of_write firstFormed secondFormed same).symm frontEnds backEnds same
  | number literal, second, front, back, firstFormed, secondFormed, frontEnds, backEnds, same =>
    number_append_inj firstFormed secondFormed rfl
      (lead_eq_of_write firstFormed secondFormed same).symm frontEnds backEnds same
  | text value, second, front, back, firstFormed, secondFormed, _, _, same => by
    have leads := lead_eq_of_write firstFormed secondFormed same
    cases second with
    | text other =>
      obtain ⟨rfl, rest⟩ := Text.quote_append_inj same
      exact ⟨rfl, rest⟩
    | bool value => cases value <;> cases leads
    | _ => cases leads
  | array items, second, front, back, firstFormed, secondFormed, _, _, same => by
    have leads := lead_eq_of_write firstFormed secondFormed same
    cases second with
    | array others =>
      match items, others, same with
      | [], [], same => exact ⟨rfl, by simpa [write] using same⟩
      | [], other :: more, same => exact (bracket_ne_write secondFormed same).elim
      | item :: rest, [], same => exact (bracket_ne_write firstFormed same.symm).elim
      | item :: rest, other :: more, same =>
        rw [wellFormed, itemsWellFormed, Bool.and_eq_true] at firstFormed secondFormed
        rw [write, write, List.cons_append, List.cons_append, List.append_assoc,
          List.append_assoc] at same
        obtain ⟨rfl, later⟩ := write_append_inj item other firstFormed.1 secondFormed.1
          (delimited_writeItems _ _) (delimited_writeItems _ _) (List.cons.inj same).2
        obtain ⟨rfl, last⟩ := writeItems_append_inj rest more firstFormed.2 secondFormed.2 later
        exact ⟨rfl, last⟩
    | bool value => cases value <;> cases leads
    | _ => cases leads
  | object fields, second, front, back, firstFormed, secondFormed, _, _, same => by
    have leads := lead_eq_of_write firstFormed secondFormed same
    cases second with
    | object others =>
      match fields, others, same with
      | [], [], same => exact ⟨rfl, by simpa [write] using same⟩
      | [], (_, _) :: _, same => simp [write, Text.quote] at same
      | (_, _) :: _, [], same => simp [write, Text.quote] at same
      | (name, value) :: rest, (otherName, otherValue) :: more, same =>
        rw [wellFormed, fieldsWellFormed, Bool.and_eq_true] at firstFormed secondFormed
        simp only [write, List.cons_append, List.append_assoc, List.cons.injEq, true_and] at same
        obtain ⟨rfl, colon⟩ := Text.quote_append_inj same
        obtain ⟨rfl, later⟩ := write_append_inj value otherValue firstFormed.1 secondFormed.1
          (delimited_writeFields _ _) (delimited_writeFields _ _) (List.cons.inj colon).2
        obtain ⟨rfl, last⟩ := writeFields_append_inj rest more firstFormed.2 secondFormed.2 later
        exact ⟨rfl, last⟩
    | bool value => cases value <;> cases leads
    | _ => cases leads
  termination_by structural first => first

theorem writeItems_append_inj : ∀ (first second : List Json) {front back : List Char},
    itemsWellFormed first = true → itemsWellFormed second = true →
      writeItems first ++ front = writeItems second ++ back → first = second ∧ front = back
  | [], second, front, back, _, _, same => by
    cases second with
    | nil => exact ⟨rfl, by simpa [writeItems] using same⟩
    | cons other more => simp [writeItems] at same
  | item :: rest, second, front, back, firstFormed, secondFormed, same => by
    cases second with
    | nil => simp [writeItems] at same
    | cons other more =>
      rw [itemsWellFormed, Bool.and_eq_true] at firstFormed secondFormed
      rw [writeItems, writeItems, List.cons_append, List.cons_append, List.append_assoc,
        List.append_assoc] at same
      obtain ⟨rfl, later⟩ := write_append_inj item other firstFormed.1 secondFormed.1
        (delimited_writeItems _ _) (delimited_writeItems _ _) (List.cons.inj same).2
      obtain ⟨rfl, last⟩ := writeItems_append_inj rest more firstFormed.2 secondFormed.2 later
      exact ⟨rfl, last⟩
  termination_by structural first => first

theorem writeFields_append_inj : ∀ (first second : List (String × Json)) {front back : List Char},
    fieldsWellFormed first = true → fieldsWellFormed second = true →
      writeFields first ++ front = writeFields second ++ back → first = second ∧ front = back
  | [], second, front, back, _, _, same => by
    cases second with
    | nil => exact ⟨rfl, by simpa [writeFields] using same⟩
    | cons other more => simp [writeFields] at same
  | (name, value) :: rest, second, front, back, firstFormed, secondFormed, same => by
    cases second with
    | nil => simp [writeFields] at same
    | cons other more =>
      obtain ⟨otherName, otherValue⟩ := other
      rw [fieldsWellFormed, Bool.and_eq_true] at firstFormed secondFormed
      simp only [writeFields, List.cons_append, List.append_assoc, List.cons.injEq, true_and] at same
      obtain ⟨rfl, colon⟩ := Text.quote_append_inj same
      obtain ⟨rfl, later⟩ := write_append_inj value otherValue firstFormed.1 secondFormed.1
        (delimited_writeFields _ _) (delimited_writeFields _ _) (List.cons.inj colon).2
      obtain ⟨rfl, last⟩ := writeFields_append_inj rest more firstFormed.2 secondFormed.2 later
      exact ⟨rfl, last⟩
  termination_by structural first => first

end

/-! ### Sorted fields -/

/-- Insert a field by its name. -/
def insertNamed {α : Type} (field : String × α) : List (String × α) → List (String × α)
  | [] => [field]
  | other :: rest =>
    if field.1 < other.1 then field :: other :: rest else other :: insertNamed field rest

def sortNamed {α : Type} (fields : List (String × α)) : List (String × α) :=
  fields.foldr insertNamed []

section

variable {α β : Type}

theorem insertNamed_map (apply : String → α → β) (field : String × α) (fields : List (String × α)) :
    insertNamed (field.1, apply field.1 field.2)
        (fields.map fun field => (field.1, apply field.1 field.2)) =
      (insertNamed field fields).map fun field => (field.1, apply field.1 field.2) := by
  induction fields with
  | nil => rfl
  | cons other rest ih =>
    rw [List.map_cons, insertNamed, insertNamed]
    split_ifs
    · rfl
    · rw [ih, List.map_cons]

/-- Sorting does not look at the values. -/
theorem sortNamed_map (apply : String → α → β) (fields : List (String × α)) :
    sortNamed (fields.map fun field => (field.1, apply field.1 field.2)) =
      (sortNamed fields).map fun field => (field.1, apply field.1 field.2) := by
  induction fields with
  | nil => rfl
  | cons field rest ih =>
    have step : sortNamed (field :: rest) = insertNamed field (sortNamed rest) := rfl
    rw [step, ← insertNamed_map, ← ih]
    rfl

theorem insertNamed_perm (field : String × α) (fields : List (String × α)) :
    (insertNamed field fields).Perm (field :: fields) := by
  induction fields with
  | nil => exact .refl _
  | cons other rest ih =>
    unfold insertNamed
    split_ifs
    · exact .refl _
    · exact (ih.cons other).trans (.swap field other rest)

theorem sortNamed_perm (fields : List (String × α)) : (sortNamed fields).Perm fields := by
  induction fields with
  | nil => exact .refl _
  | cons field rest ih => exact (insertNamed_perm field _).trans (ih.cons field)

end

theorem sortFields_eq_sortNamed (fields : List (String × String)) :
    sortFields fields = sortNamed fields := by
  have insert (field : String × String) (fields : List (String × String)) :
      insertField field fields = insertNamed field fields := by
    induction fields with
    | nil => rfl
    | cons other rest ih => rw [insertField, insertNamed, ih]
  induction fields with
  | nil => rfl
  | cons field rest ih =>
    have step : sortFields (field :: rest) = insertField field (sortFields rest) := rfl
    rw [step, ih, insert]
    rfl

mutual

/-- The value with the fields of all of its objects sorted by their names. -/
def canonical : Json → Json
  | array items => array (canonicalItems items)
  | object fields => object (sortNamed (canonicalFields fields))
  | null => null
  | bool value => bool value
  | integer value => integer value
  | number literal => number literal
  | text value => text value
  termination_by structural value => value

def canonicalItems : List Json → List Json
  | [] => []
  | item :: rest => canonical item :: canonicalItems rest
  termination_by structural items => items

def canonicalFields : List (String × Json) → List (String × Json)
  | [] => []
  | (name, value) :: rest => (name, canonical value) :: canonicalFields rest
  termination_by structural fields => fields

end

/-- Two values are the same up to the order of the fields of their objects. -/
def Same (first second : Json) : Prop := first.canonical = second.canonical

theorem canonicalItems_eq_map (items : List Json) : canonicalItems items = items.map canonical := by
  induction items with
  | nil => rfl
  | cons item rest ih => rw [canonicalItems, ih, List.map_cons]

theorem canonicalFields_eq_map (fields : List (String × Json)) :
    canonicalFields fields = fields.map fun field => (field.1, field.2.canonical) := by
  induction fields with
  | nil => rfl
  | cons field rest ih => rw [canonicalFields, ih, List.map_cons]

theorem itemsWellFormed_eq_all (items : List Json) : itemsWellFormed items = items.all wellFormed := by
  induction items with
  | nil => rfl
  | cons item rest ih => rw [itemsWellFormed, ih, List.all_cons]

theorem fieldsWellFormed_eq_all (fields : List (String × Json)) :
    fieldsWellFormed fields = fields.all fun field => field.2.wellFormed := by
  induction fields with
  | nil => rfl
  | cons field rest ih => rw [fieldsWellFormed, ih, List.all_cons]

mutual

theorem wellFormed_canonical : ∀ value : Json, value.canonical.wellFormed = value.wellFormed
  | array items => by
    rw [canonical, wellFormed, wellFormed, itemsWellFormed_canonicalItems items]
  | object fields => by
    rw [canonical, wellFormed, wellFormed, fieldsWellFormed_eq_all,
      (sortNamed_perm (canonicalFields fields)).all_eq, ← fieldsWellFormed_eq_all,
      fieldsWellFormed_canonicalFields fields]
  | null => rfl
  | bool _ => rfl
  | integer _ => rfl
  | number _ => rfl
  | text _ => rfl
  termination_by structural value => value

theorem itemsWellFormed_canonicalItems : ∀ items : List Json,
    itemsWellFormed (canonicalItems items) = itemsWellFormed items
  | [] => rfl
  | item :: rest => by
    rw [canonicalItems, itemsWellFormed, itemsWellFormed, wellFormed_canonical item,
      itemsWellFormed_canonicalItems rest]
  termination_by structural items => items

theorem fieldsWellFormed_canonicalFields : ∀ fields : List (String × Json),
    fieldsWellFormed (canonicalFields fields) = fieldsWellFormed fields
  | [] => rfl
  | (name, value) :: rest => by
    rw [canonicalFields, fieldsWellFormed, fieldsWellFormed, wellFormed_canonical value,
      fieldsWellFormed_canonicalFields rest]
  termination_by structural fields => fields

end

theorem writeItems_eq_flatMap (items : List Json) :
    writeItems items = items.flatMap (fun item => ',' :: write item) ++ [']'] := by
  induction items with
  | nil => rfl
  | cons item rest ih => rw [writeItems, ih]; simp

theorem writeFields_eq_flatMap (fields : List (String × Json)) :
    writeFields fields = fields.flatMap (fun field =>
      ',' :: ((Text.quote field.1).toList ++ ':' :: write field.2)) ++ ['\x7d'] := by
  induction fields with
  | nil => rfl
  | cons field rest ih => rw [writeFields, ih]; simp

private theorem toList_intercalate (first : String) (rest : List String) :
    (",".intercalate (first :: rest)).toList =
      first.toList ++ rest.flatMap fun part => ',' :: part.toList := by
  induction rest generalizing first with
  | nil => simp
  | cons second others ih =>
    rw [String.intercalate_cons_cons, String.toList_append, String.toList_append, ih]
    simp

private theorem toList_array {items : List Json}
    (each : (dumpsItems items).map String.toList = (canonicalItems items).map write) :
    (array items).dumps.toList = write (array items).canonical := by
  rw [dumps, canonical]
  generalize dumpsItems items = texts at each
  generalize canonicalItems items = values at each
  cases texts with
  | nil =>
    cases values with
    | nil => rfl
    | cons value values => cases each
  | cons text texts =>
    cases values with
    | nil => cases each
    | cons value values =>
      obtain ⟨first, others⟩ := List.cons.inj each
      have rest : texts.flatMap (fun text => ',' :: text.toList) =
          values.flatMap fun value => ',' :: write value := by
        have joined := congrArg (List.flatMap (',' :: ·)) others
        rwa [List.flatMap_map, List.flatMap_map] at joined
      rw [String.toList_append, String.toList_append, toList_intercalate, first, rest, write,
        writeItems_eq_flatMap]
      simp

private theorem toList_object {fields : List (String × Json)}
    (each : (dumpsFields fields).map (fun field => (field.1, field.2.toList)) =
      (canonicalFields fields).map fun field => (field.1, write field.2)) :
    (object fields).dumps.toList = write (object fields).canonical := by
  have sorted := congrArg sortNamed each
  rw [sortNamed_map fun _ => String.toList, sortNamed_map fun _ => write] at sorted
  rw [dumps, canonical, sortFields_eq_sortNamed]
  generalize sortNamed (dumpsFields fields) = texts at sorted
  generalize sortNamed (canonicalFields fields) = values at sorted
  cases texts with
  | nil =>
    cases values with
    | nil => rfl
    | cons value values => cases sorted
  | cons text texts =>
    cases values with
    | nil => cases sorted
    | cons value values =>
      obtain ⟨first, others⟩ := List.cons.inj sorted
      obtain ⟨name, text⟩ := text
      obtain ⟨otherName, value⟩ := value
      obtain ⟨rfl, first⟩ := Prod.mk.inj first
      have rest : texts.flatMap (fun text => ',' :: (Text.quote text.1 ++ ":" ++ text.2).toList) =
          values.flatMap fun value => ',' :: ((Text.quote value.1).toList ++ ':' :: write value.2) := by
        have joined := congrArg (List.flatMap fun field : String × List Char =>
          ',' :: ((Text.quote field.1).toList ++ ':' :: field.2)) others
        rw [List.flatMap_map, List.flatMap_map] at joined
        simpa using joined
      rw [List.map_cons, String.toList_append, String.toList_append, toList_intercalate,
        List.flatMap_map, rest, String.toList_append, String.toList_append, first, write,
        writeFields_eq_flatMap]
      simp

mutual

/-- The canonical text writes the sorted value. -/
theorem toList_dumps : ∀ value : Json, value.dumps.toList = write value.canonical
  | null => rfl
  | bool value => by cases value <;> rfl
  | integer _ => rfl
  | number _ => rfl
  | text _ => rfl
  | array items => toList_array (toList_dumpsItems items)
  | object fields => toList_object (toList_dumpsFields fields)
  termination_by structural value => value

theorem toList_dumpsItems : ∀ items : List Json,
    (dumpsItems items).map String.toList = (canonicalItems items).map write
  | [] => rfl
  | item :: rest => by
    rw [dumpsItems, canonicalItems, List.map_cons, List.map_cons, toList_dumps item,
      toList_dumpsItems rest]
  termination_by structural items => items

theorem toList_dumpsFields : ∀ fields : List (String × Json),
    (dumpsFields fields).map (fun field => (field.1, field.2.toList)) =
      (canonicalFields fields).map fun field => (field.1, write field.2)
  | [] => rfl
  | (name, value) :: rest => by
    rw [dumpsFields, canonicalFields, List.map_cons, List.map_cons, toList_dumps value,
      toList_dumpsFields rest]
  termination_by structural fields => fields

end

/-- The canonical text determines the value up to the order of fields. -/
theorem same_of_dumps_eq {first second : Json} (firstFormed : first.wellFormed = true)
    (secondFormed : second.wellFormed = true) (same : first.dumps = second.dumps) :
    first.Same second := by
  have texts := congrArg String.toList same
  rw [toList_dumps, toList_dumps] at texts
  have ends : Delimited [] := fun _ _ empty => by cases empty
  refine (write_append_inj _ _ ?_ ?_ ends ends (by simpa using texts)).1
  · rw [wellFormed_canonical, firstFormed]
  · rw [wellFormed_canonical, secondFormed]

theorem dumps_eq_of_same {first second : Json} (same : first.Same second) :
    first.dumps = second.dumps := by
  apply String.toList_injective
  rw [toList_dumps, toList_dumps, same]

end Json

end MetaResearch

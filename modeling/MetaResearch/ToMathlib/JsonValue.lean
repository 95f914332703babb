import Mathlib.Data.Rat.Defs
import MetaResearch.ToMathlib.Check
import MetaResearch.ToMathlib.Json

/-! # JSON values as Python sees them

Dictionaries, hashing, and the equality that does not tell the kinds of numbers apart.
-/

namespace MetaResearch

namespace Json

/-- A dictionary of text keys. -/
abbrev Fields := List (String × Json)

/-- `fields.get(name)`: what is missing is null. -/
def get (fields : Fields) (name : String) : Json := (fields.lookup name).getD .null

/-- The dictionary without one of its keys. -/
def without (fields : Fields) (name : String) : Fields := fields.filter (·.1 ≠ name)

def text? : Json → Option String
  | text value => some value
  | _ => none

def array? : Json → Option (List Json)
  | array items => some items
  | _ => none

def object? : Json → Option Fields
  | object fields => some fields
  | _ => none

/-- The value is this text. -/
def isText (value : Json) (expected : String) : Bool := value.text? = some expected

/-- What a set or the keys of a dictionary accept. -/
def requireHashable : Json → Except String Unit
  | array _ => .error "unhashable type: 'list'"
  | object _ => .error "unhashable type: 'dict'"
  | _ => .ok ()

/-! ### Equality -/

def digitsValue (digits : List Char) : ℕ :=
  digits.foldl (fun value digit => 10 * value + (digit.toNat - '0'.toNat)) 0

def signedValue : List Char → ℤ
  | '-' :: digits => -digitsValue digits
  | '+' :: digits => digitsValue digits
  | digits => digitsValue digits

/-- The number that a literal with a point or an exponent writes. -/
def literalValue (literal : String) : ℚ :=
  let mantissa := literal.toList.takeWhile (· ≠ 'e')
  let exponent := signedValue ((literal.toList.dropWhile (· ≠ 'e')).drop 1)
  let fraction := (mantissa.dropWhile (· ≠ '.')).drop 1
  let value : ℚ := signedValue (mantissa.takeWhile (· ≠ '.') ++ fraction) / 10 ^ fraction.length
  if 0 ≤ exponent then value * 10 ^ exponent.toNat else value / 10 ^ exponent.natAbs

/-- The value of a number; truth values are numbers. -/
def number? : Json → Option ℚ
  | bool value => some (if value then 1 else 0)
  | integer value => some value
  | number literal => some (literalValue literal)
  | _ => none

mutual

/-- `==` -/
def same : Json → Json → Bool
  | text first, text second => first = second
  | array first, array second => sameItems first second
  | object first, object second => first.length = second.length && sameFields first second
  | null, null => true
  | first, second => match first.number?, second.number? with
    | some first, some second => first = second
    | _, _ => false
  termination_by structural first => first

def sameItems : List Json → List Json → Bool
  | first :: rest, second :: others => same first second && sameItems rest others
  | [], [] => true
  | _, _ => false
  termination_by structural first => first

/-- The second dictionary has each value of the first one. -/
def sameFields : Fields → Fields → Bool
  | (name, value) :: rest, others => (others.lookup name).any (same value) && sameFields rest others
  | [], _ => true
  termination_by structural first => first

end

example : same (object [("a", .integer 1), ("b", .text "x")])
    (object [("b", .text "x"), ("a", .number "1.0")]) = true := by decide +kernel

end Json

end MetaResearch

import MetaResearch.ToMathlib.Text

/-! # Python texts

A Python text is a list of code points. A surrogate is a code point too, but no character: no encoding has it.
-/

namespace MetaResearch

/-- A code point: a character, or the surrogate `0xD800 + unit`. -/
inductive Point where
  | char (value : Char)
  | surrogate (unit : Fin 0x800)
  deriving DecidableEq

namespace Point

/-- `ord` -/
def code : Point → ℕ
  | char value => value.val.toNat
  | surrogate unit => 0xD800 + unit

def isSurrogate : Point → Bool
  | char _ => false
  | surrogate _ => true

/-- `str.isspace` of one code point. -/
def isSpace : Point → Bool
  | char value => Text.isSpace value
  | surrogate _ => false

/-- `str.isdigit`, for the digits of a JSON number. -/
def isDigit : Point → Bool
  | char value => value.isDigit
  | surrogate _ => false

end Point

abbrev PyText := List Point

namespace PyText

/-- The text that a literal writes. -/
def ofString (text : String) : PyText := text.toList.map Point.char

/-- The text can be encoded. -/
def encodable (text : PyText) : Bool := text.all fun point => !point.isSurrogate

/-- `str.lstrip` -/
def lstrip (text : PyText) : PyText := text.dropWhile Point.isSpace

/-- `str.rstrip` -/
def rstrip (text : PyText) : PyText := (lstrip text.reverse).reverse

/-- `str.strip` -/
def strip (text : PyText) : PyText := rstrip (lstrip text)

theorem ofString_injective : Function.Injective ofString := by
  intro first second same
  have chars : first.toList = second.toList :=
    List.map_injective_iff.mpr (fun _ _ => Point.char.inj) same
  exact String.toList_inj.mp chars

theorem encodable_ofString (text : String) : (ofString text).encodable = true := by
  simp [encodable, ofString, Point.isSurrogate]

theorem encodable_append (first second : PyText) :
    encodable (first ++ second) = (encodable first && encodable second) := List.all_append

theorem lstrip_length_le (text : PyText) : (lstrip text).length ≤ text.length :=
  List.length_dropWhile_le _ _

end PyText

end MetaResearch

import Mathlib.Algebra.Order.Ring.Nat
import Mathlib.Data.List.Basic
import Mathlib.Data.List.DropRight
import Mathlib.Data.List.TakeWhile

/-! # Text as Python sees it

White space, stripping and case folding of Unicode text, and the text of a JSON string literal.
-/

namespace MetaResearch

namespace Text

/-- The characters for which `str.isspace` holds. -/
def isSpace (char : Char) : Bool :=
  let code := char.val.toNat
  (9 ≤ code && code ≤ 13) || (28 ≤ code && code ≤ 32) || code = 0x85 || code = 0xa0 ||
    code = 0x1680 || (0x2000 ≤ code && code ≤ 0x200a) || code = 0x2028 || code = 0x2029 ||
    code = 0x202f || code = 0x205f || code = 0x3000

def stripFront (chars : List Char) : List Char := chars.dropWhile isSpace

/-- `str.strip`. -/
def strip (text : String) : String :=
  String.ofList (stripFront (stripFront text.toList).reverse).reverse

/-- The strip of the text is empty. -/
def isBlank (text : String) : Bool := text.toList.all isSpace

/-- Text without white space is its own strip. -/
theorem strip_of_no_space {text : String} (solid : ∀ char ∈ text.toList, isSpace char = false) :
    strip text = text := by
  have front {chars : List Char} (solid : ∀ char ∈ chars, isSpace char = false) :
      stripFront chars = chars := by
    unfold stripFront
    cases chars with
    | nil => rfl
    | cons char rest => simp [solid char List.mem_cons_self]
  rw [strip, front solid, front, List.reverse_reverse, String.ofList_toList]
  intro char member
  exact solid char (List.mem_reverse.mp member)

theorem strip_of_isBlank {text : String} (blank : isBlank text = true) : strip text = "" := by
  have nothing : stripFront text.toList = [] := by
    rw [stripFront, List.dropWhile_eq_nil_iff]
    exact List.all_eq_true.mp blank
  rw [strip, nothing]
  rfl

/-- What is left in front of trailing white space begins as the text does. -/
theorem stripFront_rdropWhile {chars : List Char} (front : stripFront chars = chars) :
    stripFront (chars.rdropWhile isSpace) = chars.rdropWhile isSpace := by
  obtain ⟨spaces, whole⟩ := List.rdropWhile_prefix isSpace chars
  cases found : chars.rdropWhile isSpace with
  | nil => rfl
  | cons first rest =>
    rw [found, List.cons_append] at whole
    rw [← whole] at front
    have solid := List.dropWhile_eq_self_iff.mp front (Nat.succ_pos _)
    exact List.dropWhile_eq_self_iff.mpr fun _ => solid

theorem strip_eq (text : String) :
    strip text = String.ofList ((stripFront text.toList).rdropWhile isSpace) := rfl

theorem stripFront_stripFront (chars : List Char) : stripFront (stripFront chars) = stripFront chars :=
  List.dropWhile_idempotent isSpace chars

theorem strip_strip (text : String) : strip (strip text) = strip text := by
  rw [strip_eq (strip text), strip_eq, String.toList_ofList,
    stripFront_rdropWhile (stripFront_stripFront _), List.rdropWhile_idempotent]

/-- What is not blank stays so when it is stripped. -/
theorem isBlank_strip {text : String} (solid : isBlank text = false) : isBlank (strip text) = false := by
  by_contra blank
  have empty : strip text = "" := by
    rw [← strip_strip]
    exact strip_of_isBlank (by simpa using blank)
  rw [strip_eq, String.ofList_eq_empty_iff, List.rdropWhile_eq_nil_iff] at empty
  have nothing : stripFront text.toList = [] := by
    rw [← stripFront_stripFront]
    exact List.dropWhile_eq_nil_iff.mpr empty
  rw [isBlank, List.all_eq_true.mpr (List.dropWhile_eq_nil_iff.mp nothing)] at solid
  cases solid

/-- `str.casefold` of one character, as far as it reaches ASCII letters. -/
def foldChar (char : Char) : List Char :=
  match char with
  | 'ß' | 'ẞ' => ['s', 's']
  | 'ſ' => ['s']
  | '\u212a' => ['k']
  | 'ﬀ' => ['f', 'f']
  | 'ﬁ' => ['f', 'i']
  | 'ﬂ' => ['f', 'l']
  | 'ﬃ' => ['f', 'f', 'i']
  | 'ﬄ' => ['f', 'f', 'l']
  | 'ﬅ' | 'ﬆ' => ['s', 't']
  | _ => [char.toLower]

def casefold (text : String) : String := String.ofList (text.toList.flatMap foldChar)

def hexDigit (digit : ℕ) : Char := "0123456789abcdef".toList.getD digit '0'

/-- A character inside a JSON string literal that keeps non-ASCII text. -/
def escapeChar (char : Char) : List Char :=
  if char = '"' then ['\\', '"']
  else if char = '\\' then ['\\', '\\']
  else if char = '\n' then ['\\', 'n']
  else if char = '\r' then ['\\', 'r']
  else if char = '\t' then ['\\', 't']
  else if char.val.toNat = 8 then ['\\', 'b']
  else if char.val.toNat = 12 then ['\\', 'f']
  else if char.val.toNat < 32 then
    ['\\', 'u', '0', '0', hexDigit (char.val.toNat / 16), hexDigit (char.val.toNat % 16)]
  else [char]

/-- `json.dumps` of a string, without escapes for non-ASCII text. -/
def quote (text : String) : String :=
  String.ofList ('"' :: (text.toList.flatMap escapeChar ++ ['"']))

end Text

end MetaResearch

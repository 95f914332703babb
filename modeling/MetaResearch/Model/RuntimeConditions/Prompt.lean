import MetaResearch.ToMathlib.Check
import MetaResearch.ToMathlib.PyText

/-! # Prompts that carry runtime conditions

The conditions stand before the prompt, under a header with their length. Which code points are decimal
digits, and of what value, is a parameter: only the ASCII digits are fixed.
-/

namespace MetaResearch.RuntimeConditions

/-- The decimal digits of Unicode. -/
structure Decimals where
  value : Point → Option ℕ
  ascii : ∀ digit < 10, value (.char (Nat.digitChar digit)) = some digit

namespace Decimals

variable (decimals : Decimals)

/-- `str.isdecimal` -/
def isDecimal (text : PyText) : Bool := !text.isEmpty && text.all fun point => (decimals.value point).isSome

/-- The number that decimal digits write. -/
def number (text : PyText) : ℕ :=
  text.foldl (fun total point => 10 * total + (decimals.value point).getD 0) 0

end Decimals

/-- `sys.get_int_max_str_digits()` -/
def intMaxDigits : ℕ := 4300

inductive PromptError where
  /-- `runtime_conditions_prompt_invalid` -/
  | invalid
  /-- `int` refuses a text of so many digits. -/
  | tooManyDigits
deriving DecidableEq, Repr

def conditionsPrefix : PyText :=
  PyText.ofString "[meta-research runtime conditions v1; characters="

/-- `str` of a natural number. -/
def decimal (number : ℕ) : PyText := (Nat.toDigits 10 number).map Point.char

def newline : Point := .char '\n'

/-- `compose_runtime_prompt` -/
def composeRuntimePrompt (prompt conditions : PyText) : PyText :=
  if conditions.isEmpty then prompt
  else conditionsPrefix ++ decimal conditions.length ++ PyText.ofString "]\n" ++ conditions ++
    [newline, newline] ++ prompt

/-- `split_runtime_prompt` -/
def splitRuntimePrompt (decimals : Decimals) (prompt : PyText) : Except PromptError (PyText × PyText) :=
  if !conditionsPrefix.isPrefixOf prompt then .ok ([], prompt)
  else do
    let header := prompt.takeWhile (· ≠ newline)
    let rest := prompt.dropWhile (· ≠ newline)
    let lengthText := (header.drop conditionsPrefix.length).dropLast
    require (!rest.isEmpty && header.getLast? = some (.char ']') && decimals.isDecimal lengthText) .invalid
    require (lengthText.length ≤ intMaxDigits) .tooManyDigits
    let length := decimals.number lengthText
    let body := rest.drop 1
    require (1 ≤ length && (body.drop length).take 2 = [newline, newline]) .invalid
    pure (body.take length, body.drop (length + 2))

end MetaResearch.RuntimeConditions

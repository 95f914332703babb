import MetaResearch.ToMathlib.JsonDecode

/-! # The answer in a partial text

`_answer_text` and `_string_prefix` of the live preview. A text is read from where the cursor is. The decimal digits
of other scripts, which `int` reads as well, are a parameter.
-/

namespace MetaResearch.ChatProgress

open JsonDecode (Limits Hooks after escapes hexDigit? joined pointOf rawDecode)

/-- `CHAT_REPLY_MAX_LENGTH` -/
def chatReplyMaxLength : ℕ := 12000

section

variable (decimal : Char → Option (Fin 10))

/-! ### `int(text, 16)` -/

def digit16 (point : Point) : Option ℕ :=
  match hexDigit? point with
  | some digit => some digit
  | none => match point with
    | .char value => (decimal value).map Fin.val
    | .surrogate _ => none

/-- More digits of a number, with single underscores between them. -/
def moreDigits (value : ℕ) : PyText → Option ℕ
  | [] => some value
  | [last] => (digit16 decimal last).map fun digit => 16 * value + digit
  | first :: second :: rest =>
    if first = .char '_' then (digit16 decimal second).bind fun digit => moreDigits (16 * value + digit) rest
    else (digit16 decimal first).bind fun digit => moreDigits (16 * value + digit) (second :: rest)

def unsigned16 : PyText → Option ℕ
  | [] => none
  | first :: rest => (digit16 decimal first).bind fun digit => moreDigits decimal digit rest

/-- A number without its base, which may be written before it. -/
def unprefixed : PyText → PyText
  | first :: second :: rest =>
    if first = .char '0' ∧ (second = .char 'x' ∨ second = .char 'X') then
      if rest.head? = some (.char '_') then rest.drop 1 else rest
    else first :: second :: rest
  | text => text

def int16 (text : PyText) : Option ℤ :=
  match PyText.strip text with
  | [] => none
  | first :: rest =>
    if first = .char '-' then (unsigned16 decimal (unprefixed rest)).map fun value => -(value : ℤ)
    else if first = .char '+' then (unsigned16 decimal (unprefixed rest)).map Int.ofNat
    else (unsigned16 decimal (unprefixed (first :: rest))).map Int.ofNat

/-! ### `_string_prefix` -/

/-- `source[cursor + 2:cursor + 6]` as a number, if the source is long enough. -/
def unitAt (source : PyText) : Option ℤ :=
  if source.length < 6 then none else int16 decimal ((source.drop 2).take 4)

/-- The low surrogate that an escape at the cursor writes. -/
def lowAt (source : PyText) : Option ℕ :=
  if source.take 2 = [.char '\\', .char 'u'] then
    (unitAt decimal source).bind fun low => if 0xDC00 ≤ low ∧ low ≤ 0xDFFF then some low.toNat else none
  else none

/-- One turn of the loop: the code point that is appended, with the code points it takes; or none at a break. -/
def shownPoint (source : PyText) : Except String (Option (Point × ℕ)) :=
  match source with
  | [] => .ok none
  | char :: rest =>
    if char = .char '"' then .ok none
    else if char ≠ .char '\\' then
      if char.code < 32 || char.isSurrogate then .ok none else .ok (some (char, 1))
    else match rest.head? with
      | none => .ok none
      | some escaped =>
        match escapes.lookup escaped with
        | some value => .ok (some (value, 2))
        | none =>
          if escaped ≠ .char 'u' then .ok none
          else match unitAt decimal source with
            | none => .ok none
            | some point =>
              if 0xD800 ≤ point ∧ point ≤ 0xDBFF then
                .ok ((lowAt decimal (source.drop 6)).map fun low => (joined point.toNat low, 12))
              else if 0xDC00 ≤ point ∧ point ≤ 0xDFFF then .ok none
              else if point < 0 then .error "ValueError: chr() arg not in range(0x110000)"
              else .ok (some (pointOf point.toNat, 6))

/-- The loop, with the number of code points that may still be appended and of those that are passed over. -/
def prefixFrom : ℕ → ℕ → PyText → Except String PyText
  | _, _, [] => .ok []
  | left, skip + 1, _ :: rest => prefixFrom left skip rest
  | 0, 0, _ :: _ => .ok []
  | left + 1, 0, char :: rest =>
    match shownPoint decimal (char :: rest) with
    | .error error => .error error
    | .ok none => .ok []
    | .ok (some (value, width)) => (prefixFrom left (width - 1) rest).map (value :: ·)

/-- `_string_prefix` -/
def stringPrefix (source : PyText) : Except String PyText :=
  match after '"' source with
  | none => .ok []
  | some rest => prefixFrom decimal chatReplyMaxLength 0 rest

/-! ### `_answer_text` -/

/-- `str.lower`, as far as it reaches ASCII letters. -/
def lower (text : PyText) : PyText :=
  text.map fun point => match point with
    | .char value => .char value.toLower
    | .surrogate unit => .surrogate unit

def startsWith (text : PyText) (start : String) : Bool := (PyText.ofString start).isPrefixOf text

/-- `source.startswith(("{", "["))` -/
def startsContainer (source : PyText) : Bool := startsWith source "\x7b" || startsWith source "["

/-- The source without the opening of a fenced block. -/
def unfence (source : PyText) : PyText :=
  if startsWith source "```" then
    let opening := source.takeWhile fun point => point ≠ .char '\n'
    let behind := source.dropWhile fun point => point ≠ .char '\n'
    let body := PyText.lstrip (behind.drop 1)
    if lower (PyText.strip opening) = PyText.ofString "```json" then
      if behind = [] then PyText.ofString "\x7b" else body
    else if PyText.strip opening = PyText.ofString "```" ∧ startsContainer body then body
    else source
  else source

variable {F : Type} (limits : Limits) (float : PyText → F)

/-- The walk over the properties, from where one is expected, with fuel for the source. -/
def walk : ℕ → PyText → Except String PyText
  | 0, _ => .ok []
  | fuel + 1, source =>
    match rawDecode limits (.plain float) (PyText.lstrip source) with
    | .ok (.text key, rest) =>
      match after ':' (PyText.lstrip rest) with
      | none => .ok []
      | some rest =>
        if key = PyText.ofString "reply" then stringPrefix decimal (PyText.lstrip rest)
        else match rawDecode limits (.plain float) (PyText.lstrip rest) with
          | .error _ => .ok []
          | .ok (_, rest) =>
            match after ',' (PyText.lstrip rest) with
            | none => .ok []
            | some rest => walk fuel rest
    | _ => .ok []

/-- `_answer_text` -/
def answerText (text : PyText) : Except String (Bool × PyText) :=
  let source := unfence (PyText.lstrip text)
  if !startsContainer source then .ok (false, text.take chatReplyMaxLength)
  else match after '\x7b' source with
    | none => .ok (true, [])
    | some rest => (walk decimal limits float rest.length rest).map fun answer => (true, answer)

end

end MetaResearch.ChatProgress

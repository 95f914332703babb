import MetaResearch.ToMathlib.Dict
import MetaResearch.ToMathlib.PyText

/-! # Decoding JSON text

`json.loads` and `raw_decode`, with the hooks for floats, constants and objects. The numbers of nested containers
and of digits of an integer that Python admits are parameters.
-/

namespace MetaResearch

/-- A JSON value, with texts that may have surrogates and floats of any type. -/
inductive PyJson (F : Type) where
  | null
  | bool (value : Bool)
  | integer (value : ℤ)
  | float (value : F)
  | text (value : PyText)
  | array (items : List (PyJson F))
  | object (fields : List (PyText × PyJson F))

namespace JsonDecode

/-- A `JSONDecodeError`, another `ValueError`, or a `RecursionError`. -/
inductive Failure where
  | malformed
  | value
  | recursion
  deriving DecidableEq

/-- What an interpreter admits. -/
structure Limits where
  depth : ℕ
  digits : ℕ

/-- The hooks of a decoder; what a hook has no result for is a `ValueError`. -/
structure Hooks (F : Type) where
  float : PyText → Option F
  constant : String → Option F
  pairs : List (PyText × PyJson F) → Option (List (PyText × PyJson F))

/-- The dictionary of some pairs: the last value of a key, at the place of the first. -/
def dict {F : Type} (pairs : List (PyText × PyJson F)) : List (PyText × PyJson F) :=
  pairs.foldl (fun fields pair => Dict.set pair.1 pair.2 fields) []

/-- Without hooks, but for the floats. -/
def Hooks.plain {F : Type} (float : PyText → F) : Hooks F where
  float literal := some (float literal)
  constant name := some (float (PyText.ofString name))
  pairs pairs := some (dict pairs)

/-! ### Strings -/

def hexDigit? : Point → Option ℕ
  | .char value =>
    if value.isDigit then some (value.toNat - '0'.toNat)
    else if 'a' ≤ value && value ≤ 'f' then some (value.toNat - 'a'.toNat + 10)
    else if 'A' ≤ value && value ≤ 'F' then some (value.toNat - 'A'.toNat + 10)
    else none
  | .surrogate _ => none

/-- The number that four digits at the beginning of a text write. -/
def hexUnit? : PyText → Option ℕ
  | first :: second :: third :: fourth :: _ => do
    let first ← hexDigit? first
    let second ← hexDigit? second
    let third ← hexDigit? third
    let fourth ← hexDigit? fourth
    pure (((first * 16 + second) * 16 + third) * 16 + fourth)
  | _ => none

def isHigh (unit : ℕ) : Bool := 0xD800 ≤ unit && unit ≤ 0xDBFF

def isLow (unit : ℕ) : Bool := 0xDC00 ≤ unit && unit ≤ 0xDFFF

/-- `chr` -/
def pointOf (code : ℕ) : Point :=
  if surrogate : 0xD800 ≤ code ∧ code ≤ 0xDFFF then .surrogate ⟨code - 0xD800, by omega⟩ else .char (Char.ofNat code)

def joined (high low : ℕ) : Point := pointOf (0x10000 + (high - 0xD800) * 1024 + (low - 0xDC00))

/-- The letters behind a backslash, with what they stand for. -/
def escapes : List (Point × Point) :=
  [('"', '"'), ('\\', '\\'), ('/', '/'), ('b', '\x08'), ('f', '\x0c'), ('n', '\n'), ('r', '\r'), ('t', '\t')].map
    fun pair => (.char pair.1, .char pair.2)

/-- What a string has next: its end, or a code point that some code points of the text write. -/
inductive Element where
  | quote
  | point (value : Point) (width : ℕ)
  deriving DecidableEq

/-- The unit of an escape `\uXXXX` at the beginning of a text. -/
def unitEscape? : PyText → Option ℕ
  | first :: second :: digits =>
    if first = .char '\\' ∧ second = .char 'u' then hexUnit? digits else none
  | _ => none

def element (text : PyText) : Except Failure Element :=
  match text with
  | [] => .error .malformed
  | first :: rest =>
    if first = .char '"' then .ok .quote
    else if first ≠ .char '\\' then if first.code < 32 then .error .malformed else .ok (.point first 1)
    else match rest.head?.bind fun letter => escapes.lookup letter with
      | some value => .ok (.point value 2)
      | none =>
        match unitEscape? text with
        | none => .error .malformed
        | some unit =>
          match unitEscape? (text.drop 6) with
          | some low => if isHigh unit && isLow low then .ok (.point (joined unit low) 12) else .ok (.point (pointOf unit) 6)
          | none => .ok (.point (pointOf unit) 6)

/-- `scanstring`: the text up to the quotation mark, and what follows it. Some code points are passed over first. -/
def scanString : ℕ → PyText → Except Failure (PyText × PyText)
  | _, [] => .error .malformed
  | skip + 1, _ :: rest => scanString skip rest
  | 0, first :: rest =>
    match element (first :: rest) with
    | .error failure => .error failure
    | .ok .quote => .ok ([], rest)
    | .ok (.point value width) => (scanString (width - 1) rest).map fun found => (value :: found.1, found.2)

/-! ### Numbers -/

/-- The digits at the beginning of a text, and what follows them. -/
def spanDigits (text : PyText) : PyText × PyText := (text.takeWhile Point.isDigit, text.dropWhile Point.isDigit)

/-- An integer part: a zero, or digits that do not begin with one. -/
def integerPart? : PyText → Option (PyText × PyText)
  | [] => none
  | first :: rest =>
    if first = .char '0' then some ([first], rest)
    else if first.isDigit then some (first :: (spanDigits rest).1, (spanDigits rest).2)
    else none

/-- A mark with the digits behind it, if there are digits. -/
def marked (mark : PyText) (text : PyText) : Option (PyText × PyText) :=
  if (spanDigits text).1 = [] then none else some (mark ++ (spanDigits text).1, (spanDigits text).2)

def fraction? : PyText → Option (PyText × PyText)
  | [] => none
  | first :: rest => if first = .char '.' then marked [first] rest else none

/-- The digits of an exponent, with or without a sign. -/
def power? (mark : Point) : PyText → Option (PyText × PyText)
  | [] => none
  | sign :: digits =>
    if sign = .char '+' || sign = .char '-' then marked [mark, sign] digits else marked [mark] (sign :: digits)

def exponent? : PyText → Option (PyText × PyText)
  | [] => none
  | first :: rest => if first = .char 'e' || first = .char 'E' then power? first rest else none

/-- The literal of a number, whether it is a float, and what follows it. -/
structure Number where
  sign : PyText
  whole : PyText
  tail : PyText
  rest : PyText
  deriving DecidableEq

def Number.literal (number : Number) : PyText := number.sign ++ number.whole ++ number.tail

def unsigned? (sign text : PyText) : Option Number :=
  (integerPart? text).map fun (whole, rest) =>
    let (fraction, rest) := (fraction? rest).getD ([], rest)
    let (exponent, rest) := (exponent? rest).getD ([], rest)
    ⟨sign, whole, fraction ++ exponent, rest⟩

def number? : PyText → Option Number
  | [] => none
  | first :: rest => if first = .char '-' then unsigned? [first] rest else unsigned? [] (first :: rest)

def digitsValue (digits : PyText) : ℕ :=
  digits.foldl (fun value digit => 10 * value + (digit.code - '0'.toNat)) 0

/-- `int` -/
def Number.integer (number : Number) : ℤ :=
  if number.sign = [] then digitsValue number.whole else -digitsValue number.whole

/-! ### Values -/

section

variable {F : Type} (limits : Limits) (hooks : Hooks F)

/-- The words that are values. -/
def words : List (String × Option (PyJson F)) :=
  [("null", some .null), ("true", some (.bool true)), ("false", some (.bool false))] ++
    ["NaN", "Infinity", "-Infinity"].map fun name => (name, (hooks.constant name).map .float)

def convert (number : Number) : Except Failure (PyJson F) :=
  if number.tail = [] then
    if limits.digits < number.whole.length then .error .value else .ok (.integer number.integer)
  else match hooks.float number.literal with
    | some value => .ok (.float value)
    | none => .error .value

/-- A word or a number. -/
def scanAtom (text : PyText) : Except Failure (PyJson F × PyText) :=
  match (words hooks).find? fun word => (PyText.ofString word.1).isPrefixOf text with
  | some (_, none) => .error .value
  | some (name, some value) => .ok (value, text.drop name.length)
  | none =>
    match number? text with
    | none => .error .malformed
    | some number => (convert limits hooks number).map fun value => (value, number.rest)

def isJsonSpace : Point → Bool
  | .char value => value = ' ' || value = '\t' || value = '\n' || value = '\r'
  | .surrogate _ => false

def skipSpace (text : PyText) : PyText := text.dropWhile isJsonSpace

/-- What follows a mark at the beginning of a text. -/
def after (mark : Char) : PyText → Option PyText
  | [] => none
  | first :: rest => if first = .char mark then some rest else none

/-- What the hook for the pairs of an object makes of them. -/
def objectOf (pairs : List (PyText × PyJson F)) (rest : PyText) : Except Failure (PyJson F × PyText) :=
  match hooks.pairs pairs with
  | some fields => .ok (.object fields, rest)
  | none => .error .value

mutual

/-- `scan_once`, with the number of containers that may still be opened, and fuel for the text. -/
def scanValue : ℕ → ℕ → PyText → Except Failure (PyJson F × PyText)
  | 0, _, _ => .error .malformed
  | _ + 1, _, [] => scanAtom limits hooks []
  | fuel + 1, depth, first :: inner =>
    if first = .char '"' then (scanString 0 inner).map fun (value, rest) => (.text value, rest)
    else if first = .char '\x7b' then
      if depth = 0 then .error .recursion
      else match after '\x7d' (skipSpace inner) with
        | some rest => objectOf hooks [] rest
        | none => do
          let (pairs, rest) ← scanMembers fuel (depth - 1) (skipSpace inner)
          objectOf hooks pairs rest
    else if first = .char '[' then
      if depth = 0 then .error .recursion
      else match after ']' (skipSpace inner) with
        | some rest => .ok (.array [], rest)
        | none => do
          let (items, rest) ← scanItems fuel (depth - 1) (skipSpace inner)
          .ok (.array items, rest)
    else scanAtom limits hooks (first :: inner)

/-- The items of an array, and what follows its bracket. -/
def scanItems : ℕ → ℕ → PyText → Except Failure (List (PyJson F) × PyText)
  | 0, _, _ => .error .malformed
  | fuel + 1, depth, text => do
    let (item, rest) ← scanValue fuel depth text
    match after ']' (skipSpace rest), after ',' (skipSpace rest) with
    | some rest, _ => .ok ([item], rest)
    | none, some rest => do
      let (items, rest) ← scanItems fuel depth (skipSpace rest)
      .ok (item :: items, rest)
    | none, none => .error .malformed

/-- The pairs of an object, and what follows its brace. -/
def scanMembers : ℕ → ℕ → PyText → Except Failure (List (PyText × PyJson F) × PyText)
  | 0, _, _ => .error .malformed
  | fuel + 1, depth, text =>
    match after '"' text with
    | none => .error .malformed
    | some rest => do
      let (name, rest) ← scanString 0 rest
      match after ':' (skipSpace rest) with
      | none => .error .malformed
      | some rest => do
        let (value, rest) ← scanValue fuel depth (skipSpace rest)
        match after '\x7d' (skipSpace rest), after ',' (skipSpace rest) with
        | some rest, _ => .ok ([(name, value)], rest)
        | none, some rest => do
          let (pairs, rest) ← scanMembers fuel depth (skipSpace rest)
          .ok ((name, value) :: pairs, rest)
        | none, none => .error .malformed

end

/-- `raw_decode`: the value at the beginning of a text, and what follows it. -/
def rawDecode (text : PyText) : Except Failure (PyJson F × PyText) :=
  scanValue limits hooks (2 * text.length + 1) limits.depth text

/-- `json.loads` of a text -/
def loads (text : PyText) : Except Failure (PyJson F) :=
  if text.head? = some (.char '\ufeff') then .error .malformed
  else do
    let (value, rest) ← rawDecode limits hooks (skipSpace text)
    if skipSpace rest = [] then .ok value else .error .malformed

/-- `json.loads` of the text of an object, with the pairs of that object before they are made a dictionary. -/
def loadsPairs (text : PyText) : Except Failure (List (PyText × PyJson F)) :=
  match after '\x7b' (skipSpace text) with
  | none => .error .malformed
  | some inner =>
    if limits.depth = 0 then .error .recursion
    else match after '\x7d' (skipSpace inner) with
      | some rest => if skipSpace rest = [] then .ok [] else .error .malformed
      | none => do
        let (pairs, rest) ← scanMembers limits hooks (2 * text.length + 1) (limits.depth - 1) (skipSpace inner)
        if skipSpace rest = [] then .ok pairs else .error .malformed

end

end JsonDecode

end MetaResearch

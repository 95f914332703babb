import Mathlib.Data.List.Induction
import MetaResearch.ToMathlib.Check

/-! # Reading JSON text character by character

What `json.loads` accepts, and the message and the position of the error where it does not. A text is read in
one pass: what has been read so far is a stack of open containers and what is expected next. The end of the
text is an error unless one value is complete.
-/

namespace MetaResearch

namespace JsonScan

/-- What an error says. -/
inductive Message where
  | value
  | name
  | colon
  | comma
  | unterminated
  | control
  | escape
  | unicodeEscape
  | extraData
  | byteOrderMark
  deriving DecidableEq

def Message.text : Message → String
  | .value => "Expecting value"
  | .name => "Expecting property name enclosed in double quotes"
  | .colon => "Expecting ':' delimiter"
  | .comma => "Expecting ',' delimiter"
  | .unterminated => "Unterminated string starting at"
  | .control => "Invalid control character at"
  | .escape => "Invalid \\escape"
  | .unicodeEscape => "Invalid \\uXXXX escape"
  | .extraData => "Extra data"
  | .byteOrderMark => "Unexpected UTF-8 BOM (decode using utf-8-sig)"

/-- An error, with its position in the text. -/
structure Failure where
  message : Message
  position : ℕ
  deriving DecidableEq

inductive Container where
  | array
  | object
  deriving DecidableEq

/-- Where a string is read: in its text, behind a backslash, or behind some of the digits of a code. -/
inductive StringMode where
  | plain
  | escape
  | digits (count : ℕ)
  deriving DecidableEq

/-- What a number was last read as. -/
inductive NumberMode where
  | minus
  | zero
  | digits
  | point
  | fraction
  | exponent
  | sign
  | power
  deriving DecidableEq

/-- What is expected next. The first value of an array and the first name of an object may be missing. -/
inductive Mode where
  | value (first : Bool)
  | name (first : Bool)
  | colon
  | after
  | string (isName : Bool) (start : ℕ) (mode : StringMode)
  | literal (typed left : List Char)
  | number (mode : NumberMode)
  deriving DecidableEq

structure State where
  stack : List Container
  mode : Mode
  deriving DecidableEq

def isJsonSpace (char : Char) : Bool := char = ' ' || char = '\t' || char = '\n' || char = '\r'

def isHex (char : Char) : Bool :=
  char.isDigit || ('a' ≤ char && char ≤ 'f') || ('A' ≤ char && char ≤ 'F')

/-- The letters that may follow a backslash, the one of a code apart. -/
def isEscape (char : Char) : Bool := "\"\\/bfnrt".toList.contains char

def isExponent (char : Char) : Bool := char = 'e' || char = 'E'

/-- The constants that no other one begins. -/
def literals : List (List Char) :=
  ["null".toList, "true".toList, "false".toList, "NaN".toList, "Infinity".toList]

variable (index : ℕ) (stack : List Container)

/-- A value that ends before the text of a number does. -/
def ended (position : ℕ) : Except Failure State :=
  .error ⟨if stack.isEmpty then .extraData else .comma, position⟩

def closing : Container → Char
  | .array => ']'
  | .object => '\x7d'

/-- What follows a comma. -/
def another : Container → Mode
  | .array => .value false
  | .object => .name false

def stepAfter (char : Char) : Except Failure State :=
  if isJsonSpace char then .ok ⟨stack, .after⟩
  else match stack with
    | [] => .error ⟨.extraData, index⟩
    | container :: outer =>
      if char = closing container then .ok ⟨outer, .after⟩
      else if char = ',' then .ok ⟨stack, another container⟩
      else .error ⟨.comma, index⟩

def stepValue (first : Bool) (char : Char) : Except Failure State :=
  if isJsonSpace char then .ok ⟨stack, .value first⟩
  else if first && char = ']' then .ok ⟨stack.tail, .after⟩
  else if char = '"' then .ok ⟨stack, .string false index .plain⟩
  else if char = '\x7b' then .ok ⟨.object :: stack, .name true⟩
  else if char = '[' then .ok ⟨.array :: stack, .value true⟩
  else if char = '-' then .ok ⟨stack, .number .minus⟩
  else if char = '0' then .ok ⟨stack, .number .zero⟩
  else if char.isDigit then .ok ⟨stack, .number .digits⟩
  else match literals.find? (·.head? = some char) with
    | some literal => .ok ⟨stack, .literal [char] literal.tail⟩
    | none => .error ⟨.value, index⟩

def stepName (first : Bool) (char : Char) : Except Failure State :=
  if isJsonSpace char then .ok ⟨stack, .name first⟩
  else if first && char = '\x7d' then .ok ⟨stack.tail, .after⟩
  else if char = '"' then .ok ⟨stack, .string true index .plain⟩
  else .error ⟨.name, index⟩

def stepColon (char : Char) : Except Failure State :=
  if isJsonSpace char then .ok ⟨stack, .colon⟩
  else if char = ':' then .ok ⟨stack, .value false⟩
  else .error ⟨.colon, index⟩

def stepPlain (isName : Bool) (start : ℕ) (char : Char) : Except Failure State :=
  if char = '"' then .ok ⟨stack, if isName then .colon else .after⟩
  else if char = '\\' then .ok ⟨stack, .string isName start .escape⟩
  else if char.val.toNat < 0x20 then .error ⟨.control, index⟩
  else .ok ⟨stack, .string isName start .plain⟩

/-- A pair of codes for one character is read like two codes. -/
def stepString (isName : Bool) (start : ℕ) (char : Char) : StringMode → Except Failure State
  | .plain => stepPlain index stack isName start char
  | .escape =>
    if char = 'u' then .ok ⟨stack, .string isName start (.digits 0)⟩
    else if isEscape char then .ok ⟨stack, .string isName start .plain⟩
    else .error ⟨.escape, index - 1⟩
  | .digits count =>
    if count = 4 then stepPlain index stack isName start char
    else if isHex char then .ok ⟨stack, .string isName start (.digits (count + 1))⟩
    else .error ⟨.unicodeEscape, index - 1 - count⟩

def stepLiteral (typed left : List Char) (char : Char) : Except Failure State :=
  if left.head? = some char then
    .ok ⟨stack, if left.tail.isEmpty then .after else .literal (typed ++ [char]) left.tail⟩
  else .error ⟨.value, index - typed.length⟩

def stepNumber (char : Char) : NumberMode → Except Failure State
  | .minus =>
    if char = '0' then .ok ⟨stack, .number .zero⟩
    else if char.isDigit then .ok ⟨stack, .number .digits⟩
    else if char = 'I' then .ok ⟨stack, .literal ['-', 'I'] "nfinity".toList⟩
    else .error ⟨.value, index - 1⟩
  | .zero =>
    if char = '.' then .ok ⟨stack, .number .point⟩
    else if isExponent char then .ok ⟨stack, .number .exponent⟩
    else stepAfter index stack char
  | .digits =>
    if char.isDigit then .ok ⟨stack, .number .digits⟩
    else if char = '.' then .ok ⟨stack, .number .point⟩
    else if isExponent char then .ok ⟨stack, .number .exponent⟩
    else stepAfter index stack char
  | .point => if char.isDigit then .ok ⟨stack, .number .fraction⟩ else ended stack (index - 1)
  | .fraction =>
    if char.isDigit then .ok ⟨stack, .number .fraction⟩
    else if isExponent char then .ok ⟨stack, .number .exponent⟩
    else stepAfter index stack char
  | .exponent =>
    if char.isDigit then .ok ⟨stack, .number .power⟩
    else if char = '+' || char = '-' then .ok ⟨stack, .number .sign⟩
    else ended stack (index - 1)
  | .sign => if char.isDigit then .ok ⟨stack, .number .power⟩ else ended stack (index - 2)
  | .power => if char.isDigit then .ok ⟨stack, .number .power⟩ else stepAfter index stack char

/-- Read a character at its index. -/
def step (state : State) (char : Char) : Except Failure State :=
  match state.mode with
  | .value first => stepValue index state.stack first char
  | .name first => stepName index state.stack first char
  | .colon => stepColon index state.stack char
  | .after => stepAfter index state.stack char
  | .string isName start mode => stepString index state.stack isName start char mode
  | .literal typed left => stepLiteral index state.stack typed left char
  | .number mode => stepNumber index state.stack char mode

/-- Read characters from an index on. -/
def run (index : ℕ) (state : State) : List Char → Except Failure State
  | [] => .ok state
  | char :: rest => step index state char >>= fun next => run (index + 1) next rest

/-- The end of a text after a value. -/
def finishAfter (length : ℕ) (stack : List Container) : Except Failure Unit :=
  require stack.isEmpty ⟨.comma, length⟩

/-- The end of a text of some length. -/
def finish (length : ℕ) (state : State) : Except Failure Unit :=
  match state.mode with
  | .value _ => .error ⟨.value, length⟩
  | .name _ => .error ⟨.name, length⟩
  | .colon => .error ⟨.colon, length⟩
  | .after => finishAfter length state.stack
  | .string _ _ (.digits count) => .error ⟨.unicodeEscape, length - 1 - count⟩
  | .string _ start _ => .error ⟨.unterminated, start⟩
  | .literal typed _ => .error ⟨.value, length - typed.length⟩
  | .number .minus => .error ⟨.value, length - 1⟩
  | .number .point => (ended state.stack (length - 1)).map fun _ => ()
  | .number .exponent => (ended state.stack (length - 1)).map fun _ => ()
  | .number .sign => (ended state.stack (length - 2)).map fun _ => ()
  | .number _ => finishAfter length state.stack

/-- The state before a text is read. -/
def start : State := ⟨[], .value false⟩

/-- `json.loads`, as far as it accepts a text or tells why not. -/
def loads (text : List Char) : Except Failure Unit := do
  require (text.head? ≠ some '\ufeff') ⟨.byteOrderMark, 0⟩
  let state ← run 0 start text
  finish text.length state

example : loads "\x7b\"a\\u00e9\": [-1.5e+3, NaN, \x7b\x7d]\x7d ".toList = .ok () := by decide +kernel
example : loads "\x7b\"a\":1.,".toList = .error ⟨.comma, 6⟩ := by decide +kernel
example : loads "[true fals".toList = .error ⟨.comma, 6⟩ := by decide +kernel

/-! ### Runs -/

variable {index : ℕ} {stack : List Container} {state next : State} {front back : List Char} {char : Char}

theorem run_append :
    run index state (front ++ back) = run index state front >>= fun next => run (index + front.length) next back := by
  induction front generalizing index state with
  | nil => rfl
  | cons char rest ih =>
    rw [List.cons_append, run, run]
    cases step index state char with
    | error _ => rfl
    | ok next =>
      change run (index + 1) next (rest ++ back) = run (index + 1) next rest >>= _
      rw [ih, List.length_cons, Nat.add_assoc, Nat.add_comm 1]

/-- A text that is accepted is read to the end of each of its beginnings. -/
theorem exists_run_of_loads (accepted : loads (front ++ back) = .ok ()) :
    ∃ state, run 0 start front = .ok state := by
  obtain ⟨-, accepted⟩ := check_then_eq_ok_iff.mp accepted
  obtain ⟨state, read, -⟩ := bind_eq_ok_iff.mp accepted
  rw [run_append] at read
  obtain ⟨reached, here, -⟩ := bind_eq_ok_iff.mp read
  exact ⟨reached, here⟩

/-- The beginning of an accepted text ends where it is cut off. -/
theorem loads_beginning (accepted : loads (front ++ back) = .ok ()) (read : run 0 start front = .ok state) :
    loads front = finish front.length state := by
  obtain ⟨marked, -⟩ := check_then_eq_ok_iff.mp accepted
  have unmarked : require (decide (front.head? ≠ some '\ufeff')) (⟨.byteOrderMark, 0⟩ : Failure) = .ok () := by
    rw [require_eq_ok_iff] at marked ⊢
    cases front with
    | nil => rfl
    | cons char rest => exact marked
  rw [loads, unmarked, read]
  rfl

/-! ### Constants -/

/-- What was typed of a constant is the end of the text; the sign of an infinity is not looked at. -/
def Typed (front : List Char) : Mode → Prop
  | .literal typed left =>
    typed.head? = some '-' ∨ typed <:+ front ∧ typed ≠ [] ∧ left ≠ [] ∧ typed ++ left ∈ literals
  | _ => True

theorem typed_stepAfter (stepped : stepAfter index stack char = .ok next) : Typed front next.mode := by
  cases stack with
  | nil =>
    unfold stepAfter at stepped
    split_ifs at stepped
    cases stepped
    trivial
  | cons container outer =>
    unfold stepAfter at stepped
    dsimp only at stepped
    split_ifs at stepped <;> cases stepped
    · trivial
    · trivial
    · cases container <;> trivial

theorem typed_stepValue {first : Bool} (stepped : stepValue index stack first char = .ok next) :
    Typed (front ++ [char]) next.mode := by
  unfold stepValue at stepped
  repeat' split at stepped
  all_goals cases stepped
  any_goals trivial
  rename_i literal found
  have listed := List.mem_of_find?_eq_some found
  have begins := List.find?_some found
  rw [decide_eq_true_eq] at begins
  have whole : [char] ++ literal.tail = literal := by
    cases literal with
    | nil => cases begins
    | cons first rest =>
      obtain rfl := Option.some.inj begins
      rfl
  refine .inr ⟨List.suffix_append _ _, List.cons_ne_nil _ _, ?_, whole.symm ▸ listed⟩
  have long : ∀ literal ∈ literals, literal.tail ≠ [] := by decide
  exact long literal listed

theorem typed_stepPlain {isName : Bool} {begin : ℕ}
    (stepped : stepPlain index stack isName begin char = .ok next) : Typed front next.mode := by
  unfold stepPlain at stepped
  split_ifs at stepped <;> cases stepped <;> trivial

theorem typed_stepString {isName : Bool} {begin : ℕ} {inside : StringMode}
    (stepped : stepString index stack isName begin char inside = .ok next) : Typed front next.mode := by
  cases inside with
  | plain => exact typed_stepPlain stepped
  | escape =>
    unfold stepString at stepped
    split_ifs at stepped <;> cases stepped <;> trivial
  | digits count =>
    unfold stepString at stepped
    dsimp only at stepped
    split_ifs at stepped
    · exact typed_stepPlain stepped
    · cases stepped
      trivial

theorem typed_stepLiteral {seen left : List Char} (typed : Typed front (.literal seen left))
    (stepped : stepLiteral index stack seen left char = .ok next) : Typed (front ++ [char]) next.mode := by
  unfold stepLiteral at stepped
  split_ifs at stepped with expected last
  · cases stepped
    trivial
  · cases stepped
    obtain ⟨first, rest, rfl⟩ : ∃ first rest, left = first :: rest := by
      cases left with
      | nil => cases expected
      | cons first rest => exact ⟨first, rest, rfl⟩
    obtain rfl := Option.some.inj expected
    rcases typed with sign | ⟨⟨before, rfl⟩, -, -, listed⟩
    · left
      cases seen with
      | nil => cases sign
      | cons first others => exact sign
    · refine .inr ⟨⟨before, by rw [List.append_assoc]⟩, by simp, by simpa using last, ?_⟩
      rwa [List.append_assoc]

theorem typed_stepNumber {number : NumberMode} (stepped : stepNumber index stack char number = .ok next) :
    Typed front next.mode := by
  unfold stepNumber at stepped
  cases number with
  | minus =>
    dsimp only at stepped
    split_ifs at stepped <;> cases stepped
    · trivial
    · trivial
    · exact .inl rfl
  | _ =>
    dsimp only [ended] at stepped
    split_ifs at stepped
    all_goals first | exact typed_stepAfter stepped | (cases stepped; trivial)

theorem typed_step (typed : Typed front state.mode) (stepped : step index state char = .ok next) :
    Typed (front ++ [char]) next.mode := by
  unfold step at stepped
  cases mode : state.mode with
  | value first =>
    rw [mode] at stepped
    exact typed_stepValue stepped
  | name first =>
    rw [mode] at stepped
    dsimp only [stepName] at stepped
    split_ifs at stepped <;> cases stepped <;> trivial
  | colon =>
    rw [mode] at stepped
    dsimp only [stepColon] at stepped
    split_ifs at stepped <;> cases stepped <;> trivial
  | after =>
    rw [mode] at stepped
    exact typed_stepAfter stepped
  | string isName begin inside =>
    rw [mode] at stepped
    exact typed_stepString stepped
  | literal seen left =>
    rw [mode] at stepped typed
    exact typed_stepLiteral typed stepped
  | number number =>
    rw [mode] at stepped
    exact typed_stepNumber stepped

theorem typed_run (read : run 0 start front = .ok state) : Typed front state.mode := by
  induction front using List.reverseRecOn generalizing state with
  | nil =>
    cases read
    trivial
  | append_singleton front char ih =>
    rw [run_append] at read
    obtain ⟨reached, here, last⟩ := bind_eq_ok_iff.mp read
    obtain ⟨next, stepped, done⟩ := bind_eq_ok_iff.mp last
    cases done
    exact typed_step (ih here) stepped

/-! ### Behind a complete value -/

theorem ascii_of_isJsonSpace (space : isJsonSpace char = true) : char.val.toNat < 128 := by
  simp only [isJsonSpace, Bool.or_eq_true, decide_eq_true_eq] at space
  rcases space with ((rfl | rfl) | rfl) | rfl <;> decide

theorem ascii_of_isDigit (digit : char.isDigit = true) : char.val.toNat < 128 := by
  rw [Char.isDigit, Bool.and_eq_true, decide_eq_true_eq, decide_eq_true_eq] at digit
  exact Nat.lt_of_le_of_lt (UInt32.le_iff_toNat_le.mp digit.2) (by decide)

theorem ascii_of_isExponent (exponent : isExponent char = true) : char.val.toNat < 128 := by
  simp only [isExponent, Bool.or_eq_true, decide_eq_true_eq] at exponent
  rcases exponent with rfl | rfl <;> decide

theorem ascii_of_stepAfter (stepped : stepAfter index [] char = .ok next) : char.val.toNat < 128 := by
  unfold stepAfter at stepped
  split_ifs at stepped with space
  exact ascii_of_isJsonSpace space

/-- Only an ASCII character can follow a complete value. -/
theorem ascii_of_step {length : ℕ} (finished : finish length state = .ok ())
    (stepped : step index state char = .ok next) : char.val.toNat < 128 := by
  obtain ⟨stack, mode⟩ := state
  have closed (ending : finishAfter length stack = .ok ()) : stack = [] := by
    rw [finishAfter, require_eq_ok_iff, List.isEmpty_iff] at ending
    exact ending
  cases mode with
  | after =>
    obtain rfl := closed finished
    exact ascii_of_stepAfter stepped
  | number number =>
    cases number with
    | minus => cases finished
    | point => cases finished
    | exponent => cases finished
    | sign => cases finished
    | zero =>
      obtain rfl := closed finished
      change stepNumber index [] char .zero = _ at stepped
      dsimp only [stepNumber] at stepped
      split_ifs at stepped with point exponent
      · rw [point]
        decide
      · exact ascii_of_isExponent exponent
      · exact ascii_of_stepAfter stepped
    | digits =>
      obtain rfl := closed finished
      change stepNumber index [] char .digits = _ at stepped
      dsimp only [stepNumber] at stepped
      split_ifs at stepped with digit point exponent
      · exact ascii_of_isDigit digit
      · rw [point]
        decide
      · exact ascii_of_isExponent exponent
      · exact ascii_of_stepAfter stepped
    | fraction =>
      obtain rfl := closed finished
      change stepNumber index [] char .fraction = _ at stepped
      dsimp only [stepNumber] at stepped
      split_ifs at stepped with digit exponent
      · exact ascii_of_isDigit digit
      · exact ascii_of_isExponent exponent
      · exact ascii_of_stepAfter stepped
    | power =>
      obtain rfl := closed finished
      change stepNumber index [] char .power = _ at stepped
      dsimp only [stepNumber] at stepped
      split_ifs at stepped with digit
      · exact ascii_of_isDigit digit
      · exact ascii_of_stepAfter stepped
  | string isName begin inside => cases inside <;> cases finished
  | _ => cases finished

/-- What follows a complete beginning of an accepted text begins with an ASCII character. -/
theorem ascii_of_loads (accepted : loads (front ++ char :: back) = .ok ()) (complete : loads front = .ok ()) :
    char.val.toNat < 128 := by
  obtain ⟨state, read⟩ := exists_run_of_loads accepted
  rw [loads_beginning accepted read] at complete
  obtain ⟨-, accepted⟩ := check_then_eq_ok_iff.mp accepted
  obtain ⟨last, whole, -⟩ := bind_eq_ok_iff.mp accepted
  rw [run_append, read] at whole
  obtain ⟨reached, ⟨⟩, further⟩ := bind_eq_ok_iff.mp whole
  obtain ⟨next, stepped, -⟩ := bind_eq_ok_iff.mp further
  exact ascii_of_step complete stepped

end JsonScan

end MetaResearch

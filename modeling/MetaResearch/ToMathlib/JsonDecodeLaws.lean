import MetaResearch.ToMathlib.JsonDecode
import Mathlib.Data.List.Find

/-! # Laws of the JSON decoder

A decoder reads a value from the beginning of a text and looks at what follows no further than it must. So a text
may go on differently behind a mark that no number has, and the fuel does not matter where there is enough.
-/

namespace MetaResearch

namespace JsonDecode

theorem exists_of_map_eq_ok {ε α β : Type} {f : α → β} {answer : Except ε α} {result : β}
    (mapped : answer.map f = .ok result) : ∃ value, answer = .ok value ∧ f value = result := by
  cases answer with
  | error failure => cases mapped
  | ok value => exact ⟨value, rfl, Except.ok.inj mapped⟩

/-! ### Marks and white space -/

section

variable {mark : Char} {text rest more : PyText}

theorem after_eq_some_iff : after mark text = some rest ↔ text = .char mark :: rest := by
  cases text with
  | nil => simp [after]
  | cons first others =>
    rw [after]
    split_ifs with same
    · rw [same]
      simp
    · simp [same]

theorem after_append (found : after mark text = some rest) : after mark (text ++ more) = some (rest ++ more) := by
  rw [after_eq_some_iff.mp found]
  exact after_eq_some_iff.mpr rfl

/-- What follows a mark is looked for at the first code point only. -/
theorem after_append_of_ne_nil (some : text ≠ []) (missing : after mark text = none) :
    after mark (text ++ more) = none := by
  cases text with
  | nil => exact absurd rfl some
  | cons first others =>
    rw [after] at missing
    rw [List.cons_append, after]
    split_ifs at missing ⊢
    rfl

theorem isSpace_of_isJsonSpace {point : Point} (space : isJsonSpace point = true) : point.isSpace = true := by
  cases point with
  | surrogate unit => cases space
  | char value =>
    simp only [isJsonSpace, Bool.or_eq_true, decide_eq_true_eq] at space
    rcases space with ((rfl | rfl) | rfl) | rfl <;> decide

/-- White space is passed over as JSON does, or as Python does. -/
theorem lstrip_skipSpace (text : PyText) : PyText.lstrip (skipSpace text) = PyText.lstrip text := by
  induction text with
  | nil => rfl
  | cons first others ih =>
    rw [skipSpace, List.dropWhile_cons]
    split_ifs with space
    · rw [PyText.lstrip, PyText.lstrip, List.dropWhile_cons_of_pos (isSpace_of_isJsonSpace space)]
      exact ih
    · rfl

theorem lstrip_eq_of_head {first : Point} {others : PyText} (solid : first.isSpace = false)
    (found : skipSpace text = first :: others) : PyText.lstrip text = first :: others := by
  rw [← lstrip_skipSpace, found, PyText.lstrip, List.dropWhile_cons_of_neg (by simp [solid])]

theorem after_lstrip (solid : Text.isSpace mark = false) (found : after mark (skipSpace text) = some rest) :
    after mark (PyText.lstrip text) = some rest := by
  rw [after_eq_some_iff] at found ⊢
  exact lstrip_eq_of_head solid found

theorem dropWhile_append_of_ne_nil {skipped : Point → Bool} (some : text.dropWhile skipped ≠ []) :
    (text ++ more).dropWhile skipped = text.dropWhile skipped ++ more := by
  rw [List.dropWhile_append, if_neg]
  rwa [List.isEmpty_iff]

theorem after_dropWhile_append {skipped : Point → Bool} (found : after mark (text.dropWhile skipped) = some rest) :
    after mark ((text ++ more).dropWhile skipped) = some (rest ++ more) := by
  rw [dropWhile_append_of_ne_nil]
  · exact after_append found
  · rw [after_eq_some_iff.mp found]
    exact List.cons_ne_nil _ _

end

/-! ### Strings -/

section

variable {text rest more value : PyText}

theorem hexUnit?_append {unit : ℕ} (found : hexUnit? text = some unit) : hexUnit? (text ++ more) = some unit := by
  match text with
  | [] | [_] | [_, _] | [_, _, _] => cases found
  | _ :: _ :: _ :: _ :: _ => exact found

theorem hexUnit?_append_of_length (long : 4 ≤ text.length) : hexUnit? (text ++ more) = hexUnit? text := by
  match text with
  | [] | [_] | [_, _] | [_, _, _] => simp at long
  | _ :: _ :: _ :: _ :: _ => rfl

theorem hexUnit?_eq_none (short : text.length < 4) : hexUnit? text = none := by
  match text with
  | [] | [_] | [_, _] | [_, _, _] => rfl
  | _ :: _ :: _ :: _ :: _ =>
    simp only [List.length_cons] at short
    omega

theorem unitEscape?_append {unit : ℕ} (found : unitEscape? text = some unit) :
    unitEscape? (text ++ more) = some unit := by
  match text with
  | [] | [_] => cases found
  | first :: second :: digits =>
    rw [unitEscape?] at found
    rw [List.cons_append, List.cons_append, unitEscape?]
    split_ifs at found ⊢ with mark
    exact hexUnit?_append found

/-- Where a text has a next element, an escape in it is not cut. -/
theorem unitEscape?_append_none {found : Element} (ok : element text = .ok found)
    (missing : unitEscape? text = none) : unitEscape? (text ++ more) = none := by
  match text with
  | [] => cases ok
  | [first] =>
    have solid : first ≠ .char '\\' := by
      rintro rfl
      cases ok
    cases more with
    | nil => rfl
    | cons second others =>
      rw [List.singleton_append, unitEscape?, if_neg]
      exact fun mark => solid mark.1
  | first :: second :: digits =>
    rw [List.cons_append, List.cons_append, unitEscape?]
    split_ifs with mark
    · rw [unitEscape?, if_pos mark] at missing
      by_cases long : 4 ≤ digits.length
      · rw [hexUnit?_append_of_length long, missing]
      · obtain ⟨rfl, rfl⟩ := mark
        have none := hexUnit?_eq_none (not_le.mp long)
        have letter : escapes.lookup (.char 'u') = Option.none := by decide
        simp only [element, reduceCtorEq, Point.char.injEq, Char.reduceEq, if_false, ne_eq, not_true_eq_false,
          List.head?_cons, Option.bind_some, letter, unitEscape?, and_self, if_true, none] at ok
    · rfl

/-- What the next element of a text is. -/
inductive IsElement : PyText → Element → Prop
  | quote (rest : PyText) : IsElement (.char '"' :: rest) .quote
  | plain (first : Point) (rest : PyText) (notQuote : first ≠ .char '"') (notSlash : first ≠ .char '\\')
      (printable : ¬ first.code < 32) : IsElement (first :: rest) (.point first 1)
  | escape (letter value : Point) (rest : PyText) (found : escapes.lookup letter = some value) :
      IsElement (.char '\\' :: letter :: rest) (.point value 2)
  | unit (text : PyText) (unit : ℕ) (found : unitEscape? text = some unit)
      (single : ∀ low, unitEscape? (text.drop 6) = some low → (isHigh unit && isLow low) = false) :
      IsElement text (.point (pointOf unit) 6)
  | pair (text : PyText) (high low : ℕ) (found : unitEscape? text = some high)
      (next : unitEscape? (text.drop 6) = some low) (surrogates : (isHigh high && isLow low) = true) :
      IsElement text (.point (joined high low) 12)

theorem isElement_of_element {found : Element} (ok : element text = .ok found) : IsElement text found := by
  match text with
  | [] => cases ok
  | first :: rest =>
    rw [element] at ok
    split_ifs at ok with quote solid control
    · obtain rfl := Except.ok.inj ok
      exact quote ▸ .quote rest
    · obtain rfl := Except.ok.inj ok
      exact .plain first rest quote solid control
    · obtain rfl := not_not.mp solid
      split at ok
      · rename_i value found
        obtain ⟨letter, there, found⟩ := Option.bind_eq_some_iff.mp found
        obtain rfl := Except.ok.inj ok
        cases rest with
        | nil => cases there
        | cons second others =>
          obtain rfl := Option.some.inj there
          exact .escape second value others found
      · split at ok
        · cases ok
        · rename_i unit found
          split at ok
          · rename_i low next
            split_ifs at ok with surrogates
            · obtain rfl := Except.ok.inj ok
              exact .pair _ unit low found next surrogates
            · obtain rfl := Except.ok.inj ok
              refine .unit _ unit found fun other again => ?_
              rw [← Option.some.inj (next.symm.trans again)]
              exact Bool.eq_false_iff.mpr surrogates
          · rename_i missing
            obtain rfl := Except.ok.inj ok
            exact .unit _ unit found fun low again => absurd (missing.symm.trans again) nofun

theorem element_of_unitEscape? {unit : ℕ} (found : unitEscape? text = some unit) :
    element text = match unitEscape? (text.drop 6) with
      | some low => if isHigh unit && isLow low then .ok (.point (joined unit low) 12) else .ok (.point (pointOf unit) 6)
      | none => .ok (.point (pointOf unit) 6) := by
  match text with
  | [] | [_] => cases found
  | first :: second :: digits =>
    have escaped := found
    rw [unitEscape?] at escaped
    split_ifs at escaped with mark
    obtain ⟨rfl, rfl⟩ := mark
    have letter : escapes.lookup (.char 'u') = Option.none := by decide
    simp only [element, Point.char.injEq, Char.reduceEq, if_false, ne_eq, not_true_eq_false, List.head?_cons,
      Option.bind_some, letter, found]
    all_goals rfl

theorem IsElement.element {found : Element} (is : IsElement text found) : element text = .ok found := by
  cases is with
  | quote rest => rfl
  | plain first rest notQuote notSlash printable =>
    rw [JsonDecode.element, if_neg notQuote, if_pos notSlash, if_neg printable]
  | escape letter value rest found =>
    have slash : Point.char '\\' ≠ .char '"' := by decide
    rw [JsonDecode.element, if_neg slash, if_neg (not_not_intro rfl)]
    simp only [List.head?_cons, Option.bind_some, found]
  | unit _ unit found single =>
    rw [element_of_unitEscape? found]
    cases next : unitEscape? (text.drop 6) with
    | none => rfl
    | some low =>
      simp only
      rw [if_neg (by simp [single low next])]
  | pair _ high low found next surrogates =>
    rw [element_of_unitEscape? found, next]
    exact if_pos surrogates

theorem length_of_unitEscape? {unit : ℕ} (found : unitEscape? text = some unit) : 6 ≤ text.length := by
  match text with
  | [] | [_] => cases found
  | first :: second :: digits =>
    rw [unitEscape?] at found
    split_ifs at found
    by_contra short
    rw [List.length_cons, List.length_cons] at short
    rw [hexUnit?_eq_none (by omega)] at found
    cases found

/-- An element has some width, and the text has it. -/
theorem IsElement.width {value : Point} {width : ℕ} (is : IsElement text (.point value width)) :
    1 ≤ width ∧ width ≤ text.length := by
  generalize same : Element.point value width = found at is
  cases is with
  | quote => cases same
  | plain first rest =>
    obtain ⟨_, rfl⟩ := Element.point.inj same
    simp
  | escape =>
    obtain ⟨_, rfl⟩ := Element.point.inj same
    simp
  | unit _ unit found =>
    obtain ⟨_, rfl⟩ := Element.point.inj same
    exact ⟨by decide, length_of_unitEscape? found⟩
  | pair _ high low found next =>
    obtain ⟨_, rfl⟩ := Element.point.inj same
    have long := length_of_unitEscape? next
    rw [List.length_drop] at long
    omega

/-- A text goes on behind an element, when the text has an element behind it as well. -/
theorem IsElement.append {value : Point} {width : ℕ} (is : IsElement text (.point value width)) {next : Element}
    (follows : IsElement (text.drop width) next) (more : PyText) : IsElement (text ++ more) (.point value width) := by
  generalize same : Element.point value width = found at is ⊢
  cases is with
  | quote => cases same
  | plain first rest notQuote notSlash printable => exact .plain first (rest ++ more) notQuote notSlash printable
  | escape letter value rest found => exact .escape letter value (rest ++ more) found
  | unit _ unit found single =>
    obtain ⟨_, rfl⟩ := Element.point.inj same
    refine .unit _ unit (unitEscape?_append found) fun low again => ?_
    rw [List.drop_append_of_le_length (length_of_unitEscape? found)] at again
    cases here : unitEscape? (text.drop 6) with
    | none =>
      rw [unitEscape?_append_none follows.element here] at again
      cases again
    | some other =>
      rw [unitEscape?_append here] at again
      rw [← Option.some.inj again]
      exact single other here
  | pair _ high low found next surrogates =>
    refine .pair _ high low (unitEscape?_append found) ?_ surrogates
    rw [List.drop_append_of_le_length (length_of_unitEscape? found)]
    exact unitEscape?_append next

/-- The beginning of a text, up to a quotation mark, writes the value of a string. -/
inductive IsString : PyText → PyText → PyText → Prop
  | quote (rest : PyText) : IsString (.char '"' :: rest) [] rest
  | point {text : PyText} {value : Point} {width : ℕ} {others rest : PyText}
      (is : IsElement text (.point value width)) (next : IsString (text.drop width) others rest) :
      IsString text (value :: others) rest

theorem scanString_skip (skip : ℕ) (text : PyText) : scanString skip text = scanString 0 (text.drop skip) := by
  induction text generalizing skip with
  | nil => rw [List.drop_nil, scanString, scanString]
  | cons first rest ih =>
    cases skip with
    | zero => rfl
    | succ skip => rw [scanString, ih, List.drop_succ_cons]

theorem scanString_zero (text : PyText) : scanString 0 text = match element text with
    | .error failure => .error failure
    | .ok .quote => .ok ([], text.drop 1)
    | .ok (.point value width) =>
      (scanString 0 (text.drop width)).map fun found => (value :: found.1, found.2) := by
  match text with
  | [] => rfl
  | first :: rest =>
    rw [scanString]
    cases ok : element (first :: rest) with
    | error failure => rfl
    | ok found =>
      cases found with
      | quote => rfl
      | point value width =>
        have some := (isElement_of_element ok).width.1
        obtain ⟨less, rfl⟩ := Nat.exists_eq_add_of_le' some
        simp only [Nat.add_sub_cancel, List.drop_succ_cons]
        rw [scanString_skip]

theorem isString_of_scanString (read : scanString 0 text = .ok (value, rest)) : IsString text value rest := by
  induction length : text.length using Nat.strong_induction_on generalizing text value with
  | _ n ih =>
    rw [scanString_zero] at read
    cases ok : element text with
    | error failure =>
      rw [ok] at read
      cases read
    | ok found =>
      have is := isElement_of_element ok
      rw [ok] at read
      cases found with
      | quote =>
        cases is
        cases read
        exact .quote _
      | point value width =>
        simp only at read
        cases next : scanString 0 (text.drop width) with
        | error failure =>
          rw [next] at read
          cases read
        | ok found =>
          rw [next] at read
          cases read
          have wide := is.width
          exact .point is (ih _ (by rw [List.length_drop]; omega) next rfl)

theorem IsString.scanString (is : IsString text value rest) : scanString 0 text = .ok (value, rest) := by
  induction is with
  | quote rest => rfl
  | point is next ih =>
    rw [scanString_zero, is.element]
    simp only [ih, Except.map]

theorem IsString.next (is : IsString text value rest) : ∃ found, IsElement text found := by
  cases is with
  | quote rest => exact ⟨_, .quote rest⟩
  | point is next => exact ⟨_, is⟩

theorem IsString.append (is : IsString text value rest) (more : PyText) :
    IsString (text ++ more) value (rest ++ more) := by
  induction is with
  | quote rest => exact .quote (rest ++ more)
  | point is next ih =>
    obtain ⟨found, follows⟩ := next.next
    refine .point (is.append follows more) ?_
    rwa [List.drop_append_of_le_length is.width.2]

theorem IsString.length_lt (is : IsString text value rest) : rest.length < text.length := by
  induction is with
  | quote rest => simp
  | point is next ih =>
    rw [List.length_drop] at ih
    omega

end

/-! ### Numbers and words -/

/-- A code point that a number may go on with. -/
def inNumber (point : Point) : Bool :=
  point.isDigit || point = .char '.' || point = .char 'e' || point = .char 'E'

/-- What follows a number begins with something else. -/
def Stops (rest : PyText) : Prop := ∃ first, rest.head? = some first ∧ inNumber first = false

section

variable {text rest more digits : PyText}

theorem Stops.ne_nil (stops : Stops rest) : rest ≠ [] := by
  rintro rfl
  obtain ⟨_, head, _⟩ := stops
  cases head

theorem stops_of_after {mark : Char} (solid : inNumber (.char mark) = false)
    (found : after mark (skipSpace text) = some rest) : Stops text := by
  rw [after_eq_some_iff] at found
  cases text with
  | nil => cases found
  | cons first others =>
    refine ⟨first, rfl, ?_⟩
    rw [skipSpace, List.dropWhile_cons] at found
    split_ifs at found with space
    · cases first with
      | surrogate unit => rfl
      | char value =>
        simp only [isJsonSpace, Bool.or_eq_true, decide_eq_true_eq] at space
        rcases space with ((rfl | rfl) | rfl) | rfl <;> decide
    · rwa [(List.cons.inj found).1]

theorem spanDigits_append (some : (spanDigits text).2 ≠ []) :
    spanDigits (text ++ more) = ((spanDigits text).1, (spanDigits text).2 ++ more) := by
  have stops : List.dropWhile Point.isDigit text ≠ [] := some
  rw [spanDigits, dropWhile_append_of_ne_nil stops, List.takeWhile_append, if_neg]
  · rfl
  · intro whole
    apply stops
    rw [List.dropWhile_eq_nil_iff]
    have all := List.takeWhile_append_dropWhile (p := Point.isDigit) (l := text)
    have none := congrArg List.length all
    rw [List.length_append, whole, Nat.add_eq_left, List.length_eq_zero_iff] at none
    exact List.dropWhile_eq_nil_iff.mp none

theorem integerPart?_append (read : integerPart? text = some (digits, rest)) (some : rest ≠ []) :
    integerPart? (text ++ more) = .some (digits, rest ++ more) := by
  cases text with
  | nil => cases read
  | cons first others =>
    rw [integerPart?] at read
    rw [List.cons_append, integerPart?]
    split_ifs at read ⊢
    · cases read
      rfl
    · cases read
      rw [spanDigits_append some]

theorem marked_append {mark : PyText} (read : marked mark text = some (digits, rest)) (some : rest ≠ []) :
    marked mark (text ++ more) = .some (digits, rest ++ more) := by
  rw [marked] at read
  split_ifs at read with none
  cases read
  rw [marked, spanDigits_append some, if_neg none]

theorem fraction?_append (read : fraction? text = some (digits, rest)) (some : rest ≠ []) :
    fraction? (text ++ more) = .some (digits, rest ++ more) := by
  cases text with
  | nil => cases read
  | cons first others =>
    rw [fraction?] at read
    rw [List.cons_append, fraction?]
    split_ifs at read ⊢
    exact marked_append read some

theorem power?_append {mark : Point} (read : power? mark text = some (digits, rest)) (some : rest ≠ []) :
    power? mark (text ++ more) = .some (digits, rest ++ more) := by
  cases text with
  | nil => cases read
  | cons sign others =>
    rw [power?] at read
    rw [List.cons_append, power?]
    split_ifs at read ⊢
    · exact marked_append read some
    · exact marked_append read some

theorem exponent?_append (read : exponent? text = some (digits, rest)) (some : rest ≠ []) :
    exponent? (text ++ more) = .some (digits, rest ++ more) := by
  cases text with
  | nil => cases read
  | cons first others =>
    rw [exponent?] at read
    rw [List.cons_append, exponent?]
    split_ifs at read ⊢
    exact power?_append read some

theorem exponent?_eq_none_of_stops {first : Point} {others : PyText} (stops : inNumber first = false) :
    exponent? (first :: others) = none := by
  rw [exponent?, if_neg]
  simp only [inNumber, Bool.or_eq_false_iff, decide_eq_false_iff_not] at stops
  simp [stops]

theorem fraction?_eq_none_of_stops {first : Point} {others : PyText} (stops : inNumber first = false) :
    fraction? (first :: others) = none := by
  rw [fraction?, if_neg]
  simp only [inNumber, Bool.or_eq_false_iff, decide_eq_false_iff_not] at stops
  exact stops.1.1.2

/-- The exponent of a number is not missed, when something else follows. -/
theorem exponent?_getD_append (stops : Stops ((exponent? text).getD ([], text)).2) :
    (exponent? (text ++ more)).getD ([], text ++ more) =
      (((exponent? text).getD ([], text)).1, ((exponent? text).getD ([], text)).2 ++ more) := by
  cases read : exponent? text with
  | some found =>
    rw [read] at stops
    rw [exponent?_append read stops.ne_nil]
    rfl
  | none =>
    rw [read] at stops
    obtain ⟨first, head, solid⟩ := stops
    cases text with
    | nil => cases head
    | cons other others =>
      obtain rfl := Option.some.inj head
      rw [List.cons_append, exponent?_eq_none_of_stops solid]
      rfl

theorem unsigned?_append {sign : PyText} {number : Number} (read : unsigned? sign text = some number)
    (stops : Stops number.rest) :
    unsigned? sign (text ++ more) = some { number with rest := number.rest ++ more } := by
  rw [unsigned?, Option.map_eq_some_iff] at read
  obtain ⟨⟨whole, behind⟩, integer, rfl⟩ := read
  have someBehind : behind ≠ [] := by
    rintro rfl
    exact stops.ne_nil rfl
  rw [unsigned?, integerPart?_append integer someBehind, Option.map_some]
  simp only at stops ⊢
  cases fraction : fraction? behind with
  | some found =>
    rw [fraction] at stops
    simp only [Option.getD_some] at stops ⊢
    have someRest : found.2 ≠ [] := by
      intro none
      rw [none] at stops
      exact stops.ne_nil rfl
    rw [fraction?_append fraction someRest]
    simp only [Option.getD_some, exponent?_getD_append stops]
  | none =>
    rw [fraction] at stops
    simp only [Option.getD_none] at stops ⊢
    have still : fraction? (behind ++ more) = none := by
      cases behind with
      | nil => exact absurd rfl someBehind
      | cons first others =>
        rw [fraction?] at fraction
        rw [List.cons_append, fraction?]
        split_ifs at fraction ⊢ with point
        · rw [point, exponent?, if_neg (by decide)] at stops
          obtain ⟨_, head, solid⟩ := stops
          obtain rfl := Option.some.inj head
          cases solid
        · rfl
    rw [still]
    simp only [Option.getD_none, exponent?_getD_append stops]

theorem number?_append {number : Number} (read : number? text = some number) (stops : Stops number.rest) :
    number? (text ++ more) = some { number with rest := number.rest ++ more } := by
  cases text with
  | nil => cases read
  | cons first others =>
    rw [number?] at read
    rw [List.cons_append, number?]
    split_ifs at read ⊢
    · exact unsigned?_append read stops
    · exact unsigned?_append read stops

end

section

variable {F : Type} {limits : Limits} {hooks : Hooks F} {text rest more : PyText} {value : PyJson F}

theorem head_of_unsigned? {sign : PyText} {number : Number} (read : unsigned? sign text = some number) :
    ∃ first others, text = first :: others ∧ first.isDigit = true := by
  rw [unsigned?, Option.map_eq_some_iff] at read
  obtain ⟨_, integer, _⟩ := read
  cases text with
  | nil => cases integer
  | cons first others =>
    rw [integerPart?] at integer
    refine ⟨first, others, rfl, ?_⟩
    split_ifs at integer with zero digit
    · rw [zero]
      rfl
    · exact digit

/-- A number begins with a digit, or with a minus and a digit. -/
theorem head_of_number? {number : Number} (read : number? text = some number) :
    (∃ first others, text = first :: others ∧ first.isDigit = true) ∨
      ∃ first others, text = .char '-' :: first :: others ∧ first.isDigit = true := by
  cases text with
  | nil => cases read
  | cons first others =>
    rw [number?] at read
    split_ifs at read with minus
    · obtain ⟨second, behind, rfl, digit⟩ := head_of_unsigned? read
      exact .inr ⟨second, behind, by rw [minus], digit⟩
    · exact .inl (head_of_unsigned? read)

def wordNames : List String := ["null", "true", "false", "NaN", "Infinity", "-Infinity"]

theorem words_names (hooks : Hooks F) : (words hooks).map Prod.fst = wordNames := rfl

theorem name_mem {word : String × Option (PyJson F)} (member : word ∈ words hooks) :
    word.1 ∈ wordNames := by
  rw [← words_names hooks]
  exact List.mem_map_of_mem member

/-- No two words begin alike. -/
theorem names_apart : ∀ name ∈ wordNames,
    ∀ other ∈ wordNames,
      (PyText.ofString name).head? = (PyText.ofString other).head? → name = other := by decide

theorem head_of_name {name : String} (member : name ∈ wordNames) :
    ∃ first, (PyText.ofString name).head? = some first ∧ first.isDigit = false ∧ first.isSpace = false ∧
      first ∉ ['"', '\x7b', '['].map Point.char := by
  have all : ∀ name ∈ wordNames, (PyText.ofString name).head?.any fun first =>
      first.isDigit = false ∧ first.isSpace = false ∧ first ∉ ['"', '\x7b', '['].map Point.char := by decide
  obtain ⟨first, head, found⟩ := (Option.any_eq_true _ _).mp (all name member)
  exact ⟨first, head, of_decide_eq_true found⟩

theorem isPrefixOf_append {word : PyText} (found : word.isPrefixOf text = true) :
    word.isPrefixOf (text ++ more) = true := by
  rw [List.isPrefixOf_iff_prefix] at found ⊢
  exact found.trans (List.prefix_append text more)

theorem head?_of_isPrefixOf {name : String} (member : name ∈ wordNames)
    (found : (PyText.ofString name).isPrefixOf text = true) : text.head? = (PyText.ofString name).head? := by
  obtain ⟨behind, rfl⟩ := List.isPrefixOf_iff_prefix.mp found
  obtain ⟨first, head, _⟩ := head_of_name member
  rw [List.head?_append, head]
  rfl

/-- A number is not a word, however the text goes on. -/
theorem not_word_of_number? {number : Number} (read : number? text = some number) {name : String}
    (member : name ∈ wordNames) (more : PyText) :
    (PyText.ofString name).isPrefixOf (text ++ more) = false := by
  by_contra word
  rw [Bool.not_eq_false] at word
  rcases head_of_number? read with ⟨first, others, rfl, digit⟩ | ⟨first, others, rfl, digit⟩
  · obtain ⟨letter, head, solid, _⟩ := head_of_name member
    obtain rfl := Option.some.inj ((head?_of_isPrefixOf member word).trans head)
    rw [solid] at digit
    cases digit
  · obtain rfl := names_apart name member "-Infinity" (by decide) (head?_of_isPrefixOf member word).symm
    obtain ⟨behind, same⟩ := List.isPrefixOf_iff_prefix.mp word
    obtain rfl : first = .char 'I' := by
      have second := congrArg (fun text => text.drop 1 |>.head?) same
      exact (Option.some.inj second).symm
    cases digit

theorem convert_append {number : Number} :
    convert limits hooks { number with rest := number.rest ++ more } = convert limits hooks number := rfl

theorem scanAtom_append (read : scanAtom limits hooks text = .ok (value, rest))
    (stops : more = [] ∨ Stops rest) : scanAtom limits hooks (text ++ more) = .ok (value, rest ++ more) := by
  rcases stops with rfl | stops
  · rwa [List.append_nil, List.append_nil]
  rw [scanAtom] at read ⊢
  cases word : (words hooks).find? fun word => (PyText.ofString word.1).isPrefixOf text with
  | none =>
    rw [word] at read
    cases number : number? text with
    | none =>
      simp only [number] at read
      cases read
    | some found =>
      have still : ((words hooks).find? fun word => (PyText.ofString word.1).isPrefixOf (text ++ more)) = none := by
        rw [List.find?_eq_none]
        intro word member
        rw [not_word_of_number? number (name_mem member) _]
        exact Bool.false_ne_true
      simp only [number] at read
      cases converted : convert limits hooks found with
      | error failure =>
        rw [converted] at read
        cases read
      | ok result =>
        rw [converted] at read
        cases read
        rw [still, number?_append number stops]
        simp only [convert_append, converted, Except.map]
  | some found =>
    have here := List.find?_some word
    have still : ((words hooks).find? fun word => (PyText.ofString word.1).isPrefixOf (text ++ more)) = some found := by
      rw [← word]
      refine List.find?_congr fun other member => ?_
      rw [Bool.eq_iff_iff]
      refine ⟨fun also => ?_, isPrefixOf_append⟩
      have heads := head?_of_isPrefixOf (name_mem member) also
      have again : (PyText.ofString found.1).isPrefixOf (text ++ more) = true := isPrefixOf_append here
      have foundHead := head?_of_isPrefixOf (name_mem (List.mem_of_find?_eq_some word)) again
      rw [names_apart _ (name_mem member) _ (name_mem (List.mem_of_find?_eq_some word)) (heads.symm.trans foundHead)]
      exact here
    rw [word] at read
    rw [still]
    obtain ⟨name, result⟩ := found
    cases result with
    | none => cases read
    | some result =>
      cases read
      obtain ⟨behind, rfl⟩ := List.isPrefixOf_iff_prefix.mp here
      have long : (PyText.ofString name).length = name.length := by
        rw [PyText.ofString, List.length_map, String.length_toList]
      simp only [← long, List.drop_left, List.append_assoc]

end

theorem spanDigits_eq (text : PyText) : (spanDigits text).1 ++ (spanDigits text).2 = text :=
  List.takeWhile_append_dropWhile

theorem marked_eq {mark text digits rest : PyText} (read : marked mark text = some (digits, rest)) :
    digits ++ rest = mark ++ text := by
  rw [marked] at read
  split_ifs at read
  cases read
  rw [List.append_assoc, spanDigits_eq]

theorem fraction?_eq {text digits rest : PyText} (read : fraction? text = some (digits, rest)) :
    digits ++ rest = text := by
  cases text with
  | nil => cases read
  | cons first others =>
    rw [fraction?] at read
    split_ifs at read
    exact marked_eq read

theorem exponent?_eq {text digits rest : PyText} (read : exponent? text = some (digits, rest)) :
    digits ++ rest = text := by
  cases text with
  | nil => cases read
  | cons first others =>
    rw [exponent?] at read
    split_ifs at read
    cases others with
    | nil => cases read
    | cons sign others =>
      rw [power?] at read
      split_ifs at read
      · exact marked_eq read
      · exact marked_eq read

theorem getD_eq {read : Option (PyText × PyText)} (text : PyText)
    (eq : ∀ digits rest, read = some (digits, rest) → digits ++ rest = text) :
    (read.getD ([], text)).1 ++ (read.getD ([], text)).2 = text := by
  cases read with
  | none => rfl
  | some found => exact eq _ _ rfl

theorem integerPart?_eq {text digits rest : PyText} (read : integerPart? text = some (digits, rest)) :
    digits ++ rest = text ∧ digits ≠ [] := by
  cases text with
  | nil => cases read
  | cons first others =>
    rw [integerPart?] at read
    split_ifs at read
    · cases read
      exact ⟨rfl, List.cons_ne_nil _ _⟩
    · cases read
      rw [List.cons_append, spanDigits_eq]
      exact ⟨rfl, List.cons_ne_nil _ _⟩

theorem unsigned?_eq {sign text : PyText} {number : Number} (read : unsigned? sign text = some number) :
    number.literal ++ number.rest = sign ++ text ∧ number.whole ≠ [] := by
  rw [unsigned?, Option.map_eq_some_iff] at read
  obtain ⟨⟨whole, behind⟩, integer, rfl⟩ := read
  have fraction := getD_eq behind fun _ _ => fraction?_eq
  have exponent := getD_eq ((fraction? behind).getD ([], behind)).2 fun _ _ => exponent?_eq
  have part := integerPart?_eq integer
  refine ⟨?_, part.2⟩
  rw [← part.1]
  simp only [Number.literal, List.append_assoc]
  rw [exponent, fraction]

/-- The literal of a number is the beginning of the text. -/
theorem number?_eq {text : PyText} {number : Number} (read : number? text = some number) :
    number.literal ++ number.rest = text ∧ number.whole ≠ [] := by
  cases text with
  | nil => cases read
  | cons first others =>
    rw [number?] at read
    split_ifs at read
    · exact unsigned?_eq read
    · exact unsigned?_eq read

section

variable {F : Type} {limits : Limits} {hooks : Hooks F} {text rest more : PyText} {value : PyJson F}

theorem scanAtom_length_lt (read : scanAtom limits hooks text = .ok (value, rest)) : rest.length < text.length := by
  rw [scanAtom] at read
  cases word : (words hooks).find? fun word => (PyText.ofString word.1).isPrefixOf text with
  | none =>
    rw [word] at read
    cases number : number? text with
    | none =>
      simp only [number] at read
      cases read
    | some found =>
      simp only [number] at read
      obtain ⟨result, _, same⟩ := exists_of_map_eq_ok read
      obtain ⟨eq, some⟩ := number?_eq number
      have long := congrArg List.length eq
      have positive := List.length_pos_iff.mpr some
      rw [← (Prod.mk.inj same).2]
      simp only [Number.literal, List.length_append] at long
      omega
  | some found =>
    obtain ⟨name, result⟩ := found
    rw [word] at read
    cases result with
    | none => cases read
    | some result =>
      cases read
      have member := name_mem (List.mem_of_find?_eq_some word)
      have here := List.find?_some word
      have heads := head?_of_isPrefixOf member here
      have long : 0 < name.length :=
        (by decide : ∀ name ∈ wordNames, 0 < name.length) name member
      obtain ⟨first, head, _⟩ := head_of_name member
      have some : 0 < text.length := by
        rw [head] at heads
        cases text with
        | nil => cases heads
        | cons => simp
      rw [List.length_drop]
      omega

end

/-! ### Values -/

/-- What is written: a value, the items of an array from some item on, or the pairs of an object. -/
inductive Piece (F : Type) where
  | value (value : PyJson F)
  | items (items : List (PyJson F))
  | pairs (pairs : List (PyText × PyJson F))

/-- The code points with which a text, an object or an array begins. -/
def opens (first : Point) : Bool := first = .char '"' || first = .char '\x7b' || first = .char '['

/-- The beginning of a text writes a value, or what an array or an object has inside, when so many more containers
may be opened. -/
inductive Writes {F : Type} (limits : Limits) (hooks : Hooks F) : ℕ → PyText → Piece F → PyText → Prop
  | text {depth : ℕ} {inner value rest : PyText} (is : IsString inner value rest) :
      Writes limits hooks depth (.char '"' :: inner) (.value (.text value)) rest
  | emptyObject {depth : ℕ} {inner rest : PyText} {fields : List (PyText × PyJson F)}
      (close : after '\x7d' (skipSpace inner) = some rest) (hook : hooks.pairs [] = some fields) :
      Writes limits hooks (depth + 1) (.char '\x7b' :: inner) (.value (.object fields)) rest
  | object {depth : ℕ} {inner rest : PyText} {pairs fields : List (PyText × PyJson F)}
      (inside : Writes limits hooks depth (skipSpace inner) (.pairs pairs) rest)
      (hook : hooks.pairs pairs = some fields) :
      Writes limits hooks (depth + 1) (.char '\x7b' :: inner) (.value (.object fields)) rest
  | emptyArray {depth : ℕ} {inner rest : PyText} (close : after ']' (skipSpace inner) = some rest) :
      Writes limits hooks (depth + 1) (.char '[' :: inner) (.value (.array [])) rest
  | array {depth : ℕ} {inner rest : PyText} {items : List (PyJson F)}
      (inside : Writes limits hooks depth (skipSpace inner) (.items items) rest)
      (item : after ']' (skipSpace inner) = none) :
      Writes limits hooks (depth + 1) (.char '[' :: inner) (.value (.array items)) rest
  | atom {depth : ℕ} {text rest : PyText} {value : PyJson F}
      (other : ∀ first, text.head? = some first → opens first = false)
      (read : scanAtom limits hooks text = .ok (value, rest)) :
      Writes limits hooks depth text (.value value) rest
  | lastItem {depth : ℕ} {text behind rest : PyText} {value : PyJson F}
      (item : Writes limits hooks depth text (.value value) behind)
      (close : after ']' (skipSpace behind) = some rest) :
      Writes limits hooks depth text (.items [value]) rest
  | item {depth : ℕ} {text behind next rest : PyText} {value : PyJson F} {items : List (PyJson F)}
      (item : Writes limits hooks depth text (.value value) behind)
      (comma : after ',' (skipSpace behind) = some next)
      (others : Writes limits hooks depth (skipSpace next) (.items items) rest) :
      Writes limits hooks depth text (.items (value :: items)) rest
  | lastPair {depth : ℕ} {inner name behind next ahead rest : PyText} {value : PyJson F}
      (is : IsString inner name behind) (colon : after ':' (skipSpace behind) = some next)
      (item : Writes limits hooks depth (skipSpace next) (.value value) ahead)
      (close : after '\x7d' (skipSpace ahead) = some rest) :
      Writes limits hooks depth (.char '"' :: inner) (.pairs [(name, value)]) rest
  | pair {depth : ℕ} {inner name behind next ahead further rest : PyText} {value : PyJson F}
      {pairs : List (PyText × PyJson F)} (is : IsString inner name behind)
      (colon : after ':' (skipSpace behind) = some next)
      (item : Writes limits hooks depth (skipSpace next) (.value value) ahead)
      (comma : after ',' (skipSpace ahead) = some further)
      (others : Writes limits hooks depth (skipSpace further) (.pairs pairs) rest) :
      Writes limits hooks depth (.char '"' :: inner) (.pairs ((name, value) :: pairs)) rest

section

variable {F : Type} {limits : Limits} {hooks : Hooks F} {text rest more : PyText}

/-- The decoder reads the piece, with fuel and a number of containers. -/
def Scans (limits : Limits) (hooks : Hooks F) (fuel depth : ℕ) (text : PyText) : Piece F → PyText → Prop
  | .value value, rest => scanValue limits hooks fuel depth text = .ok (value, rest)
  | .items items, rest => scanItems limits hooks fuel depth text = .ok (items, rest)
  | .pairs pairs, rest => scanMembers limits hooks fuel depth text = .ok (pairs, rest)

theorem after_eq_none_of_ne {first : Point} {others : PyText} {mark : Char} (different : first ≠ .char mark) :
    after mark (first :: others) = none := if_neg different

theorem exists_of_bind_eq_ok {ε α β : Type} {answer : Except ε α} {next : α → Except ε β} {result : β}
    (bound : answer >>= next = .ok result) : ∃ value, answer = .ok value ∧ next value = .ok result := by
  cases answer with
  | error failure => cases bound
  | ok value => exact ⟨value, rfl, bound⟩

theorem objectOf_eq_ok {pairs : List (PyText × PyJson F)} {value : PyJson F} {behind : PyText}
    (made : objectOf hooks pairs behind = .ok (value, rest)) :
    ∃ fields, hooks.pairs pairs = some fields ∧ value = .object fields ∧ behind = rest := by
  rw [objectOf] at made
  cases hook : hooks.pairs pairs with
  | none =>
    rw [hook] at made
    cases made
  | some fields =>
    rw [hook] at made
    cases made
    exact ⟨fields, rfl, rfl, rfl⟩

theorem writes_of_scanValue_object {fuel depth : ℕ}
    (inside : ∀ depth text pairs rest, scanMembers limits hooks fuel depth text = .ok (pairs, rest) →
      Writes limits hooks depth text (.pairs pairs) rest) {inner : PyText} {value : PyJson F}
    (read : scanValue limits hooks (fuel + 1) depth (.char '\x7b' :: inner) = .ok (value, rest)) :
    Writes limits hooks depth (.char '\x7b' :: inner) (.value value) rest := by
  rw [scanValue, if_neg (by decide), if_pos rfl] at read
  split_ifs at read with shallow
  obtain ⟨depth, rfl⟩ := Nat.exists_eq_succ_of_ne_zero shallow
  cases close : after '\x7d' (skipSpace inner) with
  | some behind =>
    rw [close] at read
    obtain ⟨fields, hook, rfl, rfl⟩ := objectOf_eq_ok read
    exact .emptyObject close hook
  | none =>
    rw [close] at read
    obtain ⟨⟨pairs, behind⟩, members, read⟩ := exists_of_bind_eq_ok read
    obtain ⟨fields, hook, rfl, rfl⟩ := objectOf_eq_ok read
    exact .object (inside depth _ _ _ members) hook

theorem writes_of_scanValue_array {fuel depth : ℕ}
    (inside : ∀ depth text items rest, scanItems limits hooks fuel depth text = .ok (items, rest) →
      Writes limits hooks depth text (.items items) rest) {inner : PyText} {value : PyJson F}
    (read : scanValue limits hooks (fuel + 1) depth (.char '[' :: inner) = .ok (value, rest)) :
    Writes limits hooks depth (.char '[' :: inner) (.value value) rest := by
  rw [scanValue, if_neg (by decide), if_neg (by decide), if_pos rfl] at read
  split_ifs at read with shallow
  obtain ⟨depth, rfl⟩ := Nat.exists_eq_succ_of_ne_zero shallow
  cases close : after ']' (skipSpace inner) with
  | some behind =>
    rw [close] at read
    cases read
    exact .emptyArray close
  | none =>
    rw [close] at read
    obtain ⟨⟨items, behind⟩, members, read⟩ := exists_of_bind_eq_ok read
    cases read
    exact .array (inside depth _ _ _ members) close

theorem scanValue_atom {fuel depth : ℕ} (other : ∀ first, text.head? = some first → opens first = false) :
    scanValue limits hooks (fuel + 1) depth text = scanAtom limits hooks text := by
  cases text with
  | nil =>
    rw [scanValue]
  | cons first inner =>
    have closed := other first rfl
    simp only [opens, Bool.or_eq_false_iff, decide_eq_false_iff_not] at closed
    rw [scanValue, if_neg closed.1.1, if_neg closed.1.2, if_neg closed.2]

theorem writes_of_scan (fuel : ℕ) :
    (∀ depth text value rest, scanValue limits hooks fuel depth text = .ok (value, rest) →
      Writes limits hooks depth text (.value value) rest) ∧
    (∀ depth text items rest, scanItems limits hooks fuel depth text = .ok (items, rest) →
      Writes limits hooks depth text (.items items) rest) ∧
    ∀ depth text pairs rest, scanMembers limits hooks fuel depth text = .ok (pairs, rest) →
      Writes limits hooks depth text (.pairs pairs) rest := by
  induction fuel with
  | zero => exact ⟨nofun, nofun, nofun⟩
  | succ fuel ih =>
    obtain ⟨values, arrays, objects⟩ := ih
    refine ⟨fun depth text value rest read => ?_, fun depth text items rest read => ?_,
      fun depth text pairs rest read => ?_⟩
    · by_cases other : ∀ first, text.head? = some first → opens first = false
      · rw [scanValue_atom other] at read
        exact .atom other read
      · cases text with
        | nil => exact absurd nofun other
        | cons first inner =>
          have opened : opens first = true := by
            by_contra closed
            refine other fun again head => ?_
            rw [← Option.some.inj head]
            exact Bool.eq_false_iff.mpr closed
          simp only [opens, Bool.or_eq_true, decide_eq_true_eq] at opened
          rcases opened with (rfl | rfl) | rfl
          · rw [scanValue, if_pos rfl] at read
            obtain ⟨⟨string, behind⟩, scanned, same⟩ := exists_of_map_eq_ok read
            cases same
            exact .text (isString_of_scanString scanned)
          · exact writes_of_scanValue_object objects read
          · exact writes_of_scanValue_array arrays read
    · rw [scanItems] at read
      obtain ⟨⟨value, behind⟩, scanned, read⟩ := exists_of_bind_eq_ok read
      simp only at read
      cases close : after ']' (skipSpace behind) with
      | some ahead =>
        rw [close] at read
        cases read
        exact .lastItem (values _ _ _ _ scanned) close
      | none =>
        rw [close] at read
        cases comma : after ',' (skipSpace behind) with
        | none =>
          rw [comma] at read
          cases read
        | some next =>
          rw [comma] at read
          obtain ⟨⟨others, ahead⟩, further, read⟩ := exists_of_bind_eq_ok read
          cases read
          exact .item (values _ _ _ _ scanned) comma (arrays _ _ _ _ further)
    · rw [scanMembers] at read
      cases quote : after '"' text with
      | none =>
        rw [quote] at read
        cases read
      | some inner =>
        rw [quote] at read
        obtain rfl := after_eq_some_iff.mp quote
        obtain ⟨⟨name, behind⟩, string, read⟩ := exists_of_bind_eq_ok read
        simp only at read
        cases colon : after ':' (skipSpace behind) with
        | none =>
          rw [colon] at read
          cases read
        | some next =>
          rw [colon] at read
          obtain ⟨⟨value, ahead⟩, scanned, read⟩ := exists_of_bind_eq_ok read
          simp only at read
          cases close : after '\x7d' (skipSpace ahead) with
          | some last =>
            rw [close] at read
            cases read
            exact .lastPair (isString_of_scanString string) colon (values _ _ _ _ scanned) close
          | none =>
            rw [close] at read
            cases comma : after ',' (skipSpace ahead) with
            | none =>
              rw [comma] at read
              cases read
            | some further =>
              rw [comma] at read
              obtain ⟨⟨others, last⟩, more, read⟩ := exists_of_bind_eq_ok read
              cases read
              exact .pair (isString_of_scanString string) colon (values _ _ _ _ scanned) comma
                (objects _ _ _ _ more)

theorem skipSpace_length_le (text : PyText) : (skipSpace text).length ≤ text.length := List.length_dropWhile_le _ _

theorem length_lt_of_after {mark : Char} (found : after mark (skipSpace text) = some rest) :
    rest.length < text.length := by
  have long := skipSpace_length_le text
  rw [after_eq_some_iff.mp found, List.length_cons] at long
  omega

theorem Writes.length_lt {depth : ℕ} {piece : Piece F} (writes : Writes limits hooks depth text piece rest) :
    rest.length < text.length := by
  induction writes with
  | text is =>
    have long := is.length_lt
    rw [List.length_cons]
    omega
  | emptyObject close _ | emptyArray close =>
    have long := length_lt_of_after close
    rw [List.length_cons]
    omega
  | @object _ inner _ _ _ _ _ ih | @array _ inner _ _ _ _ ih =>
    have long := skipSpace_length_le inner
    rw [List.length_cons]
    omega
  | atom _ read => exact scanAtom_length_lt read
  | lastItem _ close ih =>
    have long := length_lt_of_after close
    omega
  | @item _ _ _ next _ _ _ _ comma _ ih further =>
    have long := length_lt_of_after comma
    have short := skipSpace_length_le next
    omega
  | @lastPair _ _ _ _ next _ _ _ is colon _ close ih =>
    have string := is.length_lt
    have mark := length_lt_of_after colon
    have long := length_lt_of_after close
    have short := skipSpace_length_le next
    rw [List.length_cons]
    omega
  | @pair _ _ _ _ next _ further _ _ _ is colon _ comma _ ih others =>
    have string := is.length_lt
    have mark := length_lt_of_after colon
    have long := length_lt_of_after comma
    have short := skipSpace_length_le next
    have last := skipSpace_length_le further
    rw [List.length_cons]
    omega

/-- The fuel that a piece takes besides that for its text. -/
def Piece.extra : Piece F → ℕ
  | .value _ => 0
  | .items _ => 1
  | .pairs _ => 1

/-- The decoder reads what is written, if it has fuel enough. -/
theorem Writes.scans {depth : ℕ} {piece : Piece F} (writes : Writes limits hooks depth text piece rest) {fuel : ℕ}
    (enough : 2 * text.length + piece.extra < fuel) : Scans limits hooks fuel depth text piece rest := by
  induction writes generalizing fuel with
  | text is =>
    obtain ⟨fuel, rfl⟩ := Nat.exists_eq_succ_of_ne_zero (Nat.ne_zero_of_lt enough)
    rw [Scans, scanValue, if_pos rfl, is.scanString]
    rfl
  | emptyObject close hook =>
    obtain ⟨fuel, rfl⟩ := Nat.exists_eq_succ_of_ne_zero (Nat.ne_zero_of_lt enough)
    rw [Scans, scanValue, if_neg (by decide), if_pos rfl, if_neg (Nat.succ_ne_zero _), close]
    simp only [objectOf, hook]
  | @object _ inner _ _ _ inside hook ih =>
    obtain ⟨fuel, rfl⟩ := Nat.exists_eq_succ_of_ne_zero (Nat.ne_zero_of_lt enough)
    have short := skipSpace_length_le inner
    rw [List.length_cons] at enough
    have members : scanMembers limits hooks fuel _ _ = _ := ih (by simp only [Piece.extra] at enough ⊢; omega)
    have open' : after '\x7d' (skipSpace inner) = none := by
      generalize skipSpace inner = text at inside
      cases inside <;> rfl
    rw [Scans, scanValue, if_neg (by decide), if_pos rfl, if_neg (Nat.succ_ne_zero _), open', Nat.add_sub_cancel]
    simp only [bind, Except.bind, members, objectOf, hook]
  | emptyArray close =>
    obtain ⟨fuel, rfl⟩ := Nat.exists_eq_succ_of_ne_zero (Nat.ne_zero_of_lt enough)
    rw [Scans, scanValue, if_neg (by decide), if_neg (by decide), if_pos rfl, if_neg (Nat.succ_ne_zero _), close]
  | @array _ inner _ _ inside item ih =>
    obtain ⟨fuel, rfl⟩ := Nat.exists_eq_succ_of_ne_zero (Nat.ne_zero_of_lt enough)
    have short := skipSpace_length_le inner
    rw [List.length_cons] at enough
    have items : scanItems limits hooks fuel _ _ = _ := ih (by simp only [Piece.extra] at enough ⊢; omega)
    rw [Scans, scanValue, if_neg (by decide), if_neg (by decide), if_pos rfl, if_neg (Nat.succ_ne_zero _), item,
      Nat.add_sub_cancel]
    simp only [bind, Except.bind, items]
  | atom other read =>
    obtain ⟨fuel, rfl⟩ := Nat.exists_eq_succ_of_ne_zero (Nat.ne_zero_of_lt enough)
    rw [Scans, scanValue_atom other, read]
  | lastItem item close ih =>
    obtain ⟨fuel, rfl⟩ := Nat.exists_eq_succ_of_ne_zero (Nat.ne_zero_of_lt enough)
    have value : scanValue limits hooks fuel _ _ = _ := ih (by simp only [Piece.extra] at enough ⊢; omega)
    rw [Scans, scanItems]
    simp only [bind, Except.bind, value, close]
  | @item _ _ behind next _ _ _ item comma others ih further =>
    obtain ⟨fuel, rfl⟩ := Nat.exists_eq_succ_of_ne_zero (Nat.ne_zero_of_lt enough)
    have value : scanValue limits hooks fuel _ _ = _ := ih (by simp only [Piece.extra] at enough ⊢; omega)
    have shorter := item.length_lt
    have mark := length_lt_of_after comma
    have short := skipSpace_length_le next
    have items : scanItems limits hooks fuel _ _ = _ := further (by simp only [Piece.extra] at enough ⊢; omega)
    have open' : after ']' (skipSpace behind) = none := by
      rw [after_eq_some_iff.mp comma]
      rfl
    rw [Scans, scanItems]
    simp only [bind, Except.bind, value, open', comma, items]
  | @lastPair _ _ _ behind next _ _ _ is colon item close ih =>
    obtain ⟨fuel, rfl⟩ := Nat.exists_eq_succ_of_ne_zero (Nat.ne_zero_of_lt enough)
    have string := is.length_lt
    have mark := length_lt_of_after colon
    have short := skipSpace_length_le next
    rw [List.length_cons] at enough
    have value : scanValue limits hooks fuel _ _ = _ := ih (by simp only [Piece.extra] at enough ⊢; omega)
    rw [Scans, scanMembers, after_eq_some_iff.mpr rfl]
    simp only [bind, Except.bind, is.scanString, colon, value, close]
  | @pair _ _ _ behind next ahead further _ _ _ is colon item comma others ih more =>
    obtain ⟨fuel, rfl⟩ := Nat.exists_eq_succ_of_ne_zero (Nat.ne_zero_of_lt enough)
    have string := is.length_lt
    have mark := length_lt_of_after colon
    have short := skipSpace_length_le next
    have shorter := item.length_lt
    have last := length_lt_of_after comma
    have shortest := skipSpace_length_le further
    rw [List.length_cons] at enough
    have value : scanValue limits hooks fuel _ _ = _ := ih (by simp only [Piece.extra] at enough ⊢; omega)
    have pairs : scanMembers limits hooks fuel _ _ = _ := more (by simp only [Piece.extra] at enough ⊢; omega)
    have open' : after '\x7d' (skipSpace ahead) = none := by
      rw [after_eq_some_iff.mp comma]
      rfl
    rw [Scans, scanMembers, after_eq_some_iff.mpr rfl]
    simp only [bind, Except.bind, is.scanString, colon, value, open', comma, pairs]

/-- What may follow a piece in another text: anything, but behind a value of open end. -/
def Piece.MayGoOn (rest more : PyText) : Piece F → Prop
  | .value _ => more = [] ∨ Stops rest
  | .items _ => True
  | .pairs _ => True

/-- What is written is written still, when the text goes on and more containers may be opened. -/
theorem Writes.append {depth : ℕ} {piece : Piece F} (writes : Writes limits hooks depth text piece rest)
    (goesOn : piece.MayGoOn rest more) {deeper : ℕ} (deep : depth ≤ deeper) :
    Writes limits hooks deeper (text ++ more) piece (rest ++ more) := by
  have skip {text rest : PyText} {piece : Piece F} {depth : ℕ}
      (inside : Writes limits hooks depth (skipSpace text) piece rest) :
      skipSpace (text ++ more) = skipSpace text ++ more :=
    dropWhile_append_of_ne_nil fun none => by
      have long := inside.length_lt
      rw [skipSpace, none] at long
      exact absurd long (Nat.not_lt_zero _)
  induction writes generalizing deeper with
  | text is => exact .text (is.append more)
  | emptyObject close hook =>
    obtain ⟨deeper, rfl⟩ := Nat.exists_eq_add_of_le' (Nat.le_of_add_left_le deep)
    exact .emptyObject (after_dropWhile_append close) hook
  | object inside hook ih =>
    obtain ⟨deeper, rfl⟩ := Nat.exists_eq_add_of_le' (Nat.le_of_add_left_le deep)
    exact .object (skip inside ▸ ih trivial (by omega)) hook
  | emptyArray close =>
    obtain ⟨deeper, rfl⟩ := Nat.exists_eq_add_of_le' (Nat.le_of_add_left_le deep)
    exact .emptyArray (after_dropWhile_append close)
  | array inside item ih =>
    obtain ⟨deeper, rfl⟩ := Nat.exists_eq_add_of_le' (Nat.le_of_add_left_le deep)
    refine .array (skip inside ▸ ih trivial (by omega)) ((congrArg _ (skip inside)).trans ?_)
    refine after_append_of_ne_nil (fun none => ?_) item
    have long := inside.length_lt
    rw [none] at long
    exact absurd long (Nat.not_lt_zero _)
  | @atom _ text _ _ other read =>
    refine .atom (fun first head => other first ?_) (scanAtom_append read goesOn)
    have long := scanAtom_length_lt read
    cases text with
    | nil => exact absurd long (Nat.not_lt_zero _)
    | cons => exact head
  | lastItem item close ih =>
    exact .lastItem (ih (.inr (stops_of_after (by decide) close)) deep) (after_dropWhile_append close)
  | item item comma others ih further =>
    exact .item (ih (.inr (stops_of_after (by decide) comma)) deep) (after_dropWhile_append comma)
      (skip others ▸ further trivial deep)
  | lastPair is colon item close ih =>
    exact .lastPair (is.append more) (after_dropWhile_append colon)
      (skip item ▸ ih (.inr (stops_of_after (by decide) close)) deep) (after_dropWhile_append close)
  | pair is colon item comma others ih further =>
    exact .pair (is.append more) (after_dropWhile_append colon)
      (skip item ▸ ih (.inr (stops_of_after (by decide) comma)) deep) (after_dropWhile_append comma)
      (skip others ▸ further trivial deep)

theorem rawDecode_eq_ok_iff {value : PyJson F} :
    rawDecode limits hooks text = .ok (value, rest) ↔ Writes limits hooks limits.depth text (.value value) rest :=
  ⟨(writes_of_scan _).1 _ _ _ _, fun writes => writes.scans (Nat.lt_succ_self _)⟩

theorem loads_of_writes {value : PyJson F} (plain : text.head? ≠ some (.char '\ufeff'))
    (writes : Writes limits hooks limits.depth (skipSpace text) (.value value) rest) (ended : skipSpace rest = []) :
    loads limits hooks text = .ok value := by
  rw [loads, if_neg plain, rawDecode_eq_ok_iff.mpr writes]
  exact if_pos ended

/-- A word or a number is no string. -/
theorem scanAtom_ne_text {value : PyText} : scanAtom limits hooks text ≠ .ok (.text value, rest) := by
  intro read
  rw [scanAtom] at read
  cases word : (words hooks).find? fun word => (PyText.ofString word.1).isPrefixOf text with
  | none =>
    rw [word] at read
    cases number : number? text with
    | none =>
      simp only [number] at read
      cases read
    | some found =>
      simp only [number] at read
      obtain ⟨result, converted, same⟩ := exists_of_map_eq_ok read
      rw [(Prod.mk.inj same).1, convert] at converted
      split_ifs at converted
      · cases converted
      · split at converted <;> cases converted
  | some found =>
    have member := List.mem_of_find?_eq_some word
    obtain ⟨name, result⟩ := found
    rw [word] at read
    cases result with
    | none => cases read
    | some result =>
      cases read
      have plain : ∀ word ∈ words hooks, ∀ value, word.2 ≠ some (.text value) := by
        intro word member value same
        simp only [words, List.map_cons, List.map_nil, List.cons_append, List.nil_append, List.mem_cons,
          List.not_mem_nil, or_false] at member
        rcases member with rfl | rfl | rfl | rfl | rfl | rfl
        · cases same
        · cases same
        · cases same
        all_goals
          obtain ⟨constant, _, same⟩ := Option.map_eq_some_iff.mp same
          cases same
      exact plain _ member value rfl

/-- A value does not begin with white space. -/
theorem Writes.head {depth : ℕ} {value : PyJson F} (writes : Writes limits hooks depth text (.value value) rest) :
    ∃ first others, text = first :: others ∧ first.isSpace = false := by
  cases writes with
  | text => exact ⟨_, _, rfl, by decide⟩
  | emptyObject => exact ⟨_, _, rfl, by decide⟩
  | object => exact ⟨_, _, rfl, by decide⟩
  | emptyArray => exact ⟨_, _, rfl, by decide⟩
  | array => exact ⟨_, _, rfl, by decide⟩
  | atom other read =>
    have solid {first : Point} (digit : first.isDigit = true) : first.isSpace = false := by
      cases first with
      | surrogate unit => rfl
      | char value =>
        have range : 48 ≤ value.val.toNat ∧ value.val.toNat ≤ 57 := by
          simpa [Point.isDigit, Char.isDigit, UInt32.le_iff_toNat_le] using digit
        simp only [Point.isSpace, Text.isSpace, Bool.or_eq_false_iff, Bool.and_eq_false_iff,
          decide_eq_false_iff_not]
        omega
    rw [scanAtom] at read
    cases word : (words hooks).find? fun word => (PyText.ofString word.1).isPrefixOf text with
    | none =>
      rw [word] at read
      cases number : number? text with
      | none =>
        simp only [number] at read
        cases read
      | some found =>
        rcases head_of_number? number with ⟨first, others, rfl, digit⟩ | ⟨first, others, rfl, _⟩
        · exact ⟨first, others, rfl, solid digit⟩
        · exact ⟨_, _, rfl, by decide⟩
    | some found =>
      have here := List.find?_some word
      have member := name_mem (List.mem_of_find?_eq_some word)
      obtain ⟨first, head, _, solid, _⟩ := head_of_name member
      rw [← head?_of_isPrefixOf member here] at head
      cases text with
      | nil => cases head
      | cons other others =>
        obtain rfl := Option.some.inj head
        exact ⟨_, others, rfl, solid⟩

/-- A string is written with its quotation marks. -/
theorem Writes.isString {depth : ℕ} {value : PyText} (writes : Writes limits hooks depth text (.value (.text value)) rest) :
    ∃ inner, text = .char '"' :: inner ∧ IsString inner value rest := by
  cases writes with
  | text is => exact ⟨_, rfl, is⟩
  | atom other read => exact absurd read scanAtom_ne_text

theorem exists_writes_of_loadsPairs {pairs : List (PyText × PyJson F)}
    (read : loadsPairs limits hooks text = .ok pairs) (some : pairs ≠ []) :
    ∃ inner depth rest, skipSpace text = .char '\x7b' :: inner ∧ depth ≤ limits.depth ∧
      Writes limits hooks depth (skipSpace inner) (.pairs pairs) rest := by
  rw [loadsPairs] at read
  split at read
  · cases read
  · rename_i inner opened
    split_ifs at read with shallow
    split at read
    · split_ifs at read
      exact absurd (Except.ok.inj read).symm some
    · obtain ⟨⟨found, rest⟩, members, read⟩ := exists_of_bind_eq_ok read
      simp only at read
      split_ifs at read
      obtain rfl := Except.ok.inj read
      exact ⟨inner, limits.depth - 1, rest, after_eq_some_iff.mp opened, Nat.sub_le _ _,
        (writes_of_scan _).2.2 _ _ _ _ members⟩

theorem loadsPairs_of_writes {inner : PyText} {depth : ℕ} {pairs : List (PyText × PyJson F)}
    (opened : skipSpace text = .char '\x7b' :: inner) (deep : limits.depth = depth + 1)
    (writes : Writes limits hooks depth (skipSpace inner) (.pairs pairs) rest) (ended : skipSpace rest = []) :
    loadsPairs limits hooks text = .ok pairs := by
  have long := skipSpace_length_le text
  have short := skipSpace_length_le inner
  rw [opened, List.length_cons] at long
  have members : scanMembers limits hooks (2 * text.length + 1) depth (skipSpace inner) = .ok (pairs, rest) :=
    writes.scans (by simp only [Piece.extra]; omega)
  have some : after '\x7d' (skipSpace inner) = none := by
    generalize skipSpace inner = text at writes
    cases writes <;> rfl
  rw [loadsPairs, opened, after_eq_some_iff.mpr rfl]
  simp only [deep, Nat.succ_ne_zero, if_false, some, Nat.add_sub_cancel, bind, Except.bind, members, ended, if_true]

end

end JsonDecode

end MetaResearch

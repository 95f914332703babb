import MetaResearch.Model.ChatProgress.AnswerText
import MetaResearch.ToMathlib.JsonDecodeLaws

/-! # Partial strings

What is shown of a string whose text is cut is the beginning of what is shown of it later, and of the string that
the decoder reads from the whole text.
-/

namespace MetaResearch.ChatProgress

open JsonDecode (Element IsElement IsString escapes hexDigit? hexUnit? unitEscape? pointOf)

variable {decimal : Char → Option (Fin 10)}

/-! ### Numbers of four digits -/

theorem digit16_of_hexDigit? {point : Point} {digit : ℕ} (found : hexDigit? point = some digit) :
    digit16 decimal point = some digit := by
  simp only [digit16, found]

theorem hexDigit?_char {point : Point} {digit : ℕ} (found : hexDigit? point = some digit) :
    ∃ value, point = .char value ∧ Text.isSpace value = false ∧ value ∉ ['_', '+', '-', 'x', 'X'] := by
  cases point with
  | surrogate unit => cases found
  | char value =>
    refine ⟨value, rfl, ?_⟩
    have range : 48 ≤ value.val.toNat ∧ value.val.toNat ≤ 57 ∨ 97 ≤ value.val.toNat ∧ value.val.toNat ≤ 102 ∨
        65 ≤ value.val.toNat ∧ value.val.toNat ≤ 70 := by
      rw [hexDigit?] at found
      split_ifs at found with decimal lower upper
      · left
        simpa [Char.isDigit, UInt32.le_iff_toNat_le] using decimal
      · right; left
        simpa [Char.le_def, UInt32.le_iff_toNat_le] using lower
      · right; right
        simpa [Char.le_def, UInt32.le_iff_toNat_le] using upper
    constructor
    · simp only [Text.isSpace, Bool.or_eq_false_iff, Bool.and_eq_false_iff, decide_eq_false_iff_not]
      omega
    · simp only [List.mem_cons, List.not_mem_nil, or_false, not_or]
      refine ⟨?_, ?_, ?_, ?_, ?_⟩ <;> rintro rfl <;> revert range <;> decide

theorem strip_eq_self {first last : Char} (middle : PyText) (front : Text.isSpace first = false)
    (back : Text.isSpace last = false) :
    PyText.strip (.char first :: (middle ++ [.char last])) = .char first :: (middle ++ [.char last]) := by
  have lead : PyText.lstrip (.char first :: (middle ++ [.char last])) = .char first :: (middle ++ [.char last]) :=
    List.dropWhile_cons_of_neg (by simp [Point.isSpace, front])
  have trail : PyText.lstrip (.char last :: (middle.reverse ++ [.char first])) =
      .char last :: (middle.reverse ++ [.char first]) :=
    List.dropWhile_cons_of_neg (by simp [Point.isSpace, back])
  rw [PyText.strip, lead, PyText.rstrip, List.reverse_cons, List.reverse_append, List.reverse_singleton,
    List.singleton_append, List.cons_append, trail]
  simp

/-- Four hexadecimal digits are read by `int` as by the decoder. -/
theorem int16_of_hexUnit? {digits : PyText} {unit : ℕ} (found : hexUnit? digits = some unit) :
    int16 decimal (digits.take 4) = some (unit : ℤ) := by
  match digits with
  | [] | [_] | [_, _] | [_, _, _] => cases found
  | first :: second :: third :: fourth :: rest =>
    simp only [hexUnit?, Option.bind_eq_bind, Option.bind_eq_some_iff, Option.pure_def, Option.some.injEq] at found
    obtain ⟨one, isOne, two, isTwo, three, isThree, four, isFour, rfl⟩ := found
    obtain ⟨a, rfl, solidFirst, plainFirst⟩ := hexDigit?_char isOne
    obtain ⟨b, rfl, _, plainSecond⟩ := hexDigit?_char isTwo
    obtain ⟨c, rfl, _, plainThird⟩ := hexDigit?_char isThree
    obtain ⟨d, rfl, solidFourth, _⟩ := hexDigit?_char isFour
    simp only [List.mem_cons, List.not_mem_nil, or_false, not_or] at plainFirst plainSecond plainThird
    have stripped := strip_eq_self [.char b, .char c] solidFirst solidFourth
    rw [show List.take 4 (Point.char a :: .char b :: .char c :: .char d :: rest) =
      Point.char a :: ([.char b, .char c] ++ [.char d]) from rfl, int16, stripped]
    simp only [List.cons_append, List.nil_append, Point.char.injEq, plainFirst, if_false, unprefixed, plainSecond,
      or_self, and_false, unsigned16, digit16_of_hexDigit? isOne, moreDigits, digit16_of_hexDigit? isTwo,
      digit16_of_hexDigit? isThree, digit16_of_hexDigit? isFour, plainThird, Option.bind_some, Option.map_some]
    congr 1
    rw [Int.ofNat_eq_natCast]
    omega

/-! ### One turn of the loop -/

variable {source more : PyText}

theorem unitAt_of_unitEscape? (decimal : Char → Option (Fin 10)) {unit : ℕ} (found : unitEscape? source = some unit) :
    source.take 2 = [.char '\\', .char 'u'] ∧ unitAt decimal source = some (unit : ℤ) := by
  have long := JsonDecode.length_of_unitEscape? found
  match source with
  | [] | [_] => cases found
  | first :: second :: digits =>
    rw [unitEscape?] at found
    split_ifs at found with mark
    obtain ⟨rfl, rfl⟩ := mark
    refine ⟨rfl, ?_⟩
    rw [unitAt, if_neg (not_lt.mpr long)]
    exact int16_of_hexUnit? found

theorem unitAt_append {value : ℤ} (found : unitAt decimal source = some value) (more : PyText) :
    unitAt decimal (source ++ more) = some value ∧ 6 ≤ source.length := by
  rw [unitAt] at found
  split_ifs at found with short
  rw [not_lt] at short
  refine ⟨?_, short⟩
  rw [unitAt, if_neg (by rw [List.length_append]; omega), List.drop_append_of_le_length (by omega),
    List.take_append_of_le_length (by rw [List.length_drop]; omega)]
  exact found

theorem lowAt_append {low : ℕ} (found : lowAt decimal source = some low) (more : PyText) :
    lowAt decimal (source ++ more) = some low := by
  rw [lowAt] at found
  split_ifs at found with mark
  obtain ⟨value, unit, low⟩ := Option.bind_eq_some_iff.mp found
  have next := unitAt_append unit more
  rw [lowAt, List.take_append_of_le_length (by omega), if_pos mark, next.1]
  exact low

/-- A turn at a cut text is a break, or the turn at the whole text. -/
theorem shownPoint_append (decimal : Char → Option (Fin 10)) (source more : PyText) :
    shownPoint decimal source = .ok none ∨ shownPoint decimal (source ++ more) = shownPoint decimal source := by
  match source with
  | [] => exact .inl rfl
  | [char] =>
    rw [shownPoint, List.singleton_append, shownPoint]
    split_ifs
    · exact .inr rfl
    · exact .inl rfl
    · exact .inr rfl
    · exact .inl rfl
  | char :: escaped :: digits =>
    rw [shownPoint, List.cons_append, List.cons_append, shownPoint]
    split_ifs
    · exact .inr rfl
    · exact .inl rfl
    · exact .inr rfl
    · simp only [List.head?_cons]
      cases escapes.lookup escaped with
      | some value => exact .inr rfl
      | none =>
        simp only
        split_ifs
        · exact .inl rfl
        · cases unit : unitAt decimal (char :: escaped :: digits) with
          | none => exact .inl rfl
          | some point =>
            obtain ⟨still, long⟩ := unitAt_append unit more
            rw [List.cons_append, List.cons_append] at still
            simp only [still]
            split_ifs
            · cases low : lowAt decimal ((char :: escaped :: digits).drop 6) with
              | none => exact .inl rfl
              | some value =>
                right
                have next := lowAt_append low more
                rw [← List.drop_append_of_le_length long] at next
                rw [← List.cons_append, ← List.cons_append, next]
            · exact .inl rfl
            · exact .inr rfl
            · exact .inr rfl

theorem isSurrogate_pointOf {code : ℕ} (shown : (pointOf code).isSurrogate = false) :
    ¬ (0xD800 ≤ code ∧ code ≤ 0xDFFF) := by
  intro surrogate
  rw [pointOf, dif_pos surrogate] at shown
  cases shown

theorem lookup_u : escapes.lookup (.char 'u') = none := by decide

/-- A turn at an element that is no surrogate appends it. -/
theorem shownPoint_of_isElement {value : Point} {width : ℕ} (is : IsElement source (.point value width))
    (shown : value.isSurrogate = false) : shownPoint decimal source = .ok (some (value, width)) := by
  have escaped {text : PyText} (mark : text.take 2 = [.char '\\', .char 'u']) :
      ∃ digits, text = .char '\\' :: .char 'u' :: digits := ⟨text.drop 2, by
        rw [← List.take_append_drop 2 text, mark]
        rfl⟩
  generalize same : Element.point value width = found at is
  cases is with
  | quote => cases same
  | plain first rest notQuote notSlash printable =>
    obtain ⟨rfl, rfl⟩ := Element.point.inj same
    rw [shownPoint, if_neg notQuote, if_pos notSlash, if_neg]
    simp [printable, shown]
  | escape letter value rest found =>
    obtain ⟨rfl, rfl⟩ := Element.point.inj same
    rw [shownPoint, if_neg (by decide), if_neg (not_not_intro rfl)]
    simp only [List.head?_cons, found]
  | unit _ unit found single =>
    obtain ⟨rfl, rfl⟩ := Element.point.inj same
    have plain := isSurrogate_pointOf shown
    obtain ⟨mark, read⟩ := unitAt_of_unitEscape? decimal found
    obtain ⟨digits, rfl⟩ := escaped mark
    rw [shownPoint, if_neg (by decide), if_neg (not_not_intro rfl)]
    simp only [List.head?_cons, lookup_u, ne_eq, not_true_eq_false, if_false, read]
    rw [if_neg (by omega), if_neg (by omega), if_neg (by omega)]
    rfl
  | pair _ high low found next surrogates =>
    have parts := Element.point.inj same
    rw [parts.1, parts.2]
    simp only [JsonDecode.isHigh, JsonDecode.isLow, Bool.and_eq_true, decide_eq_true_eq] at surrogates
    obtain ⟨mark, read⟩ := unitAt_of_unitEscape? decimal found
    obtain ⟨lowMark, lowRead⟩ := unitAt_of_unitEscape? decimal next
    have lowFound : lowAt decimal (source.drop 6) = some low := by
      rw [lowAt, if_pos lowMark, lowRead, Option.bind_some, if_pos (by omega)]
      rfl
    obtain ⟨digits, rfl⟩ := escaped mark
    rw [shownPoint, if_neg (by decide), if_neg (not_not_intro rfl)]
    simp only [List.head?_cons, lookup_u, ne_eq, not_true_eq_false, if_false, read, lowFound]
    rw [if_pos (by omega)]
    rfl

theorem shownPoint_width {value : Point} {width : ℕ} (shown : shownPoint decimal source = .ok (some (value, width))) :
    1 ≤ width ∧ width ≤ source.length := by
  match source with
  | [] => cases shown
  | [char] =>
    rw [shownPoint] at shown
    split_ifs at shown
    · cases shown
    · cases shown
    · cases shown
      exact ⟨le_refl _, le_refl _⟩
    · cases shown
  | char :: escaped :: digits =>
    rw [shownPoint] at shown
    split_ifs at shown
    · cases shown
    · cases shown
    · cases shown
      simp
    · simp only [List.head?_cons] at shown
      cases letter : escapes.lookup escaped with
      | some found =>
        rw [letter] at shown
        cases shown
        simp
      | none =>
        simp only [letter] at shown
        split_ifs at shown
        · cases shown
        · cases unit : unitAt decimal (char :: escaped :: digits) with
          | none =>
            rw [unit] at shown
            cases shown
          | some point =>
            have long := (unitAt_append unit []).2
            simp only [unit] at shown
            split_ifs at shown
            · cases low : lowAt decimal ((char :: escaped :: digits).drop 6) with
              | none =>
                rw [low] at shown
                cases shown
              | some found =>
                rw [low] at shown
                rw [lowAt] at low
                split_ifs at low
                obtain ⟨next, there, _⟩ := Option.bind_eq_some_iff.mp low
                have longer := (unitAt_append there []).2
                rw [List.length_drop] at longer
                have same := congrArg Prod.snd (Option.some.inj (Except.ok.inj shown))
                change 12 = width at same
                omega
            · cases shown
            · have same := congrArg Prod.snd (Option.some.inj (Except.ok.inj shown))
              change 6 = width at same
              omega

/-! ### The loop -/

theorem prefixFrom_skip (left skip : ℕ) (source : PyText) :
    prefixFrom decimal left skip source = prefixFrom decimal left 0 (source.drop skip) := by
  induction source generalizing skip with
  | nil => rw [List.drop_nil, prefixFrom, prefixFrom]
  | cons char rest ih =>
    cases skip with
    | zero => rfl
    | succ skip => rw [prefixFrom, ih, List.drop_succ_cons]

theorem prefixFrom_zero (source : PyText) : prefixFrom decimal 0 0 source = .ok [] := by
  cases source with
  | nil => rw [prefixFrom]
  | cons => rw [prefixFrom]

theorem prefixFrom_stop {left : ℕ} (stop : shownPoint decimal source = .ok none) :
    prefixFrom decimal left 0 source = .ok [] := by
  cases left with
  | zero => exact prefixFrom_zero source
  | succ left =>
    cases source with
    | nil => rw [prefixFrom]
    | cons char rest => rw [prefixFrom, stop]

theorem prefixFrom_point {left : ℕ} {value : Point} {width : ℕ}
    (shown : shownPoint decimal source = .ok (some (value, width))) :
    prefixFrom decimal (left + 1) 0 source =
      (prefixFrom decimal left 0 (source.drop width)).map (value :: ·) := by
  obtain ⟨some, _⟩ := shownPoint_width shown
  obtain ⟨less, rfl⟩ := Nat.exists_eq_add_of_le' some
  cases source with
  | nil => cases shown
  | cons char rest =>
    rw [prefixFrom, shown]
    simp only [Nat.add_sub_cancel, List.drop_succ_cons]
    rw [prefixFrom_skip]

/-- What is shown of a cut string is the beginning of what is shown of the whole. -/
theorem prefixFrom_append {left : ℕ} {second : PyText}
    (shown : prefixFrom decimal left 0 (source ++ more) = .ok second) :
    ∃ first, prefixFrom decimal left 0 source = .ok first ∧ first <+: second := by
  induction left generalizing source second with
  | zero => exact ⟨[], prefixFrom_zero source, List.nil_prefix⟩
  | succ left ih =>
    rcases shownPoint_append decimal source more with stop | same
    · exact ⟨[], prefixFrom_stop stop, List.nil_prefix⟩
    · cases turn : shownPoint decimal source with
      | error error =>
        cases source with
        | nil => cases turn
        | cons char rest =>
          rw [turn] at same
          rw [List.cons_append] at shown same
          rw [prefixFrom, same] at shown
          cases shown
      | ok found =>
        cases found with
        | none => exact ⟨[], prefixFrom_stop turn, List.nil_prefix⟩
        | some point =>
          obtain ⟨value, width⟩ := point
          rw [turn] at same
          rw [prefixFrom_point same, List.drop_append_of_le_length (shownPoint_width turn).2] at shown
          obtain ⟨others, further, rfl⟩ := JsonDecode.exists_of_map_eq_ok shown
          obtain ⟨first, here, begins⟩ := ih further
          refine ⟨value :: first, ?_, List.cons_prefix_cons.mpr ⟨rfl, begins⟩⟩
          rw [prefixFrom_point turn, here]
          rfl

/-- Of a whole string so many code points are shown. -/
theorem prefixFrom_of_isString {left : ℕ} {value rest : PyText} (is : IsString source value rest)
    (encodable : PyText.encodable value = true) : prefixFrom decimal left 0 source = .ok (value.take left) := by
  induction is generalizing left with
  | quote rest => rw [prefixFrom_stop rfl, List.take_nil]
  | point is next ih =>
    simp only [PyText.encodable, List.all_cons, Bool.and_eq_true, Bool.not_eq_true'] at encodable
    cases left with
    | zero => rw [prefixFrom_zero, List.take_zero]
    | succ left =>
      rw [prefixFrom_point (shownPoint_of_isElement is encodable.1), ih encodable.2, List.take_succ_cons]
      rfl

theorem stringPrefix_append {second : PyText} (shown : stringPrefix decimal (source ++ more) = .ok second) :
    ∃ first, stringPrefix decimal source = .ok first ∧ first <+: second := by
  rw [stringPrefix] at shown ⊢
  cases opened : JsonDecode.after '"' source with
  | none => exact ⟨[], rfl, List.nil_prefix⟩
  | some inner =>
    rw [JsonDecode.after_append opened] at shown
    exact prefixFrom_append shown

end MetaResearch.ChatProgress

import MetaResearch.Model.RuntimeConditions.Prompt

/-! # Splitting a prompt undoes composing it

The split accepts what stands under a well-formed header and takes exactly the announced number of code
points, so the conditions may contain anything, a header of their own included. A prompt without
conditions comes back unless it looks like one with conditions.
-/

namespace MetaResearch.RuntimeConditions

variable {decimals : Decimals} {prompt conditions : PyText}

/-! ### Headers -/

theorem Decimals.number_append (front back : PyText) : decimals.number (front ++ back) =
    back.foldl (fun total point => 10 * total + (decimals.value point).getD 0) (decimals.number front) :=
  List.foldl_append

/-- The digits of a number are read back. -/
theorem Decimals.decimal_spec (number : ℕ) :
    (∀ point ∈ decimal number, (decimals.value point).isSome) ∧ decimals.number (decimal number) = number := by
  induction number using Nat.strong_induction_on with
  | _ number ih =>
    rcases Nat.lt_or_ge number 10 with small | large
    · rw [decimal, Nat.toDigits_of_lt_base small]
      simp [Decimals.number, decimals.ascii number small]
    · have last := decimals.ascii (number % 10) (Nat.mod_lt _ (by decide))
      obtain ⟨digits, value⟩ := ih (number / 10) (Nat.div_lt_self (by omega) (by decide))
      have split : decimal number = decimal (number / 10) ++ [.char (Nat.digitChar (number % 10))] := by
        rw [decimal, Nat.toDigits_of_base_le (by decide) large, List.map_append]
        rfl
      rw [split, Decimals.number_append, value]
      constructor
      · simp only [List.forall_mem_append, List.forall_mem_singleton, last]
        exact ⟨digits, rfl⟩
      · simp only [List.foldl_cons, List.foldl_nil, last, Option.getD_some]
        omega

/-- A text without a line break, and what stands after the first one. -/
theorem takeWhile_line {line body : PyText} (single : ∀ point ∈ line, point ≠ newline) :
    (line ++ newline :: body).takeWhile (· ≠ newline) = line ∧
      (line ++ newline :: body).dropWhile (· ≠ newline) = newline :: body := by
  have kept : ∀ point ∈ line, decide (point ≠ newline) = true := fun point member =>
    decide_eq_true (single point member)
  constructor
  · rw [List.takeWhile_append_of_pos kept, List.takeWhile_cons_of_neg (by simp), List.append_nil]
  · rw [List.dropWhile_append_of_pos kept, List.dropWhile_cons_of_neg (by simp)]

theorem dropWhile_line {text : PyText} (broken : (text.dropWhile (· ≠ newline)).isEmpty = false) :
    ∃ body, text.dropWhile (· ≠ newline) = newline :: body ∧
      text = text.takeWhile (· ≠ newline) ++ newline :: body := by
  have whole : text.takeWhile (· ≠ newline) ++ text.dropWhile (· ≠ newline) = text :=
    List.takeWhile_append_dropWhile
  cases rest : text.dropWhile (· ≠ newline) with
  | nil =>
    rw [rest] at broken
    cases broken
  | cons first body =>
    have stops := List.head?_dropWhile_not (fun point => decide (point ≠ newline)) text
    rw [rest] at stops whole
    obtain rfl : first = newline := by simpa using stops
    exact ⟨body, rfl, whole.symm⟩

/-- A slice of the body is followed by what is there. -/
theorem take_append_of_take_drop {body middle : PyText} {length : ℕ}
    (there : (body.drop length).take middle.length = middle) :
    body = body.take length ++ (middle ++ body.drop (length + middle.length)) := by
  have rest := List.take_append_drop middle.length (body.drop length)
  rw [there, List.drop_drop] at rest
  rw [rest, List.take_append_drop]

theorem prefix_single_line : ∀ point ∈ conditionsPrefix, point ≠ newline := by decide

/-- Digits that announce a length, on one line. -/
structure Announces (decimals : Decimals) (lengthText : PyText) (length : ℕ) : Prop where
  single : ∀ point ∈ lengthText, point ≠ newline
  digits : decimals.isDecimal lengthText = true
  short : lengthText.length ≤ intMaxDigits
  number : decimals.number lengthText = length

/-- The whole prompt under a header with these digits. -/
def announced (lengthText conditions prompt : PyText) : PyText :=
  conditionsPrefix ++ lengthText ++ PyText.ofString "]\n" ++ conditions ++ [newline, newline] ++ prompt

theorem announced_eq (lengthText conditions prompt : PyText) :
    announced lengthText conditions prompt = (conditionsPrefix ++ lengthText ++ [.char ']']) ++
      newline :: (conditions ++ ([newline, newline] ++ prompt)) := by
  have close : PyText.ofString "]\n" = [.char ']', newline] := rfl
  simp [announced, close]

theorem splitRuntimePrompt_announced {lengthText : PyText}
    (announces : Announces decimals lengthText conditions.length) (some : conditions ≠ []) :
    splitRuntimePrompt decimals (announced lengthText conditions prompt) = .ok (conditions, prompt) := by
  have single : ∀ point ∈ conditionsPrefix ++ lengthText ++ [.char ']'], point ≠ newline := by
    simp only [List.forall_mem_append, List.forall_mem_singleton]
    exact ⟨⟨prefix_single_line, announces.single⟩, by decide⟩
  have starts : conditionsPrefix.isPrefixOf (announced lengthText conditions prompt) = true := by
    rw [List.isPrefixOf_iff_prefix, announced]
    simp only [List.append_assoc]
    exact List.prefix_append _ _
  obtain ⟨header, rest⟩ := @takeWhile_line _ (conditions ++ ([newline, newline] ++ prompt)) single
  rw [← announced_eq] at header rest
  have positive : 1 ≤ conditions.length := List.length_pos_iff.mpr some
  have digits : ((conditionsPrefix ++ lengthText ++ [Point.char ']']).drop conditionsPrefix.length).dropLast =
      lengthText := by
    rw [List.append_assoc, List.drop_left, List.dropLast_concat]
  unfold splitRuntimePrompt
  rw [starts, Bool.not_true, if_neg Bool.false_ne_true]
  simp only [header, rest, digits, List.getLast?_concat, announces.digits, announces.number,
    check_then_eq_ok_iff, require_eq_ok_iff, List.drop_succ_cons, List.drop_zero]
  refine ⟨rfl, decide_eq_true announces.short, ?_, ?_⟩
  · simp [positive]
  · rw [List.take_left, ← List.drop_drop, List.drop_left]
    rfl

/-- What the split accepts: a prompt without the prefix, or a well-formed header and under it as many
code points of conditions as it announces, an empty line and the prompt. -/
theorem splitRuntimePrompt_eq_ok_iff {whole : PyText} :
    splitRuntimePrompt decimals whole = .ok (conditions, prompt) ↔
      (¬ conditionsPrefix <+: whole ∧ conditions = [] ∧ prompt = whole) ∨
      (conditions ≠ [] ∧ ∃ lengthText, Announces decimals lengthText conditions.length ∧
        whole = announced lengthText conditions prompt) := by
  constructor
  · intro accepted
    unfold splitRuntimePrompt at accepted
    by_cases starts : conditionsPrefix <+: whole
    · refine .inr ?_
      rw [List.isPrefixOf_iff_prefix.mpr starts, Bool.not_true, if_neg Bool.false_ne_true] at accepted
      simp only [check_then_eq_ok_iff, require_eq_ok_iff, Bool.and_eq_true, decide_eq_true_eq,
        Bool.not_eq_true'] at accepted
      obtain ⟨⟨⟨line, close⟩, decimal⟩, short, ⟨positive, apart⟩, ⟨⟩⟩ := accepted
      obtain ⟨tail, rfl⟩ := starts
      have kept : ∀ point ∈ conditionsPrefix, decide (point ≠ newline) = true := fun point member =>
        decide_eq_true (prefix_single_line point member)
      rw [List.takeWhile_append_of_pos kept] at close decimal short positive apart ⊢
      rw [List.dropWhile_append_of_pos kept] at line apart ⊢
      rw [List.drop_left] at decimal short positive apart ⊢
      obtain ⟨body, rest, split⟩ := dropWhile_line line
      rw [rest, List.drop_succ_cons, List.drop_zero] at apart ⊢
      obtain ⟨lengthText, last, header⟩ : ∃ lengthText last,
          tail.takeWhile (· ≠ newline) = lengthText ++ [last] := by
        rcases List.eq_nil_or_concat' (tail.takeWhile (· ≠ newline)) with empty | found
        · rw [empty] at decimal
          cases decimal
        · exact found
      have single : ∀ point ∈ lengthText, point ≠ newline := fun point member => by
        have listed : point ∈ tail.takeWhile (· ≠ newline) := by
          rw [header]
          exact List.mem_append_left _ member
        simpa using List.mem_takeWhile_imp listed
      rw [header] at close decimal short positive apart split ⊢
      rw [← List.append_assoc, List.getLast?_concat] at close
      rw [List.dropLast_concat] at decimal short positive apart ⊢
      obtain rfl := Option.some.inj close
      have enough : decimals.number lengthText ≤ body.length := by
        by_contra short
        rw [List.drop_eq_nil_of_le (by omega)] at apart
        cases apart
      have size : (body.take (decimals.number lengthText)).length = decimals.number lengthText :=
        List.length_take_of_le enough
      have there : (body.drop (decimals.number lengthText)).take [newline, newline].length =
          [newline, newline] := apart
      refine ⟨List.ne_nil_of_length_pos (by omega), lengthText, ⟨single, decimal, short, size.symm⟩, ?_⟩
      rw [announced_eq, split]
      refine (List.append_assoc _ _ _).symm.trans ?_
      rw [← List.append_assoc]
      exact congrArg _ (congrArg _ (take_append_of_take_drop there))
    · rw [← List.isPrefixOf_iff_prefix, Bool.not_eq_true] at starts
      rw [starts] at accepted
      cases accepted
      exact .inl ⟨by simp [← List.isPrefixOf_iff_prefix, starts], rfl, rfl⟩
  · rintro (⟨apart, rfl, rfl⟩ | ⟨some, lengthText, announces, rfl⟩)
    · rw [← List.isPrefixOf_iff_prefix, Bool.not_eq_true] at apart
      rw [splitRuntimePrompt, apart]
      rfl
    · exact splitRuntimePrompt_announced announces some

/-- The length that the composer writes is announced. -/
theorem announces_decimal (decimals : Decimals) {length : ℕ} (short : length < 10 ^ intMaxDigits) :
    Announces decimals (decimal length) length where
  single point member := by
    obtain ⟨char, listed, rfl⟩ := List.mem_map.mp member
    have digit := Nat.isDigit_of_mem_toDigits (by decide) (by decide) listed
    rintro same
    cases same
    cases digit
  digits := by
    have filled : decimal length ≠ [] := by simp [decimal, Nat.toDigits_ne_nil]
    rw [Decimals.isDecimal, Bool.and_eq_true, Bool.not_eq_true', List.isEmpty_eq_false_iff, List.all_eq_true]
    exact ⟨filled, (Decimals.decimal_spec length).1⟩
  short := by
    rw [decimal, List.length_map]
    exact (Nat.length_toDigits_le_iff (by decide) (by decide)).mpr short
  number := (Decimals.decimal_spec length).2

/-- What is composed is split again, exactly unless there are no conditions and the prompt itself begins
like one with conditions. -/
theorem splitRuntimePrompt_compose (decimals : Decimals) (prompt conditions : PyText)
    (short : conditions.length < 10 ^ intMaxDigits) :
    splitRuntimePrompt decimals (composeRuntimePrompt prompt conditions) = .ok (conditions, prompt) ↔
      (conditions = [] → ¬ conditionsPrefix <+: prompt) := by
  cases conditions with
  | nil => simp [composeRuntimePrompt, splitRuntimePrompt_eq_ok_iff]
  | cons first rest =>
    refine iff_of_true ?_ (by simp)
    exact splitRuntimePrompt_announced (announces_decimal decimals short) (List.cons_ne_nil _ _)

/-- The ASCII digits alone. -/
def asciiDecimals : Decimals where
  value
    | .char value => if value.isDigit then some (value.toNat - 48) else none
    | .surrogate _ => none
  ascii := by decide

theorem splitRuntimePrompt_compose_nested :
    splitRuntimePrompt asciiDecimals (composeRuntimePrompt (PyText.ofString "go") conditionsPrefix) =
      .ok (conditionsPrefix, PyText.ofString "go") :=
  (splitRuntimePrompt_compose asciiDecimals _ _ (lt_of_lt_of_le (Nat.lt_pow_self (by decide))
    (Nat.pow_le_pow_right (by decide) (by decide)))).mpr (by decide)

end MetaResearch.RuntimeConditions

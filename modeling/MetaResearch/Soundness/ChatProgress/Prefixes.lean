import MetaResearch.Soundness.ChatProgress.StringPrefix

/-! # Partial answers are prefixes of the answer

The walk over a cut text ends where the text does, or it takes the turns that it takes over the whole text. Over the
whole text it takes the turns of the decoder.
-/

namespace MetaResearch.ChatProgress

open JsonDecode

variable {decimal : Char → Option (Fin 10)} {F : Type} {limits : Limits} {float : PyText → F} {source more : PyText}

/-! ### The walk over a cut text -/

theorem inNumber_of_isSpace {point : Point} (space : point.isSpace = true) : inNumber point = false := by
  cases point with
  | surrogate unit => cases space
  | char value =>
    have solid : value.isDigit = false ∧ value ≠ '.' ∧ value ≠ 'e' ∧ value ≠ 'E' := by
      refine ⟨?_, ?_, ?_, ?_⟩
      · by_contra digit
        rw [Bool.not_eq_false] at digit
        have range : 48 ≤ value.val.toNat ∧ value.val.toNat ≤ 57 := by
          simpa [Char.isDigit, UInt32.le_iff_toNat_le] using digit
        simp only [Point.isSpace, Text.isSpace, Bool.or_eq_true, Bool.and_eq_true, decide_eq_true_eq] at space
        omega
      all_goals
        rintro rfl
        revert space
        decide
    simp [inNumber, Point.isDigit, solid]

theorem stops_of_after_lstrip {mark : Char} {text rest : PyText} (solid : inNumber (.char mark) = false)
    (found : after mark (PyText.lstrip text) = some rest) : Stops text := by
  rw [after_eq_some_iff] at found
  cases text with
  | nil => cases found
  | cons first others =>
    refine ⟨first, rfl, ?_⟩
    rw [PyText.lstrip, List.dropWhile_cons] at found
    split_ifs at found with space
    · exact inNumber_of_isSpace space
    · rwa [(List.cons.inj found).1]

/-- A value that something else than a number follows is decoded still, when the text goes on. -/
theorem rawDecode_lstrip_append {hooks : Hooks F} {value : PyJson F} {rest behind : PyText} {mark : Char}
    (solid : inNumber (.char mark) = false) (read : rawDecode limits hooks (PyText.lstrip source) = .ok (value, rest))
    (found : after mark (PyText.lstrip rest) = some behind) (more : PyText) :
    rawDecode limits hooks (PyText.lstrip (source ++ more)) = .ok (value, rest ++ more) ∧
      after mark (PyText.lstrip (rest ++ more)) = some (behind ++ more) := by
  refine ⟨?_, after_dropWhile_append found⟩
  rw [rawDecode_eq_ok_iff] at read ⊢
  have some : PyText.lstrip source ≠ [] := by
    intro none
    have long := read.length_lt
    rw [none] at long
    exact absurd long (Nat.not_lt_zero _)
  rw [PyText.lstrip, dropWhile_append_of_ne_nil some]
  exact read.append (.inr (stops_of_after_lstrip solid found)) (le_refl _)

theorem walk_append {fuel enough : ℕ} (less : fuel ≤ enough) {second : PyText}
    (walked : walk decimal limits float enough (source ++ more) = .ok second) :
    ∃ first, walk decimal limits float fuel source = .ok first ∧ first <+: second := by
  induction fuel generalizing enough source with
  | zero => exact ⟨[], rfl, List.nil_prefix⟩
  | succ fuel ih =>
    obtain ⟨enough, rfl⟩ := Nat.exists_eq_add_of_le' (Nat.le_of_add_left_le less)
    rw [walk] at walked ⊢
    split
    · rename_i key rest read
      split
      · exact ⟨[], rfl, List.nil_prefix⟩
      · rename_i behind colon
        have further := rawDecode_lstrip_append (by decide) read colon more
        simp only [further.1, further.2] at walked
        split_ifs at walked ⊢ with reply
        · have some : PyText.lstrip behind = [] ∨ PyText.lstrip behind ≠ [] := em _
          rcases some with none | some
          · rw [none]
            exact ⟨[], rfl, List.nil_prefix⟩
          · rw [PyText.lstrip, dropWhile_append_of_ne_nil some] at walked
            exact stringPrefix_append walked
        · split
          · exact ⟨[], rfl, List.nil_prefix⟩
          · rename_i value last decoded
            split
            · exact ⟨[], rfl, List.nil_prefix⟩
            · rename_i next comma
              have again := rawDecode_lstrip_append (by decide) decoded comma more
              simp only [again.1, again.2] at walked
              exact ih (Nat.le_of_succ_le_succ less) walked
    · exact ⟨[], rfl, List.nil_prefix⟩

/-! ### The walk over the whole text -/

theorem rawDecode_of_writes {hooks : Hooks F} {depth : ℕ} {value : PyJson F} {rest : PyText}
    (deep : depth ≤ limits.depth) (writes : Writes limits hooks depth (skipSpace source) (.value value) rest) :
    rawDecode limits hooks (PyText.lstrip source) = .ok (value, rest) := by
  obtain ⟨first, others, same, solid⟩ := writes.head
  rw [lstrip_eq_of_head solid same, ← same, rawDecode_eq_ok_iff]
  have whole : Writes limits hooks limits.depth (skipSpace source ++ []) (.value value) (rest ++ []) :=
    writes.append (.inl rfl) deep
  simpa using whole

theorem stringPrefix_of_writes {hooks : Hooks F} {depth : ℕ} {value rest : PyText}
    (writes : Writes limits hooks depth (skipSpace source) (.value (.text value)) rest)
    (encodable : PyText.encodable value = true) :
    stringPrefix decimal (PyText.lstrip source) = .ok (value.take chatReplyMaxLength) := by
  obtain ⟨inner, same, is⟩ := writes.isString
  rw [lstrip_eq_of_head (by decide) same, stringPrefix, after_eq_some_iff.mpr rfl]
  exact prefixFrom_of_isString is encodable

/-- The name of a property, and what follows its colon. -/
theorem walk_name {fuel : ℕ} {inner name behind next : PyText} (found : skipSpace source = .char '"' :: inner)
    (is : IsString inner name behind) (colon : after ':' (skipSpace behind) = some next) :
    walk decimal limits float (fuel + 1) source =
      if name = PyText.ofString "reply" then stringPrefix decimal (PyText.lstrip next)
      else match rawDecode limits (.plain float) (PyText.lstrip next) with
        | .error _ => .ok []
        | .ok (_, rest) =>
          match after ',' (PyText.lstrip rest) with
          | none => .ok []
          | some rest => walk decimal limits float fuel rest := by
  have read : rawDecode limits (.plain float) (PyText.lstrip source) = .ok (.text name, behind) := by
    rw [lstrip_eq_of_head (by decide) found, rawDecode_eq_ok_iff]
    exact .text is
  rw [walk, read]
  simp only [after_lstrip (by decide) colon]
  all_goals rfl

theorem walk_of_writes {depth : ℕ} {text rest : PyText} {piece : Piece F} {pairs : List (PyText × PyJson F)}
    (writes : Writes limits (.plain float) depth text piece rest) (is : piece = .pairs pairs)
    (deep : depth ≤ limits.depth) (distinct : (pairs.map Prod.fst).Nodup) {reply : PyText}
    (member : (PyText.ofString "reply", .text reply) ∈ pairs) (encodable : reply.encodable = true)
    (found : skipSpace source = text) {fuel : ℕ} (enough : source.length ≤ fuel) :
    walk decimal limits float fuel source = .ok (reply.take chatReplyMaxLength) := by
  induction writes generalizing source pairs fuel with
  | text | emptyObject | object | emptyArray | array | atom | lastItem | item => cases is
  | lastPair string colon item close ih =>
    obtain rfl := Piece.pairs.inj is
    have long := skipSpace_length_le source
    rw [found, List.length_cons] at long
    obtain ⟨fuel, rfl⟩ := Nat.exists_eq_add_of_le' (Nat.le_of_add_left_le (long.trans enough))
    obtain ⟨rfl, rfl⟩ := Prod.mk.inj (List.mem_singleton.mp member)
    rw [walk_name found string colon, if_pos rfl]
    exact stringPrefix_of_writes item encodable
  | @pair _ inner name behind next ahead further _ value others string colon item comma tail ih more =>
    obtain rfl := Piece.pairs.inj is
    have long := skipSpace_length_le source
    rw [found, List.length_cons] at long
    obtain ⟨fuel, rfl⟩ := Nat.exists_eq_add_of_le' (Nat.le_of_add_left_le (long.trans enough))
    rw [walk_name found string colon]
    split_ifs with same
    · have here : (PyText.ofString "reply", value) ∈ (name, value) :: others := same ▸ List.mem_cons_self
      obtain rfl : value = .text reply :=
        congrArg Prod.snd (List.inj_on_of_nodup_map distinct here member rfl)
      exact stringPrefix_of_writes item encodable
    · have shorter := string.length_lt
      have mark := length_lt_of_after colon
      have short := skipSpace_length_le next
      have less := item.length_lt
      have last := length_lt_of_after comma
      have later : (PyText.ofString "reply", .text reply) ∈ others := by
        rcases List.mem_cons.mp member with here | later
        · exact absurd (congrArg Prod.fst here).symm same
        · exact later
      rw [rawDecode_of_writes deep item]
      simp only [after_lstrip (by decide) comma]
      exact more rfl deep (List.nodup_cons.mp distinct).2 later rfl (by omega)

/-! ### The answer -/

theorem answerText_object {inner : PyText} (opened : PyText.lstrip source = .char '\x7b' :: inner) :
    answerText decimal limits float source =
      (walk decimal limits float inner.length inner).map fun answer => (true, answer) := by
  have fence : startsWith (.char '\x7b' :: inner) "```" = false := rfl
  have container : startsContainer (.char '\x7b' :: inner) = true := rfl
  rw [answerText, opened, unfence, fence]
  simp only [Bool.false_eq_true, if_false, container, Bool.not_true]
  rw [after_eq_some_iff.mpr rfl]

/-- A beginning of a text with the brace that the text opens with. -/
theorem skipSpace_prefix {text inner : PyText} (begins : source <+: text)
    (opened : skipSpace text = .char '\x7b' :: inner) (brace : .char '\x7b' ∈ source) :
    ∃ front, skipSpace source = .char '\x7b' :: front ∧ front <+: inner := by
  induction source generalizing text with
  | nil => cases brace
  | cons first others ih =>
    obtain ⟨more, rfl⟩ := begins
    rw [List.cons_append, skipSpace, List.dropWhile_cons] at opened
    rw [skipSpace, List.dropWhile_cons]
    split_ifs at opened ⊢ with space
    · refine ih (List.prefix_append _ _) opened ?_
      rcases List.mem_cons.mp brace with rfl | later
      · cases space
      · exact later
    · obtain ⟨rfl, rfl⟩ := List.cons.inj opened
      exact ⟨others, rfl, List.prefix_append _ _⟩

theorem answerText_whole {text reply : PyText} {pairs : List (PyText × PyJson F)}
    (read : loadsPairs limits (.plain float) text = .ok pairs) (distinct : (pairs.map Prod.fst).Nodup)
    (member : (PyText.ofString "reply", .text reply) ∈ pairs) (encodable : reply.encodable = true) :
    ∃ inner, skipSpace text = .char '\x7b' :: inner ∧
      walk decimal limits float inner.length inner = .ok (reply.take chatReplyMaxLength) := by
  obtain ⟨inner, depth, rest, opened, deep, writes⟩ :=
    exists_writes_of_loadsPairs read (List.ne_nil_of_mem member)
  exact ⟨inner, opened, walk_of_writes writes rfl deep distinct member encodable rfl (le_refl _)⟩

/-- The answers of two beginnings of a text are beginnings of each other, and of the reply that the text holds. -/
theorem answerText_prefix {text reply : PyText} {pairs : List (PyText × PyJson F)}
    (read : loadsPairs limits (.plain float) text = .ok pairs) (distinct : (pairs.map Prod.fst).Nodup)
    (member : (PyText.ofString "reply", .text reply) ∈ pairs) (encodable : reply.encodable = true)
    {earlier later : PyText} (begins : earlier <+: later) (ends : later <+: text)
    (brace : .char '\x7b' ∈ earlier) :
    (∃ first second, answerText decimal limits float earlier = .ok (true, first) ∧
      answerText decimal limits float later = .ok (true, second) ∧ first <+: second) ∧
    answerText decimal limits float text = .ok (true, reply.take chatReplyMaxLength) := by
  obtain ⟨inner, opened, walked⟩ : ∃ inner, skipSpace text = .char '\x7b' :: inner ∧
      walk decimal limits float inner.length inner = .ok (reply.take chatReplyMaxLength) :=
    answerText_whole read distinct member encodable
  obtain ⟨middle, openedLater, laterPrefix⟩ := skipSpace_prefix ends opened (begins.subset brace)
  obtain ⟨front, openedEarlier, earlierPrefix⟩ := skipSpace_prefix begins openedLater brace
  have solid : Point.isSpace (.char '\x7b') = false := by decide
  rw [answerText_object (lstrip_eq_of_head solid opened), answerText_object (lstrip_eq_of_head solid openedLater),
    answerText_object (lstrip_eq_of_head solid openedEarlier), walked]
  have laterLess : middle.length ≤ inner.length := laterPrefix.length_le
  have earlierLess : front.length ≤ middle.length := earlierPrefix.length_le
  obtain ⟨more, rfl⟩ := laterPrefix
  obtain ⟨second, secondWalk, _⟩ := walk_append laterLess walked
  obtain ⟨between, rfl⟩ := earlierPrefix
  obtain ⟨first, firstWalk, firstPrefix⟩ := walk_append earlierLess secondWalk
  refine ⟨⟨first, second, ?_, ?_, firstPrefix⟩, rfl⟩
  · rw [firstWalk]
    rfl
  · rw [secondWalk]
    rfl

/-- `{"reply":"x\ny"}` -/
def sampleText : PyText :=
  ['\x7b', '"', 'r', 'e', 'p', 'l', 'y', '"', ':', '"', 'x', '\\', 'n', 'y', '"', '\x7d'].map Point.char

theorem sampleText_pairs : loadsPairs ⟨1000, 4300⟩ (.plain (id : PyText → PyText)) sampleText =
    .ok [(PyText.ofString "reply", .text [.char 'x', .char '\n', .char 'y'])] := by
  have writes : Writes ⟨1000, 4300⟩ (.plain (id : PyText → PyText)) 999 (skipSpace sampleText.tail)
      (.pairs [(PyText.ofString "reply", .text [.char 'x', .char '\n', .char 'y'])]) [] :=
    .lastPair (isString_of_scanString rfl) rfl (.text (isString_of_scanString rfl)) rfl
  exact loadsPairs_of_writes rfl rfl writes rfl

/-- The texts are cut within an escape, and behind it. -/
theorem answerText_prefix_sample :
    (∃ first second,
      answerText (fun _ => none) ⟨1000, 4300⟩ (id : PyText → PyText) (sampleText.take 12) = .ok (true, first) ∧
      answerText (fun _ => none) ⟨1000, 4300⟩ (id : PyText → PyText) (sampleText.take 13) = .ok (true, second) ∧
      first <+: second) ∧
    answerText (fun _ => none) ⟨1000, 4300⟩ (id : PyText → PyText) sampleText =
      .ok (true, [.char 'x', .char '\n', .char 'y'].take chatReplyMaxLength) :=
  answerText_prefix sampleText_pairs (List.nodup_singleton _) (List.mem_singleton_self _) (by decide)
    (List.take_prefix_take_left (by decide)) (List.take_prefix _ _) (by decide)

/-! ### What the interpreter does not read -/

def ones (count : ℕ) : PyText := List.replicate count (.char '1')

theorem number?_ones (count : ℕ) (rest : PyText) :
    number? (ones (count + 1) ++ .char ',' :: rest) = some ⟨[], ones (count + 1), [], .char ',' :: rest⟩ := by
  have digits : spanDigits (ones count ++ .char ',' :: rest) = (ones count, .char ',' :: rest) := by
    have all : ∀ point ∈ ones count, point.isDigit = true := fun point member => by
      rw [List.eq_of_mem_replicate member]
      rfl
    rw [spanDigits, List.takeWhile_append_of_pos all, List.dropWhile_append_of_pos all,
      List.takeWhile_cons_of_neg (by decide), List.dropWhile_cons_of_neg (by decide), List.append_nil]
  have whole : integerPart? (ones (count + 1) ++ .char ',' :: rest) = some (ones (count + 1), .char ',' :: rest) := by
    rw [ones, List.replicate_succ, List.cons_append, integerPart?, if_neg (by decide), if_pos (by decide),
      ← ones, digits]
  change unsigned? [] (ones (count + 1) ++ .char ',' :: rest) = _
  rw [unsigned?, whole]
  rfl

theorem scanAtom_ones (limits : Limits) (hooks : Hooks F) (count : ℕ) (rest : PyText) :
    scanAtom limits hooks (ones (count + 1) ++ .char ',' :: rest) =
      if limits.digits < count + 1 then .error .value
      else .ok (.integer (digitsValue (ones (count + 1))), .char ',' :: rest) := by
  have number := number?_ones count rest
  have none : ((words hooks).find? fun word =>
      (PyText.ofString word.1).isPrefixOf (ones (count + 1) ++ .char ',' :: rest)) = none := by
    rw [List.find?_eq_none]
    intro word member
    have still := not_word_of_number? number (name_mem member) []
    rw [List.append_nil] at still
    rw [still]
    exact Bool.false_ne_true
  have size : (ones (count + 1)).length = count + 1 := List.length_replicate
  rw [scanAtom, none, number]
  simp only [convert, if_true, size]
  split_ifs
  · rfl
  · rfl

/-- `{"n":`, a number of so many digits, and `,"reply":"x"}`. -/
def longText (count : ℕ) : PyText :=
  ['\x7b', '"', 'n', '"', ':'].map Point.char ++
    (ones (count + 1) ++ [',', '"', 'r', 'e', 'p', 'l', 'y', '"', ':', '"', 'x', '"', '\x7d'].map Point.char)

theorem longText_pairs {count : ℕ} (short : count + 1 ≤ limits.digits) (deep : limits.depth = 1000) :
    loadsPairs limits (.plain float) (longText count) =
      .ok [([.char 'n'], .integer (digitsValue (ones (count + 1)))), (PyText.ofString "reply", .text [.char 'x'])] := by
  have number := scanAtom_ones limits (.plain float) count
    (['"', 'r', 'e', 'p', 'l', 'y', '"', ':', '"', 'x', '"', '\x7d'].map Point.char)
  rw [if_neg (by omega)] at number
  have writes : Writes limits (.plain float) 999 (skipSpace (longText count).tail)
      (.pairs [([.char 'n'], .integer (digitsValue (ones (count + 1)))), (PyText.ofString "reply", .text [.char 'x'])])
      [] := by
    refine .pair (isString_of_scanString rfl) rfl (.atom ?_ number) rfl
      (.lastPair (isString_of_scanString rfl) rfl (.text (isString_of_scanString rfl)) rfl)
    rintro first head
    obtain rfl := Option.some.inj head
    rfl
  exact loadsPairs_of_writes rfl deep writes rfl

theorem answerText_longText {count : ℕ} (long : limits.digits < count + 1) :
    answerText decimal limits float (longText count) = .ok (true, []) := by
  have number := scanAtom_ones limits (.plain float) count
    (['"', 'r', 'e', 'p', 'l', 'y', '"', ':', '"', 'x', '"', '\x7d'].map Point.char)
  rw [if_pos long] at number
  have refused : rawDecode limits (.plain float) (PyText.lstrip (ones (count + 1) ++
      .char ',' :: ['"', 'r', 'e', 'p', 'l', 'y', '"', ':', '"', 'x', '"', '\x7d'].map Point.char)) = .error .value := by
    refine (scanValue_atom ?_).trans number
    rintro first head
    obtain rfl := Option.some.inj head
    rfl
  have opened : PyText.lstrip (longText count) = .char '\x7b' :: (longText count).tail := rfl
  rw [answerText_object opened]
  have ended : walk decimal limits float (longText count).tail.length (longText count).tail = .ok [] := by
    have quote : skipSpace (longText count).tail = .char '"' :: (longText count).tail.tail := rfl
    have name : IsString (longText count).tail.tail [.char 'n'] ((longText count).drop 4) := isString_of_scanString rfl
    have colon : after ':' (skipSpace ((longText count).drop 4)) = some ((longText count).drop 5) := rfl
    rw [show (longText count).tail.length = (longText count).tail.length - 1 + 1 by simp [longText],
      walk_name quote name colon, if_neg (by decide)]
    have next : (longText count).drop 5 = ones (count + 1) ++
      .char ',' :: ['"', 'r', 'e', 'p', 'l', 'y', '"', ':', '"', 'x', '"', '\x7d'].map Point.char := rfl
    rw [next, refused]
  rw [ended]
  rfl

/-- A number of 4301 digits is JSON, but not for an interpreter with its usual limit: the reply behind it is not
found. -/
theorem long_number_hides_reply :
    (∃ pairs, loadsPairs ⟨1000, 4301⟩ (.plain (id : PyText → PyText)) (longText 4300) = .ok pairs ∧
      (pairs.map Prod.fst).Nodup ∧ (PyText.ofString "reply", .text [.char 'x']) ∈ pairs) ∧
    answerText (fun _ => none) ⟨1000, 4300⟩ (id : PyText → PyText) (longText 4300) = .ok (true, []) ∧
      [] ≠ ([.char 'x'] : PyText).take chatReplyMaxLength := by
  refine ⟨⟨_, longText_pairs (le_refl _) rfl, ?_, ?_⟩, answerText_longText (by decide), by decide⟩
  · have apart : ([[.char 'n'], PyText.ofString "reply"] : List PyText).Nodup := by decide
    exact apart
  · exact .tail _ (.head _)

end MetaResearch.ChatProgress

import MetaResearch.Soundness.RawOutput.Cursors
import MetaResearch.ToMathlib.JsonScan

/-! # Fragments of events

A fragment of an accepted text ends inside a value. The error at its end is at the end of the text, or in a
string, or at a constant that is typed in part, and is then recognized. A number that ends behind its sign,
its point or its exponent, a code of a character, and the constants of floats are read otherwise.
-/

namespace MetaResearch.RawOutput

open JsonScan (Mode StringMode NumberMode State Failure Container)

variable {decoder : Decoder}

/-! ### The errors of the standard library -/

/-- The decoder rejects a text where the standard library does, unless it raises another exception: an integer
may have too many digits. Bytes that end within a character are told from others that are no text. -/
structure Documented (decoder : Decoder) : Prop where
  accepts : ∀ text, JsonScan.loads text.toList = .ok () →
    (∃ value, decoder.loads text = .value value) ∨ ∃ exception, decoder.loads text = .raises exception
  rejects : ∀ text failure, JsonScan.loads text.toList = .error failure →
    decoder.loads text = .decodeError failure.message.text failure.position ∨
      ∃ exception, decoder.loads text = .raises exception
  truncated : ∀ (text : String) (char : Char) (held more : Bytes), String.utf8EncodeChar char = held ++ more →
    held ≠ [] → more ≠ [] → ∀ missing : decodeText (encodeText text ++ held) = none,
    let error := decoder.decodeError (encodeText text ++ held) missing
    error.reason = "unexpected end of data" ∧ error.start.val = (encodeText text).length ∧
      error.stop = (encodeText text ++ held).length

theorem Documented.loads_of_value (documented : Documented decoder) {text : String} {value : Json}
    (loaded : decoder.loads text = .value value) : JsonScan.loads text.toList = .ok () := by
  cases read : JsonScan.loads text.toList with
  | ok _ => rfl
  | error failure =>
    rcases documented.rejects text failure read with error | ⟨exception, raised⟩
    · rw [error] at loaded
      cases loaded
    · rw [raised] at loaded
      cases loaded

/-! ### The end of a fragment -/

/-- A fragment that ends here is not recognized: behind the sign, the point or the exponent of a number, within
or directly behind the code of a character, or within a constant that is a float. -/
def isMisread : Mode → Bool
  | .string _ _ (.digits _) => true
  | .literal typed _ => ['N', 'I', '-'].any (typed.head? = some ·)
  | .number .minus => true
  | .number .point => true
  | .number .exponent => true
  | .number .sign => true
  | _ => false

/-- The text ends where a fragment is not recognized. -/
def endsMisread (text : List Char) : Bool :=
  match JsonScan.run 0 JsonScan.start text with
  | .ok state => isMisread state.mode
  | .error _ => false

theorem length_rstrip_le (text : String) : (rstrip text).length ≤ text.toList.length := by
  have shorter (chars : List Char) : (Text.stripFront chars).length ≤ chars.length :=
    (List.dropWhile_suffix _).length_le
  rw [rstrip, String.length_ofList, List.length_reverse]
  simpa using shorter text.toList.reverse

/-- An error at the end of the text is recognized. -/
theorem incompleteText_of_end {text : String} {message : String} {position : ℕ}
    (loaded : decoder.loads text = .decodeError message position) (ended : text.toList.length ≤ position) :
    incompleteText decoder text = .ok true := by
  have here := (length_rstrip_le text).trans ended
  simp [incompleteText, loaded, here]

theorem incompleteText_of_unterminated {text : String} {position : ℕ}
    (loaded : decoder.loads text = .decodeError "Unterminated string starting at" position) :
    incompleteText decoder text = .ok true := by
  have begins : "Unterminated string".isPrefixOf "Unterminated string starting at" = true := by
    decide +kernel
  simp [incompleteText, loaded, begins]

/-- A constant that is typed in part, the constants of floats apart -/
theorem fragment_of_literal {typed left : List Char} (listed : typed ++ left ∈ JsonScan.literals)
    (begun : typed ≠ []) (more : left ≠ []) (plain : ['N', 'I', '-'].any (typed.head? = some ·) = false) :
    literalFragments.contains (Text.strip (String.ofList typed)) = true := by
  have each : ∀ literal ∈ JsonScan.literals, ∀ size < literal.length, 0 < size →
      ['N', 'I', '-'].any ((literal.take size).head? = some ·) = false →
        literalFragments.contains (Text.strip (String.ofList (literal.take size))) = true := by
    decide +kernel
  have here := each _ listed typed.length (by
    rw [List.length_append]
    have := List.length_pos_iff.mpr more
    omega) (List.length_pos_iff.mpr begun)
  rw [List.take_left] at here
  exact here plain

theorem incompleteText_of_literal {text : String} {typed left : List Char}
    (loaded : decoder.loads text = .decodeError "Expecting value" (text.toList.length - typed.length))
    (ends : typed <:+ text.toList) (listed : typed ++ left ∈ JsonScan.literals) (begun : typed ≠ [])
    (more : left ≠ []) (plain : ['N', 'I', '-'].any (typed.head? = some ·) = false) :
    incompleteText decoder text = .ok true := by
  have rest : text.toList.drop (text.toList.length - typed.length) = typed := by
    obtain ⟨front, same⟩ := ends
    rw [← same, List.length_append, Nat.add_sub_cancel, List.drop_left]
  have known := fragment_of_literal listed begun more plain
  simp only [incompleteText, loaded, rest, known]
  simp

/-- Where a fragment ends, the end is an error that is recognized, or the fragment is misread or complete. -/
theorem incompleteText_of_run (documented : Documented decoder) {text : String} {state : State}
    (read : JsonScan.run 0 JsonScan.start text.toList = .ok state)
    (finished : JsonScan.loads text.toList = JsonScan.finish text.toList.length state)
    (unfinished : JsonScan.loads text.toList ≠ .ok ()) (clear : isMisread state.mode = false)
    (quiet : ∀ exception, decoder.loads text ≠ .raises exception) :
    incompleteText decoder text = .ok true := by
  have loaded (failure : Failure) (failed : JsonScan.finish text.toList.length state = .error failure) :
      decoder.loads text = .decodeError failure.message.text failure.position :=
    (documented.rejects text failure (finished.trans failed)).resolve_right fun ⟨exception, raised⟩ =>
      quiet exception raised
  have atAfter (ending : JsonScan.finish text.toList.length state =
      JsonScan.finishAfter text.toList.length state.stack) : incompleteText decoder text = .ok true := by
    cases open_ : state.stack.isEmpty with
    | true =>
      have complete : JsonScan.finishAfter text.toList.length state.stack = .ok () := by
        rw [JsonScan.finishAfter, require_eq_ok_iff, open_]
      exact absurd (finished.trans (ending.trans complete)) unfinished
    | false =>
      have failed : JsonScan.finishAfter text.toList.length state.stack =
          .error ⟨.comma, text.toList.length⟩ := by
        rw [JsonScan.finishAfter, open_]
        rfl
      exact incompleteText_of_end (loaded _ (ending.trans failed)) (Nat.le_refl _)
  obtain ⟨stack, mode⟩ := state
  cases mode with
  | value first => exact incompleteText_of_end (loaded _ rfl) (Nat.le_refl _)
  | name first => exact incompleteText_of_end (loaded _ rfl) (Nat.le_refl _)
  | colon => exact incompleteText_of_end (loaded _ rfl) (Nat.le_refl _)
  | after => exact atAfter rfl
  | string isName start inside =>
    cases inside with
    | plain => exact incompleteText_of_unterminated (loaded _ rfl)
    | escape => exact incompleteText_of_unterminated (loaded _ rfl)
    | digits count => cases clear
  | literal typed left =>
    rcases JsonScan.typed_run read with sign | ⟨ends, begun, more, listed⟩
    · simp [isMisread, sign] at clear
    · exact incompleteText_of_literal (loaded _ rfl) ends listed begun more clear
  | number number =>
    cases number with
    | minus => cases clear
    | point => cases clear
    | exponent => cases clear
    | sign => cases clear
    | zero => exact atAfter rfl
    | digits => exact atAfter rfl
    | fraction => exact atAfter rfl
    | power => exact atAfter rfl

/-! ### Bytes -/

/-- The bytes begin a character and do not complete it. -/
def BeginsCharacter (held : Bytes) : Prop :=
  ∃ char more, String.utf8EncodeChar char = held ++ more ∧ held ≠ [] ∧ more ≠ []

/-- The first bytes of a text are whole characters and the beginning of another one. -/
theorem exists_cut {chars : List Char} {fragment : Bytes}
    (cut : fragment <+: chars.flatMap String.utf8EncodeChar) :
    ∃ front back held, chars = front ++ back ∧ fragment = front.flatMap String.utf8EncodeChar ++ held ∧
      (held = [] ∨ ∃ char rest more, back = char :: rest ∧ String.utf8EncodeChar char = held ++ more ∧
        held ≠ [] ∧ more ≠ []) := by
  induction chars generalizing fragment with
  | nil =>
    obtain rfl := List.prefix_nil.mp cut
    exact ⟨[], [], [], rfl, rfl, .inl rfl⟩
  | cons char rest ih =>
    rw [List.flatMap_cons] at cut
    rcases List.prefix_or_prefix_of_prefix cut (List.prefix_append _ _) with ⟨more, inside⟩ | ⟨others, rfl⟩
    · by_cases whole : fragment = [] ∨ more = []
      · rcases whole with rfl | rfl
        · exact ⟨[], char :: rest, [], rfl, rfl, .inl rfl⟩
        · rw [List.append_nil] at inside
          exact ⟨[char], rest, [], rfl, by rw [List.append_nil, List.flatMap_singleton, inside], .inl rfl⟩
      · obtain ⟨begun, left⟩ := not_or.mp whole
        exact ⟨[], char :: rest, fragment, rfl, rfl, .inr ⟨char, rest, more, rfl, inside.symm, begun, left⟩⟩
    · obtain ⟨front, back, held, rfl, rfl, begins⟩ := ih ((List.prefix_append_right_inj _).mp cut)
      exact ⟨char :: front, back, held, rfl, by rw [List.flatMap_cons, List.append_assoc], begins⟩

/-- A text and the beginning of a character are no text. -/
theorem decodeText_truncated {text : String} {held : Bytes} (begins : BeginsCharacter held) :
    decodeText (encodeText text ++ held) = none := by
  obtain ⟨char, more, encoded, begun, left⟩ := begins
  cases decoded : decodeText (encodeText text ++ held) with
  | none => rfl
  | some whole =>
    have bytes := encodeText_of_decodeText decoded
    obtain ⟨rest, rfl⟩ := text_of_isPrefix (⟨held, bytes.symm⟩ : encodeText text <+: encodeText whole)
    rw [encodeText_append, List.append_cancel_left_eq] at bytes
    have single : encodeText (String.ofList [char]) = held ++ more := by
      rw [encodeText_ofList, List.flatMap_singleton, encoded]
    obtain ⟨others, split⟩ := text_of_isPrefix
      (⟨more, by rw [single, bytes]⟩ : encodeText rest <+: encodeText (String.ofList [char]))
    have chars := congrArg String.toList split
    rw [String.toList_ofList, String.toList_append] at chars
    rcases List.append_eq_singleton_iff.mp chars.symm with ⟨none, -⟩ | ⟨-, none⟩
    · rw [← String.ofList_toList (s := rest), none] at bytes
      exact absurd bytes.symm begun
    · rw [split, encodeText_append, ← String.ofList_toList (s := others), none, bytes] at single
      exact absurd (List.append_cancel_left single).symm left

theorem incompleteJsonEvent_encodeText (text : String) :
    incompleteJsonEvent decoder (encodeText text) = incompleteText decoder text := by
  rw [incompleteJsonEvent]
  split
  · rename_i whole decoded
    rw [decodeText_encodeText] at decoded
    rw [Option.some.inj decoded]
  · rename_i missing
    rw [decodeText_encodeText] at missing
    cases missing

/-- The beginning of a character is dropped. -/
theorem incompleteJsonEvent_truncated (documented : Documented decoder) {text : String} {held : Bytes}
    (begins : BeginsCharacter held) :
    incompleteJsonEvent decoder (encodeText text ++ held) = incompleteText decoder text := by
  have missing := @decodeText_truncated text held begins
  obtain ⟨char, more, encoded, begun, left⟩ := begins
  rw [incompleteJsonEvent]
  split
  · rename_i whole decoded
    rw [missing] at decoded
    cases decoded
  · rename_i undecoded
    obtain ⟨reason, starts, stops⟩ := documented.truncated text char held more encoded begun left undecoded
    dsimp only
    rw [reason, starts, stops, if_pos (by simp), List.take_left, incompleteJsonEvent_encodeText]

/-- The length of the longest text that begins the bytes and is shorter than a bound. -/
def wholeLength (bytes : Bytes) : ℕ → ℕ
  | 0 => 0
  | bound + 1 => if (decodeText (bytes.take bound)).isSome then bound else wholeLength bytes bound

theorem wholeLength_lt {bytes : Bytes} {bound : ℕ} (positive : 0 < bound) : wholeLength bytes bound < bound := by
  induction bound with
  | zero => cases positive
  | succ bound ih =>
    unfold wholeLength
    split_ifs
    · exact Nat.lt_succ_self bound
    · rcases Nat.eq_zero_or_pos bound with rfl | more
      · exact Nat.one_pos
      · exact (ih more).trans (Nat.lt_succ_self bound)

theorem wholeLength_eq {bytes : Bytes} {size bound : ℕ} (within : size < bound)
    (here : (decodeText (bytes.take size)).isSome = true)
    (later : ∀ other, size < other → other < bound → decodeText (bytes.take other) = none) :
    wholeLength bytes bound = size := by
  induction bound with
  | zero => cases within
  | succ bound ih =>
    unfold wholeLength
    rcases Nat.lt_or_eq_of_le (Nat.le_of_lt_succ within) with inside | rfl
    · rw [later bound inside (Nat.lt_succ_self bound), if_neg (by simp)]
      exact ih inside fun other above below => later other above (below.trans (Nat.lt_succ_self bound))
    · rw [if_pos here]

/-- A decoder that accepts what the standard library accepts, with one value. -/
def scanDecoder (value : Json) : Decoder where
  loads text := match JsonScan.loads text.toList with
    | .ok _ => .value value
    | .error failure => .decodeError failure.message.text failure.position
  decodeError bytes undecoded :=
    { reason := "unexpected end of data"
      start := ⟨wholeLength bytes bytes.length, wholeLength_lt (List.length_pos_iff.mpr (by
        rintro rfl
        exact absurd undecoded (by decide)))⟩
      stop := bytes.length }

theorem loads_scanDecoder {value : Json} {text : String} {failure : Failure}
    (rejected : JsonScan.loads text.toList = .error failure) :
    (scanDecoder value).loads text = .decodeError failure.message.text failure.position := by
  simp only [scanDecoder, rejected]

theorem documented_scanDecoder (value : Json) : Documented (scanDecoder value) where
  accepts text accepted := .inl ⟨value, by simp [scanDecoder, accepted]⟩
  rejects text failure rejected := .inl (loads_scanDecoder rejected)
  truncated text char held more encoded begun left missing := by
    refine ⟨rfl, wholeLength_eq ?_ ?_ fun other above below => ?_, rfl⟩
    · rw [List.length_append]
      have := List.length_pos_iff.mpr begun
      omega
    · rw [List.take_left, decodeText_encodeText]
      rfl
    · rw [List.length_append] at below
      rw [List.take_append, List.take_of_length_le (by omega)]
      refine decodeText_truncated ⟨char, held.drop (other - (encodeText text).length) ++ more, ?_, ?_, ?_⟩
      · rw [← List.append_assoc, List.take_append_drop, encoded]
      · refine List.ne_nil_of_length_pos ?_
        rw [List.length_take]
        omega
      · exact List.append_ne_nil_of_right_ne_nil _ left

theorem encodeText_injective : Function.Injective encodeText := fun first second same => by
  have decoded := decodeText_encodeText first
  rw [same, decodeText_encodeText] at decoded
  exact (Option.some.inj decoded).symm

def negativeText : String := "\x7b\"a\":-1\x7d"

def negativeFields : List (String × Json) := [("a", .integer (-1))]

/-- The beginning of the text up to the sign -/
def signText : String := "\x7b\"a\":-"

theorem encodeText_negativeText : encodeText negativeText = encodeText signText ++ encodeText "1\x7d" := by
  have whole : negativeText = signText ++ "1\x7d" := by decide
  rw [whole, encodeText_append]

theorem loads_negativeText :
    (scanDecoder (.object negativeFields)).loads negativeText = .value (.object negativeFields) := by
  have accepted : JsonScan.loads negativeText.toList = .ok () := by decide +kernel
  simp [scanDecoder, accepted]

/-- The beginning of the text up to the name -/
def nameText : String := "\x7b\"a\""

end MetaResearch.RawOutput

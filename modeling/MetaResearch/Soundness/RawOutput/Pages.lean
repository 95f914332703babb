import MetaResearch.Soundness.RawOutput.ExactPrefix

/-! # Pages that follow one another

The texts of pages that follow one another from the first cursor are a prefix of the source. The two
runs at the end are about bytes that a state neither maps nor buffers.
-/

namespace MetaResearch.RawOutput

/-- Returned pages of one stream, each from the cursor where the page before it ends. -/
def Chained (system : System) (hash : String) : ℕ → List TargetRawOutputPage → Prop
  | _, [] => True
  | cursor, page :: rest =>
    (hash, page) ∈ system.pages ∧ page.offset = cursor ∧ Chained system hash page.nextOffset rest

/-- The cursor after the pages. -/
def endCursor : ℕ → List TargetRawOutputPage → ℕ
  | cursor, [] => cursor
  | _, page :: rest => endCursor page.nextOffset rest

theorem Intact.chained {system : System} (intact : Intact system) {hash : String}
    {pages : List TargetRawOutputPage} {cursor : ℕ} (chained : Chained system hash cursor pages) :
    cursor ≤ endCursor cursor pages ∧
      pages.flatMap (fun page => encodeText page.text) =
        slice (system.content hash) cursor (endCursor cursor pages) := by
  induction pages generalizing cursor with
  | nil => simp [endCursor, slice]
  | cons page rest ih =>
    obtain ⟨member, starts, later⟩ := chained
    obtain ⟨text, ordered, _⟩ := intact.pages _ member
    obtain ⟨forward, texts⟩ := ih later
    subst starts
    dsimp only at text
    rw [List.flatMap_cons, text, texts, endCursor]
    exact ⟨Nat.le_trans ordered forward, slice_append ordered forward⟩

/-- In every run whose queries take only lines that raise nothing uncaught, a stream without a failure
has mapped, set aside and buffered exactly the bytes that it read, and its pages in order are a prefix
of the source. -/
theorem mapped_and_pages_are_prefixes (decoder : Decoder) (inputs : List Input)
    (run : Admissible (System.step decoder) (Quiet decoder) {} inputs) :
    let system := runInputs (System.step decoder) {} inputs
    (∀ hash state, (hash, state) ∈ system.store.states → state.failureCode = none →
      state.sourceOffset ≤ (system.content hash).length ∧
        ∃ fragment : Bytes, fragment.length = state.incompleteTailBytes ∧
          (fragment ≠ [] → state.sourceBuffer = []) ∧
          state.mapped ++ fragment ++ state.sourceBuffer =
            (system.content hash).take state.sourceOffset) ∧
    ∀ hash pages, Chained system hash 0 pages →
      pages.flatMap (fun page => encodeText page.text) =
        (system.content hash).take (endCursor 0 pages) := by
  intro system
  have intact : Intact system := intact_run run
  constructor
  · intro hash state member sound
    obtain ⟨bound, fragment, size, aside, read⟩ := intact.states _ member sound
    exact ⟨bound, fragment, size, fun some => (aside some).1, read⟩
  · intro hash pages chained
    rw [(intact.chained chained).2]
    simp [slice]

/-! ### Two runs -/

theorem decodeText_encodeText (text : String) : decodeText (encodeText text) = some text := by
  unfold decodeText encodeText String.fromUTF8?
  rw [dif_pos text.isValidUTF8]
  rfl

/-- The first event of a source. -/
def startedText : String := "\x7b\"type\":\"thread.started\",\"thread_id\":\"a\"\x7d"

/-- The beginning of an event. -/
def openedText : String := "\x7b\"a\""

/-- An integer of so many digits. -/
def integerText (digits : ℕ) : String := String.ofList (List.replicate digits '1')

/-- A decoder that answers on these texts as the standard library does, with its digit limit. -/
def sampleDecoder (limit : ℕ) : Decoder where
  loads text :=
    if text = startedText then
      .value (.object [("type", .text "thread.started"), ("thread_id", .text "a")])
    else if text = openedText then .decodeError "Expecting ':' delimiter" 4
    else if text = integerText (limit + 1) then .raises "ValueError"
    else .decodeError "Expecting value" 0
  decodeError bytes undecoded :=
    { reason := "invalid start byte"
      start := ⟨0, List.length_pos_iff.mpr (by rintro rfl; exact absurd undecoded (by decide))⟩
      stop := 1 }

def sampleHash : String := String.ofList (List.replicate 64 'a')

def sampleQuery : Query where
  operationRef := "operation"
  after := 0
  limit := 65536
  expectedNativeSessionRef := none
  terminal := true
  pathValid := true
  statFails := false
  readFails := false
  rebuildExit := .failed
  tailExit := .failed

/-- Bind a stream, let its source grow, and query it. -/
def sampleRun (limit : ℕ) (content : Bytes) : System :=
  runInputs (System.step (sampleDecoder limit)) {}
    [.bind "operation" sampleHash "codex", .grow sampleHash (0, 1) content, .query sampleQuery]

theorem store_step_query (decoder : Decoder) (system : System) (query : Query) :
    (System.step decoder system (.query query)).store =
      (system.store.query decoder system.sources query).1 := by
  unfold System.step
  dsimp only
  split <;> rfl

theorem states_sampleRun (limit : ℕ) (content : Bytes) :
    (sampleRun limit content).store.states =
      [(sampleHash, (advance (sampleDecoder limit) sampleQuery (some ⟨(0, 1), content⟩) {}).1)] := by
  have bound : bindOperation "operation" sampleHash "codex" {} =
      .ok { operationBindings := [("operation", sampleHash, "codex")] } := by rfl
  unfold sampleRun
  rw [runInputs_cons, runInputs_cons, runInputs_cons, runInputs_nil, store_step_query]
  simp [System.step, bound, Store.query, readStream, rebuild, Store.stateOf, Store.remember,
    maxCachedStreams, SourceFile.grow, sampleQuery, pageMinBytes, pageMaxBytes]

/-- Newlines end lines. -/
theorem splitLines_append_newline {line rest : Bytes} (whole : newline ∉ line) :
    splitLines (line ++ newline :: rest) = (line :: (splitLines rest).1, (splitLines rest).2) := by
  induction line with
  | nil => simp [splitLines]
  | cons byte line ih =>
    rw [List.mem_cons, not_or] at whole
    rw [List.cons_append, splitLines, ih whole.2]
    simp [Ne.symm whole.1]

theorem encodeText_integerText (digits : ℕ) :
    encodeText (integerText digits) = List.replicate digits 0x31 := by
  have one : String.utf8EncodeChar '1' = [0x31] := by decide
  unfold encodeText integerText
  rw [String.toByteArray_ofList]
  unfold List.utf8Encode
  induction digits with
  | zero => rfl
  | succ digits ih => simpa [List.replicate_succ, one] using ih

/-- A source whose second line is an integer of so many digits, and whose third is an event. -/
def integerContent (digits : ℕ) : Bytes :=
  encodeText startedText ++ newline :: (encodeText (integerText digits) ++ newline ::
    (encodeText startedText ++ newline :: []))

theorem splitLines_integerContent (digits : ℕ) : splitLines (integerContent digits) =
    ([encodeText startedText, encodeText (integerText digits), encodeText startedText], []) := by
  have first : newline ∉ encodeText startedText := by decide
  have second : newline ∉ encodeText (integerText digits) := by
    rw [encodeText_integerText, List.mem_replicate]
    rintro ⟨_, same⟩
    exact absurd same (by decide)
  unfold integerContent
  rw [splitLines_append_newline first, splitLines_append_newline second,
    splitLines_append_newline first]
  rfl

theorem length_integerContent (digits : ℕ) : (integerContent digits).length = digits + 85 := by
  have size : (encodeText startedText).length = 41 := by decide
  unfold integerContent
  simp only [List.length_append, List.length_cons, List.length_nil, size, encodeText_integerText,
    List.length_replicate]
  omega

variable {limit : ℕ}

theorem consumeLine_startedText (state : MappingState) (unknown : state.rootNativeSessionRef = none) :
    consumeLine (sampleDecoder limit) none (encodeText startedText) true state =
      .ok { state with
        rootNativeSessionRef := some "a", mapped := state.mapped ++ encodeText startedText ++ [newline] } := by
  have root : rootRef [("type", .text "thread.started"), ("thread_id", .text "a")] = some "a" := rfl
  simp [consumeLine, decodeText_encodeText, sampleDecoder, consumeEvent, root, mapLine, unknown]

theorem consumeLine_integerText (state : MappingState) :
    consumeLine (sampleDecoder limit) none (encodeText (integerText (limit + 1))) true state =
      .error "ValueError" := by
  have head : ∀ text, (encodeText text).head? = some 0x7b → integerText (limit + 1) ≠ text := by
    rintro text starts rfl
    rw [encodeText_integerText, List.replicate_succ] at starts
    simp at starts
  have notStarted := head startedText (by decide)
  have notOpened := head openedText (by decide)
  simp [consumeLine, decodeText_encodeText, sampleDecoder, notStarted, notOpened]

theorem readChunk_integerContent (small : limit + 86 ≤ sourceReadBytes) :
    readChunk ⟨(0, 1), integerContent (limit + 1)⟩ { sourceIdentity := some (0, 1) } =
      { sourceIdentity := some (0, 1)
        sourceOffset := limit + 86
        sourceBuffer := integerContent (limit + 1) } := by
  have size : (integerContent (limit + 1)).length = limit + 86 := by
    have length := length_integerContent (limit + 1)
    omega
  have whole : min sourceReadBytes ((integerContent (limit + 1)).length - 0) = limit + 86 := by
    omega
  have all : ((integerContent (limit + 1)).drop 0).take (limit + 86) = integerContent (limit + 1) := by
    rw [← size]
    exact List.take_length
  unfold readChunk
  dsimp only
  rw [whole, all, size, List.nil_append, Nat.zero_add]

/-- The line that raises and the event after it are neither mapped nor buffered. -/
theorem advance_integerContent (small : limit + 86 ≤ sourceReadBytes) :
    (advance (sampleDecoder limit) sampleQuery (some ⟨(0, 1), integerContent (limit + 1)⟩) {}).1 =
      { sourceIdentity := some (0, 1)
        sourceOffset := limit + 86
        rootNativeSessionRef := some "a"
        mapped := encodeText startedText ++ [newline] } := by
  have stops : consumeLines (sampleDecoder limit) none (splitLines (integerContent (limit + 1))).1
      { sourceIdentity := some (0, 1), sourceOffset := limit + 86 } =
        ({ sourceIdentity := some (0, 1)
           sourceOffset := limit + 86
           rootNativeSessionRef := some "a"
           mapped := encodeText startedText ++ [newline] }, some "ValueError") := by
    rw [splitLines_integerContent, consumeLines, consumeLine_startedText _ rfl]
    simp [consumeLines, consumeLine_integerText]
  have rest : (splitLines (integerContent (limit + 1))).2 = [] := by
    rw [splitLines_integerContent]
  simp [advance, sampleQuery, sourceChanged, readChunk_integerContent small, mapBuffer, keepRest,
    rest, stops]

theorem sampleRun_integerContent (small : limit + 86 ≤ sourceReadBytes) :
    ∃ state, (sampleHash, state) ∈ (sampleRun limit (integerContent (limit + 1))).store.states ∧
      state.failureCode = none ∧ state.mapped ++ state.sourceBuffer ≠
        (integerContent (limit + 1)).take state.sourceOffset := by
  have member := List.mem_singleton_self (sampleHash, (advance (sampleDecoder limit) sampleQuery
    (some ⟨(0, 1), integerContent (limit + 1)⟩) {}).1)
  rw [← states_sampleRun, advance_integerContent small] at member
  refine ⟨_, member, rfl, fun same => ?_⟩
  have sizes := congrArg List.length same
  have started : (encodeText startedText).length = 41 := by decide
  have content := length_integerContent (limit + 1)
  simp only [List.length_append, List.length_cons, List.length_nil, List.length_take, started] at sizes
  omega

/-- What a state has mapped and buffers is not all that it read: the fragment of a failed exit is set
aside, and a line that raises takes the lines after it along. -/
theorem not_exact_prefix :
    (∃ state, (sampleHash, state) ∈
        (sampleRun 4300 (encodeText startedText ++ newline :: encodeText openedText)).store.states ∧
      state.failureCode = none ∧ state.mapped ++ state.sourceBuffer ≠
        (encodeText startedText ++ newline :: encodeText openedText).take state.sourceOffset) ∧
    ∃ state, (sampleHash, state) ∈ (sampleRun 4300 (integerContent (4300 + 1))).store.states ∧
      state.failureCode = none ∧ state.mapped ++ state.sourceBuffer ≠
        (integerContent (4300 + 1)).take state.sourceOffset := by
  constructor
  · refine ⟨{
      sourceIdentity := some (0, 1)
      sourceOffset := 46
      rootNativeSessionRef := some "a"
      mapped := encodeText startedText ++ [newline]
      incompleteTailBytes := 4 }, ?_, rfl, ?_⟩
    · decide +kernel
    · decide
  · exact @sampleRun_integerContent 4300 (by decide)

/-- The page of the first run. -/
def samplePage : TargetRawOutputPage where
  operationRef := "operation"
  transportInvocationHash := sampleHash
  streamRef := "target-raw-output:" ++ sampleHash
  status := "complete"
  text := startedText ++ "\n"
  offset := 0
  nextOffset := 42
  mappedBytes := 42
  sourceBytes := 46
  hasMore := false
  sourceCaughtUp := true
  rootNativeSessionRef := some "a"
  incompleteTailBytes := 4

theorem mapped_and_pages_are_prefixes_fragment :
    (sampleRun 4300 (encodeText startedText ++ newline :: encodeText openedText)).pages =
        [(sampleHash, samplePage)] ∧
      [samplePage].flatMap (fun page => encodeText page.text) =
        ((sampleRun 4300 (encodeText startedText ++ newline :: encodeText openedText)).content
          sampleHash).take 42 := by
  have pages : (sampleRun 4300 (encodeText startedText ++ newline :: encodeText openedText)).pages =
      [(sampleHash, samplePage)] := by decide +kernel
  have quiet : ∀ line ∈ [encodeText startedText], ¬ raisesOn (sampleDecoder 4300) line := by
    rintro line member ⟨text, exception, decoded, loaded⟩
    rw [List.mem_singleton.mp member, decodeText_encodeText] at decoded
    cases decoded
    cases loaded
  refine ⟨pages, (mapped_and_pages_are_prefixes (sampleDecoder 4300)
    [.bind "operation" sampleHash "codex", .grow sampleHash (0, 1)
      (encodeText startedText ++ newline :: encodeText openedText), .query sampleQuery]
    ⟨trivial, trivial, ?_, trivial⟩).2 sampleHash [samplePage] ⟨?_, rfl, trivial⟩⟩
  · intro line member
    apply quiet
    convert member using 1
    decide +kernel
  · have member := List.mem_singleton_self (sampleHash, samplePage)
    rw [← pages] at member
    exact member

end MetaResearch.RawOutput

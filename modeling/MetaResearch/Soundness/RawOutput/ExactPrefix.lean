import MetaResearch.Model.RawOutput.Store
import MetaResearch.ToMathlib.Run

/-! # What the reader has mapped is a prefix of the source

The mapped bytes, the fragment of a signed failed exit and the buffered rest are the bytes of the
source that were read, in order. The step lemma follows a query through its chunk, its lines and its
unterminated rest; a line whose parsing raises an uncaught exception is left out.
-/

namespace MetaResearch.RawOutput

variable {decoder : Decoder}

/-! ### Bytes -/

theorem encodeText_of_decodeText {bytes : Bytes} {text : String}
    (decoded : decodeText bytes = some text) : encodeText text = bytes := by
  unfold decodeText String.fromUTF8? at decoded
  split at decoded
  · cases decoded
    rfl
  · cases decoded

/-- Splitting at newlines loses no byte. -/
theorem join_splitLines (bytes : Bytes) :
    (splitLines bytes).1.flatMap (· ++ [newline]) ++ (splitLines bytes).2 = bytes := by
  induction bytes with
  | nil => rfl
  | cons byte rest ih =>
    unfold splitLines
    generalize splitLines rest = parts at ih
    obtain ⟨lines, last⟩ := parts
    dsimp only at ih ⊢
    split_ifs with ends
    · simp [ends, ih]
    · cases lines with
      | nil => simpa using ih
      | cons line more => simpa using ih

/-! ### The invariant of a stream -/

/-- A state without a failure has read a prefix of the source: what it mapped, the fragment that it
set aside, and what it buffers. -/
def Exact (content : Bytes) (state : MappingState) : Prop :=
  state.failureCode = none → state.sourceOffset ≤ content.length ∧
    ∃ fragment : Bytes, fragment.length = state.incompleteTailBytes ∧
      (fragment ≠ [] → state.sourceBuffer = [] ∧ state.sourceIdentity.isSome) ∧
        state.mapped ++ fragment ++ state.sourceBuffer = content.take state.sourceOffset

theorem exact_empty (content : Bytes) : Exact content {} :=
  fun _ => ⟨Nat.zero_le _, [], rfl, by simp, by simp⟩

theorem exact_of_failure {content : Bytes} {state : MappingState} {code : String}
    (failed : state.failureCode = some code) : Exact content state := by
  intro sound
  rw [failed] at sound
  cases sound

/-- Growth keeps what was read. -/
theorem Exact.grow {content more : Bytes} {state : MappingState} (exact : Exact content state) :
    Exact (content ++ more) state := by
  intro sound
  obtain ⟨bound, fragment, size, aside, read⟩ := exact sound
  refine ⟨?_, fragment, size, aside, ?_⟩
  · rw [List.length_append]
    omega
  · rw [List.take_append_of_le_length bound]
    exact read

/-! ### Consuming lines -/

/-- What consuming some bytes does to a state. -/
structure Consumed (state next : MappingState) (bytes : Bytes) : Prop where
  identity : next.sourceIdentity = state.sourceIdentity
  offset : next.sourceOffset = state.sourceOffset
  buffer : next.sourceBuffer = state.sourceBuffer
  fragment : next.incompleteTailBytes = state.incompleteTailBytes
  mapped : next.failureCode = none → state.failureCode = none ∧ next.mapped = state.mapped ++ bytes

theorem Consumed.refl (state : MappingState) : Consumed state state [] :=
  ⟨rfl, rfl, rfl, rfl, fun sound => ⟨sound, by simp⟩⟩

theorem Consumed.trans {state middle next : MappingState} {first second : Bytes}
    (front : Consumed state middle first) (back : Consumed middle next second) :
    Consumed state next (first ++ second) where
  identity := back.identity.trans front.identity
  offset := back.offset.trans front.offset
  buffer := back.buffer.trans front.buffer
  fragment := back.fragment.trans front.fragment
  mapped sound := by
    obtain ⟨middleSound, last⟩ := back.mapped sound
    obtain ⟨start, early⟩ := front.mapped middleSound
    exact ⟨start, by rw [last, early, List.append_assoc]⟩

/-- A failed state has consumed anything. -/
theorem consumed_of_failure {state next : MappingState} {bytes : Bytes} {code : String}
    (identity : next.sourceIdentity = state.sourceIdentity)
    (offset : next.sourceOffset = state.sourceOffset) (buffer : next.sourceBuffer = state.sourceBuffer)
    (fragment : next.incompleteTailBytes = state.incompleteTailBytes)
    (failed : next.failureCode = some code) : Consumed state next bytes :=
  ⟨identity, offset, buffer, fragment, fun sound => by rw [failed] at sound; cases sound⟩

/-- The bytes of a line. -/
def lineBytes (line : Bytes) (terminated : Bool) : Bytes := line ++ if terminated then [newline] else []

theorem consumed_mapLine (expected : Option String) (line : Bytes) (terminated : Bool)
    (state : MappingState) :
    Consumed state (mapLine expected line terminated state) (lineBytes line terminated) := by
  unfold mapLine
  split_ifs with mismatch
  · exact consumed_of_failure rfl rfl rfl rfl rfl
  all_goals exact ⟨rfl, rfl, rfl, rfl, fun sound => ⟨sound, by simp [lineBytes, *]⟩⟩

theorem consumed_consumeEvent (expected : Option String) (line : Bytes) (terminated : Bool)
    (state : MappingState) (value : Json) :
    Consumed state (consumeEvent expected line terminated state value) (lineBytes line terminated) := by
  cases value with
  | object event =>
    unfold consumeEvent
    dsimp only
    split
    · exact consumed_mapLine expected line terminated state
    · rename_i native _ _
      have mapped := consumed_mapLine expected line terminated
        { state with rootNativeSessionRef := some native }
      exact ⟨mapped.identity, mapped.offset, mapped.buffer, mapped.fragment, mapped.mapped⟩
    · exact consumed_of_failure rfl rfl rfl rfl rfl
  | null => exact consumed_of_failure rfl rfl rfl rfl rfl
  | bool _ => exact consumed_of_failure rfl rfl rfl rfl rfl
  | integer _ => exact consumed_of_failure rfl rfl rfl rfl rfl
  | number _ => exact consumed_of_failure rfl rfl rfl rfl rfl
  | text _ => exact consumed_of_failure rfl rfl rfl rfl rfl
  | array _ => exact consumed_of_failure rfl rfl rfl rfl rfl

theorem consumed_consumeLine {expected : Option String} {line : Bytes} {terminated : Bool}
    {state next : MappingState}
    (success : consumeLine decoder expected line terminated state = .ok next) :
    Consumed state next (lineBytes line terminated) := by
  unfold consumeLine at success
  split at success
  · cases success
    exact consumed_consumeEvent expected line terminated state _
  · cases success
  · cases success
    exact consumed_of_failure rfl rfl rfl rfl rfl

/-- Parsing the line raises an exception that nothing catches. -/
def raisesOn (decoder : Decoder) (line : Bytes) : Prop :=
  ∃ text exception, decodeText line = some text ∧ decoder.loads text = .raises exception

theorem raisesOn_of_consumeLine {expected : Option String} {line : Bytes} {terminated : Bool}
    {state : MappingState} {exception : String}
    (raised : consumeLine decoder expected line terminated state = .error exception) :
    raisesOn decoder line := by
  unfold consumeLine at raised
  split at raised
  · cases raised
  · rename_i found
    obtain ⟨text, decoded, loaded⟩ := Option.map_eq_some_iff.mp found
    exact ⟨text, _, decoded, loaded⟩
  · cases raised

/-- Lines that raise nothing are consumed one after the other, or end in a failure. -/
theorem consumed_consumeLines (expected : Option String) {lines : List Bytes} (state : MappingState)
    (quiet : ∀ line ∈ lines, ¬ raisesOn decoder line) :
    (consumeLines decoder expected lines state).2 = none ∧
      Consumed state (consumeLines decoder expected lines state).1
        (lines.flatMap (· ++ [newline])) := by
  induction lines generalizing state with
  | nil => exact ⟨rfl, .refl state⟩
  | cons line rest ih =>
    obtain ⟨first, others⟩ := List.forall_mem_cons.mp quiet
    unfold consumeLines
    cases consumed : consumeLine decoder expected line true state with
    | error exception => exact (first (raisesOn_of_consumeLine consumed)).elim
    | ok next =>
      have step : Consumed state next (line ++ [newline]) := consumed_consumeLine consumed
      dsimp only
      cases failed : next.failureCode with
      | some code =>
        exact ⟨rfl, consumed_of_failure step.identity step.offset step.buffer step.fragment failed⟩
      | none =>
        have later := ih next others
        exact ⟨later.1, step.trans later.2⟩

/-! ### One advance -/

/-- The lines that the state would consume from the file raise nothing. -/
def QuietLines (decoder : Decoder) (file : SourceFile) (state : MappingState) : Prop :=
  ∀ line ∈ (splitLines (readChunk file state).sourceBuffer).1, ¬ raisesOn decoder line

/-- A state that set a fragment aside has read the whole file. -/
def Settled (file : SourceFile) (state : MappingState) : Prop :=
  state.failureCode = none → state.incompleteTailBytes ≠ 0 → file.content.length = state.sourceOffset

theorem exact_readChunk {file : SourceFile} {state : MappingState}
    (exact : Exact file.content state) (settled : Settled file state) :
    Exact file.content (readChunk file state) := by
  intro sound
  obtain ⟨bound, fragment, size, aside, read⟩ := exact sound
  unfold readChunk
  generalize bytes : min sourceReadBytes (file.content.length - state.sourceOffset) = remaining
  have length : ((file.content.drop state.sourceOffset).take remaining).length = remaining := by
    rw [List.length_take, List.length_drop]
    omega
  refine ⟨?_, fragment, size, fun some => ?_, ?_⟩
  · dsimp only
    omega
  · obtain ⟨buffer, identity⟩ := aside some
    have positive : state.incompleteTailBytes ≠ 0 := by
      rw [← size]
      exact fun empty => some (List.length_eq_zero_iff.mp empty)
    have nothing : remaining = 0 := by
      have whole := settled sound positive
      omega
    exact ⟨by simp [buffer, nothing], identity⟩
  · dsimp only
    rw [length, List.take_add, ← read]
    simp only [List.append_assoc]

theorem exact_consumeLines {content : Bytes} {expected : Option String} {state : MappingState}
    (exact : Exact content state)
    (quiet : ∀ line ∈ (splitLines state.sourceBuffer).1, ¬ raisesOn decoder line) :
    Exact content
      (consumeLines decoder expected (splitLines state.sourceBuffer).1 (keepRest state)).1 := by
  intro sound
  have consumed := (consumed_consumeLines expected (keepRest state) quiet).2
  obtain ⟨startSound, mapped⟩ := consumed.mapped sound
  obtain ⟨bound, fragment, size, aside, read⟩ := exact startSound
  refine ⟨consumed.offset ▸ bound, fragment, size.trans consumed.fragment.symm, fun some => ?_, ?_⟩
  · obtain ⟨buffer, identity⟩ := aside some
    rw [consumed.buffer, consumed.identity, keepRest, buffer]
    exact ⟨rfl, identity⟩
  · rw [mapped, consumed.buffer, consumed.offset]
    change state.mapped ++ _ ++ fragment ++ (splitLines state.sourceBuffer).2 =
      content.take state.sourceOffset
    rw [← read]
    by_cases empty : fragment = []
    · rw [empty, List.append_nil, List.append_nil, List.append_assoc, join_splitLines]
    · rw [(aside empty).1]
      simp [splitLines]

/-- The unterminated rest is mapped, set aside, or kept. -/
theorem exact_finishRest {content : Bytes} {query : Query} {state : MappingState}
    (exact : Exact content state) (identity : state.sourceIdentity.isSome)
    (rest : state.sourceBuffer ≠ []) : Exact content (finishRest decoder query state).1 := by
  have consume : Exact content (consumeRest decoder query state).1 := by
    unfold consumeRest
    split
    · exact exact
    · rename_i next consumed
      intro sound
      have step := consumed_consumeLine consumed
      obtain ⟨startSound, mapped⟩ := step.mapped sound
      obtain ⟨bound, fragment, size, aside, read⟩ := exact startSound
      have empty : fragment = [] := by
        by_contra some
        exact rest (aside some).1
      subst empty
      refine ⟨step.offset ▸ bound, [], size.trans step.fragment.symm, by simp, ?_⟩
      dsimp only
      rw [mapped, step.offset, ← read]
      simp [lineBytes]
  unfold finishRest
  split_ifs with unknown
  · exact consume
  · split
    · exact exact
    · exact consume
    · split
      · exact exact
      · exact consume
      · intro sound
        obtain ⟨bound, fragment, size, aside, read⟩ := exact sound
        have empty : fragment = [] := by
          by_contra some
          exact rest (aside some).1
        refine ⟨bound, state.sourceBuffer, rfl, fun _ => ⟨rfl, identity⟩, ?_⟩
        rw [← read, empty]
        simp

theorem exact_mapBuffer {query : Query} {file : SourceFile} {state : MappingState}
    (exact : Exact file.content state) (identity : state.sourceIdentity.isSome)
    (quiet : ∀ line ∈ (splitLines state.sourceBuffer).1, ¬ raisesOn decoder line) :
    Exact file.content (mapBuffer decoder query file state).1 := by
  have mapped : Exact file.content (consumeLines decoder query.expectedNativeSessionRef
      (splitLines state.sourceBuffer).1 (keepRest state)).1 := exact_consumeLines exact quiet
  have consumed := (consumed_consumeLines query.expectedNativeSessionRef (keepRest state) quiet).2
  unfold mapBuffer
  generalize consumeLines decoder query.expectedNativeSessionRef (splitLines state.sourceBuffer).1
    (keepRest state) = result at mapped consumed
  obtain ⟨next, raised⟩ := result
  cases raised with
  | some exception => exact mapped
  | none =>
    dsimp only at mapped consumed ⊢
    split_ifs with last
    · simp only [Bool.and_eq_true, Bool.not_eq_true', List.isEmpty_eq_false_iff] at last
      exact exact_finishRest mapped (by rw [consumed.identity]; exact identity) last.1.2
    · exact mapped

/-- A state that is exact and not found changed has read all of a file whose fragment it set aside. -/
private theorem settled_of_not_changed {file : SourceFile} {state : MappingState}
    (exact : Exact file.content state) (same : ¬ sourceChanged file state = true) :
    Settled file state := by
  intro sound positive
  obtain ⟨_, fragment, size, aside, _⟩ := exact sound
  have some : fragment ≠ [] := by
    rintro rfl
    exact positive size.symm
  obtain ⟨identity, found⟩ := Option.isSome_iff_exists.mp (aside some).2
  by_contra grown
  simp [sourceChanged, found, positive, grown] at same

/-- An advance keeps a state exact when the lines it consumes raise nothing. -/
theorem exact_advance {query : Query} {file : SourceFile} {state : MappingState}
    (exact : Exact file.content state) (quiet : QuietLines decoder file state) :
    Exact file.content (advance decoder query (some file) state).1 := by
  unfold advance
  by_cases unreachable : query.statFails
  · rw [if_pos unreachable]
    exact exact
  rw [if_neg unreachable]
  dsimp only
  by_cases changed : sourceChanged file state
  · rw [if_pos changed]
    exact exact_of_failure rfl
  rw [if_neg changed]
  have known : Exact file.content { state with sourceIdentity := some file.identity } := by
    intro sound
    obtain ⟨bound, fragment, size, aside, read⟩ := exact sound
    exact ⟨bound, fragment, size, fun some => ⟨(aside some).1, rfl⟩, read⟩
  have whole : Settled file state := settled_of_not_changed exact changed
  have settled : Settled file { state with sourceIdentity := some file.identity } := whole
  by_cases unread : (query.readFails && decide (state.sourceOffset < file.content.length)) = true
  · rw [if_pos unread]
    exact known
  · rw [if_neg unread]
    have next : Exact file.content (mapBuffer decoder query file
        (readChunk file { state with sourceIdentity := some file.identity })).1 :=
      exact_mapBuffer (exact_readChunk known settled) rfl quiet
    split <;> rename_i mapped <;> rw [mapped] at next <;> exact next

/-! ### Pages -/

theorem slice_append {bytes : Bytes} {start middle stop : ℕ} (first : start ≤ middle)
    (second : middle ≤ stop) :
    slice bytes start middle ++ slice bytes middle stop = slice bytes start stop := by
  have split : stop - start = (middle - start) + (stop - middle) := by omega
  have shift : start + (middle - start) = middle := by omega
  unfold slice
  rw [split, List.take_add, List.drop_drop, shift]

theorem slice_of_isPrefix {front bytes : Bytes} {start stop : ℕ} (isPrefix : front <+: bytes)
    (bound : stop ≤ front.length) : slice bytes start stop = slice front start stop := by
  obtain ⟨rest, rfl⟩ := isPrefix
  unfold slice
  by_cases order : start ≤ stop
  · rw [List.drop_append_of_le_length (by omega), List.take_append_of_le_length]
    rw [List.length_drop]
    omega
  · have nothing : stop - start = 0 := by omega
    simp [nothing]

/-- A page text is the bytes between its cursors. -/
theorem encodeText_pageText (mapped : Bytes) (after count : ℕ) :
    encodeText (pageText mapped after count).1 = slice mapped after (pageText mapped after count).2 ∧
      after ≤ (pageText mapped after count).2 ∧ (pageText mapped after count).2 ≤ after + count := by
  induction count with
  | zero => simp [pageText, slice, encodeText]
  | succ count ih =>
    unfold pageText
    split
    · rename_i text decoded
      exact ⟨encodeText_of_decodeText decoded, by dsimp only; omega, by dsimp only; omega⟩
    · obtain ⟨text, start, stop⟩ := ih
      exact ⟨text, start, by omega⟩

/-- The page is made of bytes of the source. -/
structure PageOfSource (content : Bytes) (page : TargetRawOutputPage) : Prop where
  text : encodeText page.text = slice content page.offset page.nextOffset
  ordered : page.offset ≤ page.nextOffset
  bound : page.nextOffset ≤ content.length

theorem PageOfSource.of_isPrefix {front bytes : Bytes} {page : TargetRawOutputPage}
    (page_ok : PageOfSource front page) (isPrefix : front <+: bytes) : PageOfSource bytes page where
  text := by rw [slice_of_isPrefix isPrefix page_ok.bound, page_ok.text]
  ordered := page_ok.ordered
  bound := Nat.le_trans page_ok.bound isPrefix.length_le

theorem Exact.mapped_prefix {content : Bytes} {state : MappingState} (exact : Exact content state)
    (sound : state.failureCode = none) : state.mapped <+: content := by
  obtain ⟨_, fragment, _, _, read⟩ := exact sound
  have front : state.mapped <+: content.take state.sourceOffset :=
    ⟨fragment ++ state.sourceBuffer, by rw [← read, List.append_assoc]⟩
  exact front.trans (List.take_prefix _ _)

theorem hash_of_pageOf {query : Query} {hash : String} {after limit size : ℕ} {state : MappingState}
    {page : TargetRawOutputPage} (success : pageOf query hash after limit size state = .ok page) :
    page.transportInvocationHash = hash := by
  unfold pageOf at success
  split_ifs at success
  split at success
  split_ifs at success
  all_goals
    cases success
    rfl

theorem pageOfSource_of_pageOf {query : Query} {hash : String} {after limit size : ℕ}
    {state : MappingState} {page : TargetRawOutputPage}
    (success : pageOf query hash after limit size state = .ok page) :
    PageOfSource state.mapped page := by
  unfold pageOf at success
  split_ifs at success with stale split
  have parts := encodeText_pageText state.mapped after (min state.mapped.length (after + limit) - after)
  generalize pageText state.mapped after (min state.mapped.length (after + limit) - after) = result
    at parts success
  obtain ⟨text, stop⟩ := result
  dsimp only at parts success
  split_ifs at success
  all_goals
    cases success
    exact ⟨parts.1, parts.2.1, by dsimp only; omega⟩

/-! ### Runs -/

/-- The bytes of a source, which has none before it is created. -/
def System.content (system : System) (hash : String) : Bytes :=
  (system.sources hash).elim [] SourceFile.content

/-- The complete lines that a query takes from its source. -/
def System.takenLines (system : System) (query : Query) : List Bytes :=
  match system.store.operationBindings.lookup query.operationRef with
  | none => []
  | some (hash, _) =>
    match system.sources hash, rebuild query (system.store.stateOf hash) with
    | some file, .ok state => (splitLines (readChunk file state).sourceBuffer).1
    | _, _ => []

/-- No complete line that a query takes raises anything that the reader does not catch. -/
def Quiet (decoder : Decoder) (system : System) : Input → Prop
  | .query query => ∀ line ∈ system.takenLines query, ¬ raisesOn decoder line
  | _ => True

/-- Every cached stream and every returned page is made of the bytes of its source. -/
structure Intact (system : System) : Prop where
  states : ∀ entry ∈ system.store.states, Exact (system.content entry.1) entry.2
  pages : ∀ entry ∈ system.pages, PageOfSource (system.content entry.1) entry.2

theorem mem_remember {store : Store} {hash : String} {state : MappingState}
    {entry : String × MappingState} (member : entry ∈ (store.remember hash state).states) :
    entry ∈ store.states ∨ entry = (hash, state) := by
  have kept := List.mem_of_mem_drop member
  rw [List.mem_append, List.mem_filter, List.mem_singleton] at kept
  exact kept.imp_left And.left

theorem Intact.stateOf {system : System} (intact : Intact system) (hash : String) :
    Exact (system.content hash) (system.store.stateOf hash) := by
  unfold Store.stateOf
  cases found : system.store.states.lookup hash with
  | none => exact exact_empty _
  | some state =>
    obtain ⟨front, back, entries, _⟩ := List.lookup_eq_some_iff.mp found
    have member : (hash, state) ∈ system.store.states := by simp [entries]
    exact intact.states _ member

/-- Remembering an exact state keeps every stream exact. -/
theorem Intact.remember {system : System} (intact : Intact system) {hash : String}
    {state : MappingState} (exact : Exact (system.content hash) state) :
    Intact { system with store := system.store.remember hash state } where
  states entry member := by
    rcases mem_remember member with old | rfl
    · exact intact.states entry old
    · exact exact
  pages := intact.pages

theorem Intact.grow {system : System} (intact : Intact system) (hash : String) (identity : ℕ × ℕ)
    (bytes : Bytes) : Intact (System.step decoder system (.grow hash identity bytes)) := by
  have grown : ∀ other, ∃ more,
      (System.step decoder system (.grow hash identity bytes)).content other =
        system.content other ++ more := by
    intro other
    by_cases same : other = hash
    · subst same
      refine ⟨bytes, ?_⟩
      cases found : system.sources other <;>
        simp [System.step, System.content, SourceFile.grow, found]
    · refine ⟨[], ?_⟩
      simp [System.step, System.content, Function.update_of_ne same]
  constructor
  · intro entry member
    obtain ⟨more, content⟩ := grown entry.1
    rw [content]
    exact (intact.states entry member).grow
  · intro entry member
    obtain ⟨more, content⟩ := grown entry.1
    rw [content]
    exact (intact.pages entry member).of_isPrefix (List.prefix_append _ _)

theorem exact_rebuild {content : Bytes} {query : Query} {state next : MappingState}
    (exact : Exact content state) (success : rebuild query state = .ok next) : Exact content next := by
  unfold rebuild at success
  split at success
  · split at success <;> cases success
    · exact exact_empty content
    · exact exact
  · cases success
    exact exact

/-- Reading a stream remembers its cached state, or the advanced one that it answers from. -/
theorem readStream_cases (sources : String → Option SourceFile) (query : Query) (hash : String)
    (store : Store) :
    (∃ error, readStream decoder sources query hash store =
      (store.remember hash (store.stateOf hash), .error error)) ∨
    ∃ state, rebuild query (store.stateOf hash) = .ok state ∧
      readStream decoder sources query hash store =
        (store.remember hash (advance decoder query (sources hash) state).1,
          answer query hash (advance decoder query (sources hash) state).1
            (advance decoder query (sources hash) state).2) := by
  unfold readStream
  dsimp only
  split
  · exact .inl ⟨_, rfl⟩
  · split
    · exact .inl ⟨_, rfl⟩
    · rename_i state rebuilt
      exact .inr ⟨state, rebuilt, rfl⟩

/-- A page is made of bytes of the source of the exact state that answers it. -/
theorem pageOfSource_of_answer {query : Query} {hash : String} {content : Bytes} {state : MappingState}
    {size : Except QueryError ℕ} {page : TargetRawOutputPage} (exact : Exact content state)
    (success : answer query hash state size = .ok page) :
    page.transportInvocationHash = hash ∧ PageOfSource content page := by
  unfold answer at success
  cases size with
  | error error => cases success
  | ok size =>
    dsimp only at success
    cases failed : state.failureCode with
    | some code =>
      rw [failed] at success
      cases success
    | none =>
      rw [failed] at success
      dsimp only at success
      exact ⟨hash_of_pageOf success,
        (pageOfSource_of_pageOf success).of_isPrefix (exact.mapped_prefix failed)⟩

/-- The advanced state of a quiet query is exact. -/
theorem Intact.advance {system : System} (intact : Intact system) {query : Query} {hash : String}
    {state : MappingState} (rebuilt : rebuild query (system.store.stateOf hash) = .ok state)
    (quiet : ∀ file, system.sources hash = some file → QuietLines decoder file state) :
    Exact (system.content hash) (advance decoder query (system.sources hash) state).1 := by
  have start := exact_rebuild (intact.stateOf hash) rebuilt
  cases found : system.sources hash with
  | none =>
    unfold RawOutput.advance
    split <;> exact start
  | some file =>
    have content : system.content hash = file.content := by
      simp [System.content, found]
    rw [content] at start ⊢
    exact exact_advance start (quiet file found)

/-- A query keeps every stream exact, and its page is made of bytes of its source. -/
theorem Intact.query {system : System} (intact : Intact system) {query : Query}
    (quiet : ∀ line ∈ system.takenLines query, ¬ raisesOn decoder line) :
    Intact { system with store := (system.store.query decoder system.sources query).1 } ∧
      ∀ page, (system.store.query decoder system.sources query).2 = .ok page →
        PageOfSource (system.content page.transportInvocationHash) page := by
  unfold Store.query
  split_ifs
  · exact ⟨intact, fun page success => by cases success⟩
  · exact ⟨intact, fun page success => by cases success⟩
  · cases bound : system.store.operationBindings.lookup query.operationRef with
    | none => exact ⟨intact, fun page success => by cases success⟩
    | some binding =>
      obtain ⟨hash, family⟩ := binding
      dsimp only
      split_ifs
      · exact ⟨intact, fun page success => by cases success⟩
      · rcases @readStream_cases decoder system.sources query hash system.store with
          ⟨error, refused⟩ | ⟨state, rebuilt, read⟩
        · rw [refused]
          exact ⟨intact.remember (intact.stateOf hash), fun page success => by cases success⟩
        · have calm : ∀ file, system.sources hash = some file → QuietLines decoder file state := by
            intro file found line member
            apply quiet line
            simp only [System.takenLines, bound, found, rebuilt]
            exact member
          have next := intact.advance rebuilt calm
          rw [read]
          refine ⟨intact.remember next, fun page success => ?_⟩
          obtain ⟨same, made⟩ := pageOfSource_of_answer next success
          rw [same]
          exact made

theorem intact_step {system : System} {input : Input} (intact : Intact system)
    (quiet : Quiet decoder system input) : Intact (System.step decoder system input) := by
  cases input with
  | bind operationRef hash family =>
    unfold System.step
    dsimp only
    cases bound : bindOperation operationRef hash family system.store with
    | error error => exact intact
    | ok store =>
      have same : store.states = system.store.states := by
        unfold bindOperation at bound
        split_ifs at bound
        split at bound
        · split_ifs at bound
          cases bound
          rfl
        · cases bound
          rfl
      exact ⟨fun entry member => intact.states entry (same ▸ member), intact.pages⟩
  | grow hash identity bytes => exact intact.grow hash identity bytes
  | query query =>
    obtain ⟨next, pages⟩ := intact.query quiet
    unfold System.step
    dsimp only
    generalize system.store.query decoder system.sources query = result at next pages
    obtain ⟨store, answered⟩ := result
    cases answered with
    | error error => exact next
    | ok page =>
      refine ⟨next.states, fun entry member => ?_⟩
      rcases List.mem_append.mp member with old | new
      · exact intact.pages entry old
      · rw [List.mem_singleton.mp new]
        exact pages page rfl

theorem intact_run {inputs : List Input}
    (run : Admissible (System.step decoder) (Quiet decoder) {} inputs) :
    Intact (runInputs (System.step decoder) {} inputs) :=
  run.invariant ⟨by simp, by simp⟩ fun _ _ intact quiet => intact_step intact quiet

end MetaResearch.RawOutput

import Mathlib.Logic.Function.Basic
import MetaResearch.ToMathlib.Json

/-! # The raw output reader

Pages of the exact private stdout stream of a bound operation. A reader maps complete lines of an
append-only source file in chunks; what JSON parsing answers on a line is a parameter, the UTF-8
form of text is not. Verifying a signed exit, the file system and the path check answer through the
query's own input.
-/

namespace MetaResearch.RawOutput

abbrev Bytes := List UInt8

def newline : UInt8 := 10

/-- `bytes.decode("utf-8")`, when it succeeds. -/
def decodeText (bytes : Bytes) : Option String := String.fromUTF8? ⟨bytes.toArray⟩

/-- `text.encode("utf-8")` -/
def encodeText (text : String) : Bytes := text.toByteArray.data.toList

/-- Where and why bytes are no UTF-8 text: `UnicodeDecodeError`. -/
structure DecodeError (bytes : Bytes) where
  reason : String
  start : Fin bytes.length
  stop : ℕ

/-- What `json.loads` does with a text. -/
inductive Loads where
  | value (value : Json)
  | decodeError (message : String) (position : ℕ)
  | raises (exception : String)

/-- The parts of the standard library that are not fixed here. -/
structure Decoder where
  loads : String → Loads
  decodeError : (bytes : Bytes) → decodeText bytes = none → DecodeError bytes

/-! ### States and pages -/

structure MappingState where
  sourceIdentity : Option (ℕ × ℕ) := none
  sourceOffset : ℕ := 0
  sourceBuffer : Bytes := []
  rootNativeSessionRef : Option String := none
  mapped : Bytes := []
  failureCode : Option String := none
  incompleteTailBytes : ℕ := 0
deriving DecidableEq, Repr

structure TargetRawOutputPage where
  operationRef : String
  transportInvocationHash : String
  streamRef : String
  status : String
  text : String
  offset : ℕ
  nextOffset : ℕ
  mappedBytes : ℕ
  sourceBytes : ℕ
  hasMore : Bool
  sourceCaughtUp : Bool
  rootNativeSessionRef : Option String
  incompleteTailBytes : ℕ
deriving DecidableEq, Repr

/-- A source file, whose content only grows. -/
structure SourceFile where
  identity : ℕ × ℕ
  content : Bytes
deriving DecidableEq, Repr

inductive QueryError where
  /-- `TargetRawOutputUnavailable` -/
  | unavailable (code : String)
  /-- An exception of the JSON parser that nothing catches. -/
  | raised (exception : String)
deriving DecidableEq, Repr

/-- What `_verified_failed_exit` answers: it raises when the receipt cannot be read. -/
inductive ExitCheck where
  | failed
  | clean
  | unavailable
deriving DecidableEq, Repr

structure Query where
  operationRef : String
  after : ℤ
  limit : ℤ
  expectedNativeSessionRef : Option String
  terminal : Bool
  pathValid : Bool
  statFails : Bool
  readFails : Bool
  rebuildExit : ExitCheck
  tailExit : ExitCheck
deriving DecidableEq, Repr

def sourceReadBytes : ℕ := 1024 * 1024

def pageMinBytes : ℕ := 4

def pageMaxBytes : ℕ := 256 * 1024

def maxCachedStreams : ℕ := 4

/-! ### Lines -/

/-- `event.get(name)`: the last field of the name. -/
def field (fields : List (String × Json)) (name : String) : Option Json := fields.reverse.lookup name

/-- The value of an optional field is this text. -/
def hasText (value : Option Json) (expected : String) : Bool :=
  match value with
  | some (.text text) => text = expected
  | _ => false

/-- `value in (None, "")` for the value of an optional field. -/
def isAbsent (value : Option Json) : Bool :=
  match value with
  | none => true
  | some .null => true
  | some (.text text) => text = ""
  | some _ => false

/-- The root session of a first event. -/
def rootRef (event : List (String × Json)) : Option String :=
  match field event "thread_id" with
  | some (.text native) =>
    if hasText (field event "type") "thread.started" && isAbsent (field event "parent_thread_id") &&
      native ≠ "" then some native else none
  | _ => none

/-- Map the line of an event whose root session is known. -/
def mapLine (expected : Option String) (line : Bytes) (terminated : Bool) (state : MappingState) :
    MappingState :=
  if expected.any fun wanted => state.rootNativeSessionRef.any (· ≠ wanted) then
    { state with failureCode := some "target_raw_output_root_identity_mismatch" }
  else { state with mapped := state.mapped ++ line ++ if terminated then [newline] else [] }

/-- The part of `_consume_line` after the line was parsed. -/
def consumeEvent (expected : Option String) (line : Bytes) (terminated : Bool) (state : MappingState) :
    Json → MappingState
  | .object event =>
    match state.rootNativeSessionRef, rootRef event with
    | some _, _ => mapLine expected line terminated state
    | none, some native =>
      mapLine expected line terminated { state with rootNativeSessionRef := some native }
    | none, none => { state with failureCode := some "target_raw_output_root_identity_invalid" }
  | _ => { state with failureCode := some "target_raw_output_event_invalid" }

/-- `_consume_line`; an exception leaves the state as it was. -/
def consumeLine (decoder : Decoder) (expected : Option String) (line : Bytes) (terminated : Bool)
    (state : MappingState) : Except String MappingState :=
  match (decodeText line).map decoder.loads with
  | some (.value value) => .ok (consumeEvent expected line terminated state value)
  | some (.raises exception) => .error exception
  | _ => .ok { state with failureCode := some "target_raw_output_event_invalid" }

/-- The loop over the complete lines: it stops at a failure, and an exception ends it. -/
def consumeLines (decoder : Decoder) (expected : Option String) :
    List Bytes → MappingState → MappingState × Option String
  | [], state => (state, none)
  | line :: rest, state =>
    match consumeLine decoder expected line true state with
    | .error exception => (state, some exception)
    | .ok next => if next.failureCode.isSome then (next, none) else consumeLines decoder expected rest next

/-- `split(b"\n")`: the complete lines, and what follows the last newline. -/
def splitLines : Bytes → List Bytes × Bytes
  | [] => ([], [])
  | byte :: rest =>
    let (lines, last) := splitLines rest
    if byte = newline then ([] :: lines, last)
    else match lines with
      | [] => ([], byte :: last)
      | line :: more => ((byte :: line) :: more, last)

/-- The suffixes of the JSON literals that a fragment may end in. -/
def literalFragments : List String := ["t", "tr", "tru", "f", "fa", "fal", "fals", "n", "nu", "nul"]

/-- `text.rstrip()` -/
def rstrip (text : String) : String := String.ofList (Text.stripFront text.toList.reverse).reverse

/-- `_incomplete_json_event` of a text. -/
def incompleteText (decoder : Decoder) (text : String) : Except String Bool :=
  match decoder.loads text with
  | .decodeError message position =>
    .ok (decide ((rstrip text).length ≤ position) || "Unterminated string".isPrefixOf message ||
      (message = "Expecting value" &&
        literalFragments.contains (Text.strip (String.ofList (text.toList.drop position)))))
  | .raises exception => .error exception
  | .value _ => .ok false

/-- `_incomplete_json_event` -/
def incompleteJsonEvent (decoder : Decoder) (line : Bytes) : Except String Bool :=
  match decoded : decodeText line with
  | some text => incompleteText decoder text
  | none =>
    let error := decoder.decodeError line decoded
    if error.reason = "unexpected end of data" && error.stop = line.length then
      incompleteJsonEvent decoder (line.take error.start)
    else .ok false
  termination_by line.length
  decreasing_by
    rw [List.length_take]
    have := (decoder.decodeError line decoded).start.isLt
    omega

/-! ### Advancing -/

/-- Consume the unterminated rest of a source that is read to its end. -/
def consumeRest (decoder : Decoder) (query : Query) (state : MappingState) :
    MappingState × Option QueryError :=
  match consumeLine decoder query.expectedNativeSessionRef state.sourceBuffer false state with
  | .error exception => (state, some (.raised exception))
  | .ok next => ({ next with sourceBuffer := [] }, none)

/-- The unterminated rest is the fragment of a signed failed exit, or a last line. -/
def finishRest (decoder : Decoder) (query : Query) (state : MappingState) :
    MappingState × Option QueryError :=
  if state.rootNativeSessionRef.isNone then consumeRest decoder query state
  else match incompleteJsonEvent decoder state.sourceBuffer with
    | .error exception => (state, some (.raised exception))
    | .ok false => consumeRest decoder query state
    | .ok true =>
      match query.tailExit with
      | .unavailable => (state, some (.unavailable "target_raw_output_receipt_unavailable"))
      | .clean => consumeRest decoder query state
      | .failed => ({ state with
          incompleteTailBytes := state.sourceBuffer.length, sourceBuffer := [] }, none)

/-- The state once the next chunk of the source is buffered. -/
def readChunk (file : SourceFile) (state : MappingState) : MappingState :=
  let remaining := min sourceReadBytes (file.content.length - state.sourceOffset)
  let chunk := (file.content.drop state.sourceOffset).take remaining
  { state with
    sourceOffset := state.sourceOffset + chunk.length
    sourceBuffer := state.sourceBuffer ++ chunk }

/-- The state that the loop starts from: only the unterminated rest stays buffered. -/
def keepRest (state : MappingState) : MappingState :=
  { state with sourceBuffer := (splitLines state.sourceBuffer).2 }

/-- Map the buffered lines, and the rest when the query is final. -/
def mapBuffer (decoder : Decoder) (query : Query) (file : SourceFile) (state : MappingState) :
    MappingState × Option QueryError :=
  match consumeLines decoder query.expectedNativeSessionRef (splitLines state.sourceBuffer).1
      (keepRest state) with
  | (next, some exception) => (next, some (.raised exception))
  | (next, none) =>
    if query.terminal && decide (file.content.length ≤ next.sourceOffset) &&
        !next.sourceBuffer.isEmpty && next.failureCode.isNone then finishRest decoder query next
    else (next, none)

/-- The source is another file, shrank, or grew after its fragment. -/
def sourceChanged (file : SourceFile) (state : MappingState) : Bool :=
  state.sourceIdentity.any fun identity => identity ≠ file.identity ||
    decide (file.content.length < state.sourceOffset) ||
    (state.incompleteTailBytes ≠ 0 && file.content.length ≠ state.sourceOffset)

/-- `_advance`, with the size of the source. -/
def advance (decoder : Decoder) (query : Query) (source : Option SourceFile) (state : MappingState) :
    MappingState × Except QueryError ℕ :=
  if query.statFails then (state, .error (.unavailable "target_raw_output_source_unavailable"))
  else match source with
    | none => (state, .ok 0)
    | some file =>
      if sourceChanged file state then
        ({ state with failureCode := some "target_raw_output_source_changed" }, .ok file.content.length)
      else
        let state := { state with sourceIdentity := some file.identity }
        if query.readFails && decide (state.sourceOffset < file.content.length) then
          (state, .error (.unavailable "target_raw_output_source_unavailable"))
        else match mapBuffer decoder query file (readChunk file state) with
          | (next, some error) => (next, .error error)
          | (next, none) => (next, .ok file.content.length)

/-! ### The store -/

structure Store where
  /-- The transport invocation and the family of an operation. -/
  operationBindings : List (String × String × String) := []
  /-- The cached streams, least recently used first. -/
  states : List (String × MappingState) := []

/-- `bind_operation` -/
def bindOperation (operationRef invocationHash family : String) (store : Store) :
    Except QueryError Store :=
  if operationRef = "" || decide (128 < operationRef.length) then
    .error (.unavailable "target_raw_output_operation_invalid")
  else if invocationHash.length ≠ 64 ||
      !invocationHash.toList.all (fun char => "0123456789abcdef".toList.contains char) then
    .error (.unavailable "target_raw_output_binding_invalid")
  else if family ≠ "codex" && family ≠ "claude" then
    .error (.unavailable "target_raw_output_family_unsupported")
  else match store.operationBindings.lookup operationRef with
    | some binding =>
      if binding = (invocationHash, family) then .ok store
      else .error (.unavailable "target_raw_output_binding_conflict")
    | none => .ok { store with
        operationBindings := store.operationBindings ++ [(operationRef, invocationHash, family)] }

/-- Put the state of a stream last, and evict the streams used least recently. -/
def Store.remember (store : Store) (invocationHash : String) (state : MappingState) : Store :=
  let states := store.states.filter (·.1 ≠ invocationHash) ++ [(invocationHash, state)]
  { store with states := states.drop (states.length - maxCachedStreams) }

/-- The cached state of a stream, or a new one. -/
def Store.stateOf (store : Store) (invocationHash : String) : MappingState :=
  (store.states.lookup invocationHash).getD {}

/-- Bytes from one cursor to another. -/
def slice (bytes : Bytes) (start stop : ℕ) : Bytes := (bytes.drop start).take (stop - start)

/-- The longest text of at most so many mapped bytes. -/
def pageText (mapped : Bytes) (after : ℕ) : ℕ → String × ℕ
  | 0 => ("", after)
  | count + 1 =>
    match decodeText (slice mapped after (after + (count + 1))) with
    | some text => (text, after + (count + 1))
    | none => pageText mapped after count

/-- The cursor is inside of a character. -/
def splitsCharacter (mapped : Bytes) (after : ℕ) : Bool := mapped[after]?.any fun byte => byte &&& 0xc0 = 0x80

/-- The page of an advanced state. -/
def pageOf (query : Query) (invocationHash : String) (after limit sourceSize : ℕ) (state : MappingState) :
    Except QueryError TargetRawOutputPage :=
  if state.mapped.length < after then .error (.unavailable "target_raw_output_cursor_stale")
  else if splitsCharacter state.mapped after then
    .error (.unavailable "target_raw_output_cursor_invalid")
  else
    let (text, stop) := pageText state.mapped after (min state.mapped.length (after + limit) - after)
    if after < state.mapped.length && stop = after then
      .error (.unavailable "target_raw_output_cursor_invalid")
    else
      let caughtUp := decide (sourceSize ≤ state.sourceOffset)
      .ok {
        operationRef := query.operationRef
        transportInvocationHash := invocationHash
        streamRef := "target-raw-output:" ++ invocationHash
        status := if query.terminal && caughtUp then "complete" else "live"
        text := text
        offset := after
        nextOffset := stop
        mappedBytes := state.mapped.length
        sourceBytes := sourceSize
        hasMore := decide (stop < state.mapped.length) || !caughtUp
        sourceCaughtUp := caughtUp
        rootNativeSessionRef := state.rootNativeSessionRef
        incompleteTailBytes := state.incompleteTailBytes }

/-- The state that a query advances: a terminal query rebuilds what an older reader rejected. -/
def rebuild (query : Query) (state : MappingState) : Except QueryError MappingState :=
  if query.terminal && state.failureCode = some "target_raw_output_event_invalid" then
    match query.rebuildExit with
    | .unavailable => .error (.unavailable "target_raw_output_receipt_unavailable")
    | .failed => .ok {}
    | .clean => .ok state
  else .ok state

/-- What the query answers from the advanced state. -/
def answer (query : Query) (invocationHash : String) (state : MappingState) :
    Except QueryError ℕ → Except QueryError TargetRawOutputPage
  | .error error => .error error
  | .ok size =>
    match state.failureCode with
    | some code => .error (.unavailable code)
    | none => pageOf query invocationHash query.after.toNat query.limit.toNat size state

/-- Advance the stream of an invocation and answer from it. -/
def readStream (decoder : Decoder) (sources : String → Option SourceFile) (query : Query)
    (invocationHash : String) (store : Store) : Store × Except QueryError TargetRawOutputPage :=
  let cached := store.stateOf invocationHash
  if !query.pathValid then
    (store.remember invocationHash cached, .error (.unavailable "target_raw_output_path_invalid"))
  else match rebuild query cached with
    | .error error => (store.remember invocationHash cached, .error error)
    | .ok state =>
      let (next, size) := advance decoder query (sources invocationHash) state
      (store.remember invocationHash next, answer query invocationHash next size)

/-- `query` -/
def Store.query (decoder : Decoder) (sources : String → Option SourceFile) (query : Query)
    (store : Store) : Store × Except QueryError TargetRawOutputPage :=
  if query.after < 0 then (store, .error (.unavailable "target_raw_output_cursor_invalid"))
  else if query.limit < pageMinBytes || pageMaxBytes < query.limit then
    (store, .error (.unavailable "target_raw_output_limit_invalid"))
  else match store.operationBindings.lookup query.operationRef with
    | none => (store, .error (.unavailable "target_raw_output_binding_unavailable"))
    | some (invocationHash, family) =>
      if family ≠ "codex" then (store, .error (.unavailable "target_raw_output_family_unsupported"))
      else readStream decoder sources query invocationHash store

/-! ### Runs -/

/-- The reader with its sources, and the pages it has returned with their invocations. -/
structure System where
  store : Store := {}
  sources : String → Option SourceFile := fun _ => none
  pages : List (String × TargetRawOutputPage) := []

inductive Input where
  | bind (operationRef invocationHash family : String)
  /-- The provider creates its output file, or appends to it. -/
  | grow (invocationHash : String) (identity : ℕ × ℕ) (bytes : Bytes)
  | query (query : Query)

/-- A file keeps its identity when it grows. -/
def SourceFile.grow (source : Option SourceFile) (identity : ℕ × ℕ) (bytes : Bytes) : SourceFile :=
  match source with
  | none => ⟨identity, bytes⟩
  | some file => { file with content := file.content ++ bytes }

/-- One input; a refused one returns no page. -/
def System.step (decoder : Decoder) (system : System) : Input → System
  | .bind operationRef invocationHash family =>
    match bindOperation operationRef invocationHash family system.store with
    | .ok store => { system with store := store }
    | .error _ => system
  | .grow invocationHash identity bytes =>
    let file := SourceFile.grow (system.sources invocationHash) identity bytes
    { system with sources := Function.update system.sources invocationHash (some file) }
  | .query query =>
    let (store, result) := system.store.query decoder system.sources query
    match result with
    | .ok page =>
      { system with store := store, pages := system.pages ++ [(page.transportInvocationHash, page)] }
    | .error _ => { system with store := store }

end MetaResearch.RawOutput

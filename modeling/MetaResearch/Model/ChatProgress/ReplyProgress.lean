import MetaResearch.Model.ChatProgress.AnswerText

/-! # The live preview of a reply

`_ReplyProgress` and `read_chat_reply`, for one file. How `json.loads` decodes bytes is a parameter, and so is the
digest of an identity. An exception leaves a state behind, which comes with it.
-/

namespace MetaResearch.ChatProgress

open JsonDecode (Limits Hooks loads)

/-- `CHAT_PROGRESS_READ_MAX_BYTES` -/
def readMaxBytes : ℕ := 512 * 1024

/-- `_CHAT_PROGRESS_ANCHOR_BYTES` -/
def anchorBytes : ℕ := 128

/-- A key of the paragraphs: the digest of an identity, or `b"terminal-reply"`, which is too short for a digest. -/
inductive Key where
  | digest (bytes : List UInt8)
  | terminalReply
deriving DecidableEq

/-- The fields of `_ReplyProgress` that `accept` writes. -/
structure Preview where
  paragraphs : List (Key × PyText) := []
  reply : PyText := []
deriving DecidableEq

/-- `_ReplyProgress.text` -/
def Preview.text (preview : Preview) : PyText :=
  (PyText.ofString "\n\n").intercalate (preview.paragraphs.map Prod.snd)

/-- What the interpreter and its libraries do: how bytes are decoded (nothing for a `UnicodeDecodeError`), the limits
of the decoder, floats, the decimal digits of other scripts, and the digest of a text that can be encoded. -/
structure Runtime (F : Type) where
  decode : List UInt8 → Option PyText
  limits : Limits
  float : PyText → F
  decimal : Char → Option (Fin 10)
  digest : PyText → List UInt8

section

variable {F : Type} (runtime : Runtime F)

/-! ### Events -/

/-- `event.get(name)` -/
def get (fields : List (PyText × PyJson F)) (name : String) : PyJson F :=
  (fields.lookup (PyText.ofString name)).getD .null

/-- The value has a hash. -/
def hashable : PyJson F → Bool
  | .array _ => false
  | .object _ => false
  | _ => true

def isText (value : PyJson F) (expected : String) : Bool :=
  match value with
  | .text value => value = PyText.ofString expected
  | _ => false

def isNone : PyJson F → Bool
  | .null => true
  | _ => false

def unhashable : String := "TypeError: unhashable type"

/-- `value in names`, for a set. -/
def memberOf (value : PyJson F) (names : List String) : Except String Bool :=
  if hashable value then .ok (names.any (isText value)) else .error unhashable

/-- `value in {None, *names}` -/
def absentOr (value : PyJson F) (names : List String) : Except String Bool :=
  if hashable value then .ok (isNone value || names.any (isText value)) else .error unhashable

def eventTypes : List String := ["item.started", "item.updated", "item.completed"]

def publicChannels : List String := ["commentary", "final", "final_answer"]

/-- The item of an event that is a public message of the agent, with its text. -/
def messageOf (event : List (PyText × PyJson F)) : Except String (Option (List (PyText × PyJson F) × PyText)) := do
  if !(← memberOf (get event "type") eventTypes) then .ok none
  else match get event "item" with
    | .object item =>
      if !isText (get item "type") "agent_message" then .ok none
      else if !(← absentOr (get item "phase") publicChannels) then .ok none
      else if !(← absentOr (get item "channel") publicChannels) then .ok none
      else if !(← absentOr (get item "role") ["assistant"]) then .ok none
      else match get item "text" with
        | .text text => .ok (some (item, text))
        | _ => .ok none
    | _ => .ok none

/-! ### `accept` -/

/-- The characters of the paragraphs, with the line feeds between them. -/
def Preview.used (preview : Preview) : ℕ :=
  (preview.paragraphs.map fun paragraph => paragraph.2.length).sum + (preview.paragraphs.length - 1) * 2

/-- What is left for a paragraph, that takes the place of a previous one or is new. -/
def Preview.available (preview : Preview) : Option PyText → ℤ
  | some previous => chatReplyMaxLength - preview.used + previous.length
  | none => chatReplyMaxLength - preview.used - (if preview.paragraphs = [] then 0 else 2)

/-- The end of `accept`. -/
def Preview.store (preview : Preview) (key : Key) (previous : Option PyText) (answer : PyText) : Preview :=
  if 0 < preview.available previous then
    { preview with
      paragraphs := Dict.set key (answer.take (preview.available previous).toNat) preview.paragraphs }
  else preview

/-- From the comparison with the previous paragraph on. -/
def Preview.put (preview : Preview) (key : Key) (structured final : Bool) (answer : PyText) : Preview :=
  let previous := preview.paragraphs.lookup key
  if previous = some answer then preview
  else if structured then
    let current := preview.text
    let replied := { preview with reply := answer }
    if final then ({ replied with paragraphs := [] } : Preview).store key none answer
    else if previous = none ∧ current ≠ [] then
      if answer.isPrefixOf current then replied
      else if current.isPrefixOf answer then ({ replied with paragraphs := [] } : Preview).store key none answer
      else replied.store key none answer
    else replied.store key previous answer
  else preview.store key previous answer

def isFinal (item : List (PyText × PyJson F)) : Bool :=
  ["final", "final_answer"].any (isText (get item "phase")) || ["final", "final_answer"].any (isText (get item "channel"))

/-- `item.get("id")`, or the text. -/
def identityOf (item : List (PyText × PyJson F)) (text : PyText) : PyText :=
  match get item "id" with
  | .text identifier => identifier
  | _ => text

/-- The answer is passed over before its identity is looked at. -/
def Preview.ignores (preview : Preview) (structured : Bool) (answer : PyText) : Bool :=
  if structured then answer = [] else preview.reply ≠ [] || PyText.strip answer = []

/-- The structured answer that is the first takes the place of all paragraphs. -/
def Preview.cleared (preview : Preview) (structured : Bool) : Preview :=
  if structured && preview.reply = [] then { preview with paragraphs := [] } else preview

/-- From the answer of a message on. -/
def Preview.answered (preview : Preview) (item : List (PyText × PyJson F)) (text : PyText) (structured : Bool)
    (answer : PyText) : Except (String × Preview) Preview :=
  if preview.ignores structured answer then .ok preview
  else if PyText.encodable (identityOf item text) then
    .ok ((preview.cleared structured).put (.digest (runtime.digest (identityOf item text))) structured (isFinal item) answer)
  else .error ("UnicodeEncodeError: surrogates not allowed", preview.cleared structured)

/-- `turn.completed` -/
def Preview.ended (preview : Preview) : Preview :=
  if preview.reply = [] then preview else { preview with paragraphs := [(.terminalReply, preview.reply)] }

/-- `json.loads` of a record, with the exceptions that `accept` catches. -/
def Runtime.event (record : List UInt8) : Option (List (PyText × PyJson F)) :=
  match (runtime.decode record).map (loads runtime.limits (.plain runtime.float)) with
  | some (.ok (.object event)) => some event
  | _ => none

/-- `_ReplyProgress.accept` -/
def accept (preview : Preview) (record : List UInt8) : Except (String × Preview) Preview :=
  match runtime.event record with
  | none => .ok preview
  | some event =>
    if isText (get event "type") "turn.completed" then .ok preview.ended
    else match messageOf event with
      | .error error => .error (error, preview)
      | .ok none => .ok preview
      | .ok (some (item, text)) =>
        match answerText runtime.decimal runtime.limits runtime.float text with
        | .error error => .error (error, preview)
        | .ok (structured, answer) => preview.answered runtime item text structured answer

/-! ### `consume` -/

/-- The byte of a line feed. -/
def lineFeed : UInt8 := 10

/-- `content.split(b"\n")`: the records that are complete, and the last. -/
def split : List UInt8 → List (List UInt8) × List UInt8
  | [] => ([], [])
  | byte :: rest =>
    let (records, last) := split rest
    if byte = lineFeed then ([] :: records, last)
    else match records with
      | [] => ([], byte :: last)
      | record :: others => ((byte :: record) :: others, last)

/-- Accept the records that are not too long. -/
def acceptAll (preview : Preview) (records : List (List UInt8)) : Except (String × Preview) Preview :=
  (records.filter fun record => record.length ≤ readMaxBytes).foldlM (accept runtime) preview

/-- `_ReplyProgress` -/
structure ReplyProgress where
  identity : ℕ × ℕ
  offset : ℕ := 0
  observedSize : ℕ := 0
  modifiedNs : ℤ := 0
  anchor : List UInt8 := []
  partialRecord : List UInt8 := []
  discardRecord : Bool := false
  preview : Preview := {}

/-- `consume`, where no record is discarded. -/
def ReplyProgress.consumeRecords (progress : ReplyProgress) (content : List UInt8) :
    Except (String × ReplyProgress) ReplyProgress :=
  let (records, last) := split (progress.partialRecord ++ content)
  match acceptAll runtime progress.preview records with
  | .error (error, preview) => .error (error, { progress with preview })
  | .ok preview =>
    if readMaxBytes < last.length then .ok { progress with preview, partialRecord := [], discardRecord := true }
    else .ok { progress with preview, partialRecord := last }

/-- `_ReplyProgress.consume` -/
def ReplyProgress.consume (progress : ReplyProgress) (content : List UInt8) :
    Except (String × ReplyProgress) ReplyProgress :=
  if progress.discardRecord then
    match content.dropWhile (· ≠ lineFeed) with
    | [] => .ok progress
    | _ :: content => ({ progress with discardRecord := false } : ReplyProgress).consumeRecords runtime content
  else progress.consumeRecords runtime content

/-! ### `read_chat_reply` -/

/-- A regular file, as an observation finds it. -/
structure File where
  identity : ℕ × ℕ
  content : List UInt8
  modifiedNs : ℤ

/-- The cached state is not of this file, or of one that was cut or written over. -/
def stale (file : File) (progress : ReplyProgress) : Bool :=
  progress.identity ≠ file.identity || file.content.length < progress.offset ||
    (file.modifiedNs ≠ progress.modifiedNs && file.content.length ≤ progress.observedSize)

/-- The anchor is looked at, since the file is not as it was observed. -/
def checksAnchor (file : File) (progress : ReplyProgress) : Bool :=
  progress.anchor ≠ [] &&
    (file.modifiedNs ≠ progress.modifiedNs || file.content.length ≠ progress.observedSize)

def bytesAt (file : File) (offset count : ℕ) : List UInt8 := (file.content.drop offset).take count

def last (count : ℕ) (bytes : List UInt8) : List UInt8 := bytes.drop (bytes.length - count)

/-- Read on from the offset, within a budget. -/
def advance (file : File) (budget : ℕ) (progress : ReplyProgress) : Except (String × ReplyProgress) ReplyProgress :=
  if progress.offset < file.content.length then
    let content := bytesAt file progress.offset budget
    ({ progress with
        offset := progress.offset + content.length
        anchor := last anchorBytes (progress.anchor ++ content) } : ReplyProgress).consume runtime content
  else .ok progress

/-- The state that is read on with, whether it is the one that is cached, and the budget. -/
def resume (file : File) (cached : Option ReplyProgress) : ReplyProgress × Bool × ℕ :=
  let (progress, held) := match cached with
    | some progress => if stale file progress then (⟨file.identity, 0, 0, 0, [], [], false, {}⟩, false) else (progress, true)
    | none => (⟨file.identity, 0, 0, 0, [], [], false, {}⟩, false)
  if checksAnchor file progress then
    let budget := readMaxBytes - progress.anchor.length
    if bytesAt file (progress.offset - progress.anchor.length) progress.anchor.length ≠ progress.anchor then
      (⟨file.identity, 0, 0, 0, [], [], false, {}⟩, false, budget)
    else (progress, held, budget)
  else (progress, held, readMaxBytes)

/-- `read_chat_reply`: the answer or an exception, and the state that is cached then. A state that was cached is
changed in its place, so an exception leaves it as it is by then; another is not cached. -/
def readChatReply (file : File) (cached : Option ReplyProgress) : Except String PyText × Option ReplyProgress :=
  let (progress, held, budget) := resume file cached
  match advance runtime file budget progress with
  | .error (error, progress) => (.error error, if held then some progress else cached)
  | .ok progress =>
    let progress := { progress with observedSize := file.content.length, modifiedNs := file.modifiedNs }
    (.ok progress.preview.text, some progress)

/-! ### Runs -/

/-- What happens to a file and to its cached state: bytes are appended, the state is evicted, or the file is
observed. -/
inductive Event where
  | append (bytes : List UInt8) (modifiedNs : ℤ)
  | evict
  | observe

structure World where
  file : File
  cached : Option ReplyProgress := none

/-- An observation: the file as it was, what `read_chat_reply` answered, and the state it left. -/
structure Observation where
  file : File
  answer : Except String PyText
  cached : Option ReplyProgress

def World.step (world : World) : Event → World × Option Observation
  | .append bytes modifiedNs =>
    ({ world with file := { world.file with content := world.file.content ++ bytes, modifiedNs } }, none)
  | .evict => ({ world with cached := none }, none)
  | .observe =>
    let (answer, cached) := readChatReply runtime world.file world.cached
    ({ world with cached }, some ⟨world.file, answer, cached⟩)

/-- The observations of a run, and the world that it ends in. -/
def World.run (world : World) : List Event → List Observation × World
  | [] => ([], world)
  | event :: rest =>
    let (world, observation) := world.step runtime event
    let (observations, final) := world.run rest
    (observation.toList ++ observations, final)

end

end MetaResearch.ChatProgress

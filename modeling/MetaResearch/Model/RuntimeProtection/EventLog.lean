import MetaResearch.Model.RuntimeProtection.Tables
import MetaResearch.ToMathlib.Json
import MetaResearch.ToMathlib.Run
import Mathlib.Logic.Function.Basic

/-! # The runtime event log

`RuntimeEventLogger`. The current file is generation zero, and a backup is as many generations old as the
suffix of its name says. A record is taken through one file operation after another, and any of them may be
the last.
-/

namespace MetaResearch.RuntimeProtection.EventLog

/-- The limits that the constructor admits. -/
structure Limits where
  maxBytes : ℕ
  backupCount : ℕ
  admitted : 128 ≤ maxBytes ∧ 1 ≤ backupCount ∧ backupCount ≤ 32

/-! ### The envelope -/

/-- What `record` is told and does not drop. The time is the literal that the clock's number is written as. -/
structure Event where
  recordedAt : String
  eventCode : String
  status : String
  component : String
  correlation : List (String × Json) := []
  reasonCode : Option String := none
  activeCount : Option ℤ := none
  level : String := "info"

/-- `sorted(_CORRELATION_FIELDS)` -/
def correlationFields : List String :=
  ["attempt_ref", "checkpoint_ref", "fence_ref", "holder_ref", "operation_ref", "responsibility_ref", "run_ref"]

/-- `_sanitize_correlation` -/
def sanitizeCorrelation (values : List (String × Json)) : List (String × Json) :=
  correlationFields.filterMap fun name =>
    match values.lookup name with
    | some (.text value) => if safeIdentifier value 128 then some (name, .text value) else none
    | _ => none

/-- The envelope of `record`. -/
def envelope (event : Event) : Json :=
  let safeCorrelation := sanitizeCorrelation event.correlation
  .object <|
    [("schema_ref", .text "meta-research/runtime-event/v1"),
      ("recorded_at", .number event.recordedAt),
      ("level", .text (if ["info", "warning", "error"].contains event.level then event.level else "error")),
      ("component", .text (logIdentifier event.component "runtime")),
      ("event_code", .text (logIdentifier event.eventCode "runtime.event.invalid")),
      ("status", .text (logIdentifier event.status "unknown"))] ++
    (if safeCorrelation.isEmpty then [] else [("correlation", .object safeCorrelation)]) ++
    (event.reasonCode.toList.map fun code =>
      ("reason_code", .text (logIdentifier code "runtime_reason_invalid"))) ++
    (event.activeCount.filter (0 ≤ ·)).toList.map fun count => ("active_count", .integer count)

/-- The bytes of one line. -/
structure Record where
  bytes : List UInt8
  nonempty : bytes ≠ []
deriving DecidableEq

/-- The bytes of the envelope's text and of the newline after it. -/
def encode (event : Event) : Record :=
  ⟨(envelope event).dumps.toUTF8.toList ++ [10], List.append_ne_nil_of_right_ne_nil _ (List.cons_ne_nil _ _)⟩

/-! ### The files -/

/-- A file, by the records that were written to it. -/
abbrev LogFile := List Record

/-- `st_size` -/
def size (file : LogFile) : ℕ := (file.map fun record => record.bytes.length).sum

/-- The files by their generation. -/
abbrev Files := ℕ → Option LogFile

/-- What `record` does to the files, one operation after another. -/
inductive Operation where
  | unlink (generation : ℕ)
  | replace (generation : ℕ)
  | create
  | write (encoded : Record)
deriving DecidableEq

/-- `replace` moves a file to the next generation, over the file that is there, if it exists. -/
def Operation.apply (files : Files) : Operation → Files
  | .unlink generation => Function.update files generation none
  | .replace generation =>
    match files generation with
    | none => files
    | some file => Function.update (Function.update files (generation + 1) (some file)) generation none
  | .create => Function.update files 0 (some ((files 0).getD []))
  | .write encoded => Function.update files 0 (some ((files 0).getD [] ++ [encoded]))

/-- The renames of `_rotate_if_needed`, from the oldest generation that stays to the current file. -/
def renames : ℕ → List Operation
  | 0 => []
  | count + 1 => .replace count :: renames count

/-- `_rotate_if_needed` -/
def rotation (limits : Limits) (files : Files) (incoming : ℕ) : List Operation :=
  match files 0 with
  | none => []
  | some file =>
    if size file = 0 ∨ size file + incoming ≤ limits.maxBytes then []
    else .unlink limits.backupCount :: renames limits.backupCount

/-- The locked part of `record`. -/
def operations (limits : Limits) (files : Files) (encoded : Record) : List Operation :=
  rotation limits files encoded.bytes.length ++ [.create, .write encoded]

/-- The files, and the records that were written so far. -/
structure Log where
  files : Files
  written : List Record

def Log.empty : Log := ⟨fun _ => none, []⟩

def Log.perform (log : Log) (operation : Operation) : Log where
  files := operation.apply log.files
  written := match operation with
    | .write encoded => log.written ++ [encoded]
    | _ => log.written

/-- A record that is taken through so many of its operations. -/
structure Attempt where
  encoded : Record
  performed : ℕ

/-- The attempt of an event that is not cut short. -/
def Attempt.record (limits : Limits) (log : Log) (event : Event) : Attempt :=
  ⟨encode event, (operations limits log.files (encode event)).length⟩

def Log.attempt (limits : Limits) (log : Log) (attempt : Attempt) : Log :=
  ((operations limits log.files attempt.encoded).take attempt.performed).foldl Log.perform log

end MetaResearch.RuntimeProtection.EventLog

import MetaResearch.ToMathlib.Check
import MetaResearch.ToMathlib.Utf8

/-! # Reading a page of an experiment log

`TargetExperimentLogs.read`. What the owners and the file system answer during one read is given; the file
does not change between its size and its bytes being read.
-/

namespace MetaResearch.ExperimentLogs

open Utf8 (isContinuation decode Piece)

/-- `MAX_PAGE_BYTES` -/
def maxPageBytes : ℕ := 256 * 1024

/-- `ExperimentLogError` -/
structure LogError where
  code : String
  status : ℕ
  deriving DecidableEq

def cursorInvalid : LogError := ⟨"experiment_log_cursor_invalid", 422⟩
def notFound : LogError := ⟨"experiment_log_not_found", 404⟩
def resetRequired : LogError := ⟨"experiment_log_reset_required", 409⟩

/-- The cursor arguments of a read. -/
structure Request where
  after : Option ℤ
  before : Option ℤ
  streamRef : Option String
  limit : ℤ

/-- What a read observes: whether the log is discovered, its bytes and generation, and what is the same after
the bytes were read. -/
structure Observation where
  discovered : Bool
  bytes : List UInt8
  generation : String
  finalGeneration : String
  samePath : Bool
  sameScope : Bool
  finalSize : ℕ

/-- A page of a log. -/
structure Page where
  streamRef : String
  text : String
  offset : ℕ
  nextOffset : ℕ
  sourceBytes : ℕ
  hasMore : Bool
  sourceCaughtUp : Bool
  pendingUtf8Bytes : ℕ
  decodeReplacements : Bool

/-- The checks of the cursor arguments. -/
def checkCursor (request : Request) : Except LogError Unit := do
  require (!(request.after.isSome && request.before.isSome) &&
      (4 ≤ request.limit && request.limit ≤ maxPageBytes) &&
      !(request.after.any (· < 0) || request.before.any (· < 0))) cursorInvalid
  require (!(request.after.isSome || request.before.isSome) || request.streamRef.any (· ≠ "")) cursorInvalid

/-- The loop that drops the continuation bytes in front. -/
def skipContinuation : List UInt8 → ℕ → List UInt8 × ℕ
  | [], start => ([], start)
  | byte :: rest, start =>
    if isContinuation byte then skipContinuation rest (start + 1) else (byte :: rest, start)

/-- The end of a page when its start does not bound it. -/
def endOf (size : ℕ) (before : Option ℕ) : ℕ :=
  match before with
  | some before => min size before
  | none => size

/-- `os.pread(fd, stop - start, start)` -/
def bytesBetween (bytes : List UInt8) (start stop : ℕ) : List UInt8 := (bytes.drop start).take (stop - start)

/-- What was read of the log: its bytes, their offset, and the end of the page. -/
structure Window where
  raw : List UInt8
  start : ℕ
  stop : ℕ

/-- The bytes of a page. A page that is not asked for by its start begins with no continuation byte. -/
def windowOf (bytes : List UInt8) (after before : Option ℕ) (limit : ℕ) : Window :=
  let start := after.getD (endOf bytes.length before - limit)
  let stop := min (endOf bytes.length before) (start + limit)
  let raw := bytesBetween bytes start stop
  if after.isNone && 0 < start then
    ⟨(skipContinuation raw start).1, (skipContinuation raw start).2, stop⟩
  else ⟨raw, start, stop⟩

/-- `bytes.decode('utf-8', errors='strict')` succeeds. -/
def isUtf8 (bytes : List UInt8) : Bool :=
  (decode [] bytes).1.all (· ≠ .replacement) && (decode [] bytes).2.isEmpty

/-- The page of a window. -/
def pageOf (generation : String) (window : Window) (finalSize : ℕ) : Page :=
  let pending := (decode [] window.raw).2.length
  { streamRef := generation
    text := Utf8.text (decode [] window.raw).1
    offset := window.start
    nextOffset := window.start + window.raw.length - pending
    sourceBytes := finalSize
    hasMore := window.stop < finalSize
    sourceCaughtUp := finalSize ≤ window.stop
    pendingUtf8Bytes := pending
    decodeReplacements := !isUtf8 (window.raw.take (window.raw.length - pending)) }

/-- `read` -/
def read (request : Request) (seen : Observation) : Except LogError Page := do
  checkCursor request
  let after := request.after.map Int.toNat
  let before := request.before.map Int.toNat
  require seen.discovered notFound
  require (request.streamRef.all (· = seen.generation)) resetRequired
  require (after.all (· ≤ seen.bytes.length) && before.all (· ≤ seen.bytes.length)) resetRequired
  let window := windowOf seen.bytes after before request.limit.toNat
  require (seen.finalGeneration = seen.generation && seen.samePath) resetRequired
  require seen.sameScope resetRequired
  pure (pageOf seen.generation window seen.finalSize)

/-! ### A log that does not change -/

/-- A log whose content is fixed. Its generation is not empty. -/
structure Log where
  bytes : List UInt8
  generation : String
  named : generation ≠ ""

/-- What each read of the log observes. -/
def Log.observation (log : Log) : Observation where
  discovered := true
  bytes := log.bytes
  generation := log.generation
  finalGeneration := log.generation
  samePath := true
  sameScope := true
  finalSize := log.bytes.length

/-- A limit that is admitted. -/
structure PageLimit where
  bytes : ℕ
  least : 4 ≤ bytes
  most : bytes ≤ maxPageBytes

/-- The page after an offset. -/
def Log.pageAfter (log : Log) (limit : PageLimit) (offset : ℕ) : Page :=
  pageOf log.generation (windowOf log.bytes (some offset) none limit.bytes) log.bytes.length

/-- The page before an offset. -/
def Log.pageBefore (log : Log) (limit : PageLimit) (offset : ℕ) : Page :=
  pageOf log.generation (windowOf log.bytes none (some offset) limit.bytes) log.bytes.length

/-- The page at the end. -/
def Log.lastPage (log : Log) (limit : PageLimit) : Page :=
  pageOf log.generation (windowOf log.bytes none none limit.bytes) log.bytes.length

variable {log : Log} {limit : PageLimit} {offset : ℕ}

theorem any_negative_ofNat (offset : Option ℕ) : (offset.map Int.ofNat).any (· < 0) = false := by
  cases offset <;> simp

theorem map_toNat_ofNat (offset : Option ℕ) : (offset.map Int.ofNat).map Int.toNat = offset := by
  cases offset <;> rfl

/-- A read of a log that does not change answers the page of its window. -/
theorem read_fixed {after before : Option ℕ} {streamRef : Option String}
    (one : (after.isSome && before.isSome) = false)
    (stream : streamRef = some log.generation ∨ streamRef = none ∧ after = none ∧ before = none)
    (within : (after.all (· ≤ log.bytes.length) && before.all (· ≤ log.bytes.length)) = true) :
    read ⟨after.map Int.ofNat, before.map Int.ofNat, streamRef, limit.bytes⟩ log.observation =
      .ok (pageOf log.generation (windowOf log.bytes after before limit.bytes) log.bytes.length) := by
  have least : (4 : ℤ) ≤ limit.bytes := by exact_mod_cast limit.least
  have most : (limit.bytes : ℤ) ≤ maxPageBytes := by exact_mod_cast limit.most
  have cursor : checkCursor ⟨after.map Int.ofNat, before.map Int.ofNat, streamRef, limit.bytes⟩ = .ok () := by
    refine check_then_eq_ok_iff.mpr ⟨?_, ?_⟩
    · simp only [require_eq_ok_iff, Option.isSome_map, one, any_negative_ofNat, least, most]
      rfl
    · rcases stream with rfl | ⟨rfl, rfl, rfl⟩
      · simp [log.named]
      · simp
  have named : streamRef.all (· = log.generation) = true := by
    rcases stream with rfl | ⟨rfl, _, _⟩ <;> simp
  simp only [read, check_then_eq_ok_iff, require_eq_ok_iff, map_toNat_ofNat]
  exact ⟨cursor, rfl, named, within, by simp [Log.observation], rfl, rfl⟩

theorem read_after (within : offset ≤ log.bytes.length) :
    read ⟨some offset, none, some log.generation, limit.bytes⟩ log.observation =
      .ok (log.pageAfter limit offset) :=
  @read_fixed log limit (some offset) none _ rfl (.inl rfl) (by simpa using within)

theorem read_before (within : offset ≤ log.bytes.length) :
    read ⟨none, some offset, some log.generation, limit.bytes⟩ log.observation =
      .ok (log.pageBefore limit offset) :=
  @read_fixed log limit none (some offset) _ rfl (.inl rfl) (by simpa using within)

theorem read_last : read ⟨none, none, none, limit.bytes⟩ log.observation = .ok (log.lastPage limit) :=
  @read_fixed log limit none none _ rfl (.inr ⟨rfl, rfl, rfl⟩) rfl

/-- The last page is the page before the end. -/
theorem lastPage_eq : log.lastPage limit = log.pageBefore limit log.bytes.length := by
  have ends : endOf log.bytes.length (some log.bytes.length) = endOf log.bytes.length none :=
    Nat.min_self _
  simp only [Log.lastPage, Log.pageBefore, windowOf, ends]

end MetaResearch.ExperimentLogs

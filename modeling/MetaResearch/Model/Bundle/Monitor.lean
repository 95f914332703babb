import MetaResearch.Model.Bundle.TargetRun

/-! # The Monitor Loop

A TargetRun is watched through one stream of observations for its handle: a snapshot first, then
increments of two counters. The stored checkpoint is either that of a fresh stream or the position of
the last accepted observation.
-/

namespace MetaResearch.Bundle

structure MonitorObservation where
  targetRef : String
  targetRunRef : String
  executionAttemptRef : String
  executionFenceRef : String
  mode : String
  cursor : ℤ
  afterCursor : Option ℤ
  statusRevision : ℤ
  afterStatusRevision : Option ℤ := none
  limit : ℤ := 200
  stopDecision : Option StopDecisionProof := none
deriving DecidableEq, Repr

open Value in
def MonitorObservation.value (observation : MonitorObservation) : Value :=
  record .monitorObservation [.text observation.targetRef, .text observation.targetRunRef,
    .text observation.executionAttemptRef, .text observation.executionFenceRef, .text observation.mode,
    integer observation.cursor, optional integer observation.afterCursor,
    integer observation.statusRevision, optional integer observation.afterStatusRevision,
    integer observation.limit, optional StopDecisionProof.value observation.stopDecision]

namespace TargetRun

open Completion (validateProjection)

/-- The observation carries the references of the handle. -/
def isObservationOf (observation : MonitorObservation) (handle : TargetWorkHandle) : Bool :=
  observation.targetRef = handle.targetRef && observation.targetRunRef = handle.targetRunRef &&
    observation.executionAttemptRef = handle.executionAttemptRef &&
    observation.executionFenceRef = handle.executionFenceRef

/-- The checks of an increment after the last accepted position. -/
def validateIncrement (observation : MonitorObservation) (lastCursor lastStatusRevision : Option ℤ) :
    Except String Unit := do
  require (observation.mode = "incremental") "routine monitoring must use incremental mode"
  require (observation.afterCursor = lastCursor) "monitor cursor replay or gap detected"
  require (observation.afterStatusRevision = lastStatusRevision)
    "monitor status revision replay or gap detected"
  match lastCursor, lastStatusRevision with
  | some cursor, some statusRevision => do
    require (cursor ≤ observation.cursor) "monitor cursor moved backwards"
    require (statusRevision ≤ observation.statusRevision) "monitor status revision moved backwards"
  | _, _ => .error "incremental monitoring lacks an accepted snapshot cursor"

/-- The checks of the position: a required snapshot, or an increment. -/
def validatePosition (observation : MonitorObservation) (lastCursor lastStatusRevision : Option ℤ)
    (snapshotRequired : Bool) : Except String Unit :=
  if snapshotRequired then
    require (observation.mode = "snapshot" && observation.afterCursor.isNone &&
        observation.afterStatusRevision.isNone)
      "first or recovered observation must be a bounded snapshot"
  else validateIncrement observation lastCursor lastStatusRevision

/-- `validate_monitor_observation` -/
def validateMonitorObservation (budget : Budget) (observation : MonitorObservation)
    (handle : TargetWorkHandle) (lastCursor lastStatusRevision : Option ℤ) (snapshotRequired : Bool) :
    Except String (Option StopDecisionProof) := do
  validateProjection budget "MonitorObservation" observation.value
  require (isObservationOf observation handle) "MonitorObservation is bound to a stale TargetRun handle"
  requireNonnegativeInt observation.cursor "monitor cursor"
  requireNonnegativeInt observation.statusRevision "monitor status revision"
  requirePositiveInt observation.limit "monitor limit"
  require (observation.limit ≤ 1000) "monitor response exceeds the bounded contract"
  observation.afterCursor.elim (.ok ()) (requireNonnegativeInt · "monitor after_cursor")
  observation.afterStatusRevision.elim (.ok ())
    (requireNonnegativeInt · "monitor after_status_revision")
  observation.stopDecision.elim (.ok ()) (validateStopDecision budget · handle)
  validatePosition observation lastCursor lastStatusRevision snapshotRequired
  pure observation.stopDecision

/-! ### Streams -/

/-- A row of the monitor states: both counters are absent exactly while a snapshot is required. -/
inductive MonitorState where
  | opened
  | observed (cursor statusRevision : ℤ)
deriving DecidableEq, Repr

namespace MonitorState

def snapshotRequired : MonitorState → Bool
  | opened => true
  | observed _ _ => false

def cursor : MonitorState → Option ℤ
  | opened => none
  | observed cursor _ => some cursor

def statusRevision : MonitorState → Option ℤ
  | opened => none
  | observed _ statusRevision => some statusRevision

/-- The checkpoint after an observation, if it is accepted against the last one. -/
def observe (budget : Budget) (handle : TargetWorkHandle) (state : MonitorState)
    (observation : MonitorObservation) : Except String (Option StopDecisionProof × MonitorState) := do
  let stop ← validateMonitorObservation budget observation handle state.cursor state.statusRevision
    state.snapshotRequired
  pure (stop, observed observation.cursor observation.statusRevision)

/-- The accepted ones of the observations handed to a stream, each with the stop it reports. A refused
one leaves the checkpoint as it was. -/
def accepted (budget : Budget) (handle : TargetWorkHandle) :
    MonitorState → List MonitorObservation → List (MonitorObservation × Option StopDecisionProof)
  | _, [] => []
  | state, observation :: rest =>
    match observe budget handle state observation with
    | .ok (stop, next) => (observation, stop) :: accepted budget handle next rest
    | .error _ => accepted budget handle state rest

end MonitorState

end TargetRun

end MetaResearch.Bundle

import MetaResearch.Model.RuntimeProtection.Tables
import MetaResearch.ToMathlib.Run
import Mathlib.Data.List.Basic

/-! # Telemetry export and its consent

Remote telemetry of one daemon incarnation: the durable row of `ar_runtime_telemetry_state`, the
exporters with their queues and worker threads, and the threads that run `enable_telemetry`,
`revoke_telemetry`, `close` and `_emit`. A step is one access to something that another thread
reaches without the lock of `RuntimeProtection`: a transaction, the reference `_telemetry`, a queue
operation, a call of the delegate. What only lock holders reach changes together with the step
beside it. Transactions, log lines, waits and calls of the delegate may fail at each step. Log lines
and feed records are not read back, so only their failure is kept.
-/

namespace MetaResearch.RuntimeProtection.Telemetry

/-! ### The durable row -/

/-- The column `mode` with the columns that its table constraint makes present. -/
inductive Mode where
  | disabled
  | active (provider authorizationRef : String)
  | revocationPending (provider authorizationRef : String)
  | revoked (authorizationRef : String)
deriving DecidableEq, Repr

/-- The modes in which a remote export is consented to. -/
def Mode.consents : Mode → Bool
  | .active _ _ | .revocationPending _ _ => true
  | .disabled | .revoked _ => false

structure TelemetryRow where
  mode : Mode
  failureCode : Option String
deriving DecidableEq, Repr

namespace TelemetryRow

/-- The update of `enable_telemetry`; without a result it meets no row. -/
def enable (provider authorizationRef : String) (row : TelemetryRow) : Option TelemetryRow :=
  match row.mode with
  | .disabled | .revoked _ => some ⟨.active provider authorizationRef, none⟩
  | .active _ _ | .revocationPending _ _ => none

/-- The update of `_record_telemetry_revocation_pending`. -/
def pend (authorizationRef : String) (row : TelemetryRow) : Option TelemetryRow :=
  match row.mode with
  | .active provider _ => some ⟨.revocationPending provider authorizationRef, none⟩
  | .disabled | .revocationPending _ _ | .revoked _ => none

/-- The update of `_record_telemetry_revoked_without_transport`. -/
def revokeWithoutTransport (authorizationRef : String) (row : TelemetryRow) : TelemetryRow :=
  match row.mode with
  | .disabled | .revoked _ => ⟨.revoked authorizationRef, none⟩
  | .active _ _ | .revocationPending _ _ => row

/-- The update of `_finalize_telemetry_revocation`. -/
def finalize (authorizationRef : String) (row : TelemetryRow) : Option TelemetryRow :=
  match row.mode with
  | .revocationPending _ ref => if ref = authorizationRef then some ⟨.revoked ref, none⟩ else none
  | .disabled | .active _ _ | .revoked _ => none

/-- The update of `_record_telemetry_revocation_failure`. -/
def fail (authorizationRef reasonCode : String) (row : TelemetryRow) : TelemetryRow :=
  match row.mode with
  | .active provider _ | .revocationPending provider _ =>
    ⟨.revocationPending provider authorizationRef, some reasonCode⟩
  | .disabled | .revoked _ => row

/-- The update of `close`. -/
def close (row : TelemetryRow) : TelemetryRow :=
  match row.mode with
  | .active _ _ => ⟨.disabled, none⟩
  | .disabled | .revocationPending _ _ | .revoked _ => row

/-- `_reset_orphaned_telemetry_state` -/
def resetOrphaned (row : TelemetryRow) : TelemetryRow :=
  match row.mode with
  | .active _ _ => ⟨.disabled, none⟩
  | .revocationPending _ ref => ⟨.revoked ref, none⟩
  | .disabled | .revoked _ => row

end TelemetryRow

/-! ### Exporters -/

/-- How the outside part of a step ends; a failed wait is one that times out. -/
inductive Outcome where
  | ok | fails
deriving DecidableEq, Repr

/-- Where the thread of `_drain` is. -/
inductive Worker (Event : Type) where
  | waiting
  /-- An event is taken from the queue and `export` of the delegate is called next. -/
  | carrying (event : Event)
  | exporting (event : Event)
  | reporting
  | shuttingDown
  | reportingShutdown
  | proving
  | settling
  | stopped
  | crashed
deriving DecidableEq, Repr

/-- The loop of `_drain` is left for good. -/
def Worker.final {Event : Type} : Worker Event → Bool
  | .waiting | .carrying _ | .exporting _ | .reporting => false
  | .shuttingDown | .reportingShutdown | .proving | .settling | .stopped | .crashed => true

/-- The event that the worker holds and has not handed over yet. -/
def Worker.carried {Event : Type} : Worker Event → Option Event
  | .carrying event => some event
  | .waiting | .exporting _ | .reporting | .shuttingDown | .reportingShutdown | .proving
  | .settling | .stopped | .crashed => none

/-- An `_AsyncTelemetryExporter`. In the queue `none` is the shutdown sentinel. -/
structure AsyncExporter (Event : Type) where
  queue : List (Option Event)
  accepting : Bool
  locked : Bool
  worker : Worker Event
  closed : Bool
  shutdownProven : Bool
deriving DecidableEq, Repr

/-- Where a thread is in `close_and_wait`; up to the wait it is in `request_close`. -/
inductive ClosePoint where
  | enter | discard | sentinel | wait | proven
deriving DecidableEq, Repr

def maximumPending : ℕ := 256

namespace AsyncExporter

variable {Event : Type}

def create : AsyncExporter Event where
  queue := []
  accepting := true
  locked := false
  worker := .waiting
  closed := false
  shutdownProven := false

/-- `export` under the exporter's lock; without a result the queue is full. -/
def put (event : Event) (exporter : AsyncExporter Event) : Option (AsyncExporter Event) :=
  if exporter.accepting then
    if exporter.queue.length < maximumPending then
      some { exporter with queue := exporter.queue ++ [some event] }
    else none
  else some exporter

/-- One step of `close_and_wait`; it ends with the value that the method returns. A thread that
finds the exporter's lock taken, or waits without a limit, stays where it is. -/
def closeStep (timed : Bool) (outcome : Outcome) (exporter : AsyncExporter Event) :
    ClosePoint → (ClosePoint ⊕ Bool) × AsyncExporter Event
  | .enter =>
    if exporter.locked then (.inl .enter, exporter)
    else if exporter.accepting then
      (.inl .discard, { exporter with accepting := false, locked := true })
    else (.inl .wait, exporter)
  | .discard =>
    match exporter.queue with
    | [] => (.inl .sentinel, exporter)
    | _ :: rest => (.inl .discard, { exporter with queue := rest })
  | .sentinel =>
    (.inl .wait, { exporter with
      locked := false
      queue := if exporter.queue.length < maximumPending then exporter.queue ++ [none]
        else exporter.queue })
  | .wait =>
    if timed && outcome = .fails then (.inr false, exporter)
    else if exporter.closed then (.inl .proven, exporter)
    else (.inl .wait, exporter)
  | .proven =>
    if exporter.locked then (.inl .proven, exporter)
    else (.inr exporter.shutdownProven, exporter)

/-- One step of `_drain`. -/
def workerStep (outcome : Outcome) (exporter : AsyncExporter Event) : AsyncExporter Event :=
  match exporter.worker with
  | .waiting =>
    match exporter.queue with
    | [] => exporter
    | some event :: rest => { exporter with queue := rest, worker := .carrying event }
    | none :: rest => { exporter with queue := rest, worker := .shuttingDown }
  | .carrying event => { exporter with worker := .exporting event }
  | .exporting _ =>
    match outcome with
    | .ok => { exporter with worker := .waiting }
    | .fails => { exporter with worker := .reporting }
  | .reporting =>
    match outcome with
    | .ok => { exporter with worker := .waiting }
    | .fails => { exporter with worker := .crashed }
  | .shuttingDown =>
    match outcome with
    | .ok => { exporter with worker := .proving }
    | .fails => { exporter with worker := .reportingShutdown }
  | .reportingShutdown => { exporter with worker := .settling }
  | .proving =>
    if exporter.locked then exporter
    else { exporter with worker := .settling, shutdownProven := true }
  | .settling => { exporter with worker := .stopped, closed := true }
  | .stopped | .crashed => exporter

end AsyncExporter

/-! ### Threads -/

inductive Failure where
  | protection (error : ProtectionError)
  /-- An exception of the database, the log, the delegate or the thread library. -/
  | outside
deriving DecidableEq, Repr

abbrev Result := Except Failure Unit

def refused (code : String) : Result := .error (.protection (unavailable code))

/-- Who runs `_finalize_telemetry_revocation`. -/
inductive Finalizer where
  | revoke | waiter
deriving DecidableEq, Repr

/-- Where a thread is while it does not hold the lock. Exporters are named by their number. -/
inductive Frame (Event : Type) where
  /-- `_emit`: the log line, the read of `_telemetry`, the call of `export`, its failure. -/
  | emitLog (event : Event)
  | emit (event : Event)
  | emitTo (exporter : ℕ) (event : Event)
  | emitReport
  | enable (provider authorizationRef : String) (event : Event)
  | revoke (authorizationRef : String)
  | revokeWait (pending : ℕ) (authorizationRef : String) (point : ClosePoint)
  | finalize (caller : Finalizer) (pending : ℕ) (authorizationRef : String)
  | finalizeLog (caller : Finalizer) (authorizationRef : String)
  | recordFailure (caller : Finalizer) (authorizationRef reasonCode : String)
  | failureLog (caller : Finalizer)
  | startWaiter (pending : ℕ) (authorizationRef : String)
  | awaitRevocation (pending : ℕ) (authorizationRef : String) (point : ClosePoint)
  | close
  | closePrevious (previous : ℕ) (pending : Option ℕ) (point : ClosePoint)
  | closePending (pending : ℕ) (point : ClosePoint)
  /-- The thread holds the lock. -/
  | inside
  | done (result : Result)

/-- Where the thread is that holds the lock. -/
inductive Critical (Event : Type) where
  | enableRead (provider authorizationRef : String) (event : Event)
  /-- The delegate is closed without a worker; the call ends as said for either outcome. -/
  | enableRefuse (closed failed : Result)
  | enableCreate (provider authorizationRef : String) (event : Event)
  | enableWrite (candidate : ℕ) (provider authorizationRef : String) (event : Event)
  | enablePublish (candidate : ℕ) (event : Event)
  | enableAbandon (candidate : ℕ) (point : ClosePoint) (failure : Failure)
  | revokeRead (authorizationRef : String)
  | revokeWithoutTransport (authorizationRef : String)
  | revokeWithoutTransportLog
  | revokeSwap (pending : ℕ) (authorizationRef : String)
  | revokeStop (pending : ℕ) (authorizationRef : String) (point : ClosePoint)
  | revokeRecord (pending : ℕ) (authorizationRef : String)
  | revokeRecordFailure (pending : ℕ) (authorizationRef : String)
  | revokeFailureLog (pending : ℕ) (authorizationRef : String)
  | finalizeRead (caller : Finalizer) (pending : ℕ) (authorizationRef : String)
  | finalizeWrite (caller : Finalizer) (pending : ℕ) (authorizationRef : String)
  | failureWrite (caller : Finalizer) (authorizationRef reasonCode : String)
  | waiterStart (pending : ℕ) (authorizationRef : String)
  | closeSwap
  | closeWrite (previous pending : Option ℕ)

/-- The daemon's telemetry. `telemetry` is `none` for the `DisabledTelemetryExporter`; `critical` is
the holder of the lock, so there is at most one. -/
structure State (Event : Type) where
  row : TelemetryRow
  telemetry : Option ℕ
  revoking : Option ℕ
  waiter : Option ℕ
  exporters : List (AsyncExporter Event)
  threads : List (Frame Event)
  critical : Option (ℕ × Critical Event)

namespace State

variable {Event : Type}

/-- The constructor of `RuntimeProtection` over a stored row. -/
def start (stored : TelemetryRow) : State Event where
  row := stored.resetOrphaned
  telemetry := none
  revoking := none
  waiter := none
  exporters := []
  threads := []
  critical := none

def goto (thread : ℕ) (frame : Frame Event) (state : State Event) : State Event :=
  { state with threads := state.threads.set thread frame }

/-- Wait for the lock, or take it when it is free. -/
def acquire (thread : ℕ) (point : Critical Event) (state : State Event) : State Event :=
  match state.critical with
  | none => { state.goto thread .inside with critical := some (thread, point) }
  | some _ => state

def within (thread : ℕ) (point : Critical Event) (state : State Event) : State Event :=
  { state with critical := some (thread, point) }

def release (thread : ℕ) (frame : Frame Event) (state : State Event) : State Event :=
  { state.goto thread frame with critical := none }

def setExporter (number : ℕ) (exporter : AsyncExporter Event) (state : State Event) : State Event :=
  { state with exporters := state.exporters.set number exporter }

/-- One step of closing an exporter, and how the thread goes on. -/
def closing (number : ℕ) (timed : Bool) (outcome : Outcome) (point : ClosePoint)
    (goOn : ClosePoint ⊕ Bool → State Event → State Event) (state : State Event) : State Event :=
  match state.exporters[number]? with
  | some exporter =>
    let next := exporter.closeStep timed outcome point
    goOn next.1 (state.setExporter number next.2)
  | none => state

/-- `waiter.is_alive()` -/
def waiterAlive (state : State Event) : Bool :=
  match state.waiter.bind (state.threads[·]?) with
  | some (.done _) | none => false
  | some _ => true

/-- What `close` waits for after the exporter it replaced. -/
def closeRest (previous : ℕ) : Option ℕ → Frame Event
  | some pending => if pending = previous then .done (.ok ()) else .closePending pending .enter
  | none => .done (.ok ())

/-- What `close` does after its transaction. -/
def closeFrame : Option ℕ → Option ℕ → Frame Event
  | some previous, pending => .closePrevious previous pending .enter
  | none, some pending => .closePending pending .enter
  | none, none => .done (.ok ())

/-- What follows a raising `_finalize_telemetry_revocation`. -/
def finalizeFailed (caller : Finalizer) (authorizationRef : String) : Frame Event :=
  .recordFailure caller authorizationRef "telemetry_revocation_fact_pending"

/-! ### Steps of a thread -/

/-- `enable_telemetry` has the lock and has read the row. -/
def enableRead (thread : ℕ) (provider authorizationRef : String) (event : Event)
    (state : State Event) : State Event :=
  match state.row.mode with
  | .active _ ref =>
    if ref = authorizationRef then state.within thread (.enableRefuse (.ok ()) (.ok ()))
    else
      state.within thread (.enableRefuse (refused "telemetry_revoke_required") (.error .outside))
  | .revocationPending _ _ =>
    state.within thread (.enableRefuse (refused "telemetry_revocation_pending")
      (refused "telemetry_revocation_pending"))
  | .disabled | .revoked _ => state.within thread (.enableCreate provider authorizationRef event)

/-- `revoke_telemetry` has the lock and has read the row. -/
def revokeRead (thread : ℕ) (authorizationRef : String) (state : State Event) : State Event :=
  match state.row.mode with
  | .revoked ref =>
    if ref = authorizationRef then state.release thread (.done (.ok ()))
    else state.within thread (.revokeWithoutTransport authorizationRef)
  | .disabled => state.within thread (.revokeWithoutTransport authorizationRef)
  | .revocationPending _ ref =>
    match state.revoking with
    | none => state.release thread (.done (refused "telemetry_revocation_pending"))
    | some pending => state.release thread (.revokeWait pending ref .enter)
  | .active _ _ =>
    match state.revoking, state.telemetry with
    | some pending, _ | none, some pending =>
      state.within thread (.revokeSwap pending authorizationRef)
    | none, none => state.release thread (.done (refused "telemetry_activation_state_conflict"))

/-- `_finalize_telemetry_revocation` has the lock and has read the mode. -/
def finalizeRead (thread : ℕ) (caller : Finalizer) (pending : ℕ) (authorizationRef : String)
    (state : State Event) : State Event :=
  match state.row.mode with
  | .revoked _ =>
    { state.release thread (.done (.ok ())) with
      revoking := if state.revoking = some pending then none else state.revoking }
  | .disabled | .active _ _ | .revocationPending _ _ =>
    if state.revoking = some pending then
      state.within thread (.finalizeWrite caller pending authorizationRef)
    else state.release thread (finalizeFailed caller authorizationRef)

/-- The next step of the thread that holds the lock. -/
def criticalStep (thread : ℕ) (outcome : Outcome) (state : State Event) :
    Critical Event → State Event
  | .enableRead provider ref event =>
    match outcome with
    | .ok => state.enableRead thread provider ref event
    | .fails => state.release thread (.done (.error .outside))
  | .enableRefuse closed failed =>
    state.release thread (.done (match outcome with | .ok => closed | .fails => failed))
  | .enableCreate provider ref event =>
    match outcome with
    | .ok =>
      { state.within thread (.enableWrite state.exporters.length provider ref event) with
        exporters := state.exporters ++ [.create] }
    | .fails => state.release thread (.done (.error .outside))
  | .enableWrite candidate provider ref event =>
    match outcome, state.row.enable provider ref with
    | .ok, some row => { state.within thread (.enablePublish candidate event) with row := row }
    | .ok, none =>
      state.within thread (.enableAbandon candidate .enter
        (.protection (unavailable "telemetry_activation_state_conflict")))
    | .fails, _ => state.within thread (.enableAbandon candidate .enter .outside)
  | .enablePublish candidate event =>
    { state.release thread (.emitLog event) with telemetry := some candidate }
  | .enableAbandon candidate point failure =>
    state.closing candidate true outcome point fun next state =>
      match next with
      | .inl point => state.within thread (.enableAbandon candidate point failure)
      | .inr _ => state.release thread (.done (.error failure))
  | .revokeRead ref =>
    match outcome with
    | .ok => state.revokeRead thread ref
    | .fails => state.release thread (.done (.error .outside))
  | .revokeWithoutTransport ref =>
    match outcome with
    | .ok =>
      { state.within thread .revokeWithoutTransportLog with
        row := state.row.revokeWithoutTransport ref }
    | .fails => state.release thread (.done (.error .outside))
  | .revokeWithoutTransportLog =>
    state.release thread (.done (match outcome with | .ok => .ok () | .fails => .error .outside))
  | .revokeSwap pending ref =>
    { state.within thread (.revokeStop pending ref .enter) with
      telemetry := none, revoking := some pending }
  | .revokeStop pending ref point =>
    state.closing pending true outcome point fun next state =>
      match next with
      | .inl .wait | .inr _ => state.within thread (.revokeRecord pending ref)
      | .inl point => state.within thread (.revokeStop pending ref point)
  | .revokeRecord pending ref =>
    match outcome, state.row.pend ref with
    | .ok, some row => { state.release thread (.revokeWait pending ref .enter) with row := row }
    | .ok, none | .fails, _ => state.within thread (.revokeRecordFailure pending ref)
  | .revokeRecordFailure pending ref =>
    match outcome with
    | .ok =>
      { state.within thread (.revokeFailureLog pending ref) with
        row := state.row.fail ref "telemetry_revocation_fact_pending" }
    | .fails => state.within thread (.revokeFailureLog pending ref)
  | .revokeFailureLog pending ref =>
    match outcome with
    | .ok => state.release thread (.revokeWait pending ref .enter)
    | .fails => state.release thread (.done (.error .outside))
  | .finalizeRead caller pending ref =>
    match outcome with
    | .ok => state.finalizeRead thread caller pending ref
    | .fails => state.release thread (finalizeFailed caller ref)
  | .finalizeWrite caller _ ref =>
    match outcome, state.row.finalize ref with
    | .ok, some row =>
      { state.release thread (.finalizeLog caller ref) with row := row, revoking := none }
    | .ok, none | .fails, _ => state.release thread (finalizeFailed caller ref)
  | .failureWrite caller ref reasonCode =>
    match outcome with
    | .ok => { state.release thread (.failureLog caller) with row := state.row.fail ref reasonCode }
    | .fails => state.release thread (.failureLog caller)
  | .waiterStart pending ref =>
    let ended := state.release thread (.done (refused "telemetry_revocation_pending"))
    if state.waiterAlive then ended
    else
      match outcome with
      | .ok =>
        { ended with
          waiter := some state.threads.length
          threads := ended.threads ++ [.awaitRevocation pending ref .enter] }
      | .fails => { state.release thread (.done (.error .outside)) with waiter := none }
  | .closeSwap =>
    { state.within thread (.closeWrite state.telemetry state.revoking) with
      telemetry := none, revoking := none }
  | .closeWrite previous pending =>
    match outcome with
    | .ok => { state.release thread (closeFrame previous pending) with row := state.row.close }
    | .fails => state.release thread (.done (.error .outside))

/-- The end of a call that ran `_record_telemetry_revocation_failure`. -/
def failureResult : Finalizer → Outcome → Result
  | .revoke, .ok => refused "telemetry_revocation_pending"
  | .waiter, .ok => .ok ()
  | .revoke, .fails | .waiter, .fails => .error .outside

/-- The call of `export` on an asynchronous exporter inside `_emit`. -/
def emitTo (thread number : ℕ) (event : Event) (outcome : Outcome) (state : State Event) :
    State Event :=
  match state.exporters[number]? with
  | some exporter =>
    if exporter.locked then state
    else
      match exporter.put event with
      | some exporter => (state.setExporter number exporter).goto thread (.done (.ok ()))
      | none =>
        match outcome with
        | .ok => state.goto thread (.done (.ok ()))
        | .fails => state.goto thread .emitReport
  | none => state

/-- The next step of a thread that does not hold the lock. -/
def threadStep (thread : ℕ) (outcome : Outcome) (state : State Event) : Frame Event → State Event
  | .emitLog event =>
    match outcome with
    | .ok => state.goto thread (.emit event)
    | .fails => state.goto thread (.done (.error .outside))
  | .emit event =>
    match state.telemetry with
    | some number => state.goto thread (.emitTo number event)
    | none => state.goto thread (.done (.ok ()))
  | .emitTo number event => state.emitTo thread number event outcome
  | .emitReport =>
    state.goto thread (.done (match outcome with | .ok => .ok () | .fails => .error .outside))
  | .enable provider ref event => state.acquire thread (.enableRead provider ref event)
  | .revoke ref => state.acquire thread (.revokeRead ref)
  | .revokeWait pending ref point =>
    state.closing pending true outcome point fun next state =>
      match next with
      | .inl point => state.goto thread (.revokeWait pending ref point)
      | .inr true => state.goto thread (.finalize .revoke pending ref)
      | .inr false => state.goto thread (.startWaiter pending ref)
  | .finalize caller pending ref => state.acquire thread (.finalizeRead caller pending ref)
  | .finalizeLog caller ref =>
    match outcome with
    | .ok => state.goto thread (.done (.ok ()))
    | .fails => state.goto thread (finalizeFailed caller ref)
  | .recordFailure caller ref reasonCode =>
    state.acquire thread (.failureWrite caller ref reasonCode)
  | .failureLog caller => state.goto thread (.done (failureResult caller outcome))
  | .startWaiter pending ref => state.acquire thread (.waiterStart pending ref)
  | .awaitRevocation pending ref point =>
    state.closing pending false outcome point fun next state =>
      match next with
      | .inl point => state.goto thread (.awaitRevocation pending ref point)
      | .inr true => state.goto thread (.finalize .waiter pending ref)
      | .inr false =>
        state.goto thread (.recordFailure .waiter ref "telemetry_transport_stop_unconfirmed")
  | .close => state.acquire thread .closeSwap
  | .closePrevious previous pending point =>
    state.closing previous true outcome point fun next state =>
      match next with
      | .inl point => state.goto thread (.closePrevious previous pending point)
      | .inr _ => state.goto thread (closeRest previous pending)
  | .closePending pending point =>
    state.closing pending true outcome point fun next state =>
      match next with
      | .inl point => state.goto thread (.closePending pending point)
      | .inr _ => state.goto thread (.done (.ok ()))
  | .inside | .done _ => state

end State

/-! ### Runs -/

/-- A call of a public method or of `_emit`. The event of `enable` is the one emitted at its end. -/
inductive Call (Event : Type) where
  | emit (event : Event)
  | enable (provider authorizationRef : String) (event : Event)
  | revoke (authorizationRef : String)
  | close

/-- The checks that a call makes before it waits for the lock. -/
def Call.frame {Event : Type} : Call Event → Frame Event
  | .emit event => .emitLog event
  | .enable provider ref event =>
    if !safeIdentifier ref 96 then .done (refused "telemetry_authorization_receipt_invalid")
    else if logIdentifier provider "" = "" ∨ logIdentifier provider "" = "disabled" then
      .done (.error (.protection (.invalid "telemetry_provider_invalid")))
    else .enable (logIdentifier provider "") ref event
  | .revoke ref =>
    if !safeIdentifier ref 96 then .done (refused "telemetry_authorization_receipt_invalid")
    else .revoke ref
  | .close => .close

/-- What happens next: a new call, a step of one thread, of the lock holder or of one worker. -/
inductive Input (Event : Type) where
  | call (call : Call Event)
  | thread (number : ℕ) (outcome : Outcome)
  | holder (outcome : Outcome)
  | worker (exporter : ℕ) (outcome : Outcome)

namespace State

variable {Event : Type}

def step (state : State Event) : Input Event → State Event
  | .call call => { state with threads := state.threads ++ [call.frame] }
  | .thread number outcome =>
    match state.threads[number]? with
    | some frame => state.threadStep number outcome frame
    | none => state
  | .holder outcome =>
    match state.critical with
    | some (thread, point) => state.criticalStep thread outcome point
    | none => state
  | .worker number outcome =>
    match state.exporters[number]? with
    | some exporter => state.setExporter number (exporter.workerStep outcome)
    | none => state

/-- The step calls `export` of a delegate. -/
def Exports (state : State Event) : Input Event → Prop
  | .worker number _ => ∃ exporter ∈ state.exporters[number]?, exporter.worker.carried.isSome
  | .call _ | .thread _ _ | .holder _ => False

/-- A step that calls `export` of a delegate does so while the durable row consents. -/
def Consented (state : State Event) (input : Input Event) : Prop :=
  state.Exports input → state.row.mode.consents

end State

end MetaResearch.RuntimeProtection.Telemetry

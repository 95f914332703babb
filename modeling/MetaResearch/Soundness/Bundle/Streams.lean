import Mathlib.Data.List.Chain
import MetaResearch.Model.Bundle.Monitor

/-! # Consistency of a monitor stream

An accepted observation continues the stream from the last accepted one. Along a whole stream the
counters never fall, no interval is skipped or replayed, and every reported stop is one of the handle.
-/

namespace MetaResearch.Bundle.TargetRun

open MonitorState (accepted observe)

variable {budget : Budget} {handle : TargetWorkHandle}

/-! ### One observation -/

/-- The stop is one of the TargetRun and of the attempt that the handle names. -/
structure StopOf (handle : TargetWorkHandle) (stop : StopDecisionProof) : Prop where
  targetRef : stop.targetRef = handle.targetRef
  targetRunRef : stop.targetRunRef = handle.targetRunRef
  executionAttemptRef : stop.executionAttemptRef = handle.executionAttemptRef

theorem stopOf_of_validate {stop : StopDecisionProof}
    (valid : validateStopDecision budget stop handle = .ok ()) : StopOf handle stop := by
  simp only [validateStopDecision, check_then_eq_ok_iff, require_eq_ok_iff, decide_eq_true_eq] at valid
  obtain ⟨_, _, target, run, attempt, _⟩ := valid
  exact ⟨target, run, attempt⟩

/-- The observation continues a stream from its checkpoint. -/
def Continues (observation : MonitorObservation) : MonitorState → Prop
  | .opened => observation.mode = "snapshot" ∧ observation.afterCursor = none ∧
      observation.afterStatusRevision = none
  | .observed cursor statusRevision => observation.mode = "incremental" ∧
      observation.afterCursor = some cursor ∧ observation.afterStatusRevision = some statusRevision ∧
      cursor ≤ observation.cursor ∧ statusRevision ≤ observation.statusRevision

/-- What an observation that is accepted at a checkpoint says. -/
structure Observed (handle : TargetWorkHandle) (state : MonitorState)
    (observation : MonitorObservation) (stop : Option StopDecisionProof) : Prop where
  bound : isObservationOf observation handle = true
  continues : Continues observation state
  reported : stop = observation.stopDecision
  stops : ∀ decision ∈ stop, StopOf handle decision

/-- The step lemma: an accepted observation becomes the checkpoint that it continued. -/
theorem observed_of_observe {state next : MonitorState} {observation : MonitorObservation}
    {stop : Option StopDecisionProof}
    (success : observe budget handle state observation = .ok (stop, next)) :
    Observed handle state observation stop ∧
      next = .observed observation.cursor observation.statusRevision := by
  simp only [observe, validateMonitorObservation, bind_eq_ok_iff (α := Option StopDecisionProof),
    check_then_eq_ok_iff, pure, Except.pure, Except.ok.injEq, Prod.mk.injEq, require_eq_ok_iff] at success
  obtain ⟨_, ⟨_, bound, _, _, _, _, _, _, decided, moved, rfl⟩, rfl, rfl⟩ := success
  refine ⟨⟨bound, ?_, rfl, ?_⟩, rfl⟩
  · cases state with
    | opened =>
      simp only [validatePosition, MonitorState.snapshotRequired, if_true, require_eq_ok_iff, Bool.and_eq_true,
        decide_eq_true_eq, Option.isNone_iff_eq_none] at moved
      exact ⟨moved.1.1, moved.1.2, moved.2⟩
    | observed cursor statusRevision =>
      simp only [validatePosition, MonitorState.snapshotRequired, Bool.false_eq_true, if_false,
        validateIncrement,
        MonitorState.cursor, MonitorState.statusRevision, check_then_eq_ok_iff, require_eq_ok_iff,
        decide_eq_true_eq] at moved
      obtain ⟨mode, after, afterStatus, forward⟩ := moved
      exact ⟨mode, of_decide_eq_true after, of_decide_eq_true afterStatus, forward⟩
  · intro decision member
    rw [Option.mem_def] at member
    rw [member, Option.elim_some] at decided
    exact stopOf_of_validate decided

/-! ### Streams -/

/-- The accepted observations of a stream, from its checkpoint on. -/
def Stream (handle : TargetWorkHandle) : MonitorState →
    List (MonitorObservation × Option StopDecisionProof) → Prop
  | _, [] => True
  | state, (observation, stop) :: rest => Observed handle state observation stop ∧
      Stream handle (.observed observation.cursor observation.statusRevision) rest

/-- The run lemma: what is accepted continues the stream, whatever is handed to it. -/
theorem stream_accepted (state : MonitorState) (observations : List MonitorObservation) :
    Stream handle state (accepted budget handle state observations) := by
  induction observations generalizing state with
  | nil => exact True.intro
  | cons observation rest ih =>
    unfold accepted
    split
    · rename_i stop next success
      obtain ⟨observed, rfl⟩ := observed_of_observe success
      exact ⟨observed, ih _⟩
    · exact ih state

/-- The later observation begins where the earlier one ended. -/
def Follows (earlier later : MonitorObservation × Option StopDecisionProof) : Prop :=
  Continues later.1 (.observed earlier.1.cursor earlier.1.statusRevision)

theorem Stream.isChain {state : MonitorState}
    {entries : List (MonitorObservation × Option StopDecisionProof)}
    (stream : Stream handle state entries) : entries.IsChain Follows := by
  induction entries generalizing state with
  | nil => exact .nil
  | cons first rest ih =>
    have later := ih stream.2
    cases rest with
    | nil => exact .singleton _
    | cons second others => exact .cons_cons stream.2.1.continues later

theorem Stream.observed {state : MonitorState}
    {entries : List (MonitorObservation × Option StopDecisionProof)}
    (stream : Stream handle state entries) :
    ∀ entry ∈ entries, isObservationOf entry.1 handle = true ∧ entry.2 = entry.1.stopDecision ∧
      ∀ stop ∈ entry.2, StopOf handle stop := by
  induction entries generalizing state with
  | nil => simp
  | cons first rest ih =>
    intro entry member
    rcases List.mem_cons.mp member with rfl | later
    · exact ⟨stream.1.bound, stream.1.reported, stream.1.stops⟩
    · exact ih stream.2 entry later

/-- No counter falls between two observations of a stream. -/
def NotAfter (earlier later : MonitorObservation × Option StopDecisionProof) : Prop :=
  earlier.1.cursor ≤ later.1.cursor ∧ earlier.1.statusRevision ≤ later.1.statusRevision

instance : IsTrans (MonitorObservation × Option StopDecisionProof) NotAfter :=
  ⟨fun _ _ _ first second => ⟨first.1.trans second.1, first.2.trans second.2⟩⟩

/-- What the accepted observations of a stream for one handle add up to. -/
structure StreamConsistent (handle : TargetWorkHandle)
    (entries : List (MonitorObservation × Option StopDecisionProof)) : Prop where
  /-- The stream begins with a snapshot. -/
  opens : ∀ first ∈ entries.head?, Continues first.1 .opened
  /-- Every other observation begins exactly where the one before it ended. -/
  exact : entries.IsChain Follows
  /-- Neither counter ever falls. -/
  monotone : entries.Pairwise NotAfter
  /-- Every observation is bound to the handle of the stream. -/
  bound : ∀ entry ∈ entries, isObservationOf entry.1 handle = true
  /-- A stop is reported as it was observed, and is one of this handle. -/
  stops : ∀ entry ∈ entries, entry.2 = entry.1.stopDecision ∧ ∀ stop ∈ entry.2, StopOf handle stop

/-- Whatever is handed to a stream that was opened for a handle, its accepted observations are
consistent. -/
theorem monitor_stream_consistent (budget : Budget) (handle : TargetWorkHandle)
    (observations : List MonitorObservation) :
    StreamConsistent handle (accepted budget handle .opened observations) := by
  have stream := @stream_accepted budget handle .opened observations
  refine ⟨?_, stream.isChain, ?_, fun entry member => (stream.observed entry member).1,
    fun entry member => (stream.observed entry member).2⟩
  · cases entries : accepted budget handle .opened observations with
    | nil => simp
    | cons first rest =>
      rw [entries] at stream
      simpa using stream.1.continues
  · exact (stream.isChain.imp fun _ _ follows => ⟨follows.2.2.2.1, follows.2.2.2.2⟩).pairwise

def watchedHandle : TargetWorkHandle where
  targetRef := "target"
  targetRunRef := "run"
  rootSessionRef := "session"
  executionAttemptRef := "attempt"
  executionFenceRef := "fence"
  executionInputBindingRef := "binding"
  executionInputBindingReceipt := ⟨"receipt", "binding", true, true, true⟩
  acceptedInputTargetCommitRefs := []
  acceptedInputAssetProofs := []
  recoverable := true

def watched (mode : String) (after : Option ℤ) (cursor : ℤ) : MonitorObservation :=
  ⟨"target", "run", "attempt", "fence", mode, cursor, after, 2 * cursor, after.map (2 * ·), 200, none⟩

-- A replayed increment and one after a gap are refused, and the stream goes on.
example : (accepted .unlimited watchedHandle .opened [watched "incremental" (some 0) 1,
    watched "snapshot" none 3, watched "incremental" (some 3) 5, watched "incremental" (some 3) 5,
    watched "incremental" (some 6) 7, watched "incremental" (some 5) 5]).map (·.1.cursor) = [3, 5, 5] := by
  decide +kernel

end MetaResearch.Bundle.TargetRun

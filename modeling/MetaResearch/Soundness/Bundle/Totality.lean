import MetaResearch.Soundness.Bundle.HandoffErrors
import MetaResearch.Soundness.Bundle.Recovery

/-! # Handoffs that raise

`validate_target_run_handoff` raises errors of the protocol only. `validate_target_run_handoff_notice` does so
unless it comes to the first handle of a Target that was never started, or to the result review of a measured
result that has none.
-/

namespace MetaResearch.Bundle

namespace TargetRun

variable {budget : Budget} {digest : String → String} {arguments : ReplayArguments} {manifest : String}

/-! ### The end of a replay -/

theorem total_announce (finalHandle : TargetWorkHandle) {changed inconsistent : String}
    (first : IsProtocolError changed) (second : IsProtocolError inconsistent) :
    Total (announce budget digest arguments finalHandle manifest changed inconsistent) := by
  refine total_check (total_validateTargetFrontierEntry _ _ _ _) <| total_check (total_require first _) ?_
  refine total_bind (total_terminalNoticeProjection _ _) fun expected => ?_
  exact total_bind (total_bind (total_payloadDigest _ _) fun _ => raisesOnly_pure) fun announced =>
    total_require second announced

theorem total_announceNative (finalHandle : TargetWorkHandle) :
    Total (announceNative budget digest arguments finalHandle manifest) := by
  refine total_check (total_validateTargetFrontierEntry _ _ _ _) ?_
  iterate 2 refine total_check (total_require (by decide) _) ?_
  refine total_bind (total_terminalNoticeProjection _ _) fun expected => ?_
  iterate 4 refine total_check (total_require (by decide) _) ?_
  exact total_bind (total_payloadDigest _ _) fun _ => total_require (by decide) _

theorem total_validateGoalWorkCancellation (disposition : GoalWorkDisposition) :
    Total (validateGoalWorkCancellation budget digest arguments disposition manifest) := by
  refine raisesOnly_check_iff.mpr ⟨total_require (by decide) _, fun shaped => ?_⟩
  simp only [require_eq_ok_iff, Bool.and_eq_true, TargetRunHandoff.joined, decide_eq_true_eq] at shaped
  have walked : Total (replayCancelled budget digest arguments) := by
    unfold replayCancelled
    split
    · exact raisesOnly_ok
    · rename_i first rest history
      refine total_check (total_validateHandle first) (total_replayCancelledFrom ?_ _)
      simpa [history] using shaped.2
  refine total_bind walked fun evidence => ?_
  iterate 2 refine total_check (total_require (by decide) _) ?_
  exact total_announce _ (by decide) (by decide)

theorem total_validateTargetRootCompletion (closure : AcceptedMeasurementClosure) (receipt : ReceiptProof) :
    Total (validateTargetRootCompletion budget digest arguments closure receipt manifest) := by
  refine raisesOnly_check_iff.mpr ⟨total_require (by decide) _, fun shaped => ?_⟩
  simp only [require_eq_ok_iff, Bool.and_eq_true, TargetRunHandoff.joined, decide_eq_true_eq] at shaped
  have walked : Total (replayRoot budget digest arguments) := by
    unfold replayRoot
    split
    · exact raisesOnly_ok
    · rename_i first rest history
      refine total_check (total_validateHandle first) <| total_check (total_require (by decide) _) ?_
      refine total_replayRootFrom ?_ _ _
      simpa [history] using shaped.1.2
  refine total_bind walked fun evidence => total_check (total_require (by decide) _) ?_
  refine total_check (total_validateReceipt _ _ _) <| total_check (total_require (by decide) _) ?_
  exact total_announce _ (by decide) (by decide)

/-! ### A native replay -/

theorem total_replayHistory : Total (replayHistory budget arguments) := by
  unfold replayHistory
  split
  · exact raisesOnly_ok
  · exact total_check (total_validateHandle _) <| total_check (total_require (by decide) _)
      (total_replayHistoryFrom _)

/-- The preflights and the history are as a complete handoff has them. -/
theorem total_replayNative (complete : arguments.handoff.nativeComplete = true)
    (scopes : arguments.expectedReviewScopes.length = arguments.handoff.codeReviewPreflights.length) :
    Total (replayNative budget digest arguments) := by
  simp only [TargetRunHandoff.nativeComplete, TargetRunHandoff.joined, Bool.and_eq_true, Bool.not_eq_true',
    List.isEmpty_eq_false_iff, decide_eq_true_eq] at complete
  obtain ⟨⟨started, reviewed⟩, joined⟩ := complete
  obtain ⟨first, rest, history⟩ := List.exists_cons_of_ne_nil started
  have length : arguments.handoff.recoveredBlockers.length = rest.length := by simpa [history] using joined
  unfold replayNative
  split
  · rename_i empty
    rcases List.zip_eq_nil_iff.mp empty with none | none
    · exact absurd none reviewed
    · rw [none] at scopes
      exact absurd (List.length_eq_zero_iff.mp scopes.symm) reviewed
  · rw [history]
    exact total_check (total_validateTargetExecutionPreflight _ _ _) (total_replayRecoveries length _)

theorem total_collectReview (sessions : List String) (reviewed : Reviewed)
    (preflight : TargetExecutionPreflight) : Total (collectReview sessions reviewed preflight) := by
  refine total_check (total_require (by decide) _) ?_
  dsimp only
  split
  · exact raisesOnly_ok
  · iterate 4 refine total_check (total_require (by decide) _) ?_
    exact raisesOnly_pure

theorem total_replayStops (handoff : TargetRunHandoff) : Total (replayStops budget handoff) := by
  refine total_check (total_require (by decide) _) <| raisesOnly_foldlM fun stopped stop _ => ?_
  unfold collectStop
  split
  · exact total_check (total_validateStopDecision _ _) <| total_check (total_require (by decide) _) <|
      total_check (total_require (by decide) _) raisesOnly_pure
  · exact raisesOnly_error.mpr (by decide)

theorem total_verifyStop (handoff : TargetRunHandoff) (preregistered : Preregistered)
    (entry : StopDecisionProof × ℕ) : Total (verifyStop handoff preregistered entry) := by
  have engineering : Total (verifyEngineeringStop handoff entry.2) := by
    unfold verifyEngineeringStop
    split
    · exact total_require (by decide) _
    · split
      · exact total_require (by decide) _
      · exact raisesOnly_error.mpr (by decide)
  have result : Total (verifyStoppedResult handoff.terminal entry.1) := by
    unfold verifyStoppedResult
    split
    · exact total_require (by decide) _
    · exact raisesOnly_ok
  unfold verifyStop
  split_ifs
  · exact total_check engineering raisesOnly_pure
  · exact total_check (total_require (by decide) _) <| total_check (total_require (by decide) _) <|
      total_check result raisesOnly_pure
  · exact raisesOnly_ok

/-! ### Where a handoff raises -/

/-- The terminal fact is that the Target was never started. -/
def isNotStarted : TargetTerminal → Bool
  | .disposition disposition => disposition.disposition = "not_started"
  | _ => false

/-- The terminal fact is a native measured result without a review. -/
def isUnreviewed : TargetTerminal → Bool
  | .closure closure => closure.rootCompletionReceipt.isNone && closure.resultReview.isNone
  | _ => false

/-- The handoff, the notice and the initial handle each pass their own check. -/
structure IsReceived (budget : Budget) (digest : String → String) (arguments : ReplayArguments) : Prop where
  handoff : ∃ manifest, validateTargetRunHandoff budget digest arguments.handoff = .ok manifest
  notice : validateTargetWorkNotice budget arguments.notice = .ok ()
  initialHandle : arguments.validateHandle budget arguments.initialHandle = .ok ()

/-- The history, the recoveries, the code reviews and the stops of a native handoff each pass, and its terminal
fact is one of the final handle. -/
structure IsReplayed (budget : Budget) (digest : String → String) (arguments : ReplayArguments) : Prop where
  started : verifyStart arguments = .ok ()
  scopes : arguments.expectedReviewScopes.length = arguments.handoff.codeReviewPreflights.length
  handles : replayHistory budget arguments = .ok ()
  recoveries : ∃ recovering, replayNative budget digest arguments = .ok recovering ∧ recovering.remaining = []
  reviews : ∃ reviewed, arguments.handoff.codeReviewPreflights.foldlM
    (collectReview (arguments.handoff.handleHistory.map (·.rootSessionRef))) Reviewed.empty = .ok reviewed
  stops : ∃ stopped, replayStops budget arguments.handoff = .ok stopped ∧
    ∃ preregistered, stopped.verified.foldlM (verifyStop arguments.handoff) (none, none) = .ok preregistered
  current : arguments.handoff.terminal.isOf
    (arguments.handoff.handleHistory.getLastD arguments.initialHandle) = true

theorem total_verifyTerminal (finalHandle : TargetWorkHandle) (reviewed : Reviewed)
    (native : isNative arguments.handoff.terminal = true)
    (measured : isUnreviewed arguments.handoff.terminal = false) :
    Total (verifyTerminal budget digest arguments.handoff finalHandle reviewed) := by
  unfold verifyTerminal
  cases terminal : arguments.handoff.terminal with
  | closure closure =>
    simp only [terminal, isNative, isUnreviewed, Bool.and_eq_false_iff] at native measured
    cases review : closure.resultReview with
    | none => simp [native, review] at measured
    | some record =>
      refine total_check ?_ raisesOnly_pure
      simp only [verifyResult, review]
      refine total_check (total_validateResultReview _ _ _ _ _ _) ?_
      iterate 3 refine total_check (total_require (by decide) _) ?_
      exact total_require (by decide) _
  | blocker blocker => exact total_validateTerminalBlocker _ _
  | barrier barrier => exact total_check (total_requireRef _ _) raisesOnly_pure
  | disposition _ => exact raisesOnly_error.mpr (by decide)

/-- A native handoff comes to its result review once everything else is replayed. -/
theorem validateNative_eq_error (unreviewed : isUnreviewed arguments.handoff.terminal = true)
    (replayed : IsReplayed budget digest arguments) :
    validateNative budget digest arguments manifest = .error attributeError := by
  obtain ⟨recovering, recovered, exhausted⟩ := replayed.recoveries
  obtain ⟨reviewed, reviews⟩ := replayed.reviews
  obtain ⟨stopped, stops, preregistered, verified⟩ := replayed.stops
  have absent (handle : TargetWorkHandle) :
      verifyTerminal budget digest arguments.handoff handle reviewed = .error attributeError := by
    unfold verifyTerminal
    cases terminal : arguments.handoff.terminal with
    | closure closure =>
      simp only [terminal, isUnreviewed, Bool.and_eq_true, Option.isNone_iff_eq_none] at unreviewed
      simp only [verifyResult, unreviewed.2]
      rfl
    | _ => simp [terminal, isUnreviewed] at unreviewed
  simp only [validateNative, require, replayed.scopes, replayed.handles, recovered, exhausted, reviews, stops,
    replayed.current, verified, absent, decide_true, List.isEmpty_nil, if_true, bind, Except.bind]

theorem total_validateNative_iff (complete : arguments.handoff.nativeComplete = true)
    (native : isNative arguments.handoff.terminal = true) (started : verifyStart arguments = .ok ()) :
    Total (validateNative budget digest arguments manifest) ↔
      (isUnreviewed arguments.handoff.terminal = true → ¬ IsReplayed budget digest arguments) := by
  constructor
  · intro total unreviewed replayed
    exact (total _ (validateNative_eq_error unreviewed replayed)).2 rfl
  · intro safe
    refine raisesOnly_check_iff.mpr ⟨total_require (by decide) _, fun scopes => ?_⟩
    replace scopes := of_decide_eq_true (require_eq_ok_iff.mp scopes)
    refine raisesOnly_check_iff.mpr ⟨total_replayHistory, fun handles => ?_⟩
    refine raisesOnly_bind_iff.mpr ⟨total_replayNative complete scopes, fun recovering recovered => ?_⟩
    refine raisesOnly_check_iff.mpr ⟨total_require (by decide) _, fun exhausted => ?_⟩
    refine raisesOnly_bind_iff.mpr
      ⟨raisesOnly_foldlM fun _ _ _ => total_collectReview _ _ _, fun reviewed reviews => ?_⟩
    refine raisesOnly_bind_iff.mpr ⟨total_replayStops _, fun stopped stops => ?_⟩
    refine raisesOnly_check_iff.mpr ⟨total_require (by decide) _, fun current => ?_⟩
    refine raisesOnly_bind_iff.mpr
      ⟨raisesOnly_foldlM fun _ _ _ => total_verifyStop _ _ _, fun preregistered verified => ?_⟩
    have measured : isUnreviewed arguments.handoff.terminal = false := by
      refine Bool.eq_false_iff.mpr fun unreviewed => safe unreviewed ?_
      exact ⟨started, scopes, handles,
        ⟨recovering, recovered, List.isEmpty_iff.mp (require_eq_ok_iff.mp exhausted)⟩, ⟨reviewed, reviews⟩,
        ⟨stopped, stops, preregistered, verified⟩, require_eq_ok_iff.mp current⟩
    refine total_bind (total_verifyTerminal _ _ native measured) fun evidence => ?_
    exact total_check (total_require (by decide) _) (total_announceNative _)

/-! ### The handoff as a whole -/

/-- A native handoff that is accepted is complete. -/
theorem nativeComplete_of_validated {handoff : TargetRunHandoff} (native : isNative handoff.terminal = true)
    (validated : validateTargetRunHandoff budget digest handoff = .ok manifest) :
    handoff.nativeComplete = true := by
  obtain ⟨_, _, validated⟩ := bind_eq_ok_iff.mp validated
  obtain ⟨complete, _⟩ := check_then_eq_ok_iff.mp validated
  cases terminal : handoff.terminal with
  | disposition _ => simp [terminal, isNative] at native
  | closure closure =>
    simp only [terminal, isNative, Option.isNone_iff_eq_none] at native
    simpa only [verifyComplete, terminal, native, require_eq_ok_iff] using complete
  | _ => simpa only [verifyComplete, terminal, require_eq_ok_iff] using complete

/-- Only a Target that was never started has no handle. -/
theorem handleHistory_eq_nil_iff {handoff : TargetRunHandoff}
    (validated : validateTargetRunHandoff budget digest handoff = .ok manifest) :
    handoff.handleHistory = [] ↔ isNotStarted handoff.terminal = true := by
  have complete : verifyComplete budget handoff = .ok () := by
    obtain ⟨_, _, validated⟩ := bind_eq_ok_iff.mp validated
    exact (check_then_eq_ok_iff.mp validated).1
  have started (native : isNative handoff.terminal = true) : handoff.handleHistory ≠ [] := by
    have complete := nativeComplete_of_validated native validated
    simp only [TargetRunHandoff.nativeComplete, Bool.and_eq_true, Bool.not_eq_true',
      List.isEmpty_eq_false_iff] at complete
    exact complete.1.1
  cases terminal : handoff.terminal with
  | disposition disposition =>
    simp only [verifyComplete, terminal, check_then_eq_ok_iff, require_eq_ok_iff,
      TargetRunHandoff.goalWorkComplete] at complete
    replace complete := complete.2
    split_ifs at complete with never
    · simp only [Bool.and_eq_true, List.isEmpty_iff] at complete
      simp [isNotStarted, never, complete.1.1.1.1]
    · simp only [Bool.and_eq_true, Bool.not_eq_true', List.isEmpty_eq_false_iff] at complete
      simp [isNotStarted, never, complete.1.1.1.1]
  | closure closure =>
    cases root : closure.rootCompletionReceipt with
    | none => simp [isNotStarted, started (by simp [terminal, isNative, root])]
    | some receipt =>
      simp only [verifyComplete, terminal, root, check_then_eq_ok_iff, require_eq_ok_iff,
        TargetRunHandoff.rootComplete, Bool.and_eq_true] at complete
      refine iff_of_false (fun empty => ?_) (by simp [isNotStarted])
      simp [empty] at complete
  | blocker _ => simp [isNotStarted, started (by simp [terminal, isNative])]
  | barrier _ => simp [isNotStarted, started (by simp [terminal, isNative])]

theorem total_verifyStart_iff :
    Total (verifyStart arguments) ↔ arguments.handoff.handleHistory ≠ [] := by
  unfold verifyStart
  split
  · rename_i empty
    exact iff_of_false (fun total => (raisesOnly_error.mp total).1 rfl) (fun started => started empty)
  · rename_i first rest history
    exact iff_of_true (total_require (by decide) _) (by simp [history])

theorem total_replay_iff (validated : validateTargetRunHandoff budget digest arguments.handoff = .ok manifest)
    (started : verifyStart arguments = .ok ()) :
    Total (replay budget digest arguments manifest) ↔
      (isUnreviewed arguments.handoff.terminal = true → ¬ IsReplayed budget digest arguments) := by
  have native (native : isNative arguments.handoff.terminal = true) :
      Total (validateNative budget digest arguments manifest) ↔
        (isUnreviewed arguments.handoff.terminal = true → ¬ IsReplayed budget digest arguments) :=
    total_validateNative_iff (nativeComplete_of_validated native validated) native started
  unfold replay
  cases terminal : arguments.handoff.terminal with
  | disposition disposition =>
    refine iff_of_true ?_ (by simp [isUnreviewed])
    exact total_check (total_require (by decide) _) (total_validateGoalWorkCancellation disposition)
  | closure closure =>
    cases root : closure.rootCompletionReceipt with
    | none => simpa [terminal, root] using native (by simp [terminal, isNative, root])
    | some receipt =>
      refine iff_of_true ?_ (by simp [isUnreviewed, root])
      simpa [root] using total_validateTargetRootCompletion closure receipt
  | blocker _ => simpa [terminal] using native (by simp [terminal, isNative])
  | barrier _ => simpa [terminal] using native (by simp [terminal, isNative])

/-- What is left of the check once a handoff is received. -/
theorem validateTargetRunHandoffNotice_of_received
    (accepted : validateTargetRunHandoff budget digest arguments.handoff = .ok manifest)
    (notice : validateTargetWorkNotice budget arguments.notice = .ok ())
    (handle : arguments.validateHandle budget arguments.initialHandle = .ok ()) :
    validateTargetRunHandoffNotice budget digest arguments =
      (verifyStart arguments >>= fun _ => replay budget digest arguments manifest >>=
        fun _ => pure manifest) := by
  simp only [validateTargetRunHandoffNotice, accepted, notice, handle]
  rfl

/-- Both checks raise errors of the protocol only exactly when a handoff that is received is not of a Target
that was never started, and where it is of a measured result without a review, something else is refused
first. -/
theorem handoff_total_iff (budget : Budget) (digest : String → String) (arguments : ReplayArguments) :
    Total (validateTargetRunHandoff budget digest arguments.handoff) ∧
        Total (validateTargetRunHandoffNotice budget digest arguments) ↔
      (IsReceived budget digest arguments → isNotStarted arguments.handoff.terminal = false ∧
        (isUnreviewed arguments.handoff.terminal = true → ¬ IsReplayed budget digest arguments)) := by
  rw [and_iff_right (total_validateTargetRunHandoff _)]
  constructor
  · rintro total ⟨⟨manifest, accepted⟩, notice, handle⟩
    rw [validateTargetRunHandoffNotice_of_received accepted notice handle] at total
    obtain ⟨start, later⟩ := raisesOnly_check_iff.mp total
    have never := (handleHistory_eq_nil_iff accepted).not.mp (total_verifyStart_iff.mp start)
    refine ⟨Bool.eq_false_iff.mpr never, fun unreviewed replayed => ?_⟩
    have replay := (raisesOnly_check_iff.mp (later replayed.started)).1
    exact (total_replay_iff accepted replayed.started).mp replay unreviewed replayed
  · intro safe
    refine raisesOnly_bind_iff.mpr ⟨total_validateTargetRunHandoff _, fun manifest accepted => ?_⟩
    refine raisesOnly_check_iff.mpr ⟨total_validateTargetWorkNotice _, fun notice => ?_⟩
    refine raisesOnly_check_iff.mpr ⟨total_validateHandle _, fun handle => ?_⟩
    obtain ⟨never, reviewed⟩ := safe ⟨⟨manifest, accepted⟩, notice, handle⟩
    have started := (handleHistory_eq_nil_iff accepted).not.mpr (Bool.eq_false_iff.mp never)
    refine raisesOnly_check_iff.mpr ⟨total_verifyStart_iff.mpr started, fun start => ?_⟩
    exact total_check ((total_replay_iff accepted start).mpr reviewed) raisesOnly_pure

/-! ### A Target that was never started -/

def notStartedDisposition : GoalWorkDisposition where
  disposition := "not_started"
  targetRef := "target"
  targetRunRef := "run"
  executionAttemptRef := none
  executionFenceRef := none
  terminalFactRef := "intent"
  goalWorkIntentRef := "intent"
  goalRevisionRef := "revision"
  goalRevisionReceiptRef := "receipt"
  goalRevisionReceiptHash := String.ofList (List.replicate 64 '0')
  reason := "reason"
  retentionKind := none
  custodyRefs := []

def notStartedHandoff : TargetRunHandoff where
  handleHistory := []
  codeReviewPreflights := []
  stopDecisions := []
  recoveredBlockers := []
  recoveryEvidenceRefs := []
  terminal := .disposition notStartedDisposition

def notStartedNotice : TargetWorkNotice where
  noticeRef := "notice"
  sequence := 1
  terminalTransitionRef := "transition"
  kind := "semantic_change_required"
  targetRef := "target"
  targetRunRef := "run"
  executionAttemptRef := none
  executionFenceRef := none
  terminalFactRef := "intent"
  handoffManifestRef := "manifest"
  handoffManifestSha256 := String.ofList (List.replicate 64 '0')
  compactReason := "reason"
  pendingObligationRefs := []
  payloadSha256 := String.ofList (List.replicate 64 '0')

def notStartedArguments : ReplayArguments :=
  { returnedArguments "" "" with handoff := notStartedHandoff, notice := notStartedNotice }

private theorem notStarted_received (digest : String → String) :
    IsReceived .standard digest notStartedArguments := by
  obtain ⟨serialized, passed⟩ := @Value.validateClosed_of_light .standard bundleHandoffMaxSerializedBytes
    "TargetRunHandoff" notStartedHandoff.value (by decide +kernel) (by decide +kernel) (by decide +kernel)
  have complete : verifyComplete .standard notStartedHandoff = .ok () := by decide
  obtain ⟨text, noticed⟩ := @Value.validateClosed_of_light .standard bundleNoticeMaxSerializedBytes
    "TargetWorkNotice" notStartedNotice.value (by decide +kernel) (by decide +kernel) (by decide +kernel)
  refine ⟨⟨digest serialized, bind_eq_ok_iff.mpr ⟨serialized, passed, check_then_eq_ok_iff.mpr
    ⟨complete, rfl⟩⟩⟩, ?_, returnedHandles_valid _ List.mem_cons_self⟩
  exact check_then_eq_ok_iff.mpr ⟨bind_eq_ok_iff.mpr ⟨text, noticed, rfl⟩, by decide⟩

/-- The check of the notice of a Target that was never started raises an `IndexError`, here with an empty digest. -/
theorem notStarted_raises :
    validateTargetRunHandoffNotice .standard (fun _ => "") notStartedArguments = .error indexError ∧
      ¬ Total (validateTargetRunHandoffNotice .standard (fun _ => "") notStartedArguments) := by
  obtain ⟨⟨manifest, accepted⟩, notice, handle⟩ := notStarted_received fun _ => ""
  have raised := validateTargetRunHandoffNotice_of_received accepted notice handle
  have start : verifyStart notStartedArguments = .error indexError := rfl
  rw [start] at raised
  exact ⟨raised, fun total => (total _ raised).1 rfl⟩

end TargetRun

end MetaResearch.Bundle

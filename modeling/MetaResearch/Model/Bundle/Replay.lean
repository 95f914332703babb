import MetaResearch.Model.Bundle.TargetRun

/-! # The replay of a handoff

`validate_target_run_handoff_notice`: a handoff is replayed along its handle history, in one of three
ways that its terminal selects.
-/

namespace MetaResearch.Bundle

namespace TargetRun

/-! ### Arguments -/

/-- The arguments of `validate_target_run_handoff_notice` -/
structure ReplayArguments where
  handoff : TargetRunHandoff
  notice : TargetWorkNotice
  frontier : TargetFrontierEntry
  reconfirmedFrontier : TargetFrontierEntry
  initialHandle : TargetWorkHandle
  spec : TargetSpec
  expectedReviewScopes : List CodeReviewScope
  expectedInitialImplementationRevisionRef : String
  expectedInitialCodeChanged : Bool
  semanticBarrierFactRef : Option String := none

namespace ReplayArguments

def inputs (arguments : ReplayArguments) : AcceptedInputs :=
  TargetWorkHandle.acceptedInputs arguments.initialHandle

/-- The check of each handle of the history. -/
def validateHandle (arguments : ReplayArguments) (budget : Budget) (handle : TargetWorkHandle) :
    Except String Unit :=
  validateTargetWorkHandle budget arguments.initialHandle.targetRef arguments.inputs handle

def validateFrontier (arguments : ReplayArguments) (budget : Budget) : Except String Unit :=
  validateTargetFrontierEntry budget arguments.initialHandle.targetRef arguments.spec arguments.inputs
    arguments.frontier

/-- The evidence of a recovery that only executes again. -/
def retry (arguments : ReplayArguments) (budget : Budget) (digest : String → String)
    (blocker : TechnicalBlocker) (oldHandle replacementHandle : TargetWorkHandle) :
    Except String (List String) :=
  validateTechnicalBlockerRecovery budget digest arguments.inputs blocker oldHandle replacementHandle
    none none none

end ReplayArguments

def indexError : String := "tuple index out of range"

/-! ### Cancelled Goal work -/

/-- The loop over the handles after the first one, with the evidence that is required so far. -/
def replayCancelledFrom (budget : Budget) (digest : String → String) (arguments : ReplayArguments)
    (previous : TargetWorkHandle) : List TechnicalBlocker → List TargetWorkHandle → List String →
      Except String (List String)
  | _, [], evidence => .ok evidence
  | [], _ :: _, _ => .error indexError
  | blocker :: blockers, handle :: rest, evidence => do
    arguments.validateHandle budget handle
    let transition ← arguments.retry budget digest blocker previous handle
    replayCancelledFrom budget digest arguments handle blockers rest (evidence ++ transition)

def replayCancelled (budget : Budget) (digest : String → String) (arguments : ReplayArguments) :
    Except String (List String) :=
  match arguments.handoff.handleHistory with
  | [] => .ok []
  | first :: rest => do
    arguments.validateHandle budget first
    replayCancelledFrom budget digest arguments first arguments.handoff.recoveredBlockers rest []

/-- The frontier is terminal at the final handle and has not moved. -/
def isSettled (arguments : ReplayArguments) (finalHandle : TargetWorkHandle) : Bool :=
  arguments.frontier.state = "terminal" && arguments.frontier.currentHandle = finalHandle &&
    arguments.reconfirmedFrontier = arguments.frontier

/-- The notice and the frontier say the terminal fact of the final handle, under the digests. -/
def isAnnounced (digest : String → String) (arguments : ReplayArguments) (finalHandle : TargetWorkHandle)
    (manifest : String) (expected : NoticeProjection) : Except String Bool := do
  let payload ← noticePayloadDigest digest arguments.notice
  pure (expected.isSaid arguments.notice &&
    arguments.frontier.terminalFactRef = some expected.terminalFactRef &&
    isNoticeOf arguments.notice finalHandle &&
    arguments.notice.handoffManifestSha256 = manifest && arguments.notice.payloadSha256 = payload)

/-- What follows the replay of the handles. -/
def announce (budget : Budget) (digest : String → String) (arguments : ReplayArguments)
    (finalHandle : TargetWorkHandle) (manifest changed inconsistent : String) : Except String Unit := do
  arguments.validateFrontier budget
  require (isSettled arguments finalHandle) changed
  let expected ← terminalNoticeProjection arguments.handoff.terminal none
  let announced ← isAnnounced digest arguments finalHandle manifest expected
  require announced inconsistent

/-- `_validate_goal_work_cancellation_handoff_notice` -/
def validateGoalWorkCancellation (budget : Budget) (digest : String → String)
    (arguments : ReplayArguments) (disposition : GoalWorkDisposition) (manifest : String) :
    Except String Unit := do
  let handoff := arguments.handoff
  require (disposition.disposition = "cancelled" && arguments.expectedReviewScopes.isEmpty &&
      handoff.handleHistory.head? = some arguments.initialHandle &&
      handoff.codeReviewPreflights.isEmpty && handoff.stopDecisions.isEmpty && handoff.joined)
    "Target cancellation handoff contains invalid execution history"
  let evidence ← replayCancelled budget digest arguments
  require (evidence.all (handoff.recoveryEvidenceRefs.contains ·))
    "Target cancellation recovery evidence is incomplete"
  let finalHandle := handoff.handleHistory.getLastD arguments.initialHandle
  require (handoff.terminal.isOf finalHandle) "Target cancellation points at a stale final handle"
  announce budget digest arguments finalHandle manifest
    "Target cancellation frontier changed during handoff validation"
    "Target cancellation notice is inconsistent with its handoff"

/-! ### Identities along the history -/

/-- The identities that a history has retired. -/
structure Retired where
  runs : List String
  sessions : List String
  attempts : List String
  fences : List String

namespace Retired

def empty : Retired := ⟨[], [], [], []⟩

/-- Session, attempt and fence of a handle that is left behind. -/
def add (retired : Retired) (handle : TargetWorkHandle) : Retired :=
  { retired with
    sessions := handle.rootSessionRef :: retired.sessions
    attempts := handle.executionAttemptRef :: retired.attempts
    fences := handle.executionFenceRef :: retired.fences }

/-- The run too, if it is left behind. -/
def addRun (retired : Retired) (previous handle : TargetWorkHandle) : Retired :=
  if handle.targetRunRef ≠ previous.targetRunRef then
    { retired with runs := previous.targetRunRef :: retired.runs }
  else retired

/-- The handle carries no session, attempt or fence that was retired. -/
def isFresh (retired : Retired) (handle : TargetWorkHandle) : Bool :=
  !retired.sessions.contains handle.rootSessionRef &&
    !retired.attempts.contains handle.executionAttemptRef &&
    !retired.fences.contains handle.executionFenceRef

/-- Nor a run. -/
def isFreshRun (retired : Retired) (handle : TargetWorkHandle) : Bool :=
  !retired.runs.contains handle.targetRunRef && retired.isFresh handle

end Retired

/-! ### Root completion -/

def rootFresh (arguments : ReplayArguments) (retired : Retired) (handle : TargetWorkHandle) : Bool :=
  handle.targetRunRef = arguments.initialHandle.targetRunRef && retired.isFresh handle

/-- The loop over the handles after the first one. -/
def replayRootFrom (budget : Budget) (digest : String → String) (arguments : ReplayArguments)
    (previous : TargetWorkHandle) (retired : Retired) :
    List TechnicalBlocker → List TargetWorkHandle → List String → Except String (List String)
  | _, [], evidence => .ok evidence
  | [], _ :: _, _ => .error indexError
  | blocker :: blockers, handle :: rest, evidence => do
    arguments.validateHandle budget handle
    require (rootFresh arguments retired handle) "Target root recovery reused a retired identity"
    let transition ← arguments.retry budget digest blocker previous handle
    replayRootFrom budget digest arguments handle (retired.add previous) blockers rest
      (evidence ++ transition)

def replayRoot (budget : Budget) (digest : String → String) (arguments : ReplayArguments) :
    Except String (List String) :=
  match arguments.handoff.handleHistory with
  | [] => .ok []
  | first :: rest => do
    arguments.validateHandle budget first
    require (rootFresh arguments .empty first) "Target root recovery reused a retired identity"
    replayRootFrom budget digest arguments first .empty arguments.handoff.recoveredBlockers rest []

/-- `_validate_target_root_completion_handoff_notice` -/
def validateTargetRootCompletion (budget : Budget) (digest : String → String)
    (arguments : ReplayArguments) (closure : AcceptedMeasurementClosure) (receipt : ReceiptProof)
    (manifest : String) : Except String Unit := do
  let handoff := arguments.handoff
  require (handoff.handleHistory.head? = some arguments.initialHandle &&
      handoff.codeReviewPreflights.isEmpty && handoff.stopDecisions.isEmpty &&
      arguments.expectedReviewScopes.isEmpty && closure.codeReview.isNone && closure.resultReview.isNone &&
      closure.arExecutionReceipt = receipt && handoff.joined && isSortedSet handoff.recoveryEvidenceRefs)
    "Target root completion handoff contains invalid execution history"
  let evidence ← replayRoot budget digest arguments
  require (evidence.all (handoff.recoveryEvidenceRefs.contains ·))
    "Target root recovery evidence is incomplete"
  let finalHandle := handoff.handleHistory.getLastD arguments.initialHandle
  validateReceipt budget receipt finalHandle.executionAttemptRef "Target root completion receipt"
  require (handoff.terminal.isOf finalHandle &&
      (closure.formalMeasurementAccepted || closure.metricValues.isEmpty) &&
      closure.currentnessKnown && closure.current)
    "Target root completion points at a stale final handle"
  announce budget digest arguments finalHandle manifest
    "authoritative Target root frontier changed during handoff validation"
    "Target root completion notice is inconsistent with its handoff"

/-! ### The general history -/

/-- The loop over the handles after the first one. -/
def replayHistoryFrom (budget : Budget) (arguments : ReplayArguments) (previous : TargetWorkHandle)
    (retired : Retired) : List TargetWorkHandle → Except String Unit
  | [] => .ok ()
  | handle :: rest => do
    arguments.validateHandle budget handle
    require (retired.isFreshRun handle) "TargetRun recovery revived a retired identity (A->B->A)"
    let retired := (retired.add previous).addRun previous handle
    require (retired.isFreshRun handle) "TargetRun recovery reused a retired identity"
    replayHistoryFrom budget arguments handle retired rest

def replayHistory (budget : Budget) (arguments : ReplayArguments) : Except String Unit :=
  match arguments.handoff.handleHistory with
  | [] => .ok ()
  | first :: rest => do
    arguments.validateHandle budget first
    require (Retired.empty.isFreshRun first)
      "TargetRun recovery revived a retired identity (A->B->A)"
    replayHistoryFrom budget arguments first .empty rest

/-- What the loop over the recovered blockers has reached: the preflights that are left with their
scopes, the current preflight, the evidence, and the receipts that are consumed. -/
structure Recovering where
  remaining : List (TargetExecutionPreflight × CodeReviewScope)
  current : TargetExecutionPreflight
  evidence : List String
  consumed : List String

/-- The preflight that a recovery takes, if it changes code. -/
def takePreflight (blocker : TechnicalBlocker) (recovering : Recovering) :
    Except String (Option (TargetExecutionPreflight × CodeReviewScope) × Recovering) :=
  if blocker.replacementImplementationRevisionRef.isSome then
    match recovering.remaining with
    | [] => .error "code-changing recovery lacks its ordered preflight"
    | first :: rest => .ok (some first, { recovering with remaining := rest })
  else .ok (none, recovering)

/-- The receipt of a recovery is consumed once. -/
def consume (blocker : TechnicalBlocker) (consumed : List String) : Except String (List String) :=
  match blocker.recoveryReceipt with
  | none => .error "recovered blocker lacks a recovery receipt"
  | some receipt => do
    require (!consumed.contains receipt.receiptRef) "TargetRun recovery receipt was replayed"
    pure (receipt.receiptRef :: consumed)

/-- One round of the loop. -/
def replayRecovery (budget : Budget) (digest : String → String) (arguments : ReplayArguments)
    (oldHandle replacementHandle : TargetWorkHandle) (recovering : Recovering)
    (blocker : TechnicalBlocker) : Except String Recovering := do
  let taken ← takePreflight blocker recovering
  let transition ← validateTechnicalBlockerRecovery budget digest arguments.inputs blocker oldHandle
    replacementHandle (some recovering.current) (taken.1.map Prod.fst) (taken.1.map Prod.snd)
  let consumed ← consume blocker recovering.consumed
  pure { taken.2 with
    current := (taken.1.map Prod.fst).getD recovering.current
    evidence := recovering.evidence ++ transition
    consumed := consumed }

/-- The loop over the recovered blockers, each between two handles. -/
def replayRecoveries (budget : Budget) (digest : String → String) (arguments : ReplayArguments) :
    List TechnicalBlocker → List TargetWorkHandle → Recovering → Except String Recovering
  | [], _, recovering => .ok recovering
  | blocker :: blockers, oldHandle :: replacementHandle :: rest, recovering => do
    let recovering ← replayRecovery budget digest arguments oldHandle replacementHandle recovering blocker
    replayRecoveries budget digest arguments blockers (replacementHandle :: rest) recovering
  | _ :: _, _, _ => .error indexError

/-! ### Reviews and stops -/

/-- The identities of the reviews seen so far. -/
structure Reviewed where
  revisionRefs : List String
  reviewRefs : List String
  reviewerSessions : List String
  reviewerSpawns : List String

def Reviewed.empty : Reviewed := ⟨[], [], [], []⟩

/-- One round of the loop over the preflights. -/
def collectReview (rootSessions : List String) (reviewed : Reviewed)
    (preflight : TargetExecutionPreflight) : Except String Reviewed := do
  require (!reviewed.revisionRefs.contains preflight.implementationRevisionRef)
    "TargetRun repeats a reviewed Implementation Revision"
  let reviewed := { reviewed with
    revisionRefs := preflight.implementationRevisionRef :: reviewed.revisionRefs }
  let review := preflight.codeReview
  if !review.codeChanged then .ok reviewed
  else do
    require (!review.reviewerSessionRef.any (rootSessions.contains ·))
      "code reviewer reused a Target root Session identity"
    require (!review.reviewRef.any (reviewed.reviewRefs.contains ·)) "TargetRun reused a review record"
    require (!review.reviewerSessionRef.any (reviewed.reviewerSessions.contains ·))
      "TargetRun reused a reviewer Session"
    require (!review.reviewerSpawnEvidenceRef.any (reviewed.reviewerSpawns.contains ·))
      "TargetRun reused a reviewer spawn"
    pure { reviewed with
      reviewRefs := review.reviewRef.toList ++ reviewed.reviewRefs
      reviewerSessions := review.reviewerSessionRef.toList ++ reviewed.reviewerSessions
      reviewerSpawns := review.reviewerSpawnEvidenceRef.toList ++ reviewed.reviewerSpawns }

/-- The handles that a stop may be about, with their places. -/
def matchesOf (history : List TargetWorkHandle) (stop : StopDecisionProof) :
    List (TargetWorkHandle × ℕ) :=
  history.zipIdx.filter fun entry => stop.targetRef = entry.1.targetRef &&
    stop.targetRunRef = entry.1.targetRunRef && stop.executionAttemptRef = entry.1.executionAttemptRef

/-- What the loop over the stops has recorded: the subjects, the subject of each receipt, and the stops
with the places of their handles. -/
structure Stopped where
  subjects : List (String × String × String)
  receiptSubjects : List (String × String)
  verified : List (StopDecisionProof × ℕ)

def Stopped.empty : Stopped := ⟨[], [], []⟩

/-- One round of the loop over the stops. -/
def collectStop (budget : Budget) (history : List TargetWorkHandle) (stopped : Stopped)
    (stop : StopDecisionProof) : Except String Stopped :=
  match matchesOf history stop with
  | [(handle, index)] => do
    validateStopDecision budget stop handle
    let subject := (stop.targetRef, stop.targetRunRef, stop.executionAttemptRef)
    require (!stopped.subjects.contains subject)
      "one ExecutionAttempt has multiple terminal StopDecisions"
    require ((stopped.receiptSubjects.lookup stop.terminationReceipt.receiptRef).all
        (· = stop.decisionRef))
      "one termination receipt was rebound to two StopDecisions"
    pure {
      subjects := subject :: stopped.subjects
      receiptSubjects := (stop.terminationReceipt.receiptRef, stop.decisionRef) :: stopped.receiptSubjects
      verified := stopped.verified ++ [(stop, index)] }
  | _ => .error "StopDecision is not bound to exactly one handoff handle"

/-- An engineering stop is fenced, by a recovery or by a terminal blocker. -/
def verifyEngineeringStop (handoff : TargetRunHandoff) (index : ℕ) : Except String Unit :=
  if index < handoff.handleHistory.length - 1 then
    require ((handoff.recoveredBlockers[index]?).any (·.oldSessionFenced))
      "engineering stop recovery lacks its trusted fence"
  else
    match handoff.terminal with
    | .blocker blocker =>
      require blocker.oldSessionFenced "engineering stop cannot proceed directly to a result terminal"
    | _ => .error "engineering stop cannot proceed directly to a result terminal"

/-- The accepted result is of the protocol and the attempt of a preregistered stop. -/
def verifyStoppedResult (terminal : TargetTerminal) (stop : StopDecisionProof) : Except String Unit :=
  match terminal with
  | .closure closure =>
    require (some closure.protocolVersionRef = stop.protocolVersionRef &&
        closure.executionAttemptRef = stop.executionAttemptRef)
      "preregistered stop and accepted result differ in protocol or attempt"
  | _ => .ok ()

/-- Protocol and attempt of the preregistered stops so far. -/
abbrev Preregistered := Option String × Option String

/-- One round of the loop over the verified stops. -/
def verifyStop (handoff : TargetRunHandoff) (preregistered : Preregistered)
    (entry : StopDecisionProof × ℕ) : Except String Preregistered :=
  if entry.1.stopBasis = "engineering_anomaly" then do
    verifyEngineeringStop handoff entry.2
    pure preregistered
  else if entry.1.stopBasis = "preregistered_rule" then do
    require (preregistered.1.isNone || preregistered.1 = entry.1.protocolVersionRef)
      "TargetRun mixes preregistered stop ProtocolVersions"
    require (preregistered.2.all (· = entry.1.executionAttemptRef))
      "TargetRun mixes preregistered stop ExecutionAttempts"
    verifyStoppedResult handoff.terminal entry.1
    pure (entry.1.protocolVersionRef, some entry.1.executionAttemptRef)
  else .ok preregistered

/-! ### The terminal fact -/

/-- The result of a native closure is reviewed by a session of its own. -/
def verifyResult (budget : Budget) (handoff : TargetRunHandoff) (finalHandle : TargetWorkHandle)
    (reviewed : Reviewed) (closure : AcceptedMeasurementClosure) : Except String Unit :=
  match closure.resultReview with
  | none => .error "'NoneType' object has no attribute 'reviewed_evaluation_attempt_ref'"
  | some review => do
    validateResultReview budget review finalHandle.rootSessionRef closure.evaluationAttemptRef
      closure.metricResultRef closure.assetManifestRef handoff.codeReviewPreflights
    require (!(handoff.handleHistory.map (·.rootSessionRef)).contains review.reviewerSessionRef)
      "result reviewer reused a Target root Session identity"
    require (!reviewed.reviewRefs.contains review.reviewRef)
      "result reviewer reused a code-review record identity"
    let last := handoff.codeReviewPreflights.getLast?
    require (last.any (·.implementationRevisionRef = closure.implementationRevisionRef))
      "executed revision differs from the current reviewed preflight"
    require (last.map (·.codeReview) = closure.codeReview)
      "result closure carries stale code-review evidence"

/-- The evidence that the terminal fact adds. -/
def verifyTerminal (budget : Budget) (digest : String → String) (handoff : TargetRunHandoff)
    (finalHandle : TargetWorkHandle) (reviewed : Reviewed) : Except String (List String) :=
  match handoff.terminal with
  | .closure closure => do
    verifyResult budget handoff finalHandle reviewed closure
    pure []
  | .blocker blocker => validateTerminalBlocker budget digest blocker finalHandle
  | .barrier barrier => do
    requireRef barrier.reason "SemanticBarrier reason"
    pure []
  | .disposition _ => .error "TargetRun handoff has an unknown terminal type"

/-- The notice and the frontier of a native handoff. -/
def announceNative (budget : Budget) (digest : String → String) (arguments : ReplayArguments)
    (finalHandle : TargetWorkHandle) (manifest : String) : Except String Unit := do
  arguments.validateFrontier budget
  require (arguments.frontier.state = "terminal" && arguments.frontier.currentHandle = finalHandle)
    "authoritative frontier does not match the terminal handoff handle"
  require (arguments.reconfirmedFrontier = arguments.frontier)
    "Target frontier changed during handoff validation"
  let expected ← terminalNoticeProjection arguments.handoff.terminal arguments.semanticBarrierFactRef
  require (expected.isSaid arguments.notice) "TargetWorkNotice and terminal fact are inconsistent"
  require (arguments.frontier.terminalFactRef = some expected.terminalFactRef)
    "TargetWorkNotice disagrees with the authoritative terminal fact"
  require (isNoticeOf arguments.notice finalHandle) "TargetWorkNotice points at a stale handoff handle"
  require (arguments.notice.handoffManifestSha256 = manifest)
    "TargetWorkNotice handoff digest does not match the manifest"
  let payload ← noticePayloadDigest digest arguments.notice
  require (arguments.notice.payloadSha256 = payload) "TargetWorkNotice payload hash is invalid"

/-- The recoveries of a native handoff, after the initial preflight. -/
def replayNative (budget : Budget) (digest : String → String) (arguments : ReplayArguments) :
    Except String Recovering :=
  match arguments.handoff.codeReviewPreflights.zip arguments.expectedReviewScopes with
  | [] => .error indexError
  | (initial, scope) :: remaining => do
    validateTargetExecutionPreflight budget digest arguments.initialHandle
      ⟨scope, arguments.expectedInitialImplementationRevisionRef, arguments.expectedInitialCodeChanged⟩
      initial
    replayRecoveries budget digest arguments arguments.handoff.recoveredBlockers
      arguments.handoff.handleHistory ⟨remaining, initial, [], []⟩

/-- The stops of a native handoff. -/
def replayStops (budget : Budget) (handoff : TargetRunHandoff) : Except String Stopped := do
  require (isSortedSet (handoff.stopDecisions.map (·.decisionRef)))
    "TargetRun stop decisions are duplicated or non-canonical"
  handoff.stopDecisions.foldlM (collectStop budget handoff.handleHistory) Stopped.empty

/-- A native handoff: a measured result, a blocker or a barrier. -/
def validateNative (budget : Budget) (digest : String → String) (arguments : ReplayArguments)
    (manifest : String) : Except String Unit := do
  let handoff := arguments.handoff
  require (arguments.expectedReviewScopes.length = handoff.codeReviewPreflights.length)
    "TargetRun handoff lacks exact authoritative review scopes"
  replayHistory budget arguments
  let recovering ← replayNative budget digest arguments
  require recovering.remaining.isEmpty "pure execution recovery introduced an extra review preflight"
  let reviewed ← handoff.codeReviewPreflights.foldlM
    (collectReview (handoff.handleHistory.map (·.rootSessionRef))) Reviewed.empty
  let stopped ← replayStops budget handoff
  let finalHandle := handoff.handleHistory.getLastD arguments.initialHandle
  require (handoff.terminal.isOf finalHandle) "Target terminal fact points at a stale final handle"
  let _ ← stopped.verified.foldlM (verifyStop handoff) (none, none)
  let evidence ← verifyTerminal budget digest handoff finalHandle reviewed
  require (sameSet handoff.recoveryEvidenceRefs (recovering.evidence ++ evidence))
    "TargetRun recovery evidence is not the exact handoff closure"
  announceNative budget digest arguments finalHandle manifest

/-! ### The handoff -/

/-- The replay that the terminal selects. -/
def replay (budget : Budget) (digest : String → String) (arguments : ReplayArguments)
    (manifest : String) : Except String Unit :=
  match arguments.handoff.terminal with
  | .closure closure =>
    match closure.rootCompletionReceipt with
    | some receipt => validateTargetRootCompletion budget digest arguments closure receipt manifest
    | none => validateNative budget digest arguments manifest
  | .disposition disposition => do
    require (disposition.disposition = "cancelled")
      "Target non-start disposition requires the non-start validator"
    validateGoalWorkCancellation budget digest arguments disposition manifest
  | _ => validateNative budget digest arguments manifest

/-- The history starts with the admitted handle. -/
def verifyStart (arguments : ReplayArguments) : Except String Unit :=
  match arguments.handoff.handleHistory with
  | [] => .error indexError
  | first :: _ => require (first = arguments.initialHandle)
      "TargetRun handoff does not start with the admitted handle"

/-- `validate_target_run_handoff_notice`, answering the digest -/
def validateTargetRunHandoffNotice (budget : Budget) (digest : String → String)
    (arguments : ReplayArguments) : Except String String := do
  let manifest ← validateTargetRunHandoff budget digest arguments.handoff
  validateTargetWorkNotice budget arguments.notice
  arguments.validateHandle budget arguments.initialHandle
  verifyStart arguments
  replay budget digest arguments manifest
  pure manifest

end TargetRun

end MetaResearch.Bundle

import MetaResearch.Model.Bundle.ClosedUnion

/-! # Records of accepted work

Typed records of the closed union, each with the run-time value that the validator visits: the records
of a report, and those of a handoff with its notice and its frontier.
-/

namespace MetaResearch.Bundle

structure StageRunRequest where
  requestRef : String
  formalPlanRef : String
  formalPlanContentHashRef : String
  typed : Bool
  currentnessKnown : Bool
  current : Bool
  rootExecutionFenceCurrent : Bool
deriving DecidableEq, Repr

structure CodeReviewRecord where
  codeChanged : Bool
  disposition : String
  candidateRevisionRef : String
  reviewedRevisionRef : Option String
  fixedBaseRef : Option String
  diffRef : Option String
  reviewRef : Option String
  reviewParentSessionRef : Option String
  reviewerSessionRef : Option String
  reviewerSpawnEvidenceRef : Option String
  unresolvedStandardsFindings : ℤ := 0
  unresolvedSpecFindings : ℤ := 0
deriving DecidableEq, Repr

structure RevisionEvidenceProof where
  evidenceRef : String
  subjectRevisionRef : String
deriving DecidableEq, Repr

structure ResultReviewRecord where
  reviewedEvaluationAttemptRef : String
  reviewedMetricResultRef : String
  reviewedAssetManifestRef : String
  reviewRef : String
  reviewParentSessionRef : String
  reviewerSessionRef : String
  reviewerSpawnEvidenceRef : String
  unresolvedFindings : ℤ := 0
deriving DecidableEq, Repr

structure CodeReviewScope where
  candidateRevisionBinding : ContentBindingProof
  targetSpecBinding : ContentBindingProof
  targetSpecAcceptanceReceipt : ReceiptProof
  formalPlanBinding : ContentBindingProof
  formalPlanAcceptanceReceipt : ReceiptProof
  experimentKeys : List String
  semanticDeltas : List String
  heldFixedBindings : List HeldFixedBinding
  acceptedInputRefs : List String
  reuseProvenanceRefs : List String
  repositoryStandardsRefs : List String
deriving DecidableEq, Repr

structure TargetExecutionPreflight where
  targetRef : String
  targetRunRef : String
  implementationRevisionRef : String
  implementationAcceptanceReceipt : ReceiptProof
  targetSpecAcceptanceReceipt : ReceiptProof
  candidateReadyEvidence : RevisionEvidenceProof
  selfCheckEvidence : List RevisionEvidenceProof
  reviewScope : CodeReviewScope
  codeReview : CodeReviewRecord
  codeReviewEvidenceBinding : Option ContentBindingProof
  codeReviewEvidenceReceipt : Option ReceiptProof
deriving DecidableEq, Repr

structure ProtocolAggregationProof where
  protocolVersionRef : String
  partKeys : List String
  aggregationRuleRef : String
  aggregationEvidenceBinding : ContentBindingProof
  aggregationEvidenceReceipt : ReceiptProof
deriving DecidableEq, Repr

structure ProtocolPart where
  partKey : String
  protocolVersionRef : String
deriving DecidableEq, Repr

structure ExecutionInputBindingProof where
  bindingRef : String
  subjectRef : String
  inputRefs : List String
  acceptanceReceipt : ReceiptProof
deriving DecidableEq, Repr

structure AcceptedMeasurementClosure where
  targetRef : String
  targetRunRef : String
  targetCommitRef : String
  experimentKeys : List String
  measurementUnitKey : String
  variantRunRef : String
  evaluationRef : String
  protocolVersionRef : String
  evaluationAttemptRef : Option String
  metricResultRef : Option String
  metricValues : List Value
  assetManifestRef : String
  executionAttemptRef : String
  executionFenceRef : String
  checkpointArtifactRefs : List String
  implementationRevisionRef : String
  heldFixedBindings : List HeldFixedBinding
  implementationProvenanceRefs : List String
  variantRunInputBinding : ExecutionInputBindingProof
  evaluationAttemptInputBinding : Option ExecutionInputBindingProof
  rmAssetReceipt : ReceiptProof
  arExecutionReceipt : ReceiptProof
  rgFormalMeasurementReceipt : Option ReceiptProof
  rgTargetCommitReceipt : ReceiptProof
  codeReview : Option CodeReviewRecord
  resultReview : Option ResultReviewRecord
  formalMeasurementAccepted : Bool
  currentnessKnown : Bool
  current : Bool
  rootCompletionReceipt : Option ReceiptProof := none
  protocolInternalParts : List ProtocolPart := []
  protocolAggregationProof : Option ProtocolAggregationProof := none

structure ExternalOperationReconciliation where
  operationRef : String
  receipt : ReceiptProof
  outcome : String
deriving DecidableEq, Repr

structure RouteDisposition where
  dispositionRef : String
  routeRef : String
  experimentKeys : List String
  outcome : String
  requiredChanges : List String
  evidenceRefs : List String
  externalReconciliations : List ExternalOperationReconciliation := []
deriving DecidableEq, Repr

structure SemanticBarrier where
  targetRef : String
  targetRunRef : String
  executionAttemptRef : String
  executionFenceRef : String
  experimentKeys : List String
  reason : String
  routeDispositions : List RouteDisposition
deriving DecidableEq, Repr

structure AcceptedInputAssetProof where
  assetRef : String
  rmAcceptanceReceipt : ReceiptProof
  rgRoleReceipt : ReceiptProof
deriving DecidableEq, Repr

structure TargetWorkHandle where
  targetRef : String
  targetRunRef : String
  rootSessionRef : String
  executionAttemptRef : String
  executionFenceRef : String
  executionInputBindingRef : String
  executionInputBindingReceipt : ReceiptProof
  acceptedInputTargetCommitRefs : List String
  acceptedInputAssetProofs : List AcceptedInputAssetProof
  recoverable : Bool
deriving DecidableEq, Repr

structure TargetFrontierEntry where
  targetRef : String
  targetSpecBinding : ContentBindingProof
  targetSpecAcceptanceReceipt : ReceiptProof
  stateRevision : ℤ
  state : String
  currentHandle : TargetWorkHandle
  terminalFactRef : Option String
  currentnessKnown : Bool
  current : Bool
deriving DecidableEq, Repr

structure StopDecisionProof where
  stopBasis : String
  decisionRef : String
  targetRef : String
  targetRunRef : String
  executionAttemptRef : String
  frozenRuleRef : Option String
  protocolVersionRef : Option String
  terminationReceipt : ReceiptProof
  processTreeDrained : Bool
deriving DecidableEq, Repr

structure TechnicalBlocker where
  targetRef : String
  targetRunRef : String
  executionAttemptRef : String
  executionFenceRef : String
  blockerRef : String
  blockerReceipt : ReceiptProof
  reason : String
  recoveryReady : Bool
  oldSessionFenced : Bool := false
  recoveryPackComplete : Bool := false
  recoveryReceipt : Option ReceiptProof := none
  replacementImplementationRevisionRef : Option String := none
  bundleDecisionRequired : Bool := false
  escalationScope : Option String := none
  pendingObligationRefs : List String := []
  escalationEvidence : Option ContentBindingProof := none
  escalationReceipt : Option ReceiptProof := none
deriving DecidableEq, Repr

structure GoalWorkDisposition where
  disposition : String
  targetRef : String
  targetRunRef : String
  executionAttemptRef : Option String
  executionFenceRef : Option String
  terminalFactRef : String
  goalWorkIntentRef : String
  goalRevisionRef : String
  goalRevisionReceiptRef : String
  goalRevisionReceiptHash : String
  reason : String
  retentionKind : Option String
  custodyRefs : List String
deriving DecidableEq, Repr

/-- `TargetTerminal` -/
inductive TargetTerminal where
  | blocker (blocker : TechnicalBlocker)
  | closure (closure : AcceptedMeasurementClosure)
  | barrier (barrier : SemanticBarrier)
  | disposition (disposition : GoalWorkDisposition)

structure TargetRunHandoff where
  handleHistory : List TargetWorkHandle
  codeReviewPreflights : List TargetExecutionPreflight
  stopDecisions : List StopDecisionProof
  recoveredBlockers : List TechnicalBlocker
  recoveryEvidenceRefs : List String
  terminal : TargetTerminal

structure TargetWorkNotice where
  noticeRef : String
  sequence : ℤ
  terminalTransitionRef : String
  kind : String
  targetRef : String
  targetRunRef : String
  executionAttemptRef : Option String
  executionFenceRef : Option String
  terminalFactRef : String
  handoffManifestRef : String
  handoffManifestSha256 : String
  compactReason : String
  pendingObligationRefs : List String
  payloadSha256 : String
deriving DecidableEq, Repr

structure BundleReport where
  disposition : String
  stageRequestRef : String
  formalPlanRef : String
  acceptedTargetCommitRefs : List String
  acceptedEvaluationAttemptRefs : List String
  metricResultRefs : List String
  executionAttemptRefs : List String
  executionFenceRefs : List String
  checkpointArtifactRefs : List String
  realizedExperimentKeys : List String
  remainingExperimentKeys : List String
  blockerRefs : List String := []
  semanticChangeRequired : List String := []
  evidenceRefs : List String := []
  routeDispositionRefs : List String := []
  reconciliationReceiptRefs : List String := []
  ownerReceiptRefs : List String := []
  stopDecisionRefs : List String := []
  recoveryEvidenceRefs : List String := []
  codeReviewPreflights : List TargetExecutionPreflight := []
  codeReviewRefs : List String := []
  resultReviews : List ResultReviewRecord := []
  resultReviewRefs : List String := []
  reviewerSessionRefs : List String := []
  reviewerSpawnEvidenceRefs : List String := []
  provenance : List (String × List String) := []
deriving DecidableEq, Repr

/-! ### Values -/

open Value in
def HeldFixedBinding.value (binding : HeldFixedBinding) : Value :=
  record .heldFixedBinding [.text binding.semanticSlot, .text binding.implementationRevisionRef]

open Value in
def ContentBindingProof.value (proof : ContentBindingProof) : Value :=
  record .contentBindingProof [.text proof.subjectRef, .text proof.contentHashRef]

open Value in
def ReceiptProof.value (receipt : ReceiptProof) : Value :=
  record .receiptProof [.text receipt.receiptRef, .text receipt.subjectRef, bool receipt.verified,
    bool receipt.currentnessKnown, bool receipt.current]

open Value in
def StageRunRequest.value (request : StageRunRequest) : Value :=
  record .stageRunRequest [.text request.requestRef, .text request.formalPlanRef,
    .text request.formalPlanContentHashRef, bool request.typed, bool request.currentnessKnown,
    bool request.current, bool request.rootExecutionFenceCurrent]

open Value in
def CodeReviewRecord.value (review : CodeReviewRecord) : Value :=
  record .codeReviewRecord [bool review.codeChanged, .text review.disposition,
    .text review.candidateRevisionRef, optional .text review.reviewedRevisionRef,
    optional .text review.fixedBaseRef, optional .text review.diffRef, optional .text review.reviewRef,
    optional .text review.reviewParentSessionRef, optional .text review.reviewerSessionRef,
    optional .text review.reviewerSpawnEvidenceRef, integer review.unresolvedStandardsFindings,
    integer review.unresolvedSpecFindings]

open Value in
def RevisionEvidenceProof.value (proof : RevisionEvidenceProof) : Value :=
  record .revisionEvidenceProof [.text proof.evidenceRef, .text proof.subjectRevisionRef]

open Value in
def ResultReviewRecord.value (review : ResultReviewRecord) : Value :=
  record .resultReviewRecord [.text review.reviewedEvaluationAttemptRef,
    .text review.reviewedMetricResultRef, .text review.reviewedAssetManifestRef, .text review.reviewRef,
    .text review.reviewParentSessionRef, .text review.reviewerSessionRef,
    .text review.reviewerSpawnEvidenceRef, integer review.unresolvedFindings]

open Value in
def CodeReviewScope.value (scope : CodeReviewScope) : Value :=
  record .codeReviewScope [scope.candidateRevisionBinding.value, scope.targetSpecBinding.value,
    scope.targetSpecAcceptanceReceipt.value, scope.formalPlanBinding.value,
    scope.formalPlanAcceptanceReceipt.value, texts scope.experimentKeys, texts scope.semanticDeltas,
    tuple (scope.heldFixedBindings.map HeldFixedBinding.value), texts scope.acceptedInputRefs,
    texts scope.reuseProvenanceRefs, texts scope.repositoryStandardsRefs]

open Value in
def TargetExecutionPreflight.value (preflight : TargetExecutionPreflight) : Value :=
  record .targetExecutionPreflight [.text preflight.targetRef, .text preflight.targetRunRef,
    .text preflight.implementationRevisionRef, preflight.implementationAcceptanceReceipt.value,
    preflight.targetSpecAcceptanceReceipt.value, preflight.candidateReadyEvidence.value,
    tuple (preflight.selfCheckEvidence.map RevisionEvidenceProof.value), preflight.reviewScope.value,
    preflight.codeReview.value, optional ContentBindingProof.value preflight.codeReviewEvidenceBinding,
    optional ReceiptProof.value preflight.codeReviewEvidenceReceipt]

open Value in
def ProtocolAggregationProof.value (proof : ProtocolAggregationProof) : Value :=
  record .protocolAggregationProof [.text proof.protocolVersionRef, texts proof.partKeys,
    .text proof.aggregationRuleRef, proof.aggregationEvidenceBinding.value,
    proof.aggregationEvidenceReceipt.value]

open Value in
def ProtocolPart.value (part : ProtocolPart) : Value :=
  record .protocolPart [.text part.partKey, .text part.protocolVersionRef]

open Value in
def ExecutionInputBindingProof.value (proof : ExecutionInputBindingProof) : Value :=
  record .executionInputBindingProof [.text proof.bindingRef, .text proof.subjectRef,
    texts proof.inputRefs, proof.acceptanceReceipt.value]

open Value in
def AcceptedMeasurementClosure.value (closure : AcceptedMeasurementClosure) : Value :=
  record .acceptedMeasurementClosure [.text closure.targetRef, .text closure.targetRunRef,
    .text closure.targetCommitRef, texts closure.experimentKeys, .text closure.measurementUnitKey,
    .text closure.variantRunRef, .text closure.evaluationRef, .text closure.protocolVersionRef,
    optional .text closure.evaluationAttemptRef, optional .text closure.metricResultRef,
    tuple closure.metricValues, .text closure.assetManifestRef, .text closure.executionAttemptRef,
    .text closure.executionFenceRef, texts closure.checkpointArtifactRefs,
    .text closure.implementationRevisionRef,
    tuple (closure.heldFixedBindings.map HeldFixedBinding.value),
    texts closure.implementationProvenanceRefs, closure.variantRunInputBinding.value,
    optional ExecutionInputBindingProof.value closure.evaluationAttemptInputBinding,
    closure.rmAssetReceipt.value, closure.arExecutionReceipt.value,
    optional ReceiptProof.value closure.rgFormalMeasurementReceipt, closure.rgTargetCommitReceipt.value,
    optional CodeReviewRecord.value closure.codeReview,
    optional ResultReviewRecord.value closure.resultReview, bool closure.formalMeasurementAccepted,
    bool closure.currentnessKnown, bool closure.current,
    optional ReceiptProof.value closure.rootCompletionReceipt,
    tuple (closure.protocolInternalParts.map ProtocolPart.value),
    optional ProtocolAggregationProof.value closure.protocolAggregationProof]

open Value in
def ExternalOperationReconciliation.value (reconciliation : ExternalOperationReconciliation) : Value :=
  record .externalOperationReconciliation [.text reconciliation.operationRef,
    reconciliation.receipt.value, .text reconciliation.outcome]

open Value in
def RouteDisposition.value (disposition : RouteDisposition) : Value :=
  record .routeDisposition [.text disposition.dispositionRef, .text disposition.routeRef,
    texts disposition.experimentKeys, .text disposition.outcome, texts disposition.requiredChanges,
    texts disposition.evidenceRefs,
    tuple (disposition.externalReconciliations.map ExternalOperationReconciliation.value)]

open Value in
def SemanticBarrier.value (barrier : SemanticBarrier) : Value :=
  record .semanticBarrier [.text barrier.targetRef, .text barrier.targetRunRef,
    .text barrier.executionAttemptRef, .text barrier.executionFenceRef, texts barrier.experimentKeys,
    .text barrier.reason, tuple (barrier.routeDispositions.map RouteDisposition.value)]

open Value in
def AcceptedInputAssetProof.value (proof : AcceptedInputAssetProof) : Value :=
  record .acceptedInputAssetProof [.text proof.assetRef, proof.rmAcceptanceReceipt.value,
    proof.rgRoleReceipt.value]

open Value in
def TargetWorkHandle.value (handle : TargetWorkHandle) : Value :=
  record .targetWorkHandle [.text handle.targetRef, .text handle.targetRunRef, .text handle.rootSessionRef,
    .text handle.executionAttemptRef, .text handle.executionFenceRef,
    .text handle.executionInputBindingRef, handle.executionInputBindingReceipt.value,
    texts handle.acceptedInputTargetCommitRefs,
    tuple (handle.acceptedInputAssetProofs.map AcceptedInputAssetProof.value), bool handle.recoverable]

open Value in
def TargetFrontierEntry.value (entry : TargetFrontierEntry) : Value :=
  record .targetFrontierEntry [.text entry.targetRef, entry.targetSpecBinding.value,
    entry.targetSpecAcceptanceReceipt.value, integer entry.stateRevision, .text entry.state,
    entry.currentHandle.value, optional .text entry.terminalFactRef, bool entry.currentnessKnown,
    bool entry.current]

open Value in
def StopDecisionProof.value (stop : StopDecisionProof) : Value :=
  record .stopDecisionProof [.text stop.stopBasis, .text stop.decisionRef, .text stop.targetRef,
    .text stop.targetRunRef, .text stop.executionAttemptRef, optional .text stop.frozenRuleRef,
    optional .text stop.protocolVersionRef, stop.terminationReceipt.value, bool stop.processTreeDrained]

open Value in
def TechnicalBlocker.value (blocker : TechnicalBlocker) : Value :=
  record .technicalBlocker [.text blocker.targetRef, .text blocker.targetRunRef,
    .text blocker.executionAttemptRef, .text blocker.executionFenceRef, .text blocker.blockerRef,
    blocker.blockerReceipt.value, .text blocker.reason, bool blocker.recoveryReady,
    bool blocker.oldSessionFenced, bool blocker.recoveryPackComplete,
    optional ReceiptProof.value blocker.recoveryReceipt,
    optional .text blocker.replacementImplementationRevisionRef, bool blocker.bundleDecisionRequired,
    optional .text blocker.escalationScope, texts blocker.pendingObligationRefs,
    optional ContentBindingProof.value blocker.escalationEvidence,
    optional ReceiptProof.value blocker.escalationReceipt]

open Value in
def GoalWorkDisposition.value (disposition : GoalWorkDisposition) : Value :=
  record .goalWorkDisposition [.text disposition.disposition, .text disposition.targetRef,
    .text disposition.targetRunRef, optional .text disposition.executionAttemptRef,
    optional .text disposition.executionFenceRef, .text disposition.terminalFactRef,
    .text disposition.goalWorkIntentRef, .text disposition.goalRevisionRef,
    .text disposition.goalRevisionReceiptRef, .text disposition.goalRevisionReceiptHash,
    .text disposition.reason, optional .text disposition.retentionKind, texts disposition.custodyRefs]

namespace TargetTerminal

def value : TargetTerminal → Value
  | blocker fact => fact.value
  | closure fact => fact.value
  | barrier fact => fact.value
  | disposition fact => fact.value

def targetRef : TargetTerminal → String
  | blocker fact => fact.targetRef
  | closure fact => fact.targetRef
  | barrier fact => fact.targetRef
  | disposition fact => fact.targetRef

def targetRunRef : TargetTerminal → String
  | blocker fact => fact.targetRunRef
  | closure fact => fact.targetRunRef
  | barrier fact => fact.targetRunRef
  | disposition fact => fact.targetRunRef

def executionAttemptRef : TargetTerminal → Option String
  | blocker fact => fact.executionAttemptRef
  | closure fact => fact.executionAttemptRef
  | barrier fact => fact.executionAttemptRef
  | disposition fact => fact.executionAttemptRef

def executionFenceRef : TargetTerminal → Option String
  | blocker fact => fact.executionFenceRef
  | closure fact => fact.executionFenceRef
  | barrier fact => fact.executionFenceRef
  | disposition fact => fact.executionFenceRef

/-- The terminal fact is one of this handle. -/
def isOf (terminal : TargetTerminal) (handle : TargetWorkHandle) : Bool :=
  terminal.targetRef = handle.targetRef && terminal.targetRunRef = handle.targetRunRef &&
    terminal.executionAttemptRef = some handle.executionAttemptRef &&
    terminal.executionFenceRef = some handle.executionFenceRef

end TargetTerminal

open Value in
def TargetRunHandoff.value (handoff : TargetRunHandoff) : Value :=
  record .targetRunHandoff [tuple (handoff.handleHistory.map TargetWorkHandle.value),
    tuple (handoff.codeReviewPreflights.map TargetExecutionPreflight.value),
    tuple (handoff.stopDecisions.map StopDecisionProof.value),
    tuple (handoff.recoveredBlockers.map TechnicalBlocker.value), texts handoff.recoveryEvidenceRefs,
    handoff.terminal.value]

open Value in
def TargetWorkNotice.value (notice : TargetWorkNotice) : Value :=
  record .targetWorkNotice [.text notice.noticeRef, integer notice.sequence,
    .text notice.terminalTransitionRef, .text notice.kind, .text notice.targetRef, .text notice.targetRunRef,
    optional .text notice.executionAttemptRef, optional .text notice.executionFenceRef,
    .text notice.terminalFactRef, .text notice.handoffManifestRef, .text notice.handoffManifestSha256,
    .text notice.compactReason, texts notice.pendingObligationRefs, .text notice.payloadSha256]

open Value in
def BundleReport.value (report : BundleReport) : Value :=
  record .bundleReport [.text report.disposition, .text report.stageRequestRef, .text report.formalPlanRef,
    texts report.acceptedTargetCommitRefs, texts report.acceptedEvaluationAttemptRefs,
    texts report.metricResultRefs, texts report.executionAttemptRefs, texts report.executionFenceRefs,
    texts report.checkpointArtifactRefs, texts report.realizedExperimentKeys,
    texts report.remainingExperimentKeys, texts report.blockerRefs, texts report.semanticChangeRequired,
    texts report.evidenceRefs, texts report.routeDispositionRefs, texts report.reconciliationReceiptRefs,
    texts report.ownerReceiptRefs, texts report.stopDecisionRefs, texts report.recoveryEvidenceRefs,
    tuple (report.codeReviewPreflights.map TargetExecutionPreflight.value), texts report.codeReviewRefs,
    tuple (report.resultReviews.map ResultReviewRecord.value), texts report.resultReviewRefs,
    texts report.reviewerSessionRefs, texts report.reviewerSpawnEvidenceRefs,
    tuple (report.provenance.map fun entry => tuple [.text entry.1, texts entry.2])]

end MetaResearch.Bundle

import MetaResearch.Model.Bundle.Handoff

/-! # The contract of a TargetRun

The admission checks of one TargetRun: its handles, its preflights, its recoveries and its terminal
facts, up to the replay of a whole handoff with its notice and its frontier. The digest of a text is a
parameter.
-/

namespace MetaResearch.Bundle

namespace TargetRun

open Completion (validateProjection sortedSet)

/-! ### Elementary checks -/

/-- `_require_ref` -/
def requireRef (value name : String) : Except String Unit := do
  require (value ≠ "" && value = Text.strip value) (name ++ " is absent, padded, or non-canonical")
  require (value.toList.all fun char => char ≠ Char.ofNat 0 && char ≠ '\r' && char ≠ '\n')
    (name ++ " contains a stream delimiter")

/-- `_require_ref` of an optional value -/
def requireOptionalRef (value : Option String) (name : String) : Except String Unit :=
  match value with
  | some value => requireRef value name
  | none => .error (name ++ " is absent, padded, or non-canonical")

/-- `_require_nonnegative_int` -/
def requireNonnegativeInt (value : ℤ) (name : String) : Except String Unit :=
  require (0 ≤ value) (name ++ " must be an exact nonnegative integer")

/-- `_require_nonnegative_int` of a positive value -/
def requirePositiveInt (value : ℤ) (name : String) : Except String Unit :=
  require (1 ≤ value) (name ++ " must be an exact nonnegative integer")

/-- `_validate_receipt` -/
def validateReceipt (budget : Budget) (receipt : ReceiptProof) (subjectRef name : String) :
    Except String Unit :=
  match validateReceiptProof budget receipt subjectRef with
  | .ok () => .ok ()
  | .error _ => .error (name ++ " is absent, stale, or subject-drifted")

/-! ### Digests -/

/-- The JSON of a dictionary of projections. -/
def payloadJson? (payload : List (String × Value)) : Option Json :=
  (payload.mapM fun member : String × Value => member.2.plainValue?.map (member.1, ·)).map .object

/-- `_payload_digest` -/
def payloadDigest (digest : String → String) (payload : List (String × Value)) (name : String) :
    Except String String :=
  match payloadJson? payload with
  | some json => .ok (digest json.dumps)
  | none => .error (name ++ " is not canonical UTF-8 JSON")

/-- `_code_review_evidence_digest` -/
def codeReviewEvidenceDigest (digest : String → String) (review : CodeReviewRecord)
    (scope : CodeReviewScope) : Except String String :=
  payloadDigest digest [("review", review.value), ("complete_review_scope", scope.value)]
    "independent code-review evidence"

/-- `_notice_payload_digest` -/
def noticePayloadDigest (digest : String → String) (notice : TargetWorkNotice) : Except String String :=
  payloadDigest digest [("notice_ref", .text notice.noticeRef),
    ("terminal_transition_ref", .text notice.terminalTransitionRef), ("kind", .text notice.kind),
    ("target_ref", .text notice.targetRef), ("target_run_ref", .text notice.targetRunRef),
    ("execution_attempt_ref", .optional .text notice.executionAttemptRef),
    ("execution_fence_ref", .optional .text notice.executionFenceRef),
    ("terminal_fact_ref", .text notice.terminalFactRef),
    ("handoff_manifest_ref", .text notice.handoffManifestRef),
    ("handoff_manifest_sha256", .text notice.handoffManifestSha256),
    ("compact_reason", .text notice.compactReason),
    ("pending_obligation_refs", .texts notice.pendingObligationRefs)] "TargetWorkNotice payload"

/-- `_bundle_escalation_digest` -/
def bundleEscalationDigest (digest : String → String) (blocker : TechnicalBlocker) :
    Except String String :=
  payloadDigest digest [("target_ref", .text blocker.targetRef),
    ("target_run_ref", .text blocker.targetRunRef),
    ("execution_attempt_ref", .text blocker.executionAttemptRef),
    ("execution_fence_ref", .text blocker.executionFenceRef), ("blocker_ref", .text blocker.blockerRef),
    ("blocker_receipt", blocker.blockerReceipt.value), ("reason", .text blocker.reason),
    ("recovery_ready", .bool blocker.recoveryReady), ("old_session_fenced", .bool blocker.oldSessionFenced),
    ("recovery_pack_complete", .bool blocker.recoveryPackComplete),
    ("replacement_implementation_revision_ref",
      .optional .text blocker.replacementImplementationRevisionRef),
    ("bundle_decision_required", .bool blocker.bundleDecisionRequired),
    ("escalation_scope", .optional .text blocker.escalationScope),
    ("pending_obligation_refs", .texts blocker.pendingObligationRefs)] "Bundle escalation payload"

/-! ### Handles -/

/-- The frozen inputs that the handles of one run share. -/
structure AcceptedInputs where
  targetCommitRefs : List String
  assetRefs : List String

def TargetWorkHandle.acceptedInputs (handle : TargetWorkHandle) : AcceptedInputs :=
  ⟨handle.acceptedInputTargetCommitRefs, handle.acceptedInputAssetProofs.map (·.assetRef)⟩

def validateAssetProof (budget : Budget) (proof : AcceptedInputAssetProof) : Except String Unit := do
  requireRef proof.assetRef "accepted input asset"
  validateReceipt budget proof.rmAcceptanceReceipt proof.assetRef "accepted input RM receipt"
  validateReceipt budget proof.rgRoleReceipt proof.assetRef "accepted input RG role receipt"

/-- `validate_target_work_handle` -/
def validateTargetWorkHandle (budget : Budget) (targetRef : String) (inputs : AcceptedInputs)
    (handle : TargetWorkHandle) : Except String Unit := do
  validateProjection budget "TargetWorkHandle" handle.value
  require (handle.targetRef = targetRef) "TargetRun handle points at another Target"
  requireRef handle.targetRunRef "TargetRun"
  requireRef handle.rootSessionRef "Target root Session"
  requireRef handle.executionAttemptRef "ExecutionAttempt"
  requireRef handle.executionFenceRef "ExecutionFence"
  require (decide [handle.targetRunRef, handle.rootSessionRef, handle.executionAttemptRef,
      handle.executionFenceRef].Nodup)
    "TargetRun, Session, ExecutionAttempt, and ExecutionFence must be distinct"
  requireRef handle.executionInputBindingRef "Execution Input Binding"
  validateReceipt budget handle.executionInputBindingReceipt handle.executionInputBindingRef
    "Execution Input Binding receipt"
  require (isSortedSet inputs.targetCommitRefs)
    "expected upstream TargetCommit refs are not canonical and unique"
  require (handle.acceptedInputTargetCommitRefs = inputs.targetCommitRefs)
    "TargetRun does not freeze the exact accepted upstream TargetCommits"
  checkAll (requireRef · "accepted TargetCommit") handle.acceptedInputTargetCommitRefs
  require (isSortedSet inputs.assetRefs) "expected accepted asset refs are not canonical and unique"
  require (handle.acceptedInputAssetProofs.map (·.assetRef) = inputs.assetRefs)
    "TargetRun does not freeze the exact accepted asset refs"
  checkAll (validateAssetProof budget) handle.acceptedInputAssetProofs
  require handle.recoverable "formal result-bearing Target lacks a recoverable TargetRun"

/-! ### The semantic barrier -/

/-- What a barrier or a blocker names of its handle. -/
def isStale (handle : TargetWorkHandle) (targetRef targetRunRef executionAttemptRef
    executionFenceRef : String) : Bool :=
  targetRef ≠ handle.targetRef || targetRunRef ≠ handle.targetRunRef ||
    executionAttemptRef ≠ handle.executionAttemptRef || executionFenceRef ≠ handle.executionFenceRef

/-- The routes of a candidate, by reference. -/
def expectedRoutes : List RouteSpec → List (String × RouteSpec) →
    Except String (List (String × RouteSpec))
  | [], expected => .ok expected
  | route :: rest, expected => do
    requireRef route.routeRef "semantic route"
    require (expected.lookup route.routeRef).isNone "Target candidate repeats a semantic route"
    require (decide route.knownExternalOperationRefs.Nodup) "semantic route repeats an external operation"
    checkAll (requireRef · "external operation") route.knownExternalOperationRefs
    expectedRoutes rest (expected ++ [(route.routeRef, route)])

def validateReconciliation (budget : Budget) (reconciliation : ExternalOperationReconciliation) :
    Except String Unit := do
  requireRef reconciliation.operationRef "external operation reconciliation"
  require (["succeeded", "rejected", "cancelled", "no_effect", "already_applied"].contains
      reconciliation.outcome)
    "SemanticBarrier has an unreconciled external operation"
  validateReceipt budget reconciliation.receipt reconciliation.operationRef
    "external operation reconciliation receipt"

/-- `FROZEN_SEMANTIC_FIELDS` -/
def frozenSemanticFields : List String :=
  ["Goal", "Characteristics", "BoundaryConstraints", "SemanticDelta", "HeldFixedImplementationRevision"]

/-- One round of the loop over the dispositions, with the identities seen so far. -/
def validateDisposition (budget : Budget) (candidate : TargetCandidate)
    (expected : List (String × RouteSpec)) (seen : List String) (disposition : RouteDisposition) :
    Except String (List String) := do
  requireRef disposition.dispositionRef "RouteDisposition"
  require (!seen.contains disposition.dispositionRef) "two semantic routes share one disposition identity"
  require (disposition.experimentKeys = candidate.experimentKeys)
    "route disposition has wrong ExperimentKey coverage"
  require (disposition.outcome = "requires_frozen_change")
    "technical, viable, or unknown route cannot prove semantic replan"
  require (!disposition.requiredChanges.isEmpty && decide disposition.requiredChanges.Nodup &&
      disposition.requiredChanges.all (frozenSemanticFields.contains ·))
    "repairable implementation difficulty is not semantic replan"
  require (!disposition.evidenceRefs.isEmpty && decide disposition.evidenceRefs.Nodup)
    "semantic route disposition lacks exact evidence"
  checkAll (requireRef · "SemanticBarrier evidence") disposition.evidenceRefs
  let operations := disposition.externalReconciliations.map (·.operationRef)
  require (decide operations.Nodup) "external operation is reconciled more than once"
  require (sameSet operations
      ((expected.lookup disposition.routeRef).elim [] RouteSpec.knownExternalOperationRefs))
    "semantic route omits a known external operation reconciliation"
  checkAll (validateReconciliation budget) disposition.externalReconciliations
  pure (disposition.dispositionRef :: seen)

/-- `validate_semantic_barrier` -/
def validateSemanticBarrier (budget : Budget) (barrier : SemanticBarrier) (candidate : TargetCandidate)
    (handle : TargetWorkHandle) : Except String Unit := do
  validateProjection budget "SemanticBarrier" barrier.value
  require (!isStale handle barrier.targetRef barrier.targetRunRef barrier.executionAttemptRef
      barrier.executionFenceRef)
    "SemanticBarrier is bound to a stale TargetRun handle"
  require (barrier.experimentKeys = candidate.experimentKeys)
    "SemanticBarrier has wrong ExperimentKey coverage"
  requireRef barrier.reason "SemanticBarrier reason"
  let expected ← expectedRoutes candidate.routes []
  let routes := barrier.routeDispositions.map (·.routeRef)
  require (decide routes.Nodup && sameSet routes (expected.map Prod.fst))
    "SemanticBarrier lacks exact dispositions for its Target routes"
  let _ ← barrier.routeDispositions.foldlM (validateDisposition budget candidate expected) []
  pure ()

/-! ### The frontier -/

/-- What is authoritative about the Target of a run. -/
structure TargetSpec where
  binding : ContentBindingProof
  acceptanceReceipt : ReceiptProof

/-- `validate_target_frontier_entry` -/
def validateTargetFrontierEntry (budget : Budget) (targetRef : String) (spec : TargetSpec)
    (inputs : AcceptedInputs) (entry : TargetFrontierEntry) : Except String Unit := do
  validateProjection budget "TargetFrontierEntry" entry.value
  require (entry.targetRef = targetRef) "Target frontier points at another Target"
  require (entry.targetSpecBinding = spec.binding &&
      entry.targetSpecAcceptanceReceipt = spec.acceptanceReceipt)
    "Target frontier differs from the authoritative Target spec"
  require (spec.binding.subjectRef = targetRef) "Target spec content binding points at another Target"
  requireRef spec.binding.contentHashRef "Target spec content hash"
  validateReceipt budget spec.acceptanceReceipt spec.binding.contentHashRef
    "Target spec acceptance receipt"
  requirePositiveInt entry.stateRevision "frontier revision"
  require (entry.currentnessKnown && entry.current) "Target frontier currentness is false or unknown"
  require (["running", "terminal"].contains entry.state) "Target frontier has an unknown state"
  require (entry.state ≠ "terminal" || entry.terminalFactRef.isSome)
    "terminal Target frontier lacks a terminal fact"
  require (entry.state ≠ "running" || entry.terminalFactRef.isNone)
    "running Target frontier claims a terminal fact"
  validateTargetWorkHandle budget targetRef inputs entry.currentHandle

/-! ### Reviews and preflights -/

def validateReviewedCode (review : CodeReviewRecord) (implementationRevisionRef
    targetRootSessionRef : String) : Except String Unit := do
  require (review.disposition = "reviewed") "non-empty diff requires an independent $code-review"
  requireOptionalRef review.reviewedRevisionRef "reviewed revision"
  requireOptionalRef review.fixedBaseRef "fixed review base"
  requireOptionalRef review.diffRef "review diff"
  requireOptionalRef review.reviewRef "$code-review record"
  requireOptionalRef review.reviewParentSessionRef "review parent Session"
  requireOptionalRef review.reviewerSessionRef "reviewer Session"
  requireOptionalRef review.reviewerSpawnEvidenceRef "reviewer spawn evidence"
  require (review.reviewedRevisionRef = some implementationRevisionRef)
    "code review is stale for the protected revision"
  require (review.reviewParentSessionRef = some targetRootSessionRef)
    "code-review child was not spawned by the current Target root"
  require (review.reviewerSessionRef ≠ some targetRootSessionRef)
    "code review must run in a distinct child Session"

def validateEmptyDiff (review : CodeReviewRecord) : Except String Unit := do
  require (review.disposition = "not_applicable(empty_diff)")
    "empty diff requires the exact not_applicable(empty_diff) record"
  require (review.reviewedRevisionRef.isNone && review.fixedBaseRef.isNone && review.diffRef.isNone &&
      review.reviewRef.isNone && review.reviewParentSessionRef.isNone &&
      review.reviewerSessionRef.isNone && review.reviewerSpawnEvidenceRef.isNone)
    "empty diff cannot carry a synthetic code review"

/-- `validate_code_review` -/
def validateCodeReview (budget : Budget) (review : CodeReviewRecord) (implementationRevisionRef
    targetRootSessionRef : String) : Except String Unit := do
  validateProjection budget "CodeReviewRecord" review.value
  requireRef implementationRevisionRef "Implementation Revision"
  requireRef targetRootSessionRef "Target root Session"
  requireNonnegativeInt review.unresolvedStandardsFindings "unresolved Standards findings"
  requireNonnegativeInt review.unresolvedSpecFindings "unresolved Spec findings"
  require (review.candidateRevisionRef = implementationRevisionRef)
    "code review candidate differs from the protected revision"
  require (review.unresolvedStandardsFindings = 0 && review.unresolvedSpecFindings = 0)
    "code review has unresolved Standards or Spec findings"
  if review.codeChanged then validateReviewedCode review implementationRevisionRef targetRootSessionRef
  else validateEmptyDiff review

/-- What a preflight has to be about. -/
structure ExpectedPreflight where
  reviewScope : CodeReviewScope
  implementationRevisionRef : String
  codeChanged : Bool

/-- The bindings of the review scope of a preflight. -/
def validateScopeBindings (budget : Budget) (handle : TargetWorkHandle)
    (preflight : TargetExecutionPreflight) : Except String Unit := do
  let scope := preflight.reviewScope
  require (scope.candidateRevisionBinding.subjectRef = preflight.implementationRevisionRef)
    "candidate content binding points at another revision"
  requireRef scope.candidateRevisionBinding.contentHashRef "candidate revision content hash"
  validateReceipt budget preflight.implementationAcceptanceReceipt
    scope.candidateRevisionBinding.contentHashRef "Implementation Revision acceptance receipt"
  require (scope.targetSpecBinding.subjectRef = handle.targetRef) "review scope points at another Target spec"
  requireRef scope.targetSpecBinding.contentHashRef "Target spec content hash"
  require (scope.targetSpecAcceptanceReceipt = preflight.targetSpecAcceptanceReceipt)
    "preflight and review scope carry different Target spec receipts"
  validateReceipt budget preflight.targetSpecAcceptanceReceipt scope.targetSpecBinding.contentHashRef
    "Target spec acceptance receipt"
  require (scope.formalPlanBinding.subjectRef ≠ "") "review scope lacks a FormalPlan binding"
  requireRef scope.formalPlanBinding.subjectRef "FormalPlan"
  requireRef scope.formalPlanBinding.contentHashRef "FormalPlan content hash"
  validateReceipt budget scope.formalPlanAcceptanceReceipt scope.formalPlanBinding.contentHashRef
    "FormalPlan acceptance receipt"

/-- The lists of the review scope of a preflight. -/
def validateScopeLists (handle : TargetWorkHandle) (scope : CodeReviewScope) : Except String Unit := do
  require (scope.acceptedInputRefs = (handle.acceptedInputTargetCommitRefs ++
      handle.acceptedInputAssetProofs.map (·.assetRef)).insertionSort (· ≤ ·))
    "review scope does not freeze the exact accepted inputs"
  require (!scope.experimentKeys.isEmpty && decide scope.experimentKeys.Nodup)
    "review scope has empty or duplicate ExperimentKeys"
  require (scope.semanticDeltas.length = scope.experimentKeys.length)
    "review scope SemanticDelta coverage is incomplete"
  require (scope.semanticDeltas.all (!Text.isBlank ·)) "SemanticDelta is absent"
  require (isSortedSet scope.reuseProvenanceRefs)
    "review scope reuse provenance is not canonical and unique"
  checkAll (requireRef · "reuse provenance") scope.reuseProvenanceRefs
  require (!scope.repositoryStandardsRefs.isEmpty && decide scope.repositoryStandardsRefs.Nodup)
    "review scope lacks unique repository standards"
  checkAll (requireRef · "repository standard") scope.repositoryStandardsRefs

def validateSelfCheck (implementationRevisionRef : String) (evidence : RevisionEvidenceProof) :
    Except String Unit := do
  requireRef evidence.evidenceRef "self-check evidence"
  require (evidence.subjectRevisionRef = implementationRevisionRef)
    "self-check evidence is bound to another revision"

/-- The evidence that a preflight began with. -/
def validateReadiness (preflight : TargetExecutionPreflight) : Except String Unit := do
  require (preflight.candidateReadyEvidence.evidenceRef ≠ "")
    "preflight began before the candidate revision was complete"
  require (preflight.candidateReadyEvidence.subjectRevisionRef = preflight.implementationRevisionRef)
    "candidate-ready evidence is bound to another revision"
  requireRef preflight.candidateReadyEvidence.evidenceRef "candidate-ready evidence"
  require (!preflight.selfCheckEvidence.isEmpty) "preflight lacks completed self-check evidence"
  checkAll (validateSelfCheck preflight.implementationRevisionRef) preflight.selfCheckEvidence

/-- The evidence of the review of a preflight. -/
def validateReviewEvidence (budget : Budget) (digest : String → String)
    (preflight : TargetExecutionPreflight) : Except String Unit :=
  if preflight.codeReview.codeChanged then
    match preflight.codeReviewEvidenceBinding, preflight.codeReviewEvidenceReceipt with
    | some binding, some receipt => do
      require (some binding.subjectRef = preflight.codeReview.reviewRef)
        "code-review evidence points at another review"
      let expected ← codeReviewEvidenceDigest digest preflight.codeReview preflight.reviewScope
      require (binding.contentHashRef = expected)
        "code-review evidence does not bind the complete review scope"
      validateReceipt budget receipt binding.contentHashRef "independent code-review evidence receipt"
    | _, _ => .error "non-empty diff lacks content-bound independent review evidence"
  else
    require (preflight.codeReviewEvidenceBinding.isNone && preflight.codeReviewEvidenceReceipt.isNone)
      "empty diff carries synthetic code-review evidence"

/-- `validate_target_execution_preflight` -/
def validateTargetExecutionPreflight (budget : Budget) (digest : String → String)
    (handle : TargetWorkHandle) (expected : ExpectedPreflight) (preflight : TargetExecutionPreflight) :
    Except String Unit := do
  validateProjection budget "TargetExecutionPreflight" preflight.value
  require (preflight.targetRef = handle.targetRef) "preflight points at another Target"
  require (preflight.targetRunRef = handle.targetRunRef) "preflight points at another TargetRun"
  require (preflight.implementationRevisionRef = expected.implementationRevisionRef)
    "preflight prepared another Implementation Revision"
  requireRef preflight.implementationRevisionRef "Implementation Revision"
  require (preflight.reviewScope = expected.reviewScope)
    "preflight review scope differs from the exact authoritative scope"
  validateScopeBindings budget handle preflight
  validateScopeLists handle preflight.reviewScope
  validateReadiness preflight
  require (preflight.codeReview.codeChanged = expected.codeChanged)
    "preflight code-diff state differs from its candidate"
  validateCodeReview budget preflight.codeReview preflight.implementationRevisionRef handle.rootSessionRef
  validateReviewEvidence budget digest preflight

/-- `validate_result_review` -/
def validateResultReview (budget : Budget) (review : ResultReviewRecord) (targetRootSessionRef : String)
    (evaluationAttemptRef metricResultRef : Option String) (assetManifestRef : String)
    (preflights : List TargetExecutionPreflight) : Except String Unit := do
  validateProjection budget "ResultReviewRecord" review.value
  require (some review.reviewedEvaluationAttemptRef = evaluationAttemptRef)
    "result review is bound to another EvaluationAttempt"
  require (some review.reviewedMetricResultRef = metricResultRef)
    "result review is bound to another MetricResult"
  require (review.reviewedAssetManifestRef = assetManifestRef)
    "result review is bound to another asset manifest"
  requireRef review.reviewRef "result review"
  requireRef review.reviewParentSessionRef "result review parent Session"
  requireRef review.reviewerSessionRef "result reviewer Session"
  requireRef review.reviewerSpawnEvidenceRef "result reviewer spawn evidence"
  require (review.reviewParentSessionRef = targetRootSessionRef)
    "result reviewer was not spawned by the current Target root"
  require (review.reviewerSessionRef ≠ targetRootSessionRef)
    "result review must run in an independent child Session"
  require (!(preflights.filterMap (·.codeReview.reviewerSessionRef)).contains review.reviewerSessionRef)
    "result reviewer reused a code-reviewer Session"
  require (!(preflights.filterMap (·.codeReview.reviewerSpawnEvidenceRef)).contains
      review.reviewerSpawnEvidenceRef)
    "result reviewer reused code-review spawn evidence"
  requireNonnegativeInt review.unresolvedFindings "result-review findings"
  require (review.unresolvedFindings = 0) "result review has unresolved findings"

/-- `validate_stop_decision` -/
def validateStopDecision (budget : Budget) (stop : StopDecisionProof) (handle : TargetWorkHandle) :
    Except String Unit := do
  validateProjection budget "StopDecisionProof" stop.value
  require (["control_invalid", "engineering_anomaly", "preregistered_rule"].contains stop.stopBasis)
    "metric quality is not a valid stop basis"
  require (stop.targetRef = handle.targetRef) "StopDecision points at another Target"
  require (stop.targetRunRef = handle.targetRunRef) "StopDecision points at another TargetRun"
  require (stop.executionAttemptRef = handle.executionAttemptRef)
    "StopDecision points at another ExecutionAttempt"
  requireRef stop.decisionRef "StopDecision"
  validateReceipt budget stop.terminationReceipt stop.decisionRef "trusted termination receipt"
  require stop.processTreeDrained "trusted termination did not drain the process tree"
  if stop.stopBasis = "preregistered_rule" then do
    requireOptionalRef stop.frozenRuleRef "frozen stop rule"
    requireOptionalRef stop.protocolVersionRef "stop ProtocolVersion"
  else do
    require (stop.frozenRuleRef.isNone && stop.protocolVersionRef.isNone)
      "engineering or control stop cannot claim a protocol rule"
    require (stop.stopBasis ≠ "control_invalid")
      "control_invalid requires immediate fail-closed termination"

/-! ### Recovery -/

/-- The review that replaces the previous one under a new revision. -/
structure Replacement where
  previous : TargetExecutionPreflight
  preflight : TargetExecutionPreflight
  scope : CodeReviewScope

/-- The new value is not the previous one, where there was one. -/
def requireFresh (previous new : Option String) (name : String) : Except String Unit :=
  require (previous.isNone || previous ≠ new) ("code-changing recovery reused the previous " ++ name)

/-- The fresh review of a recovery that changes code. -/
def validateReplacement (budget : Budget) (digest : String → String) (handle : TargetWorkHandle)
    (revision : String) (replacement : Replacement) : Except String Unit := do
  require (replacement.preflight.implementationRevisionRef = revision)
    "recovery preflight prepared another replacement revision"
  require (revision ≠ replacement.previous.implementationRevisionRef)
    "replacement revision reused the previous reviewed revision"
  validateTargetExecutionPreflight budget digest handle ⟨replacement.scope, revision, true⟩
    replacement.preflight
  require (replacement.preflight.reviewScope.candidateRevisionBinding.contentHashRef ≠
      replacement.previous.reviewScope.candidateRevisionBinding.contentHashRef)
    "code-changing recovery reused previous implementation content"
  let old := replacement.previous.codeReview
  let new := replacement.preflight.codeReview
  requireFresh old.reviewRef new.reviewRef "review record"
  requireFresh old.reviewerSessionRef new.reviewerSessionRef "reviewer Session"
  requireFresh old.reviewerSpawnEvidenceRef new.reviewerSpawnEvidenceRef "reviewer spawn evidence"

/-- The preflights of one recovery, as far as they are given. -/
def verifyReplacement (budget : Budget) (digest : String → String) (blocker : TechnicalBlocker)
    (replacementHandle : TargetWorkHandle)
    (previousPreflight replacementPreflight : Option TargetExecutionPreflight)
    (expectedReplacementReviewScope : Option CodeReviewScope) : Except String Unit :=
  match blocker.replacementImplementationRevisionRef with
  | none => require (replacementPreflight.isNone && expectedReplacementReviewScope.isNone)
      "pure execution retry must reuse the existing reviewed preflight"
  | some revision => do
    requireRef revision "replacement Implementation Revision"
    match previousPreflight, replacementPreflight, expectedReplacementReviewScope with
    | some previous, some preflight, some scope =>
      validateReplacement budget digest replacementHandle revision ⟨previous, preflight, scope⟩
    | _, _, _ => .error "code-changing recovery lacks a fresh reviewed preflight"

/-- The receipt of a recovery that is fenced and complete. -/
def recoveryReceiptOf (blocker : TechnicalBlocker) : Except String ReceiptProof :=
  match blocker.recoveryReceipt with
  | some receipt =>
    if blocker.recoveryReady && blocker.oldSessionFenced && blocker.recoveryPackComplete then .ok receipt
    else .error "Target-local recovery is not fully fenced and receipted"
  | none => .error "Target-local recovery is not fully fenced and receipted"

/-- What a transition has to leave evidence of. -/
def identitiesOf (handle : TargetWorkHandle) : List String :=
  [handle.targetRunRef, handle.rootSessionRef, handle.executionAttemptRef, handle.executionFenceRef]

/-- `validate_technical_blocker_recovery` -/
def validateTechnicalBlockerRecovery (budget : Budget) (digest : String → String)
    (inputs : AcceptedInputs) (blocker : TechnicalBlocker)
    (oldHandle replacementHandle : TargetWorkHandle)
    (previousPreflight replacementPreflight : Option TargetExecutionPreflight)
    (expectedReplacementReviewScope : Option CodeReviewScope) : Except String (List String) := do
  validateProjection budget "TechnicalBlocker" blocker.value
  require (!isStale oldHandle blocker.targetRef blocker.targetRunRef blocker.executionAttemptRef
      blocker.executionFenceRef)
    "recoverable TechnicalBlocker points at a stale handle"
  requireRef blocker.blockerRef "TechnicalBlocker"
  requireRef blocker.reason "TechnicalBlocker reason"
  validateReceipt budget blocker.blockerReceipt blocker.blockerRef "TechnicalBlocker receipt"
  let receipt ← recoveryReceiptOf blocker
  require (!blocker.bundleDecisionRequired && blocker.escalationScope.isNone &&
      blocker.pendingObligationRefs.isEmpty && blocker.escalationEvidence.isNone &&
      blocker.escalationReceipt.isNone)
    "Target-local recovery cannot also claim Bundle escalation"
  validateReceipt budget receipt blocker.blockerRef "TargetRun recovery receipt"
  validateTargetWorkHandle budget oldHandle.targetRef inputs replacementHandle
  require (replacementHandle.rootSessionRef ≠ oldHandle.rootSessionRef &&
      replacementHandle.executionAttemptRef ≠ oldHandle.executionAttemptRef &&
      replacementHandle.executionFenceRef ≠ oldHandle.executionFenceRef)
    "recovery reused a retired Session, Attempt, or Fence"
  verifyReplacement budget digest blocker replacementHandle previousPreflight replacementPreflight
    expectedReplacementReviewScope
  pure (sortedSet (blocker.blockerRef :: blocker.blockerReceipt.receiptRef :: receipt.receiptRef ::
    identitiesOf oldHandle ++ identitiesOf replacementHandle))

/-! ### Terminal facts -/

/-- The evidence of an escalation. -/
def validateEscalation (budget : Budget) (digest : String → String) (blocker : TechnicalBlocker)
    (handle : TargetWorkHandle) : Except String (List String) :=
  match blocker.escalationEvidence, blocker.escalationReceipt with
  | some evidence, some receipt => do
    requireRef evidence.subjectRef "Bundle escalation evidence"
    let expected ← bundleEscalationDigest digest blocker
    require (evidence.contentHashRef = expected)
      "Bundle escalation evidence does not bind its complete payload"
    validateReceipt budget receipt evidence.contentHashRef "Bundle escalation receipt"
    pure (sortedSet (blocker.blockerRef :: blocker.blockerReceipt.receiptRef :: identitiesOf handle ++
      [evidence.subjectRef, evidence.contentHashRef, receipt.receiptRef]))
  | _, _ => .error "Bundle escalation lacks content-bound formal evidence"

/-- `_validate_terminal_blocker` -/
def validateTerminalBlocker (budget : Budget) (digest : String → String) (blocker : TechnicalBlocker)
    (handle : TargetWorkHandle) : Except String (List String) := do
  validateProjection budget "TechnicalBlocker escalation" blocker.value
  require (!isStale handle blocker.targetRef blocker.targetRunRef blocker.executionAttemptRef
      blocker.executionFenceRef)
    "terminal TechnicalBlocker points at a stale handle"
  requireRef blocker.blockerRef "TechnicalBlocker"
  requireRef blocker.reason "TechnicalBlocker reason"
  validateReceipt budget blocker.blockerReceipt blocker.blockerRef "blocker receipt"
  require (!blocker.recoveryReady) "recoverable blocker escaped the TargetRun Monitor Loop"
  require blocker.bundleDecisionRequired "terminal blocker lacks an explicit Bundle decision requirement"
  require (blocker.escalationScope.any
      (["cross_target", "shared_resource", "authority", "human_input", "strategy"].contains ·))
    "terminal blocker lacks a recognized Bundle escalation scope"
  require (!blocker.pendingObligationRefs.isEmpty && decide blocker.pendingObligationRefs.Nodup)
    "terminal blocker lacks unique pending obligations"
  checkAll (requireRef · "pending obligation") blocker.pendingObligationRefs
  require blocker.recoveryReceipt.isNone "non-recoverable blocker carries a recovery receipt"
  require blocker.replacementImplementationRevisionRef.isNone
    "terminal blocker carries an unexecuted replacement revision"
  validateEscalation budget digest blocker handle

/-- What the notice of a terminal fact says. -/
structure NoticeProjection where
  kind : String
  terminalFactRef : String
  reason : String
  obligations : List String

/-- `_terminal_notice_projection` -/
def terminalNoticeProjection (terminal : TargetTerminal) (semanticBarrierFactRef : Option String) :
    Except String NoticeProjection :=
  match terminal with
  | .closure closure =>
    .ok ⟨"target_completed", closure.targetCommitRef, "terminal candidate ready", []⟩
  | .blocker blocker =>
    .ok ⟨"coordination_required", blocker.blockerRef, blocker.reason, blocker.pendingObligationRefs⟩
  | .barrier barrier => do
    requireOptionalRef semanticBarrierFactRef "SemanticBarrier fact"
    pure ⟨"semantic_change_required", semanticBarrierFactRef.getD "", barrier.reason,
      barrier.routeDispositions.map (·.dispositionRef)⟩
  | .disposition disposition =>
    .ok ⟨"semantic_change_required", disposition.terminalFactRef, disposition.reason,
      disposition.custodyRefs⟩

/-- The notice says what is expected of it. -/
def NoticeProjection.isSaid (expected : NoticeProjection) (notice : TargetWorkNotice) : Bool :=
  notice.kind = expected.kind && notice.terminalFactRef = expected.terminalFactRef &&
    notice.compactReason = expected.reason && notice.pendingObligationRefs = expected.obligations

/-- The notice is one of this handle. -/
def isNoticeOf (notice : TargetWorkNotice) (handle : TargetWorkHandle) : Bool :=
  notice.targetRef = handle.targetRef && notice.targetRunRef = handle.targetRunRef &&
    notice.executionAttemptRef = some handle.executionAttemptRef &&
    notice.executionFenceRef = some handle.executionFenceRef

end TargetRun

end MetaResearch.Bundle

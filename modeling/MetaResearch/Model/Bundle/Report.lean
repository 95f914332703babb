import Mathlib.Data.List.Lex
import Mathlib.Data.List.Sort
import Mathlib.Data.Prod.Lex
import Mathlib.Data.String.Basic
import MetaResearch.Model.Bundle.Completion
import MetaResearch.Model.Bundle.Records

/-! # Accepted closures, result sets and the Bundle report

The part of the fixed prototype after the completion gate: the check of accepted measurement closures,
the aggregation of accepted cells, the semantic replan gate and the report. The digest of a text is a
parameter.
-/

namespace MetaResearch.Bundle

namespace Completion

/-- `_validate_projection` -/
def validateProjection (budget : Budget) (name : String) (value : Value) : Except String Unit := do
  let _ ← value.validateClosed budget name
  pure ()

/-- `_require_ref` of an optional value -/
def requireOptionalRef (value : Option String) (name : String) : Except String Unit :=
  match value with
  | some value => requireRef value name
  | none => .error (name ++ " is absent")

/-! ### Accepted closures -/

/-- A review of changed code. -/
def verifyReviewedCode (review : CodeReviewRecord) (implementationRevisionRef : String) :
    Except String Unit := do
  require (review.disposition = "reviewed") "non-empty code diff requires code-review"
  requireOptionalRef review.fixedBaseRef "code-review fixed base"
  requireOptionalRef review.diffRef "code-review diff"
  requireOptionalRef review.reviewRef "code-review ref"
  requireOptionalRef review.reviewParentSessionRef "code-review parent Session"
  requireOptionalRef review.reviewerSessionRef "code-review reviewer Session"
  requireOptionalRef review.reviewerSpawnEvidenceRef "code-review spawn evidence"
  require (review.reviewerSessionRef ≠ review.reviewParentSessionRef)
    "code-review must run in an independent child Session"
  require (review.reviewedRevisionRef = some implementationRevisionRef)
    "code-review is stale for the executed revision"

/-- The record of an empty diff. -/
def verifyEmptyDiff (review : CodeReviewRecord) : Except String Unit := do
  require (review.disposition = "not_applicable(empty_diff)")
    "empty code diff requires a not-applicable record"
  require (review.reviewedRevisionRef.isNone && review.fixedBaseRef.isNone && review.diffRef.isNone &&
      review.reviewRef.isNone && review.reviewParentSessionRef.isNone &&
      review.reviewerSessionRef.isNone && review.reviewerSpawnEvidenceRef.isNone)
    "empty code diff cannot claim a synthetic review"

/-- `_verify_code_review` -/
def verifyCodeReview (budget : Budget) (review : CodeReviewRecord) (implementationRevisionRef : String) :
    Except String Unit := do
  validateProjection budget "CodeReviewRecord" review.value
  require (review.candidateRevisionRef = implementationRevisionRef)
    "code review candidate and implementation revision differ"
  require (review.unresolvedStandardsFindings = 0) "code-review has unresolved Standards findings"
  require (review.unresolvedSpecFindings = 0) "code-review has unresolved Spec findings"
  if review.codeChanged then verifyReviewedCode review implementationRevisionRef
  else verifyEmptyDiff review

/-- The aggregation that the evidence has to hash. -/
def aggregationText (aggregation : ProtocolAggregationProof) : String :=
  Json.dumps (.object [("protocol_version_ref", .text aggregation.protocolVersionRef),
    ("part_keys", .texts aggregation.partKeys), ("aggregation_rule_ref", .text aggregation.aggregationRuleRef)])

/-- The proof of the aggregation of the parts. -/
def verifyAggregation (budget : Budget) (digest : String → String) (protocolVersionRef : String)
    (parts : List String) (aggregation : ProtocolAggregationProof) : Except String Unit := do
  require (aggregation.protocolVersionRef = protocolVersionRef && aggregation.partKeys = parts)
    "Protocol aggregation is incomplete or drifted"
  requireRef aggregation.aggregationRuleRef "aggregation rule"
  requireRef aggregation.aggregationEvidenceBinding.subjectRef "aggregation evidence"
  requireRef aggregation.aggregationEvidenceBinding.contentHashRef "aggregation evidence hash"
  require (aggregation.aggregationEvidenceBinding.contentHashRef = digest (aggregationText aggregation))
    "Protocol aggregation evidence does not bind version, parts, and rule"
  validateReceipt budget aggregation.aggregationEvidenceReceipt
    aggregation.aggregationEvidenceBinding.contentHashRef "aggregation evidence receipt"

/-- `_verify_protocol_aggregation` -/
def verifyProtocolAggregation (budget : Budget) (digest : String → String)
    (closure : AcceptedMeasurementClosure) : Except String Unit := do
  let parts := closure.protocolInternalParts.map ProtocolPart.partKey
  require (decide parts.Nodup && parts.all (!Text.isBlank ·)) "Protocol internal parts are invalid"
  require (closure.protocolInternalParts.all (·.protocolVersionRef = closure.protocolVersionRef))
    "Protocol part belongs to another version"
  match closure.protocolAggregationProof with
  | some aggregation =>
    if parts.isEmpty then .error "aggregation proof exists without Protocol parts"
    else verifyAggregation budget digest closure.protocolVersionRef parts aggregation
  | none => require parts.isEmpty "Protocol aggregation is incomplete or drifted"

/-- What a formal measurement has to carry. -/
def verifyMeasured (closure : AcceptedMeasurementClosure) : Except String Unit := do
  requireOptionalRef closure.evaluationAttemptRef "EvaluationAttemptRef"
  requireOptionalRef closure.metricResultRef "MetricResultRef"
  require (!(closure.metricValues.isEmpty && closure.rootCompletionReceipt.isNone) &&
      closure.rgFormalMeasurementReceipt.isSome)
    "accepted EvaluationAttempt has no Metric values or receipt"

/-- The acceptance flags, and what a measurement or its absence may claim. -/
def verifyMeasurement (closure : AcceptedMeasurementClosure) : Except String Unit := do
  require ((closure.formalMeasurementAccepted ||
      closure.rootCompletionReceipt.isSome && closure.metricValues.isEmpty) &&
      closure.currentnessKnown && closure.current)
    "measurement closure is unaccepted, stale, or unknown"
  if closure.formalMeasurementAccepted then verifyMeasured closure
  else
    require (closure.metricResultRef.isNone && closure.metricValues.isEmpty &&
        closure.rgFormalMeasurementReceipt.isNone)
      "unmeasured work cannot claim a MetricResult or measurement receipt"

/-- The coverage that a closure claims. -/
def verifyCoverage (closure : AcceptedMeasurementClosure) (briefs : List (String × ExperimentBrief)) :
    Except String Unit := do
  require (!closure.experimentKeys.isEmpty && decide closure.experimentKeys.Nodup)
    "measurement closure has invalid ExperimentKey coverage"
  require (closure.experimentKeys.all fun key => (dictGet briefs key).isSome)
    "measurement closure references an unknown ExperimentKey"
  require (closure.experimentKeys.all fun key => (unitsOf briefs key).contains closure.measurementUnitKey)
    "measurement closure does not match its ExperimentBrief cell"

/-- The artifacts and the provenance of a closure. -/
def verifyProvenance (closure : AcceptedMeasurementClosure) : Except String Unit := do
  require (decide closure.checkpointArtifactRefs.Nodup) "measurement closure repeats a checkpoint"
  checkAll (requireRef · "CheckpointArtifactRef") closure.checkpointArtifactRefs
  require (!closure.implementationProvenanceRefs.isEmpty && decide closure.implementationProvenanceRefs.Nodup)
    "implementation provenance is absent or duplicated"
  checkAll (requireRef · "implementation provenance") closure.implementationProvenanceRefs

/-- A native closure has both reviews, a root completion neither. -/
def verifyReviews (budget : Budget) (closure : AcceptedMeasurementClosure) : Except String Unit :=
  match closure.rootCompletionReceipt with
  | none =>
    match closure.codeReview, closure.resultReview with
    | some review, some _ => verifyCodeReview budget review closure.implementationRevisionRef
    | _, _ => .error "legacy measurement closure requires both independent reviews"
  | some receipt => do
    require (closure.codeReview.isNone && closure.resultReview.isNone)
      "root completion cannot claim synthetic reviews"
    validateReceipt budget receipt closure.executionAttemptRef "root completion receipt"

/-- The held-fixed slots of a closure are bound. -/
def verifyHeldFixed (budget : Budget) (closure : AcceptedMeasurementClosure)
    (briefs : List (String × ExperimentBrief)) : Except String Unit := do
  let bindings ← bindingMap budget closure.heldFixedBindings
  require (sameSet (bindings.map Prod.fst) (closure.experimentKeys.flatMap (slotsOf briefs)))
    "measurement closure does not bind every held-fixed slot exactly once"

/-- The input binding of one execution subject. -/
def verifyInputBinding (budget : Budget) (binding : Option ExecutionInputBindingProof)
    (subjectRef : Option String) (name : String) : Except String Unit :=
  match binding with
  | none => require subjectRef.isNone (name ++ " is absent")
  | some binding => do
    requireRef binding.bindingRef name
    require (subjectRef = some binding.subjectRef) (name ++ " points at another subject")
    validateReceipt budget binding.acceptanceReceipt binding.bindingRef (name ++ " receipt")

/-- The two execution subjects have their own input bindings. -/
def verifyInputBindings (budget : Budget) (closure : AcceptedMeasurementClosure) : Except String Unit := do
  verifyInputBinding budget (some closure.variantRunInputBinding) (some closure.variantRunRef)
    "VariantRun input binding"
  verifyInputBinding budget closure.evaluationAttemptInputBinding closure.evaluationAttemptRef
    "EvaluationAttempt input binding"
  require (closure.evaluationAttemptInputBinding.all
      (·.bindingRef ≠ closure.variantRunInputBinding.bindingRef))
    "execution subjects share one input binding"
  require (closure.evaluationAttemptInputBinding.all
      (·.acceptanceReceipt.receiptRef ≠ closure.variantRunInputBinding.acceptanceReceipt.receiptRef))
    "execution input bindings share one receipt"

/-- The Formal Measurement receipt: by now a measured closure has both, and an unmeasured one has no
receipt. -/
def verifyMeasurementReceipt (budget : Budget) (closure : AcceptedMeasurementClosure) :
    Except String Unit :=
  match closure.rgFormalMeasurementReceipt, closure.evaluationAttemptRef with
  | some receipt, some attempt => validateReceipt budget receipt attempt "Formal Measurement receipt"
  | _, _ => .ok ()

/-- The receipts of the owners. -/
def verifyOwnerReceipts (budget : Budget) (closure : AcceptedMeasurementClosure) : Except String Unit := do
  validateReceipt budget closure.rmAssetReceipt closure.assetManifestRef "RM asset receipt"
  validateReceipt budget closure.arExecutionReceipt closure.executionAttemptRef "AR execution receipt"
  verifyMeasurementReceipt budget closure
  validateReceipt budget closure.rgTargetCommitReceipt closure.targetCommitRef "TargetCommit receipt"

/-- The result review of a native closure. -/
def verifyResultReview (closure : AcceptedMeasurementClosure) (review : ResultReviewRecord) :
    Except String Unit := do
  require (closure.evaluationAttemptRef = some review.reviewedEvaluationAttemptRef &&
      closure.metricResultRef = some review.reviewedMetricResultRef &&
      closure.assetManifestRef = review.reviewedAssetManifestRef && review.unresolvedFindings = 0)
    "result review does not bind the selected closure"
  requireRef review.reviewRef "result review ref"
  requireRef review.reviewParentSessionRef "result review parent Session"
  requireRef review.reviewerSessionRef "result reviewer Session"
  requireRef review.reviewerSpawnEvidenceRef "result reviewer spawn evidence"
  require (review.reviewerSessionRef ≠ review.reviewParentSessionRef)
    "result review must run in an independent child Session"

/-- `_verify_accepted_closure` -/
def verifyAcceptedClosure (budget : Budget) (digest : String → String)
    (closure : AcceptedMeasurementClosure) (briefs : List (String × ExperimentBrief)) :
    Except String Unit := do
  validateProjection budget "AcceptedMeasurementClosure" closure.value
  checkAll (fun entry : String × String => requireRef entry.2 entry.1)
    [("TargetRef", closure.targetRef), ("TargetRunRef", closure.targetRunRef),
      ("TargetCommitRef", closure.targetCommitRef), ("VariantRunRef", closure.variantRunRef),
      ("EvaluationRef", closure.evaluationRef), ("ProtocolVersionRef", closure.protocolVersionRef),
      ("AssetManifestRef", closure.assetManifestRef), ("ExecutionAttemptRef", closure.executionAttemptRef),
      ("ExecutionFenceRef", closure.executionFenceRef),
      ("ImplementationRevisionRef", closure.implementationRevisionRef),
      ("measurement cell", closure.measurementUnitKey)]
  verifyMeasurement closure
  require (closure.evaluationAttemptRef.isNone = closure.evaluationAttemptInputBinding.isNone)
    "EvaluationAttempt and its input binding must exist together"
  checkAll (requireRef · "EvaluationAttemptRef") closure.evaluationAttemptRef.toList
  verifyCoverage closure briefs
  verifyProvenance closure
  verifyReviews budget closure
  verifyHeldFixed budget closure briefs
  verifyInputBindings budget closure
  verifyOwnerReceipts budget closure
  checkAll (verifyResultReview closure) closure.resultReview.toList
  verifyProtocolAggregation budget digest closure

/-! ### Result sets -/

/-- The cells that a closure realizes. -/
def cellsOf (closure : AcceptedMeasurementClosure) : List (String × String) :=
  closure.experimentKeys.map (·, closure.measurementUnitKey)

/-- What the loop of `_result_sets` has recorded; a cell occurs as often as it is accepted. -/
structure Accepted where
  cells : List (String × String)
  targetCommits : List String
  evaluationAttempts : List String
  metricResults : List String
  heldByExperiment : String → String → Option String

def Accepted.empty : Accepted := ⟨[], [], [], [], fun _ _ => none⟩

/-- Record an identity that no other closure has selected. -/
def selectIdentity (name : String) (value : Option String) (selected : List String) :
    Except String (List String) :=
  match value with
  | none => .ok selected
  | some value => do
    require (!selected.contains value) ("two Targets selected one " ++ name)
    pure (value :: selected)

/-- Record the held-fixed revisions of one experiment of a closure. -/
def establishSlots (budget : Budget) (briefs : List (String × ExperimentBrief))
    (closure : AcceptedMeasurementClosure) (held : String → String → Option String) (key : String) :
    Except String (String → String → Option String) := do
  let bindings ← bindingMap budget closure.heldFixedBindings
  (slotsOf briefs key).foldlM (fun held slot =>
    establish "accepted closures drifted a held-fixed semantic slot" bindings held key slot) held

/-- One round of the loop of `_result_sets`. -/
def acceptClosure (budget : Budget) (digest : String → String) (briefs : List (String × ExperimentBrief))
    (accepted : Accepted) (entry : String × AcceptedMeasurementClosure) : Except String Accepted := do
  require (entry.1 = entry.2.targetRef) "accepted closure mapping changed its TargetRef"
  verifyAcceptedClosure budget digest entry.2 briefs
  let commits ← selectIdentity "TargetCommit" (some entry.2.targetCommitRef) accepted.targetCommits
  let attempts ← selectIdentity "EvaluationAttempt" entry.2.evaluationAttemptRef
    accepted.evaluationAttempts
  let results ← selectIdentity "MetricResult" entry.2.metricResultRef accepted.metricResults
  let held ← entry.2.experimentKeys.foldlM (establishSlots budget briefs entry.2)
    accepted.heldByExperiment
  pure {
    cells := accepted.cells ++ cellsOf entry.2
    targetCommits := commits
    evaluationAttempts := attempts
    metricResults := results
    heldByExperiment := held }

/-- `tuple(sorted(values))` of a set -/
def sortedSet (values : List String) : List String := values.dedup.insertionSort (· ≤ ·)

/-- All required units of the brief are accepted. -/
def isRealized (cells : List (String × String)) (brief : ExperimentBrief) : Bool :=
  sameSet brief.requiredMeasurementUnitKeys
    ((cells.filter (·.1 = brief.experimentKey)).map Prod.snd)

/-- `_result_sets` -/
def resultSets (budget : Budget) (digest : String → String) (plan : FormalPlan)
    (accepted : List (String × AcceptedMeasurementClosure)) :
    Except String (List String × List String) := do
  let briefs ← briefsByKey budget plan
  let recorded ← accepted.foldlM (acceptClosure budget digest briefs) Accepted.empty
  require (recorded.cells.all fun cell => recorded.cells.count cell = 1)
    "one measurement cell has multiple accepted closures"
  pure (sortedSet ((plan.briefs.filter (isRealized recorded.cells)).map ExperimentBrief.experimentKey),
    sortedSet ((plan.briefs.filter (!isRealized recorded.cells ·)).map ExperimentBrief.experimentKey))

/-! ### The report gate -/

/-- The references of a caller, frozen. -/
def freezeRefs (values : List String) (name : String) : Except String Unit := do
  checkAll (requireRef · name) values
  require (decide values.Nodup) (name ++ " contains duplicate refs")

def verifyBlocked (blockerRefs semanticChangeRequired : List String) : Except String Unit := do
  require (!blockerRefs.isEmpty) "blocked disposition lacks a blocker"
  require semanticChangeRequired.isEmpty "technical blocker is not semantic replan"

def verifyRealized (realized remaining allExperimentKeys semanticChangeRequired : List String) :
    Except String Unit := do
  require (sameSet realized allExperimentKeys && remaining.isEmpty)
    "realized disposition does not cover every ExperimentBrief"
  require semanticChangeRequired.isEmpty "realized disposition carries semantic changes"

/-- `_verify_report_gate` -/
def verifyReportGate (disposition : String) (realized remaining allExperimentKeys blockerRefs
    semanticChangeRequired activeTargetRefs pendingSubmissionRefs outcomeUnknownRefs : List String) :
    Except String Unit := do
  require (["realized", "blocked", "replan_required"].contains disposition)
    "Bundle report disposition is invalid"
  require (activeTargetRefs.isEmpty && pendingSubmissionRefs.isEmpty && outcomeUnknownRefs.isEmpty)
    "active, pending, or unknown work prevents a Bundle disposition"
  require (blockerRefs.isEmpty || disposition = "blocked") "a technical blocker cannot be overtaken"
  if disposition = "blocked" then verifyBlocked blockerRefs semanticChangeRequired
  else if disposition = "realized" then
    verifyRealized realized remaining allExperimentKeys semanticChangeRequired
  else
    require (!remaining.isEmpty && !semanticChangeRequired.isEmpty)
      "replan disposition lacks remaining work or required semantic change"

/-! ### The semantic replan gate -/

/-- What the loop of `_closed_semantic_replan_payload` has collected. -/
structure Replan where
  expectedRouteRefs : List String
  actualRouteRefs : List String
  requiredChanges : List String
  evidenceRefs : List String
  dispositionRefs : List String
  reconciliationReceiptRefs : List String
  reconciliationsByOperation : List (String × String × ReceiptProof)
  receiptSubjects : List (String × String)

def Replan.empty : Replan := ⟨[], [], [], [], [], [], [], []⟩

def collectRoute (replan : Replan) (route : RouteSpec) : Except String Replan := do
  require (!replan.expectedRouteRefs.contains route.routeRef)
    "semantic route appears in two Target candidates"
  pure { replan with expectedRouteRefs := route.routeRef :: replan.expectedRouteRefs }

/-- The state that an operation is reconciled to is the same on every route. -/
def collectReconciliation (replan : Replan) (item : ExternalOperationReconciliation) :
    Except String Replan := do
  require ((replan.reconciliationsByOperation.lookup item.operationRef).all
      (· = (item.outcome, item.receipt)))
    "external operation has inconsistent reconciliation across routes"
  require ((replan.receiptSubjects.lookup item.receipt.receiptRef).all (· = item.operationRef))
    "external reconciliation receipt identity binds two operations"
  pure { replan with
    reconciliationsByOperation :=
      (item.operationRef, item.outcome, item.receipt) :: replan.reconciliationsByOperation
    receiptSubjects := (item.receipt.receiptRef, item.operationRef) :: replan.receiptSubjects
    reconciliationReceiptRefs := item.receipt.receiptRef :: replan.reconciliationReceiptRefs }

def collectDisposition (replan : Replan) (disposition : RouteDisposition) : Except String Replan := do
  require (!replan.actualRouteRefs.contains disposition.routeRef)
    "semantic route was disposed more than once"
  require (!replan.dispositionRefs.contains disposition.dispositionRef)
    "two semantic routes share one disposition identity"
  disposition.externalReconciliations.foldlM collectReconciliation { replan with
    actualRouteRefs := disposition.routeRef :: replan.actualRouteRefs
    dispositionRefs := disposition.dispositionRef :: replan.dispositionRefs
    requiredChanges := disposition.requiredChanges ++ replan.requiredChanges
    evidenceRefs := disposition.evidenceRefs ++ replan.evidenceRefs }

/-- One unresolved label with its candidate, its Target and the barrier of the Target. -/
def collectBarrier (replan : Replan) (candidate : TargetCandidate) (targetRef : String)
    (barrier : SemanticBarrier) : Except String Replan := do
  require (barrier.targetRef = targetRef) "semantic barrier points at another Target"
  require (barrier.experimentKeys = candidate.experimentKeys)
    "semantic barrier has wrong Target ExperimentKey coverage"
  let replan ← candidate.routes.foldlM collectRoute replan
  barrier.routeDispositions.foldlM collectDisposition replan

/-- One round of the loop over the unresolved labels, whose candidates and Targets are known. -/
def collectLabel (candidates : List (String × TargetCandidate)) (targetByLabel : List (String × String))
    (semanticBarriers : List (String × SemanticBarrier)) (replan : Replan) (label : String) :
    Except String Replan :=
  match candidates.lookup label, targetByLabel.lookup label with
  | some candidate, some targetRef =>
    match semanticBarriers.lookup targetRef with
    | some barrier => collectBarrier replan candidate targetRef barrier
    | none => .ok replan
  | _, _ => .ok replan

/-- The labels that are not accepted, and the Targets that then need a barrier. -/
def unresolvedLabels (candidates : List (String × TargetCandidate)) (acceptedLabels : List String) :
    List String :=
  (candidates.map Prod.fst).filter (!acceptedLabels.contains ·)

def expectedBarrierTargets (candidates : List (String × TargetCandidate))
    (targetByLabel : List (String × String)) (acceptedLabels : List String) : List String :=
  (unresolvedLabels candidates acceptedLabels).filterMap (List.lookup · targetByLabel)

abbrev ReplanPayload := List String × List String × List String × List String

/-- What is left when the barriers are those of the unresolved Targets. -/
def closedReplan (budget : Budget) (digest : String → String) (plan : FormalPlan)
    (candidates : List (String × TargetCandidate)) (targetByLabel : List (String × String))
    (accepted : List (String × AcceptedMeasurementClosure)) (acceptedLabels : List String)
    (semanticBarriers : List (String × SemanticBarrier)) : Except String ReplanPayload := do
  let sets ← resultSets budget digest plan accepted
  require (!sets.2.isEmpty &&
      sameSet (semanticBarriers.flatMap fun entry => entry.2.experimentKeys) sets.2)
    "semantic barriers do not exactly cover remaining ExperimentKeys"
  let replan ← (sortedSet (unresolvedLabels candidates acceptedLabels)).foldlM
    (collectLabel candidates targetByLabel semanticBarriers) Replan.empty
  require (sameSet replan.actualRouteRefs replan.expectedRouteRefs)
    "semantic barriers do not exactly dispose every remaining route"
  pure (sortedSet replan.requiredChanges, sortedSet replan.evidenceRefs,
    sortedSet replan.dispositionRefs, sortedSet replan.reconciliationReceiptRefs)

/-- The checks of the label mappings. -/
def verifyLabels (candidates : List (String × TargetCandidate)) (targetByLabel : List (String × String))
    (acceptedLabels : List String) : Except String Unit := do
  require (acceptedLabels.all ((candidates.map Prod.fst).contains ·)) "accepted strategy label is unknown"
  require (sameSet (targetByLabel.map Prod.fst) (candidates.map Prod.fst))
    "Target identity mapping is incomplete"
  require (decide (targetByLabel.map Prod.snd).Nodup) "two strategy labels share one Target identity"

/-- `_closed_semantic_replan_payload` -/
def closedSemanticReplanPayload (budget : Budget) (digest : String → String) (plan : FormalPlan)
    (candidates : List (String × TargetCandidate)) (targetByLabel : List (String × String))
    (accepted : List (String × AcceptedMeasurementClosure)) (acceptedLabels : List String)
    (semanticBarriers : List (String × SemanticBarrier)) (strategyComplete : Bool)
    (requestedTargetRefs blockedTargetRefs pendingNoticeRefs : List String) :
    Except String (Option ReplanPayload) :=
  if semanticBarriers.isEmpty || !strategyComplete || !requestedTargetRefs.isEmpty ||
      !blockedTargetRefs.isEmpty || !pendingNoticeRefs.isEmpty then .ok none
  else do
    verifyLabels candidates targetByLabel acceptedLabels
    if sameSet (semanticBarriers.map Prod.fst)
        (expectedBarrierTargets candidates targetByLabel acceptedLabels) then
      some <$> closedReplan budget digest plan candidates targetByLabel accepted acceptedLabels
        semanticBarriers
    else .ok none

/-! ### The report -/

/-- The arguments of `build_report`; a mapping is the list of its entries in insertion order. -/
structure ReportArguments where
  disposition : String
  request : StageRunRequest
  plan : FormalPlan
  accepted : List (String × AcceptedMeasurementClosure)
  blockerRefs : List String := []
  semanticChangeRequired : List String := []
  evidenceRefs : List String := []
  routeDispositionRefs : List String := []
  reconciliationReceiptRefs : List String := []
  additionalOwnerReceiptRefs : List String := []
  stopDecisionRefs : List String := []
  recoveryEvidenceRefs : List String := []
  codeReviewPreflights : List TargetExecutionPreflight := []
  activeTargetRefs : List String := []
  pendingSubmissionRefs : List String := []
  outcomeUnknownRefs : List String := []

/-- The checks of the request. -/
def verifyRequest (request : StageRunRequest) (plan : FormalPlan) : Except String Unit := do
  require (request.formalPlanRef = plan.formalPlanRef &&
      request.formalPlanContentHashRef = plan.contentBinding.contentHashRef)
    "StageRunRequest is bound to another FormalPlan"
  require (request.typed && request.currentnessKnown && request.current &&
      request.rootExecutionFenceCurrent) "StageRunRequest is untyped, stale, or unfenced"
  requireRef request.requestRef "BundleStageRunRequestRef"

/-- The references of the arguments are frozen in this order. -/
def freezeArguments (budget : Budget) (arguments : ReportArguments) : Except String Unit := do
  freezeRefs arguments.blockerRefs "blocker ref"
  freezeRefs arguments.semanticChangeRequired "semantic change ref"
  freezeRefs arguments.evidenceRefs "evidence ref"
  freezeRefs arguments.routeDispositionRefs "route disposition ref"
  freezeRefs arguments.reconciliationReceiptRefs "reconciliation receipt ref"
  freezeRefs arguments.additionalOwnerReceiptRefs "Owner receipt ref"
  freezeRefs arguments.stopDecisionRefs "StopDecisionRef"
  freezeRefs arguments.recoveryEvidenceRefs "recovery evidence ref"
  checkAll (fun preflight : TargetExecutionPreflight =>
    validateProjection budget "TargetExecutionPreflight" preflight.value) arguments.codeReviewPreflights
  freezeRefs arguments.activeTargetRefs "active TargetRef"
  freezeRefs arguments.pendingSubmissionRefs "pending submission ref"
  freezeRefs arguments.outcomeUnknownRefs "unknown operation ref"

/-- `sorted(values)` -/
def sortedRefs (values : List String) : List String := values.insertionSort (· ≤ ·)

/-- The commit of a closure with its revisions and provenance. -/
def provenanceOf (closure : AcceptedMeasurementClosure) : String × List String :=
  (closure.targetCommitRef, sortedSet (closure.heldFixedBindings.map (·.implementationRevisionRef) ++
    closure.implementationRevisionRef :: closure.implementationProvenanceRefs))

/-- The receipts of the owners that a closure carries. -/
def ownerReceiptsOf (closure : AcceptedMeasurementClosure) : List String :=
  [closure.rmAssetReceipt.receiptRef, closure.arExecutionReceipt.receiptRef,
    closure.rgTargetCommitReceipt.receiptRef,
    closure.variantRunInputBinding.acceptanceReceipt.receiptRef] ++
  closure.rgFormalMeasurementReceipt.toList.map (·.receiptRef) ++
  closure.evaluationAttemptInputBinding.toList.map (·.acceptanceReceipt.receiptRef) ++
  closure.rootCompletionReceipt.toList.map (·.receiptRef) ++
  closure.protocolAggregationProof.toList.map (·.aggregationEvidenceReceipt.receiptRef)

/-- The report of accepted arguments, before it is validated. -/
def reportOf (arguments : ReportArguments) (realized remaining : List String) : BundleReport :=
  let closures := arguments.accepted.map Prod.snd
  let codeReviews := arguments.codeReviewPreflights.map (·.codeReview)
  let resultReviews := closures.filterMap (·.resultReview)
  { disposition := arguments.disposition
    stageRequestRef := arguments.request.requestRef
    formalPlanRef := arguments.plan.formalPlanRef
    acceptedTargetCommitRefs := sortedRefs (closures.map (·.targetCommitRef))
    acceptedEvaluationAttemptRefs := sortedRefs (closures.filterMap (·.evaluationAttemptRef))
    metricResultRefs := sortedRefs (closures.filterMap (·.metricResultRef))
    executionAttemptRefs := sortedRefs (closures.map (·.executionAttemptRef))
    executionFenceRefs := sortedRefs (closures.map (·.executionFenceRef))
    checkpointArtifactRefs := sortedRefs (closures.flatMap (·.checkpointArtifactRefs))
    realizedExperimentKeys := realized
    remainingExperimentKeys := remaining
    blockerRefs := arguments.blockerRefs
    semanticChangeRequired := arguments.semanticChangeRequired
    evidenceRefs := arguments.evidenceRefs
    routeDispositionRefs := arguments.routeDispositionRefs
    reconciliationReceiptRefs := arguments.reconciliationReceiptRefs
    ownerReceiptRefs := sortedSet (arguments.additionalOwnerReceiptRefs ++
      arguments.plan.acceptanceReceipt.receiptRef :: closures.flatMap ownerReceiptsOf)
    stopDecisionRefs := sortedRefs arguments.stopDecisionRefs
    recoveryEvidenceRefs := sortedRefs arguments.recoveryEvidenceRefs
    codeReviewPreflights := arguments.codeReviewPreflights
    codeReviewRefs := sortedSet (codeReviews.filterMap (·.reviewRef))
    resultReviews := resultReviews.insertionSort fun first second => first.reviewRef ≤ second.reviewRef
    resultReviewRefs := sortedRefs (resultReviews.map (·.reviewRef))
    reviewerSessionRefs := sortedSet (codeReviews.filterMap (·.reviewerSessionRef) ++
      resultReviews.map (·.reviewerSessionRef))
    reviewerSpawnEvidenceRefs := sortedSet (codeReviews.filterMap (·.reviewerSpawnEvidenceRef) ++
      resultReviews.map (·.reviewerSpawnEvidenceRef))
    provenance := (closures.map provenanceOf).insertionSort fun first second =>
      toLex first ≤ toLex second }

/-- `validate_bundle_report`, answering the digest -/
def validateBundleReport (budget : Budget) (digest : String → String) (report : BundleReport) :
    Except String String := do
  let serialized ← report.value.validateClosed budget "BundleReport"
  require (["realized", "blocked", "replan_required"].contains report.disposition)
    "Bundle report disposition is invalid"
  require (!report.realizedExperimentKeys.any (report.remainingExperimentKeys.contains ·))
    "Bundle report ExperimentKey sets overlap"
  require (report.disposition ≠ "realized" || report.remainingExperimentKeys.isEmpty)
    "realized Bundle report retains remaining work"
  pure (digest serialized)

/-- `build_report` -/
def buildReport (budget : Budget) (digest : String → String) (arguments : ReportArguments) :
    Except String BundleReport := do
  validateProjection budget "BundleStageRunRequest" arguments.request.value
  let briefs ← briefsByKey budget arguments.plan
  verifyRequest arguments.request arguments.plan
  freezeArguments budget arguments
  let sets ← resultSets budget digest arguments.plan arguments.accepted
  verifyReportGate arguments.disposition sets.1 sets.2 (briefs.map Prod.fst) arguments.blockerRefs
    arguments.semanticChangeRequired arguments.activeTargetRefs arguments.pendingSubmissionRefs
    arguments.outcomeUnknownRefs
  let report := reportOf arguments sets.1 sets.2
  let _ ← validateBundleReport budget digest report
  pure report

end Completion

end MetaResearch.Bundle

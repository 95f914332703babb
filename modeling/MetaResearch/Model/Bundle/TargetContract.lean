import Mathlib.Logic.Function.Basic
import MetaResearch.Model.Bundle.Measurement
import MetaResearch.ToMathlib.Saturation

/-! # Completion contracts and rolling strategies

The append-only strategy of formal Targets: every update is checked against the candidates
accumulated so far, and the update that seals the strategy also passes the cell gate. The digest of
a document is a parameter, since nothing depends on how it is computed.
-/

namespace MetaResearch.Bundle

structure FrozenSemanticInputs where
  experimentKey : String
  goal : String
  characteristics : String
  boundaryConstraints : String
  semanticDelta : String
deriving DecidableEq, Repr

structure NormalizedExperimentCompletion where
  semanticInputs : FrozenSemanticInputs
  brief : ExperimentBrief
deriving DecidableEq, Repr

structure NormalizedCompletionContract where
  planDocumentHash : String
  experiments : List NormalizedExperimentCompletion
  schemaRef : String
deriving DecidableEq, Repr

structure FormalTargetCandidate where
  candidate : TargetCandidate
  semanticInputs : List FrozenSemanticInputs
  measurementContract : TargetMeasurementContractCandidate
  riskClass : String
  schemaRef : String

structure FormalStrategyUpdate where
  update : StrategyUpdate
  candidates : List FormalTargetCandidate
  schemaRef : String
  notes : Option String

structure RollingStrategyState where
  completionContractHash : String
  strategy : StrategyUpdate
  candidates : List FormalTargetCandidate
  schemaRef : String

def normalizedCompletionContractSchemaRef : String :=
  "meta-research/bundle-normalized-completion-contract/v1"

def formalTargetCandidateSchemaRef : String := "meta-research/bundle-formal-target-candidate/v2"

def formalStrategyUpdateSchemaRef : String := "meta-research/bundle-formal-strategy-update/v2"

def rollingStrategyStateSchemaRef : String := "meta-research/bundle-rolling-strategy-state/v2"

/-- `_semantic_to_dict` -/
def FrozenSemanticInputs.toDict (inputs : FrozenSemanticInputs) : Json :=
  .object [("experiment_key", .text inputs.experimentKey), ("goal", .text inputs.goal),
    ("characteristics", .text inputs.characteristics),
    ("boundary_constraints", .text inputs.boundaryConstraints),
    ("semantic_delta", .text inputs.semanticDelta)]

/-- `normalized_completion_contract_to_dict` before its own check, which is repeated on the result. -/
def NormalizedCompletionContract.toDict (contract : NormalizedCompletionContract) : Json :=
  .object [("schema_ref", .text contract.schemaRef),
    ("plan_document_hash", .text contract.planDocumentHash),
    ("experiments", .array (contract.experiments.map fun item =>
      .object [("semantic_inputs", item.semanticInputs.toDict),
        ("brief", item.brief.projection.plainValue)]))]

/-- `completion_contract_hash` -/
def completionContractHash (budget : Budget) (digest : String → String)
    (contract : NormalizedCompletionContract) : Except String String := do
  let encoded ← validateJsonRoot budget contract.toDict "NormalizedCompletionContract" true
  pure (digest encoded)

/-- The value under a key of a dictionary built from the entries: the last one wins. -/
def dictGet {α : Type} (entries : List (String × α)) (key : String) : Option α :=
  entries.reverse.lookup key

def NormalizedCompletionContract.byKey (contract : NormalizedCompletionContract) :
    List (String × NormalizedExperimentCompletion) :=
  contract.experiments.map fun item => (item.brief.experimentKey, item)

def NormalizedCompletionContract.briefs (contract : NormalizedCompletionContract) :
    List (String × ExperimentBrief) :=
  contract.experiments.map fun item => (item.brief.experimentKey, item.brief)

/-- The held-fixed slots of a known experiment. -/
def slotsOf (briefs : List (String × ExperimentBrief)) (key : String) : List String :=
  (dictGet briefs key).elim [] ExperimentBrief.heldFixedSlots

/-- The required measurement units of a known experiment. -/
def unitsOf (briefs : List (String × ExperimentBrief)) (key : String) : List String :=
  (dictGet briefs key).elim [] ExperimentBrief.requiredMeasurementUnitKeys

/-! ### Candidates -/

/-- The slot and the revision of a binding. -/
def HeldFixedBinding.entry (binding : HeldFixedBinding) : String × String :=
  (binding.semanticSlot, binding.implementationRevisionRef)

/-- The loop of `_binding_map`: the bindings so far, by slot. -/
def bindingMapFrom (budget : Budget) :
    List (String × String) → List HeldFixedBinding → Except String (List (String × String))
  | result, [] => .ok result
  | result, binding :: rest => do
    ref budget binding.semanticSlot "held-fixed slot"
    ref budget binding.implementationRevisionRef "held-fixed revision"
    require ((result.lookup binding.semanticSlot).isNone) "held_fixed_slot_duplicate"
    bindingMapFrom budget (result ++ [binding.entry]) rest

def bindingMap (budget : Budget) (bindings : List HeldFixedBinding) :
    Except String (List (String × String)) :=
  bindingMapFrom budget [] bindings

def verifyRoutes (budget : Budget) (routes : List RouteSpec) : Except String Unit := do
  require (!routes.isEmpty && decide (routes.map RouteSpec.routeRef).Nodup) "candidate_routes_incomplete"
  checkAll (fun route => do
    ref budget route.routeRef "semantic route"
    canonicalStringTuple budget route.knownExternalOperationRefs "route external operations" true)
    routes

/-- `_verify_candidate`, returning the held-fixed revision of each slot. -/
def verifyCandidate (budget : Budget) (candidate : TargetCandidate)
    (briefs : List (String × ExperimentBrief)) : Except String (List (String × String)) := do
  validateClosedBundleProjection budget "TargetCandidate" candidate.projection
  ref budget candidate.localLabel "Target local label"
  canonicalStringTuple budget candidate.experimentKeys "candidate ExperimentKeys" false
  require (candidate.experimentKeys.all fun key => (dictGet briefs key).isSome)
    "candidate_references_unknown_experiment"
  match candidate.measurementUnitKeys with
  | [unit] => do
    ref budget unit "measurement cell"
    canonicalStringTuple budget candidate.dependsOnLabels "candidate dependencies" true
    require (!candidate.dependsOnLabels.contains candidate.localLabel) "candidate_self_dependency"
    require (candidate.experimentKeys.all fun key => (unitsOf briefs key).contains unit)
      "candidate_measurement_cell_not_required"
    let bindings ← bindingMap budget candidate.heldFixedBindings
    require (sameSet (bindings.map Prod.fst) (candidate.experimentKeys.flatMap (slotsOf briefs)))
      "candidate_held_fixed_binding_incomplete"
    ref budget candidate.implementationRevisionRef "ImplementationRevisionRef"
    verifyRoutes budget candidate.routes
    canonicalStringTuple budget candidate.directAcceptedInputAssetRefs "direct accepted assets" true
    pure bindings
  | _ => .error "candidate_must_cover_exactly_one_measurement_cell"

/-- The measurement unit of a candidate that passed the check above. -/
def TargetCandidate.unit (candidate : TargetCandidate) : String :=
  candidate.measurementUnitKeys.headD ""

/-- `_validate_formal_candidate` -/
def validateFormalCandidate (budget : Budget) (contract : NormalizedCompletionContract)
    (formal : FormalTargetCandidate) : Except String Unit := do
  require (formal.schemaRef = formalTargetCandidateSchemaRef) "formal_target_candidate_schema_invalid"
  riskClass formal.riskClass
  let _ ← verifyCandidate budget formal.candidate contract.briefs
  validateMeasurementContract budget formal.measurementContract
  require (formal.measurementContract.experimentKeys = formal.candidate.experimentKeys &&
      formal.measurementContract.measurementUnitKey = formal.candidate.unit)
    "candidate_measurement_contract_binding_drift"
  require (decide (formal.semanticInputs.map FrozenSemanticInputs.experimentKey).Nodup)
    "candidate_semantic_input_duplicate"
  require (sameSet (formal.semanticInputs.map FrozenSemanticInputs.experimentKey)
      formal.candidate.experimentKeys)
    "candidate_semantic_input_set_invalid"
  require (formal.semanticInputs.all fun semantic =>
      (dictGet contract.byKey semantic.experimentKey).any (·.semanticInputs = semantic))
    "candidate_semantic_input_drift"

/-! ### Candidate sets -/

/-- The held-fixed revision that a candidate binds to a slot. -/
def TargetCandidate.revisionOf (candidate : TargetCandidate) (slot : String) : String :=
  ((candidate.heldFixedBindings.map HeldFixedBinding.entry).lookup slot).getD ""

/-- What `_verify_candidate_set` has recorded: labels, the label that uses a unit, and the revision
established for a slot of an experiment. -/
structure Cover where
  labels : List String
  usedUnits : String → Option String
  heldByExperiment : String → String → Option String

def Cover.empty : Cover := ⟨[], fun _ => none, fun _ _ => none⟩

/-- Establish the revision of one slot of an experiment; another one drifts. -/
def establish (drift : String) (bindings : List (String × String)) (held : String → String → Option String)
    (key slot : String) : Except String (String → String → Option String) :=
  let revision := (bindings.lookup slot).getD ""
  match held key slot with
  | none => .ok (Function.update held key (Function.update (held key) slot (some revision)))
  | some previous => do
    require (previous = revision) drift
    pure held

/-- The slots of all experiments that a candidate realizes. -/
def TargetCandidate.heldSlots (candidate : TargetCandidate) (briefs : List (String × ExperimentBrief)) :
    List (String × String) :=
  candidate.experimentKeys.flatMap fun key => (slotsOf briefs key).map (key, ·)

/-- One round of the loop of `_verify_candidate_set`. -/
def coverCandidate (budget : Budget) (briefs : List (String × ExperimentBrief)) (cover : Cover)
    (candidate : TargetCandidate) : Except String Cover := do
  require (!cover.labels.contains candidate.localLabel) "strategy_repeats_target_label"
  let bindings ← verifyCandidate budget candidate briefs
  require ((cover.usedUnits candidate.unit).all (· = candidate.localLabel))
    "measurement_cell_appears_in_two_targets"
  let held ← (candidate.heldSlots briefs).foldlM
    (fun held slot => establish "held_fixed_binding_drift" bindings held slot.1 slot.2)
    cover.heldByExperiment
  pure {
    labels := candidate.localLabel :: cover.labels
    usedUnits := Function.update cover.usedUnits candidate.unit (some candidate.localLabel)
    heldByExperiment := held }

/-- The labels that dependencies can be resolved to. -/
def reachableLabels (candidates : List TargetCandidate) : List String :=
  reachable TargetCandidate.localLabel TargetCandidate.dependsOnLabels candidates

/-- `_verify_acyclic` over candidates of distinct labels -/
def verifyAcyclic (candidates : List TargetCandidate) : Except String Unit := do
  let labels := candidates.map TargetCandidate.localLabel
  require (candidates.all fun candidate => candidate.dependsOnLabels.all (labels.contains ·))
    "strategy_dependency_unknown"
  require (sameSet (reachableLabels candidates) labels) "strategy_dependency_cycle"

def verifyCandidateSet (budget : Budget) (candidates : List FormalTargetCandidate)
    (contract : NormalizedCompletionContract) : Except String Unit := do
  let _ ← (candidates.map FormalTargetCandidate.candidate).foldlM
    (coverCandidate budget contract.briefs) Cover.empty
  verifyAcyclic (candidates.map FormalTargetCandidate.candidate)

/-- The cells that a candidate covers. -/
def TargetCandidate.cells (candidate : TargetCandidate) : List (String × String) :=
  candidate.experimentKeys.map (·, candidate.unit)

/-- The cells that the contract requires. -/
def NormalizedCompletionContract.cells (contract : NormalizedCompletionContract) :
    List (String × String) :=
  contract.experiments.flatMap fun item =>
    item.brief.requiredMeasurementUnitKeys.map (item.brief.experimentKey, ·)

def verifyCompletionCells (budget : Budget) (candidates : List FormalTargetCandidate)
    (contract : NormalizedCompletionContract) : Except String Unit := do
  verifyCandidateSet budget candidates contract
  let counted := candidates.flatMap fun formal => formal.candidate.cells
  require (counted.all (contract.cells.contains ·) && contract.cells.all (counted.contains ·) &&
      contract.cells.all fun cell => counted.count cell = 1)
    "completed_strategy_cell_coverage_invalid"

/-- A sealed strategy passes the cell gate. -/
def verifySealed (budget : Budget) (complete : Bool) (candidates : List FormalTargetCandidate)
    (contract : NormalizedCompletionContract) : Except String Unit :=
  if complete then verifyCompletionCells budget candidates contract else .ok ()

/-! ### Rolling strategies -/

/-- `_validate_update_pair` -/
def validateUpdatePair (budget : Budget) (update : FormalStrategyUpdate)
    (contract : NormalizedCompletionContract) : Except String Unit := do
  require (update.schemaRef = formalStrategyUpdateSchemaRef) "formal_strategy_update_schema_invalid"
  positiveInt update.update.revision "strategy revision"
  require (update.update.candidates = update.candidates.map FormalTargetCandidate.candidate)
    "strategy_update_candidate_projection_drift"
  canonicalStringTuple budget update.update.requiresAcceptedLabels "requires_accepted_labels" true
  checkAll (validateFormalCandidate budget contract) update.candidates
  validateClosedBundleProjection budget "StrategyUpdate" update.update.projection

/-- `_validate_state` -/
def validateState (budget : Budget) (digest : String → String) (state : RollingStrategyState)
    (contract : NormalizedCompletionContract) : Except String Unit := do
  require (state.schemaRef = rollingStrategyStateSchemaRef) "rolling_strategy_state_schema_invalid"
  let hash ← completionContractHash budget digest contract
  require (state.completionContractHash = hash) "rolling_strategy_completion_contract_drift"
  nonnegativeInt state.strategy.revision "strategy revision"
  require (state.strategy.candidates = state.candidates.map FormalTargetCandidate.candidate)
    "rolling_strategy_candidate_projection_drift"
  require state.strategy.requiresAcceptedLabels.isEmpty "rolling_state_retained_session_gate"
  checkAll (validateFormalCandidate budget contract) state.candidates
  verifyCandidateSet budget state.candidates contract
  verifySealed budget state.strategy.strategyComplete state.candidates contract

def startRollingStrategy (budget : Budget) (digest : String → String)
    (contract : NormalizedCompletionContract) : Except String RollingStrategyState := do
  let hash ← completionContractHash budget digest contract
  pure {
    completionContractHash := hash
    strategy := ⟨0, [], [], false⟩
    candidates := []
    schemaRef := rollingStrategyStateSchemaRef }

/-- The loop over the new candidates, with the labels known or new so far. -/
def admitCandidates (required : List String) : List String → List FormalTargetCandidate →
    Except String Unit
  | _, [] => .ok ()
  | labels, formal :: rest => do
    require (!labels.contains formal.candidate.localLabel) "strategy_repeats_target_label"
    require (required.all (formal.candidate.dependsOnLabels.contains ·))
      "adaptive_input_missing_dependency"
    admitCandidates required (formal.candidate.localLabel :: labels) rest

/-- The state after an accepted update. -/
def RollingStrategyState.append (state : RollingStrategyState) (update : FormalStrategyUpdate) :
    RollingStrategyState :=
  let merged := state.candidates ++ update.candidates
  { completionContractHash := state.completionContractHash
    strategy := {
      revision := update.update.revision
      candidates := merged.map FormalTargetCandidate.candidate
      requiresAcceptedLabels := []
      strategyComplete := update.update.strategyComplete }
    candidates := merged
    schemaRef := rollingStrategyStateSchemaRef }

def applyStrategyUpdate (budget : Budget) (digest : String → String)
    (contract : NormalizedCompletionContract) (state : RollingStrategyState)
    (update : FormalStrategyUpdate) (acceptedLabels : List String) :
    Except String RollingStrategyState := do
  validateState budget digest state contract
  validateUpdatePair budget update contract
  require (!state.strategy.strategyComplete) "completed_strategy_is_immutable"
  require (state.strategy.revision < update.update.revision) "strategy_revision_not_monotonic"
  require (!update.candidates.isEmpty || update.update.strategyComplete)
    "strategy_update_has_no_actionable_work"
  let knownLabels := state.candidates.map (·.candidate.localLabel)
  require (acceptedLabels.all (knownLabels.contains ·)) "accepted_strategy_label_unknown"
  require (update.update.requiresAcceptedLabels.all (acceptedLabels.contains ·))
    "strategy_consumed_unaccepted_result"
  admitCandidates update.update.requiresAcceptedLabels knownLabels update.candidates
  let result := state.append update
  verifyCandidateSet budget result.candidates contract
  verifySealed budget update.update.strategyComplete result.candidates contract
  validateState budget digest result contract
  pure result

end MetaResearch.Bundle

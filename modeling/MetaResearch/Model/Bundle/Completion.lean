import MetaResearch.Model.Bundle.TargetContract

/-! # The completion gate of the fixed prototype

`bundle_completion` checks a formal Plan and a mapping of labels to candidates on its own, with its
own reference check, candidate check and cell count.
-/

namespace MetaResearch.Bundle

namespace Completion

/-- `_require_ref` -/
def requireRef (value name : String) : Except String Unit :=
  require (!Text.isBlank value) (name ++ " is absent")

/-- `_validate_receipt` -/
def validateReceipt (budget : Budget) (receipt : ReceiptProof) (subjectRef name : String) :
    Except String Unit :=
  match validateReceiptProof budget receipt subjectRef with
  | .ok () => .ok ()
  | .error error => .error (name ++ " is invalid: " ++ error)

/-- `_validate_brief` -/
def validateBrief (budget : Budget) (brief : ExperimentBrief) : Except String Unit := do
  validateClosedBundleProjection budget "ExperimentBrief" brief.projection
  requireRef brief.experimentKey "ExperimentKey"
  requireRef brief.semanticDelta "ExperimentBrief SemanticDelta"
  require (decide brief.heldFixedSlots.Nodup) "ExperimentBrief repeats a held-fixed slot"
  require (brief.heldFixedSlots.all (!Text.isBlank ·)) "ExperimentBrief has an empty held-fixed slot"
  require (!brief.requiredMeasurementUnitKeys.isEmpty)
    "ExperimentBrief has no required measurement cell"
  require (decide brief.requiredMeasurementUnitKeys.Nodup) "ExperimentBrief repeats a measurement cell"
  require (brief.requiredMeasurementUnitKeys.all (!Text.isBlank ·))
    "ExperimentBrief has an empty measurement cell"

/-- The loop over the briefs, with the dictionary so far. -/
def briefsByKeyFrom (budget : Budget) :
    List (String × ExperimentBrief) → List ExperimentBrief →
      Except String (List (String × ExperimentBrief))
  | result, [] => .ok result
  | result, brief :: rest => do
    validateBrief budget brief
    require (!(result.map Prod.fst).contains brief.experimentKey) "FormalPlan repeats an ExperimentKey"
    briefsByKeyFrom budget (result ++ [(brief.experimentKey, brief)]) rest

/-- What `_briefs_by_key` checks of the Plan after its briefs. -/
def validatePlanBinding (budget : Budget) (plan : FormalPlan) : Except String Unit := do
  require (plan.contentBinding.subjectRef = plan.formalPlanRef)
    "FormalPlan content binding points at another plan"
  requireRef plan.contentBinding.contentHashRef "FormalPlan content hash"
  validateReceipt budget plan.acceptanceReceipt plan.contentBinding.contentHashRef
    "FormalPlan acceptance receipt"

/-- `_briefs_by_key` -/
def briefsByKey (budget : Budget) (plan : FormalPlan) :
    Except String (List (String × ExperimentBrief)) := do
  validateClosedBundleProjection budget "FormalPlan" plan.projection
  requireRef plan.formalPlanRef "FormalPlanRef"
  require (!plan.briefs.isEmpty) "FormalPlan has no gap ExperimentBrief"
  let result ← briefsByKeyFrom budget [] plan.briefs
  validatePlanBinding budget plan
  pure result

/-- The loop of `_binding_map`: the bindings so far, by slot. -/
def bindingMapFrom (budget : Budget) :
    List (String × String) → List HeldFixedBinding → Except String (List (String × String))
  | result, [] => .ok result
  | result, binding :: rest => do
    validateClosedBundleProjection budget "HeldFixedBinding" binding.projection
    requireRef binding.semanticSlot "held-fixed semantic slot"
    requireRef binding.implementationRevisionRef "held-fixed Implementation Revision"
    require ((result.lookup binding.semanticSlot).isNone)
      "held-fixed binding repeats a semantic slot"
    bindingMapFrom budget (result ++ [binding.entry]) rest

def bindingMap (budget : Budget) (bindings : List HeldFixedBinding) :
    Except String (List (String × String)) :=
  bindingMapFrom budget [] bindings

def verifyRoutes (routes : List RouteSpec) : Except String Unit := do
  require (!routes.isEmpty && decide (routes.map RouteSpec.routeRef).Nodup)
    "Target candidate lacks unique semantics-preserving routes"
  checkAll (fun route => do
    requireRef route.routeRef "SemanticRouteRef"
    require (decide route.knownExternalOperationRefs.Nodup) "semantic route repeats an external operation"
    checkAll (requireRef · "ExternalOperationRef") route.knownExternalOperationRefs) routes

/-- The check of the brief of one realized experiment. -/
def verifyRequired (budget : Budget) (briefs : List (String × ExperimentBrief)) (unit key : String) :
    Except String Unit := do
  (dictGet briefs key).elim (.ok ()) (validateBrief budget)
  require ((unitsOf briefs key).contains unit)
    "Target measurement cell is not required by its ExperimentBrief"

/-- `_verify_candidate`, returning the held-fixed revision of each slot. -/
def verifyCandidate (budget : Budget) (candidate : TargetCandidate)
    (briefs : List (String × ExperimentBrief)) : Except String (List (String × String)) := do
  validateClosedBundleProjection budget "TargetCandidate" candidate.projection
  checkAll (fun entry => do
    require (entry.1 = entry.2.experimentKey) "ExperimentBrief mapping changed its ExperimentKey"
    validateBrief budget entry.2) briefs
  requireRef candidate.localLabel "Target local planning label"
  require (!candidate.experimentKeys.isEmpty) "Target candidate has no ExperimentKey coverage"
  require (decide candidate.experimentKeys.Nodup) "Target candidate repeats an ExperimentKey"
  require (candidate.experimentKeys.all fun key => (dictGet briefs key).isSome)
    "Target candidate references an unknown ExperimentKey"
  match candidate.measurementUnitKeys with
  | [unit] => do
    requireRef unit "Target measurement cell"
    require (!candidate.dependsOnLabels.contains candidate.localLabel)
      "Target candidate has a self dependency"
    checkAll (verifyRequired budget briefs unit) candidate.experimentKeys
    let bindings ← bindingMap budget candidate.heldFixedBindings
    require (sameSet (bindings.map Prod.fst) (candidate.experimentKeys.flatMap (slotsOf briefs)))
      "Target candidate does not bind every held-fixed slot exactly once"
    requireRef candidate.implementationRevisionRef "ImplementationRevisionRef"
    verifyRoutes candidate.routes
    require (decide candidate.directAcceptedInputAssetRefs.Nodup)
      "Target candidate repeats an accepted input asset"
    checkAll (requireRef · "AcceptedInputAssetRef") candidate.directAcceptedInputAssetRefs
    pure bindings
  | _ => .error "one result-bearing Target must contain exactly one measurement cell"

/-- `_verify_acyclic` over a mapping of labels -/
def verifyAcyclic (candidates : List (String × TargetCandidate)) : Except String Unit := do
  let labels := candidates.map Prod.fst
  require (candidates.all fun entry => entry.2.dependsOnLabels.all (labels.contains ·))
    "strategy dependency references an unknown local label"
  require (sameSet (reachableLabels (candidates.map Prod.snd)) labels)
    "rolling strategy contains a dependency cycle"

/-- What the loop of `_verify_completion_cells` has recorded; a cell occurs as often as it is
planned. -/
structure Planned where
  cells : List (String × String)
  targetByUnit : String → Option String
  heldByExperiment : String → String → Option String

def Planned.empty : Planned := ⟨[], fun _ => none, fun _ _ => none⟩

/-- One round of the loop. -/
def planCandidate (budget : Budget) (briefs : List (String × ExperimentBrief)) (planned : Planned)
    (entry : String × TargetCandidate) : Except String Planned := do
  require (entry.1 = entry.2.localLabel) "candidate mapping changed its local label"
  let bindings ← verifyCandidate budget entry.2 briefs
  require ((planned.targetByUnit entry.2.unit).all (· = entry.1))
    "independent measurement cell appears in two Targets"
  let held ← (entry.2.heldSlots briefs).foldlM (fun held slot =>
    establish "comparison Targets drifted a held-fixed semantic slot" bindings held slot.1 slot.2)
    planned.heldByExperiment
  pure {
    cells := planned.cells ++ entry.2.cells
    targetByUnit := Function.update planned.targetByUnit entry.2.unit (some entry.1)
    heldByExperiment := held }

/-- The cells that a brief expects. -/
def expectedCells (brief : ExperimentBrief) : List (String × String) :=
  brief.requiredMeasurementUnitKeys.map (brief.experimentKey, ·)

/-- The cells of the brief that are planned once are the expected ones. -/
def coversOnce (cells : List (String × String)) (brief : ExperimentBrief) : Bool :=
  let actual := cells.filter fun cell => cell.1 = brief.experimentKey && cells.count cell = 1
  let expected := expectedCells brief
  actual.all (expected.contains ·) && expected.all (actual.contains ·) &&
    expected.all fun cell => cells.count cell = 1

/-- `_verify_completion_cells` -/
def verifyCompletionCells (budget : Budget) (plan : FormalPlan)
    (candidates : List (String × TargetCandidate)) : Except String Unit := do
  let briefs ← briefsByKey budget plan
  let planned ← candidates.foldlM (planCandidate budget briefs) Planned.empty
  verifyAcyclic candidates
  require (plan.briefs.all (coversOnce planned.cells))
    "completed strategy does not cover each FormalPlan cell exactly once"

/-- Insert into a dictionary in insertion order; a key that is present keeps its place. -/
def dictSet {α : Type} (entries : List (String × α)) (key : String) (value : α) : List (String × α) :=
  if (entries.map Prod.fst).contains key then
    entries.map fun entry => if entry.1 = key then (key, value) else entry
  else entries ++ [(key, value)]

/-- The candidates by label. -/
def byLabel (candidates : List TargetCandidate) : List (String × TargetCandidate) :=
  candidates.foldl (fun entries candidate => dictSet entries candidate.localLabel candidate) []

end Completion

end MetaResearch.Bundle

import MetaResearch.Model.Bundle.TargetContract

/-! # Plan documents and the contracts frozen from them

Every completion contract is built or parsed against an accepted Plan and checked by
`_validate_completion_contract`. A document whose JSON does not have the shape of a Plan cannot be
represented; its digest is a parameter, and of its root check only the digest is read.
-/

namespace MetaResearch.Bundle

structure PlanBrief where
  experimentKey : String
  gapObligationKeys : List String
  goal : String
  characteristics : String
  boundaryConstraints : String
  semanticDelta : String
  contributingIdeaRefs : List String
  reuseMaterialRefs : Option (List String)
deriving DecidableEq, Repr

structure PlanDocument where
  schemaRef : String
  kind : String
  bundleDisposition : String
  gapSet : List String
  experimentBriefs : List PlanBrief
deriving DecidableEq, Repr

def planDocumentSchemaRef : String := "meta-research/plan-document/v1"

/-- `_plan_text` -/
def planText (value name : String) : Except String Unit :=
  require (!Text.isBlank value && value.length ≤ planTextMaxChars) (name ++ "_invalid")

/-- One round of the loop of `_plan_briefs`, with the keys seen so far. -/
def checkPlanBrief (budget : Budget) (gaps seen : List String) (brief : PlanBrief) :
    Except String Unit := do
  ref budget brief.experimentKey "ExperimentKey"
  require (!seen.contains brief.experimentKey) "plan_brief_duplicate"
  canonicalStringTuple budget brief.gapObligationKeys "brief gaps" false
  require (brief.gapObligationKeys.all (gaps.contains ·)) "plan_brief_gap_invalid"
  planText brief.goal "goal"
  planText brief.characteristics "characteristics"
  planText brief.boundaryConstraints "boundary_constraints"
  planText brief.semanticDelta "semantic_delta"
  canonicalStringTuple budget brief.contributingIdeaRefs "contributing idea refs" true
  brief.reuseMaterialRefs.elim (.ok ()) fun refs =>
    canonicalStringTuple budget refs "reuse material refs" true

def checkPlanBriefs (budget : Budget) (gaps : List String) :
    List String → List PlanBrief → Except String Unit
  | _, [] => .ok ()
  | seen, brief :: rest => do
    checkPlanBrief budget gaps seen brief
    checkPlanBriefs budget gaps (brief.experimentKey :: seen) rest

/-- `_plan_briefs`: the briefs of the Plan, by key. -/
def planBriefs (budget : Budget) (plan : PlanDocument) : Except String (List (String × PlanBrief)) := do
  require (plan.schemaRef = planDocumentSchemaRef && plan.kind = "PlanDocument" &&
      plan.bundleDisposition = "experiments_required")
    "completion_contract_plan_invalid"
  canonicalStringTuple budget plan.gapSet "Plan gap_set" false
  require (!plan.experimentBriefs.isEmpty) "completion_contract_plan_has_no_work"
  checkPlanBriefs budget plan.gapSet [] plan.experimentBriefs
  pure (plan.experimentBriefs.map fun brief => (brief.experimentKey, brief))

/-- The normalized experiment repeats the semantics of its Plan brief. -/
def NormalizedExperimentCompletion.repeats (item : NormalizedExperimentCompletion)
    (brief : PlanBrief) : Bool :=
  item.semanticInputs.goal = brief.goal &&
    item.semanticInputs.characteristics = brief.characteristics &&
    item.semanticInputs.boundaryConstraints = brief.boundaryConstraints &&
    item.semanticInputs.semanticDelta = brief.semanticDelta &&
    item.brief.experimentKey = item.semanticInputs.experimentKey &&
    item.brief.semanticDelta = item.semanticInputs.semanticDelta

/-- One round of the loop of `_validate_completion_contract`, with the keys seen so far. -/
def checkExperiment (budget : Budget) (briefs : List (String × PlanBrief)) (seen : List String)
    (item : NormalizedExperimentCompletion) : Except String Unit := do
  require (!seen.contains item.semanticInputs.experimentKey) "completion_contract_experiment_duplicate"
  validateClosedBundleProjection budget "ExperimentBrief" item.brief.projection
  match dictGet briefs item.semanticInputs.experimentKey with
  | none => .error "completion_contract_experiment_unknown"
  | some brief => do
    require (item.repeats brief) "completion_contract_semantic_drift"
    canonicalStringTuple budget item.brief.heldFixedSlots "held_fixed_slots" true
    canonicalStringTuple budget item.brief.requiredMeasurementUnitKeys
      "required_measurement_unit_keys" false

def checkExperiments (budget : Budget) (briefs : List (String × PlanBrief)) :
    List String → List NormalizedExperimentCompletion → Except String Unit
  | _, [] => .ok ()
  | seen, item :: rest => do
    checkExperiment budget briefs seen item
    checkExperiments budget briefs (item.semanticInputs.experimentKey :: seen) rest

/-- `_validate_completion_contract` against a Plan and its digest -/
def validateCompletionContract (budget : Budget) (planHash : String) (plan : PlanDocument)
    (contract : NormalizedCompletionContract) : Except String Unit := do
  require (contract.schemaRef = normalizedCompletionContractSchemaRef)
    "completion_contract_schema_invalid"
  let briefs ← planBriefs budget plan
  require (contract.planDocumentHash = planHash) "completion_contract_plan_drift"
  checkExperiments budget briefs [] contract.experiments
  require (sameSet (contract.experiments.map (·.semanticInputs.experimentKey)) (briefs.map Prod.fst))
    "completion_contract_experiment_set_incomplete"
  let _ ← validateJsonRoot budget contract.toDict "NormalizedCompletionContract" true

end MetaResearch.Bundle

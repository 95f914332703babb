import MetaResearch.ToMathlib.Check
import MetaResearch.ToMathlib.Json

/-! # Records of the Bundle protocol

The records that the completion gates read, and the validator of closed projections. The budgets
are a parameter: the source's own ones, or none. Text is Unicode text, so it always has a UTF-8
form, and the types of the fields are those of the records.
-/

namespace MetaResearch.Bundle

/-- Byte, node and item budgets; an absent one is unlimited. -/
structure Budget where
  textBytes : Option ℕ
  tupleItems : Option ℕ
  nodes : Option ℕ
  rootBytes : Option ℕ
deriving DecidableEq, Repr

def Budget.standard : Budget := ⟨some 4096, some 1024, some 65536, some (8 * 1024 * 1024)⟩

def Budget.unlimited : Budget := ⟨none, none, none, none⟩

def exceeds (limit : Option ℕ) (size : ℕ) : Bool := limit.any fun most => most < size

/-- `BUNDLE_CANONICAL_INTEGER_MAX_ABS` -/
def canonicalIntegerMaxAbs : ℕ := 2 ^ 63 - 1

/-- `PLAN_TEXT_MAX_CHARS` -/
def planTextMaxChars : ℕ := 8192

/-! ### Records -/

structure ExperimentBrief where
  experimentKey : String
  semanticDelta : String
  heldFixedSlots : List String
  requiredMeasurementUnitKeys : List String
deriving DecidableEq, Repr

structure HeldFixedBinding where
  semanticSlot : String
  implementationRevisionRef : String
deriving DecidableEq, Repr

structure RouteSpec where
  routeRef : String
  knownExternalOperationRefs : List String
deriving DecidableEq, Repr

structure TargetCandidate where
  localLabel : String
  experimentKeys : List String
  measurementUnitKeys : List String
  heldFixedBindings : List HeldFixedBinding
  implementationRevisionRef : String
  codeChanged : Bool
  routes : List RouteSpec
  dependsOnLabels : List String
  directAcceptedInputAssetRefs : List String
deriving DecidableEq, Repr

structure StrategyUpdate where
  revision : ℤ
  candidates : List TargetCandidate
  requiresAcceptedLabels : List String
  strategyComplete : Bool
deriving DecidableEq, Repr

structure ContentBindingProof where
  subjectRef : String
  contentHashRef : String
deriving DecidableEq, Repr

structure ReceiptProof where
  receiptRef : String
  subjectRef : String
  verified : Bool
  currentnessKnown : Bool
  current : Bool
deriving DecidableEq, Repr

structure FormalPlan where
  formalPlanRef : String
  briefs : List ExperimentBrief
  contentBinding : ContentBindingProof
  acceptanceReceipt : ReceiptProof
deriving DecidableEq, Repr

/-! ### Closed projections -/

/-- A record as the validator visits it. Inherited Plan prose has its own budget. -/
inductive Projection where
  | record (fields : List (String × Projection))
  | tuple (items : List Projection)
  | text (value : String)
  | planText (value : String)
  | integer (value : ℤ)
  | bool (value : Bool)

namespace Projection

def texts (values : List String) : Projection := tuple (values.map text)

mutual

/-- `projection_plain_value` -/
def plainValue : Projection → Json
  | record fields => .object (plainFields fields)
  | tuple items => .array (plainItems items)
  | text value => .text value
  | planText value => .text value
  | integer value => .integer value
  | bool value => .bool value
  termination_by structural value => value

def plainItems : List Projection → List Json
  | [] => []
  | item :: rest => plainValue item :: plainItems rest
  termination_by structural items => items

def plainFields : List (String × Projection) → List (String × Json)
  | [] => []
  | (name, value) :: rest => (name, plainValue value) :: plainFields rest
  termination_by structural fields => fields

end

/-- What the visit has counted so far. -/
structure Usage where
  nodes : ℕ
  scalarBytes : ℕ

def addScalarBytes (budget : Budget) (name : String) (size : ℕ) (usage : Usage) :
    Except String Usage := do
  let usage := { usage with scalarBytes := usage.scalarBytes + size }
  require (!exceeds budget.rootBytes usage.scalarBytes)
    (name ++ " exceeds the root projection byte budget")
  pure usage

def addNode (budget : Budget) (name : String) (usage : Usage) : Except String Usage := do
  let usage := { usage with nodes := usage.nodes + 1 }
  require (!exceeds budget.nodes usage.nodes) (name ++ " exceeds the root projection node budget")
  pure usage

mutual

def visit (budget : Budget) (name : String) : Projection → Usage → Except String Usage
  | record fields, usage => do
    let usage ← addNode budget name usage
    visitFields budget name fields usage
  | tuple items, usage => do
    let usage ← addNode budget name usage
    require (!exceeds budget.tupleItems items.length) (name ++ " contains an oversized tuple")
    visitItems budget name items usage
  | text value, usage => do
    let usage ← addNode budget name usage
    require (!exceeds budget.textBytes value.utf8ByteSize) (name ++ " contains oversized text")
    addScalarBytes budget name (Text.quote value).utf8ByteSize usage
  | planText value, usage => do
    let usage ← addNode budget name usage
    require (value.length ≤ planTextMaxChars) (name ++ " contains oversized text")
    addScalarBytes budget name (Text.quote value).utf8ByteSize usage
  | integer value, usage => do
    let usage ← addNode budget name usage
    require (value.natAbs ≤ canonicalIntegerMaxAbs) (name ++ " contains an oversized integer")
    addScalarBytes budget name (toString value).length usage
  | bool value, usage => do
    let usage ← addNode budget name usage
    addScalarBytes budget name (if value then 4 else 5) usage
  termination_by structural value => value

def visitItems (budget : Budget) (name : String) : List Projection → Usage → Except String Usage
  | [], usage => pure usage
  | item :: rest, usage => do
    let usage ← visit budget name item usage
    visitItems budget name rest usage
  termination_by structural items => items

def visitFields (budget : Budget) (name : String) :
    List (String × Projection) → Usage → Except String Usage
  | [], usage => pure usage
  | (_, value) :: rest, usage => do
    let usage ← visit budget name value usage
    visitFields budget name rest usage
  termination_by structural fields => fields

end

end Projection

/-- `validate_closed_bundle_projection`, without the digest that no caller here reads. -/
def validateClosedBundleProjection (budget : Budget) (name : String) (value : Projection) :
    Except String Unit := do
  let _ ← value.visit budget name ⟨0, 0⟩
  require (!exceeds budget.rootBytes value.plainValue.dumps.utf8ByteSize)
    (name ++ " exceeds the root projection byte budget")

def ExperimentBrief.projection (brief : ExperimentBrief) : Projection :=
  .record [("experiment_key", .text brief.experimentKey),
    ("semantic_delta", .planText brief.semanticDelta),
    ("held_fixed_slots", .texts brief.heldFixedSlots),
    ("required_measurement_unit_keys", .texts brief.requiredMeasurementUnitKeys)]

def HeldFixedBinding.projection (binding : HeldFixedBinding) : Projection :=
  .record [("semantic_slot", .text binding.semanticSlot),
    ("implementation_revision_ref", .text binding.implementationRevisionRef)]

def RouteSpec.projection (route : RouteSpec) : Projection :=
  .record [("route_ref", .text route.routeRef),
    ("known_external_operation_refs", .texts route.knownExternalOperationRefs)]

def TargetCandidate.projection (candidate : TargetCandidate) : Projection :=
  .record [("local_label", .text candidate.localLabel),
    ("experiment_keys", .texts candidate.experimentKeys),
    ("measurement_unit_keys", .texts candidate.measurementUnitKeys),
    ("held_fixed_bindings", .tuple (candidate.heldFixedBindings.map HeldFixedBinding.projection)),
    ("implementation_revision_ref", .text candidate.implementationRevisionRef),
    ("code_changed", .bool candidate.codeChanged),
    ("routes", .tuple (candidate.routes.map RouteSpec.projection)),
    ("depends_on_labels", .texts candidate.dependsOnLabels),
    ("direct_accepted_input_asset_refs", .texts candidate.directAcceptedInputAssetRefs)]

def StrategyUpdate.projection (update : StrategyUpdate) : Projection :=
  .record [("revision", .integer update.revision),
    ("candidates", .tuple (update.candidates.map TargetCandidate.projection)),
    ("requires_accepted_labels", .texts update.requiresAcceptedLabels),
    ("strategy_complete", .bool update.strategyComplete)]

def ContentBindingProof.projection (proof : ContentBindingProof) : Projection :=
  .record [("subject_ref", .text proof.subjectRef), ("content_hash_ref", .text proof.contentHashRef)]

def ReceiptProof.projection (receipt : ReceiptProof) : Projection :=
  .record [("receipt_ref", .text receipt.receiptRef), ("subject_ref", .text receipt.subjectRef),
    ("verified", .bool receipt.verified), ("currentness_known", .bool receipt.currentnessKnown),
    ("current", .bool receipt.current)]

def FormalPlan.projection (plan : FormalPlan) : Projection :=
  .record [("formal_plan_ref", .text plan.formalPlanRef),
    ("briefs", .tuple (plan.briefs.map ExperimentBrief.projection)),
    ("content_binding", plan.contentBinding.projection),
    ("acceptance_receipt", plan.acceptanceReceipt.projection)]

def validateReceiptProof (budget : Budget) (receipt : ReceiptProof) (subjectRef : String) :
    Except String Unit := do
  validateClosedBundleProjection budget "ReceiptProof" receipt.projection
  require (!Text.isBlank receipt.receiptRef && receipt.subjectRef = subjectRef && receipt.verified &&
      receipt.currentnessKnown && receipt.current)
    "receipt proof is absent, stale, or subject-drifted"

end MetaResearch.Bundle

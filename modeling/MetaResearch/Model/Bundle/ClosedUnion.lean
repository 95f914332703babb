import MetaResearch.Model.Bundle.Protocol

/-! # The closed union of the Bundle protocol

The validator of closed projections over run-time values: a record carries its type, and the table of
annotations drives what its fields may be. The typed records of the other modules are values of this
kind.
-/

namespace MetaResearch.Bundle

/-! ### Record types -/

/-- `_CANONICAL_TYPES` -/
inductive RecordType where
  | stageRunRequest | heldFixedBinding | contentBindingProof | receiptProof | experimentBrief
  | formalPlan | codeReviewRecord | revisionEvidenceProof | resultReviewRecord | codeReviewScope
  | targetExecutionPreflight | protocolAggregationProof | protocolPart | routeSpec | targetCandidate
  | strategyUpdate | targetBinding | acceptedInputAssetProof | targetWorkHandle | targetLaunchRequest
  | targetLaunchAck | targetControlRequest | targetControlAck | targetFrontierEntry | stopDecisionProof
  | monitorObservation | technicalBlocker | executionInputBindingProof | acceptedMeasurementClosure
  | externalOperationReconciliation | routeDisposition | semanticBarrier | goalWorkDisposition
  | targetRunHandoff | targetWorkNotice | bundleInboxBatch | bundlePause | bundleReport
deriving DecidableEq, Repr

/-- `_DUPLICATE_SENSITIVE_TYPES` -/
def RecordType.duplicateSensitive : RecordType → Bool
  | acceptedInputAssetProof | contentBindingProof | executionInputBindingProof
  | protocolAggregationProof | receiptProof | revisionEvidenceProof | stopDecisionProof
  | targetExecutionPreflight | targetWorkHandle => true
  | _ => false

/-- A type annotation of a field. -/
inductive Annotation where
  | text
  | integer
  | bool
  | null
  | record (type : RecordType)
  | union (options : List Annotation)
  | tupleOf (item : Annotation)
  | tuple (items : List Annotation)
  /-- `Tuple[TargetMetricValue, ...]`, which the validator does not consult. -/
  | metricValues
deriving Repr

namespace Annotation

def optional (hint : Annotation) : Annotation := union [hint, null]

def texts : Annotation := tupleOf text

def receipt : Annotation := record .receiptProof

def binding : Annotation := record .contentBindingProof

/-- `TargetTerminal` -/
def targetTerminal : Annotation :=
  union [record .technicalBlocker, record .acceptedMeasurementClosure, record .semanticBarrier,
    record .goalWorkDisposition]

end Annotation

open Annotation in
/-- The fields of a record type in order, with their annotations. -/
def RecordType.fields : RecordType → List (String × Annotation)
  | stageRunRequest => [("request_ref", text), ("formal_plan_ref", text),
    ("formal_plan_content_hash_ref", text), ("typed", bool), ("currentness_known", bool),
    ("current", bool), ("root_execution_fence_current", bool)]
  | heldFixedBinding => [("semantic_slot", text), ("implementation_revision_ref", text)]
  | contentBindingProof => [("subject_ref", text), ("content_hash_ref", text)]
  | receiptProof => [("receipt_ref", text), ("subject_ref", text), ("verified", bool),
    ("currentness_known", bool), ("current", bool)]
  | experimentBrief => [("experiment_key", text), ("semantic_delta", text), ("held_fixed_slots", texts),
    ("required_measurement_unit_keys", texts)]
  | formalPlan => [("formal_plan_ref", text), ("briefs", tupleOf (record experimentBrief)),
    ("content_binding", binding), ("acceptance_receipt", receipt)]
  | codeReviewRecord => [("code_changed", bool), ("disposition", text), ("candidate_revision_ref", text),
    ("reviewed_revision_ref", optional text), ("fixed_base_ref", optional text),
    ("diff_ref", optional text), ("review_ref", optional text),
    ("review_parent_session_ref", optional text), ("reviewer_session_ref", optional text),
    ("reviewer_spawn_evidence_ref", optional text), ("unresolved_standards_findings", integer),
    ("unresolved_spec_findings", integer)]
  | revisionEvidenceProof => [("evidence_ref", text), ("subject_revision_ref", text)]
  | resultReviewRecord => [("reviewed_evaluation_attempt_ref", text),
    ("reviewed_metric_result_ref", text), ("reviewed_asset_manifest_ref", text), ("review_ref", text),
    ("review_parent_session_ref", text), ("reviewer_session_ref", text),
    ("reviewer_spawn_evidence_ref", text), ("unresolved_findings", integer)]
  | codeReviewScope => [("candidate_revision_binding", binding), ("target_spec_binding", binding),
    ("target_spec_acceptance_receipt", receipt), ("formal_plan_binding", binding),
    ("formal_plan_acceptance_receipt", receipt), ("experiment_keys", texts), ("semantic_deltas", texts),
    ("held_fixed_bindings", tupleOf (record heldFixedBinding)), ("accepted_input_refs", texts),
    ("reuse_provenance_refs", texts), ("repository_standards_refs", texts)]
  | targetExecutionPreflight => [("target_ref", text), ("target_run_ref", text),
    ("implementation_revision_ref", text), ("implementation_acceptance_receipt", receipt),
    ("target_spec_acceptance_receipt", receipt),
    ("candidate_ready_evidence", record revisionEvidenceProof),
    ("self_check_evidence", tupleOf (record revisionEvidenceProof)),
    ("review_scope", record codeReviewScope), ("code_review", record codeReviewRecord),
    ("code_review_evidence_binding", optional binding),
    ("code_review_evidence_receipt", optional receipt)]
  | protocolAggregationProof => [("protocol_version_ref", text), ("part_keys", texts),
    ("aggregation_rule_ref", text), ("aggregation_evidence_binding", binding),
    ("aggregation_evidence_receipt", receipt)]
  | protocolPart => [("part_key", text), ("protocol_version_ref", text)]
  | routeSpec => [("route_ref", text), ("known_external_operation_refs", texts)]
  | targetCandidate => [("local_label", text), ("experiment_keys", texts),
    ("measurement_unit_keys", texts), ("held_fixed_bindings", tupleOf (record heldFixedBinding)),
    ("implementation_revision_ref", text), ("code_changed", bool), ("routes", tupleOf (record routeSpec)),
    ("depends_on_labels", texts), ("direct_accepted_input_asset_refs", texts)]
  | strategyUpdate => [("revision", integer), ("candidates", tupleOf (record targetCandidate)),
    ("requires_accepted_labels", texts), ("strategy_complete", bool)]
  | targetBinding => [("local_label", text), ("target_ref", text),
    ("target_spec_binding", optional binding), ("target_spec_acceptance_receipt", optional receipt)]
  | acceptedInputAssetProof => [("asset_ref", text), ("rm_acceptance_receipt", receipt),
    ("rg_role_receipt", receipt)]
  | targetWorkHandle => [("target_ref", text), ("target_run_ref", text), ("root_session_ref", text),
    ("execution_attempt_ref", text), ("execution_fence_ref", text),
    ("execution_input_binding_ref", text), ("execution_input_binding_receipt", receipt),
    ("accepted_input_target_commit_refs", texts),
    ("accepted_input_asset_proofs", tupleOf (record acceptedInputAssetProof)), ("recoverable", bool)]
  | targetLaunchRequest => [("target_ref", text), ("target_spec_binding", binding),
    ("target_spec_acceptance_receipt", receipt), ("accepted_input_target_commit_refs", texts),
    ("accepted_input_asset_refs", texts), ("recoverable_required", bool)]
  | targetLaunchAck => [("target_ref", text), ("operation_ref", text)]
  | targetControlRequest => [("target_ref", text), ("intent_ref", text)]
  | targetControlAck => [("target_ref", text), ("intent_ref", text), ("operation_ref", text)]
  | targetFrontierEntry => [("target_ref", text), ("target_spec_binding", binding),
    ("target_spec_acceptance_receipt", receipt), ("state_revision", integer), ("state", text),
    ("current_handle", record targetWorkHandle), ("terminal_fact_ref", optional text),
    ("currentness_known", bool), ("current", bool)]
  | stopDecisionProof => [("stop_basis", text), ("decision_ref", text), ("target_ref", text),
    ("target_run_ref", text), ("execution_attempt_ref", text), ("frozen_rule_ref", optional text),
    ("protocol_version_ref", optional text), ("termination_receipt", receipt),
    ("process_tree_drained", bool)]
  | monitorObservation => [("target_ref", text), ("target_run_ref", text),
    ("execution_attempt_ref", text), ("execution_fence_ref", text), ("mode", text), ("cursor", integer),
    ("after_cursor", optional integer), ("status_revision", integer),
    ("after_status_revision", optional integer), ("limit", integer),
    ("stop_decision", optional (record stopDecisionProof))]
  | technicalBlocker => [("target_ref", text), ("target_run_ref", text), ("execution_attempt_ref", text),
    ("execution_fence_ref", text), ("blocker_ref", text), ("blocker_receipt", receipt), ("reason", text),
    ("recovery_ready", bool), ("old_session_fenced", bool), ("recovery_pack_complete", bool),
    ("recovery_receipt", optional receipt),
    ("replacement_implementation_revision_ref", optional text), ("bundle_decision_required", bool),
    ("escalation_scope", optional text), ("pending_obligation_refs", texts),
    ("escalation_evidence", optional binding), ("escalation_receipt", optional receipt)]
  | executionInputBindingProof => [("binding_ref", text), ("subject_ref", text), ("input_refs", texts),
    ("acceptance_receipt", receipt)]
  | acceptedMeasurementClosure => [("target_ref", text), ("target_run_ref", text),
    ("target_commit_ref", text), ("experiment_keys", texts), ("measurement_unit_key", text),
    ("variant_run_ref", text), ("evaluation_ref", text), ("protocol_version_ref", text),
    ("evaluation_attempt_ref", optional text), ("metric_result_ref", optional text),
    ("metric_values", metricValues), ("asset_manifest_ref", text), ("execution_attempt_ref", text),
    ("execution_fence_ref", text), ("checkpoint_artifact_refs", texts),
    ("implementation_revision_ref", text), ("held_fixed_bindings", tupleOf (record heldFixedBinding)),
    ("implementation_provenance_refs", texts),
    ("variant_run_input_binding", record executionInputBindingProof),
    ("evaluation_attempt_input_binding", optional (record executionInputBindingProof)),
    ("rm_asset_receipt", receipt), ("ar_execution_receipt", receipt),
    ("rg_formal_measurement_receipt", optional receipt), ("rg_target_commit_receipt", receipt),
    ("code_review", optional (record codeReviewRecord)),
    ("result_review", optional (record resultReviewRecord)), ("formal_measurement_accepted", bool),
    ("currentness_known", bool), ("current", bool), ("root_completion_receipt", optional receipt),
    ("protocol_internal_parts", tupleOf (record protocolPart)),
    ("protocol_aggregation_proof", optional (record protocolAggregationProof))]
  | externalOperationReconciliation => [("operation_ref", text), ("receipt", receipt), ("outcome", text)]
  | routeDisposition => [("disposition_ref", text), ("route_ref", text), ("experiment_keys", texts),
    ("outcome", text), ("required_changes", texts), ("evidence_refs", texts),
    ("external_reconciliations", tupleOf (record externalOperationReconciliation))]
  | semanticBarrier => [("target_ref", text), ("target_run_ref", text), ("execution_attempt_ref", text),
    ("execution_fence_ref", text), ("experiment_keys", texts), ("reason", text),
    ("route_dispositions", tupleOf (record routeDisposition))]
  | goalWorkDisposition => [("disposition", text), ("target_ref", text), ("target_run_ref", text),
    ("execution_attempt_ref", optional text), ("execution_fence_ref", optional text),
    ("terminal_fact_ref", text), ("goal_work_intent_ref", text), ("goal_revision_ref", text),
    ("goal_revision_receipt_ref", text), ("goal_revision_receipt_hash", text), ("reason", text),
    ("retention_kind", optional text), ("custody_refs", texts)]
  | targetRunHandoff => [("handle_history", tupleOf (record targetWorkHandle)),
    ("code_review_preflights", tupleOf (record targetExecutionPreflight)),
    ("stop_decisions", tupleOf (record stopDecisionProof)),
    ("recovered_blockers", tupleOf (record technicalBlocker)), ("recovery_evidence_refs", texts),
    ("terminal", targetTerminal)]
  | targetWorkNotice => [("notice_ref", text), ("sequence", integer), ("terminal_transition_ref", text),
    ("kind", text), ("target_ref", text), ("target_run_ref", text),
    ("execution_attempt_ref", optional text), ("execution_fence_ref", optional text),
    ("terminal_fact_ref", text), ("handoff_manifest_ref", text), ("handoff_manifest_sha256", text),
    ("compact_reason", text), ("pending_obligation_refs", texts), ("payload_sha256", text)]
  | bundleInboxBatch => [("after_cursor", integer), ("next_cursor", integer), ("generation", integer),
    ("notices", tupleOf (record targetWorkNotice))]
  | bundlePause => [("stage_request_ref", text), ("formal_plan_ref", text), ("inbox_cursor", integer),
    ("inbox_generation", integer), ("active_target_refs", texts), ("reason", text)]
  | bundleReport => [("disposition", text), ("stage_request_ref", text), ("formal_plan_ref", text),
    ("accepted_target_commit_refs", texts), ("accepted_evaluation_attempt_refs", texts),
    ("metric_result_refs", texts), ("execution_attempt_refs", texts), ("execution_fence_refs", texts),
    ("checkpoint_artifact_refs", texts), ("realized_experiment_keys", texts),
    ("remaining_experiment_keys", texts), ("blocker_refs", texts), ("semantic_change_required", texts),
    ("evidence_refs", texts), ("route_disposition_refs", texts), ("reconciliation_receipt_refs", texts),
    ("owner_receipt_refs", texts), ("stop_decision_refs", texts), ("recovery_evidence_refs", texts),
    ("code_review_preflights", tupleOf (record targetExecutionPreflight)), ("code_review_refs", texts),
    ("result_reviews", tupleOf (record resultReviewRecord)), ("result_review_refs", texts),
    ("reviewer_session_refs", texts), ("reviewer_spawn_evidence_refs", texts),
    ("provenance", tupleOf (.tuple [text, texts]))]

/-! ### Values -/

/-- A finite fractional number, as its literal. -/
structure Fractional where
  literal : String
  fractional : Json.isFractional literal = true

/-- A run-time value. An instance of a record type has its fields in their order. -/
inductive Value where
  | null
  | bool (value : Bool)
  | integer (value : ℤ)
  | float (value : Fractional)
  /-- An infinite float, or one that is no number. -/
  | nonFinite
  | text (value : String)
  | tuple (items : List Value)
  | list (items : List Value)
  /-- A dictionary of text keys, in insertion order. -/
  | dict (entries : List (String × Value))
  | record (type : RecordType) (fields : List Value)
  /-- A value of any other type. -/
  | other

namespace Value

def texts (values : List String) : Value := tuple (values.map text)

def optional {α : Type} (value : α → Value) : Option α → Value
  | some item => value item
  | none => null

/-! ### Canonical bytes -/

mutual

/-- What `json.dumps` writes, if it does. -/
def json? : Value → Option Json
  | null => some .null
  | bool value => some (.bool value)
  | integer value => some (.integer value)
  | float value => some (.number value.literal)
  | nonFinite => none
  | text value => some (.text value)
  | tuple items => (jsonItems? items).map .array
  | list items => (jsonItems? items).map .array
  | dict entries => (jsonEntries? entries).map .object
  | record _ _ => none
  | other => none
  termination_by structural value => value

def jsonItems? : List Value → Option (List Json)
  | [] => some []
  | item :: rest => do
    let first ← json? item
    let others ← jsonItems? rest
    pure (first :: others)
  termination_by structural items => items

def jsonEntries? : List (String × Value) → Option (List (String × Json))
  | [] => some []
  | (name, value) :: rest => do
    let first ← json? value
    let others ← jsonEntries? rest
    pure ((name, first) :: others)
  termination_by structural entries => entries

end

/-- `metric_values` of a closure, whose items are copied as they are. -/
def isMetricValues (type : RecordType) (name : String) : Bool :=
  type = .acceptedMeasurementClosure && name = "metric_values"

/-- The additive field of a closure, whose absence is not written. -/
def omitted (type : RecordType) (name : String) : Value → Bool
  | null => type = .acceptedMeasurementClosure && name = "root_completion_receipt"
  | _ => false

mutual

/-- `projection_plain_value` as JSON, if it is. -/
def plainValue? : Value → Option Json
  | record type fields => (plainFields? type (type.fields.map Prod.fst) fields).map .object
  | tuple items => (plainItems? items).map .array
  | null => some .null
  | bool value => some (.bool value)
  | integer value => some (.integer value)
  | float value => some (.number value.literal)
  | nonFinite => none
  | text value => some (.text value)
  | list items => (jsonItems? items).map .array
  | dict entries => (jsonEntries? entries).map .object
  | other => none
  termination_by structural value => value

def plainItems? : List Value → Option (List Json)
  | [] => some []
  | item :: rest => do
    let first ← plainValue? item
    let others ← plainItems? rest
    pure (first :: others)
  termination_by structural items => items

/-- The fields of a record under their names. -/
def plainFields? (type : RecordType) : List String → List Value → Option (List (String × Json))
  | name :: names, value :: rest =>
    (if isMetricValues type name then json? value else plainValue? value).bind fun first =>
      (plainFields? type names rest).map fun others =>
        if omitted type name value then others else (name, first) :: others
  | [], [] => some []
  | _, _ => none
  termination_by structural _ values => values

end

/-- The text that `canonical_projection_bytes` encodes. -/
def canonicalProjection (name : String) (value : Value) : Except String String :=
  match value.plainValue? with
  | some json => .ok json.dumps
  | none => .error (name ++ " is not canonical UTF-8 JSON")

/-- `canonical_projection_bytes` -/
def canonicalProjectionBytes (name : String) (value : Value) : Except String ByteArray :=
  (value.canonicalProjection name).map String.toByteArray

/-! ### Annotations -/

mutual

/-- `_matches_annotation`: only the type of a record is compared here. -/
def matchesAnnotation : Annotation → Value → Bool
  | .text, text _ => true
  | .integer, integer _ => true
  | .bool, bool _ => true
  | .null, null => true
  | .record type, record actual _ => actual = type
  | .union options, value => matchesAny options value
  | .tupleOf item, tuple items => items.all ( matchesAnnotation item)
  | .tuple expected, tuple items => matchesEach expected items
  | _, _ => false
  termination_by structural hint => hint

def matchesAny : List Annotation → Value → Bool
  | [], _ => false
  | option :: rest, value => matchesAnnotation option value || matchesAny rest value
  termination_by structural options => options

def matchesEach : List Annotation → List Value → Bool
  | expected :: rest, item :: items => matchesAnnotation expected item && matchesEach rest items
  | [], [] => true
  | _, _ => false
  termination_by structural expected => expected

end

/-! ### Metric values -/

def targetMetricMaxDepth : ℕ := 64

/-- Count a node of a metric value, if node and depth are within bounds. -/
def metricNode (budget : Budget) (depth nodes : ℕ) : Option ℕ :=
  if exceeds budget.nodes (nodes + 1) || decide (targetMetricMaxDepth < depth) then none
  else some (nodes + 1)

mutual

/-- The nodes counted after a metric value, if it is valid. -/
def metricNodes (budget : Budget) : Value → (depth nodes : ℕ) → Option ℕ
  | null, depth, nodes => metricNode budget depth nodes
  | bool _, depth, nodes => metricNode budget depth nodes
  | integer value, depth, nodes =>
    (metricNode budget depth nodes).filter fun _ => value.natAbs ≤ canonicalIntegerMaxAbs
  | float _, depth, nodes => metricNode budget depth nodes
  | text value, depth, nodes =>
    (metricNode budget depth nodes).filter fun _ => !exceeds budget.textBytes value.utf8ByteSize
  | list items, depth, nodes =>
    (metricNode budget depth nodes).bind (metricItems budget items (depth + 1))
  | dict entries, depth, nodes =>
    (metricNode budget depth nodes).bind (metricEntries budget entries (depth + 1))
  | nonFinite, _, _ => none
  | tuple _, _, _ => none
  | record _ _, _, _ => none
  | other, _, _ => none
  termination_by structural value => value

def metricItems (budget : Budget) : List Value → (depth nodes : ℕ) → Option ℕ
  | [], _, nodes => some nodes
  | item :: rest, depth, nodes =>
    (metricNodes budget item depth nodes).bind (metricItems budget rest depth)
  termination_by structural items => items

def metricEntries (budget : Budget) : List (String × Value) → (depth nodes : ℕ) → Option ℕ
  | [], _, nodes => some nodes
  | (name, value) :: rest, depth, nodes =>
    ((metricNode budget depth nodes).filter fun _ => !exceeds budget.textBytes name.utf8ByteSize).bind
      fun nodes => (metricNodes budget value depth nodes).bind (metricEntries budget rest depth)
  termination_by structural entries => entries

end

/-- `valid_target_metric_value` -/
def validTargetMetricValue (budget : Budget) (value : Value) : Bool := (metricNodes budget value 0 0).isSome

/-- The check of the field `metric_values`. -/
def validMetricValues (budget : Budget) : Value → Bool
  | tuple items => items.all (validTargetMetricValue budget)
  | _ => false

/-! ### Duplicates -/

mutual

/-- Equality of the values that a duplicate-sensitive record holds. -/
def same : Value → Value → Bool
  | null, null => true
  | bool first, bool second => first = second
  | integer first, integer second => first = second
  | float first, float second => first.literal = second.literal
  | text first, text second => first = second
  | tuple first, tuple second => sameItems first second
  | list first, list second => sameItems first second
  | dict first, dict second => sameEntries first second
  | record type first, record actual second => type = actual && sameItems first second
  | _, _ => false
  termination_by structural first => first

def sameItems : List Value → List Value → Bool
  | [], [] => true
  | first :: rest, second :: others => same first second && sameItems rest others
  | _, _ => false
  termination_by structural first => first

def sameEntries : List (String × Value) → List (String × Value) → Bool
  | [], [] => true
  | (name, first) :: rest, (key, second) :: others =>
    name = key && same first second && sameEntries rest others
  | _, _ => false
  termination_by structural first => first

end

/-- `type(nested) in _DUPLICATE_SENSITIVE_TYPES` -/
def duplicateSensitive : Value → Bool
  | record type _ => type.duplicateSensitive
  | _ => false

/-! ### The validator -/

/-- The fields that copy accepted Plan prose verbatim. -/
def inheritsPlanText (type : RecordType) (name : String) : Bool :=
  (type = .experimentBrief && name = "semantic_delta") ||
    (type = .codeReviewScope && name = "semantic_deltas")

/-- How a part is visited. -/
structure Mode where
  metric : Bool := false
  planText : Bool := false

open Projection (Usage addNode addScalarBytes)

/-- A scalar adds a node and its bytes. -/
def visitScalar (budget : Budget) (name : String) (bounded : Bool) (error : String) (size : ℕ)
    (usage : Usage) : Except String Usage := do
  let usage ← addNode budget name usage
  require bounded (name ++ error)
  addScalarBytes budget name size usage

mutual

/-- `visit` -/
def visit (budget : Budget) (name : String) : Value → Mode → Usage → Except String Usage
  | record type fields, _, usage => do
    let usage ← addNode budget name usage
    visitFields budget name type type.fields fields usage
  | tuple items, mode, usage => do
    let usage ← addNode budget name usage
    require (!exceeds budget.tupleItems items.length) (name ++ " contains an oversized tuple")
    visitItems budget name [] items mode usage
  | list items, mode, usage => do
    let usage ← addNode budget name usage
    require mode.metric (name ++ " contains a non-canonical value type")
    visitMetricItems budget name items usage
  | dict entries, mode, usage => do
    let usage ← addNode budget name usage
    require mode.metric (name ++ " contains a non-canonical value type")
    visitMetricEntries budget name entries usage
  | text value, mode, usage =>
    visitScalar budget name
      (if mode.planText then value.length ≤ planTextMaxChars else !exceeds budget.textBytes value.utf8ByteSize)
      " contains oversized text" (Text.quote value).utf8ByteSize usage
  | integer value, _, usage =>
    visitScalar budget name (value.natAbs ≤ canonicalIntegerMaxAbs) " contains an oversized integer"
      (toString value).length usage
  | float value, _, usage => visitScalar budget name true "" value.literal.length usage
  | nonFinite, _, usage => visitScalar budget name false " contains a non-finite number" 0 usage
  | bool value, _, usage => visitScalar budget name true "" (if value then 4 else 5) usage
  | null, _, usage => visitScalar budget name true "" 4 usage
  | other, _, usage => visitScalar budget name false " contains a non-canonical value type" 0 usage
  termination_by structural value => value

/-- The items of a tuple, after those seen so far. -/
def visitItems (budget : Budget) (name : String) (seen : List Value) :
    List Value → Mode → Usage → Except String Usage
  | [], _, usage => pure usage
  | item :: rest, mode, usage => do
    let usage ← visit budget name item mode usage
    require (!(item.duplicateSensitive && seen.any (same item)))
      (name ++ " contains an exact duplicate proof")
    visitItems budget name (if item.duplicateSensitive then item :: seen else seen) rest mode usage
  termination_by structural items => items

def visitMetricItems (budget : Budget) (name : String) : List Value → Usage → Except String Usage
  | [], usage => pure usage
  | item :: rest, usage => do
    let usage ← visit budget name item { metric := true } usage
    visitMetricItems budget name rest usage
  termination_by structural items => items

def visitMetricEntries (budget : Budget) (name : String) :
    List (String × Value) → Usage → Except String Usage
  | [], usage => pure usage
  | (key, value) :: rest, usage => do
    let usage ← visitScalar budget name (!exceeds budget.textBytes key.utf8ByteSize)
      " contains oversized text" (Text.quote key).utf8ByteSize usage
    let usage ← visit budget name value { metric := true } usage
    visitMetricEntries budget name rest usage
  termination_by structural entries => entries

/-- The fields of an instance; one of its own class has as many as the class declares. -/
def visitFields (budget : Budget) (name : String) (type : RecordType) :
    List (String × Annotation) → List Value → Usage → Except String Usage
  | (fieldName, hint) :: declared, value :: rest, usage => do
    require (if isMetricValues type fieldName then validMetricValues budget value
        else matchesAnnotation hint value)
      (name ++ " field " ++ fieldName ++ " has a non-canonical schema type")
    let usage ← visit budget name value
      { metric := isMetricValues type fieldName, planText := inheritsPlanText type fieldName } usage
    visitFields budget name type declared rest usage
  | [], [], usage => pure usage
  | _, _, _ => .error (name ++ " contains a non-canonical record type")
  termination_by structural _ values => values

end

/-- `validate_closed_bundle_projection`, answering the canonical text that is hashed. -/
def validateClosed (budget : Budget) (name : String) (value : Value) : Except String String := do
  let _ ← value.visit budget name {} ⟨0, 0⟩
  let serialized ← value.canonicalProjection name
  require (!exceeds budget.rootBytes serialized.utf8ByteSize)
    (name ++ " exceeds the root projection byte budget")
  pure serialized

/-- `BUNDLE_ROOT_MAX_SERIALIZED_BYTES` -/
def rootMaxSerializedBytes : ℕ := 8 * 1024 * 1024

/-- `validate_closed_bundle_projection` with the `max_serialized_bytes` of its caller -/
def validateClosedWithin (budget : Budget) (maxSerializedBytes : ℤ) (name : String) (value : Value) :
    Except String String := do
  require (1 ≤ maxSerializedBytes && maxSerializedBytes ≤ rootMaxSerializedBytes)
    "Bundle projection budget is invalid"
  validateClosed { budget with rootBytes := some maxSerializedBytes.toNat } name value

end Value

end MetaResearch.Bundle

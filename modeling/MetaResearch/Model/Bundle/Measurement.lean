import MetaResearch.Model.Bundle.Protocol

/-! # Text, documents and measurement contracts of a formal Target

The field checks of the formal Target candidates, the JSON root budget, and the measurement contract
that each candidate freezes. A frozen JSON object is given by its fields, so text that is not the
canonical text of an object cannot be represented.
-/

namespace MetaResearch.Bundle

/-! ### Field checks -/

/-- `_text` -/
def text (budget : Budget) (value name : String) : Except String Unit := do
  require (!Text.isBlank value) (name ++ "_invalid")
  require (!exceeds budget.textBytes value.utf8ByteSize) (name ++ "_invalid")

/-- `_ref`: text without outer white space or a line break. -/
def ref (budget : Budget) (value name : String) : Except String Unit := do
  text budget value name
  require (value = Text.strip value &&
      value.toList.all fun char => char ≠ Char.ofNat 0 && char ≠ '\r' && char ≠ '\n')
    (name ++ "_invalid")

/-- `_canonical_string_tuple`, which also is the check of `_string_tuple`. -/
def canonicalStringTuple (budget : Budget) (values : List String) (name : String)
    (allowEmpty : Bool) : Except String Unit := do
  checkAll (fun value => ref budget value name) values
  require ((!values.isEmpty || allowEmpty) && decide values.Nodup) (name ++ "_invalid")

/-- `_metric_key` -/
def metricKey (budget : Budget) (value : String) : Except String Unit := do
  ref budget value "MetricKey"
  require (value.utf8ByteSize ≤ 128) "MetricKey_invalid"

/-- `_risk_class` -/
def riskClass (value : String) : Except String Unit :=
  require (["normal", "high"].contains value) "formal_target_risk_class_invalid"

/-- `_checkpoint_policy` -/
def checkpointPolicy (value : String) : Except String Unit :=
  require (["forbidden", "optional", "required"].contains value)
    "measurement_checkpoint_policy_invalid"

/-- `_nonnegative_int` -/
def nonnegativeInt (value : ℤ) (name : String) : Except String Unit :=
  require (0 ≤ value && value ≤ canonicalIntegerMaxAbs) (name ++ "_invalid")

/-- `_positive_int` -/
def positiveInt (value : ℤ) (name : String) : Except String Unit := do
  nonnegativeInt value name
  require (1 ≤ value) (name ++ "_invalid")

/-! ### JSON roots -/

/-- `_BUNDLE_ROOT_MAX_DEPTH` -/
def bundleRootMaxDepth : ℕ := 64

/-- `_PLAN_PROSE_FIELDS` -/
def planProseFields : List String := ["goal", "characteristics", "boundary_constraints", "semantic_delta"]

/-- `_PLAN_SEMANTIC_FIELDS` -/
def planSemanticFields : List String := "experiment_key" :: planProseFields

/-- `_NORMALIZED_BRIEF_FIELDS` -/
def normalizedBriefFields : List String :=
  ["experiment_key", "semantic_delta", "held_fixed_slots", "required_measurement_unit_keys"]

/-- Equality of two lists as sets. -/
def sameSet (first second : List String) : Bool :=
  first.all (second.contains ·) && second.all (first.contains ·)

/-- A closed record that carries inherited Plan prose. -/
def carriesPlanProse (planProjection : Bool) (fields : List (String × Json)) : Bool :=
  planProjection && (sameSet (fields.map Prod.fst) planSemanticFields ||
    sameSet (fields.map Prod.fst) normalizedBriefFields)

/-- Depth and node checks before a value is looked at, returning the new number of nodes. -/
def enterNode (budget : Budget) (name : String) (depth nodes : ℕ) : Except String ℕ := do
  require (depth ≤ bundleRootMaxDepth) (name ++ " exceeds depth budget")
  require (!exceeds budget.nodes (nodes + 1)) (name ++ " exceeds node budget")
  pure (nodes + 1)

mutual

/-- The `visit` of `_validate_json_root`. -/
def visitJson (budget : Budget) (name : String) (planProjection : Bool) :
    Json → (depth : ℕ) → (planText : Bool) → (nodes : ℕ) → Except String ℕ
  | .object fields, depth, _, nodes => do
    let nodes ← enterNode budget name depth nodes
    require (!exceeds budget.tupleItems fields.length) (name ++ " has oversized object")
    visitJsonFields budget name planProjection (carriesPlanProse planProjection fields) fields
      (depth + 1) nodes
  | .array items, depth, _, nodes => do
    let nodes ← enterNode budget name depth nodes
    require (!exceeds budget.tupleItems items.length) (name ++ " has oversized list")
    visitJsonItems budget name planProjection items (depth + 1) nodes
  | .text value, depth, planText, nodes => do
    let nodes ← enterNode budget name depth nodes
    require (!(planText && planTextMaxChars < value.length)) (name ++ " has oversized Plan text")
    require (planText || !exceeds budget.textBytes value.utf8ByteSize) (name ++ " has oversized text")
    pure nodes
  | .integer value, depth, _, nodes => do
    let nodes ← enterNode budget name depth nodes
    require (value.natAbs ≤ canonicalIntegerMaxAbs) (name ++ " has oversized integer")
    pure nodes
  | .null, depth, _, nodes => enterNode budget name depth nodes
  | .bool _, depth, _, nodes => enterNode budget name depth nodes
  | .number _, depth, _, nodes => enterNode budget name depth nodes
  termination_by structural value => value

def visitJsonItems (budget : Budget) (name : String) (planProjection : Bool) :
    List Json → (depth nodes : ℕ) → Except String ℕ
  | [], _, nodes => pure nodes
  | item :: rest, depth, nodes => do
    let nodes ← visitJson budget name planProjection item depth false nodes
    visitJsonItems budget name planProjection rest depth nodes
  termination_by structural items => items

def visitJsonFields (budget : Budget) (name : String) (planProjection planProse : Bool) :
    List (String × Json) → (depth nodes : ℕ) → Except String ℕ
  | [], _, nodes => pure nodes
  | (key, value) :: rest, depth, nodes => do
    let nodes ← visitJson budget name planProjection value depth
      (planProse && planProseFields.contains key) nodes
    visitJsonFields budget name planProjection planProse rest depth nodes
  termination_by structural fields => fields

end

/-- `_validate_json_root`, returning the canonical text that it hashes. -/
def validateJsonRoot (budget : Budget) (value : Json) (name : String) (planProjection : Bool) :
    Except String String := do
  let _ ← visitJson budget name planProjection value 0 false 0
  let encoded := value.dumps
  require (!exceeds budget.rootBytes encoded.utf8ByteSize) (name ++ " exceeds byte budget")
  pure encoded

/-! ### Domain documents -/

structure FrozenJsonObject where
  fields : List (String × Json)

def FrozenJsonObject.asDict (value : FrozenJsonObject) : Json := .object value.fields

/-- `_DOMAIN_ROUTING_FIELDS` -/
def domainRoutingFields : List String :=
  ["adapter", "adapter_kind", "argv", "command", "container_image", "entrypoint", "execution",
    "execution_payload", "image", "provider", "provider_registry", "runtime_binding"]

def isRoutingField (key : String) : Bool :=
  domainRoutingFields.contains <| String.ofList <|
    (Text.casefold key).toList.map fun char => if char = '-' then '_' else char

mutual

/-- Some object below the value has a routing field. -/
def containsRouting : Json → Bool
  | .object fields => fields.any (isRoutingField ·.1) || fieldsContainRouting fields
  | .array items => itemsContainRouting items
  | _ => false
  termination_by structural value => value

def itemsContainRouting : List Json → Bool
  | [] => false
  | item :: rest => containsRouting item || itemsContainRouting rest
  termination_by structural items => items

def fieldsContainRouting : List (String × Json) → Bool
  | [] => false
  | (_, value) :: rest => containsRouting value || fieldsContainRouting rest
  termination_by structural fields => fields

end

/-- `_validate_domain_document_root`: a result schema is guarded at its root only. -/
def validateDomainDocumentRoot (value : FrozenJsonObject) (name : String) : Except String Unit := do
  require (!value.fields.isEmpty) (name ++ "_invalid")
  require (!(value.fields.any (isRoutingField ·.1) ||
      (name ≠ "measurement result schema" && fieldsContainRouting value.fields)))
    (name ++ "_contains_runtime_routing")

def validateFrozenDomainDocument (budget : Budget) (value : FrozenJsonObject) (name : String) :
    Except String Unit := do
  let _ ← validateJsonRoot budget value.asDict name false
  validateDomainDocumentRoot value name

/-! ### Measurement contracts -/

structure FrozenAggregationRule where
  ruleRef : String
  rule : FrozenJsonObject

structure FrozenStopRule where
  ruleRef : String
  rule : FrozenJsonObject

structure FrozenMetricDefinition where
  metricKey : String
  definition : FrozenJsonObject

structure FrozenProtocolVersionCandidate where
  evaluationData : FrozenJsonObject
  split : FrozenJsonObject
  preprocessing : FrozenJsonObject
  requiredMetrics : List FrozenMetricDefinition
  optionalMetrics : List FrozenMetricDefinition
  internalPartKeys : List String
  aggregation : Option FrozenAggregationRule
  preregisteredStopRules : List FrozenStopRule
  schemaRef : String

structure TargetMeasurementContractCandidate where
  experimentKeys : List String
  measurementUnitKey : String
  baselineForwardContract : FrozenJsonObject
  variantRecipe : FrozenJsonObject
  evaluationProtocolLineage : FrozenJsonObject
  protocolVersion : FrozenProtocolVersionCandidate
  checkpointPolicy : String
  resultSchemaRef : String
  resultSchema : FrozenJsonObject
  schemaRef : String

def measurementContractCandidateSchemaRef : String :=
  "meta-research/target-measurement-contract-candidate/v1"

def protocolVersionCandidateSchemaRef : String := "meta-research/target-protocol-version-candidate/v1"

/-- `_METRIC_DEFINITION_MAX_ITEMS` -/
def metricDefinitionMaxItems : ℕ := 64

def FrozenMetricDefinition.toDict (metric : FrozenMetricDefinition) : Json :=
  .object [("metric_key", .text metric.metricKey), ("definition", metric.definition.asDict)]

/-- `_protocol_version_to_dict` -/
def FrozenProtocolVersionCandidate.toDict (protocol : FrozenProtocolVersionCandidate) : Json :=
  .object [("schema_ref", .text protocol.schemaRef),
    ("evaluation_data", protocol.evaluationData.asDict),
    ("split", protocol.split.asDict),
    ("preprocessing", protocol.preprocessing.asDict),
    ("required_metrics", .array (protocol.requiredMetrics.map FrozenMetricDefinition.toDict)),
    ("optional_metrics", .array (protocol.optionalMetrics.map FrozenMetricDefinition.toDict)),
    ("internal_part_keys", .texts protocol.internalPartKeys),
    ("aggregation", protocol.aggregation.elim .null fun rule =>
      .object [("rule_ref", .text rule.ruleRef), ("rule", rule.rule.asDict)]),
    ("preregistered_stop_rules", .array (protocol.preregisteredStopRules.map fun rule =>
      .object [("rule_ref", .text rule.ruleRef), ("rule", rule.rule.asDict)]))]

/-- `_measurement_contract_to_unvalidated_dict` -/
def TargetMeasurementContractCandidate.toDict (contract : TargetMeasurementContractCandidate) : Json :=
  .object [("schema_ref", .text contract.schemaRef),
    ("experiment_keys", .texts contract.experimentKeys),
    ("measurement_unit_key", .text contract.measurementUnitKey),
    ("baseline_forward_contract", contract.baselineForwardContract.asDict),
    ("variant_recipe", contract.variantRecipe.asDict),
    ("evaluation_protocol_lineage", contract.evaluationProtocolLineage.asDict),
    ("protocol_version", contract.protocolVersion.toDict),
    ("checkpoint_policy", .text contract.checkpointPolicy),
    ("result_schema_ref", .text contract.resultSchemaRef),
    ("result_schema", contract.resultSchema.asDict)]

/-- `_validate_metric_definitions`, with the flag that both callers set. -/
def validateMetricDefinitions (budget : Budget) (metrics : List FrozenMetricDefinition)
    (name : String) : Except String Unit := do
  require (metrics.length ≤ metricDefinitionMaxItems) (name ++ "_invalid")
  checkAll (fun metric => do
    metricKey budget metric.metricKey
    validateFrozenDomainDocument budget metric.definition "Metric definition") metrics
  require (decide (metrics.map FrozenMetricDefinition.metricKey).Nodup) "protocol_metric_key_duplicate"

def validateAggregationRule (budget : Budget) (rule : FrozenAggregationRule) : Except String Unit := do
  ref budget rule.ruleRef "protocol aggregation rule"
  validateFrozenDomainDocument budget rule.rule "protocol aggregation rule"

/-- The loop over the stop rules, with the references seen so far. -/
def validateStopRules (budget : Budget) : List String → List FrozenStopRule → Except String Unit
  | _, [] => .ok ()
  | seen, rule :: rest => do
    ref budget rule.ruleRef "preregistered stop rule"
    require (!seen.contains rule.ruleRef) "preregistered_stop_rule_duplicate"
    validateFrozenDomainDocument budget rule.rule "preregistered stop rule"
    validateStopRules budget (rule.ruleRef :: seen) rest

def validateProtocolVersion (budget : Budget) (protocol : FrozenProtocolVersionCandidate) :
    Except String Unit := do
  require (protocol.schemaRef = protocolVersionCandidateSchemaRef)
    "protocol_version_candidate_schema_invalid"
  validateFrozenDomainDocument budget protocol.evaluationData "protocol evaluation data"
  validateFrozenDomainDocument budget protocol.split "protocol split"
  validateFrozenDomainDocument budget protocol.preprocessing "protocol preprocessing"
  validateMetricDefinitions budget protocol.requiredMetrics "required_metrics"
  validateMetricDefinitions budget protocol.optionalMetrics "optional_metrics"
  require (protocol.requiredMetrics.all fun metric =>
      !(protocol.optionalMetrics.map FrozenMetricDefinition.metricKey).contains metric.metricKey)
    "protocol_metric_sets_overlap"
  canonicalStringTuple budget protocol.internalPartKeys "protocol internal part keys" true
  require (!protocol.internalPartKeys.isEmpty = protocol.aggregation.isSome)
    "protocol_parts_aggregation_incomplete"
  protocol.aggregation.elim (.ok ()) (validateAggregationRule budget)
  require (!exceeds budget.tupleItems protocol.preregisteredStopRules.length)
    "preregistered_stop_rules_invalid"
  validateStopRules budget [] protocol.preregisteredStopRules

def validateMeasurementContract (budget : Budget) (contract : TargetMeasurementContractCandidate) :
    Except String Unit := do
  require (contract.schemaRef = measurementContractCandidateSchemaRef)
    "measurement_contract_schema_invalid"
  canonicalStringTuple budget contract.experimentKeys "measurement contract ExperimentKeys" false
  ref budget contract.measurementUnitKey "measurement contract cell"
  validateFrozenDomainDocument budget contract.baselineForwardContract "baseline forward contract"
  validateFrozenDomainDocument budget contract.variantRecipe "variant recipe"
  validateFrozenDomainDocument budget contract.evaluationProtocolLineage "evaluation protocol lineage"
  validateProtocolVersion budget contract.protocolVersion
  checkpointPolicy contract.checkpointPolicy
  ref budget contract.resultSchemaRef "measurement result schema"
  validateFrozenDomainDocument budget contract.resultSchema "measurement result schema"
  let _ ← validateJsonRoot budget contract.toDict "TargetMeasurementContractCandidate" false

end MetaResearch.Bundle

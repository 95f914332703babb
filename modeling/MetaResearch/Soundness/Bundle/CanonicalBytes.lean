import MetaResearch.Model.Bundle.ClosedUnion
import MetaResearch.Soundness.Bundle.Sizes
import MetaResearch.ToMathlib.JsonText

/-! # Canonical bytes determine the record

A reader of canonical JSON finds the record type from the field names and reads back every field of
an accepted record. Two accepted records with the same bytes are therefore the same, up to the
insertion order of the dictionaries among the metric values.
-/

namespace MetaResearch.Bundle

namespace Value

open Json (sortNamed)

/-! ### Dictionaries compared without their order -/

mutual

/-- The value with the entries of all of its dictionaries sorted by their keys. -/
def sorted : Value → Value
  | tuple items => tuple (sortedItems items)
  | list items => list (sortedItems items)
  | dict entries => dict (sortNamed (sortedEntries entries))
  | record type fields => record type (sortedItems fields)
  | null => null
  | bool value => bool value
  | integer value => integer value
  | float value => float value
  | nonFinite => nonFinite
  | text value => text value
  | other => other
  termination_by structural value => value

def sortedItems : List Value → List Value
  | [] => []
  | item :: rest => sorted item :: sortedItems rest
  termination_by structural items => items

def sortedEntries : List (String × Value) → List (String × Value)
  | [] => []
  | (name, value) :: rest => (name, sorted value) :: sortedEntries rest
  termination_by structural entries => entries

end

/-- Equality of values, with dictionaries as mappings. -/
def Equal (first second : Value) : Prop := first.sorted = second.sorted

theorem sortedItems_eq_map (items : List Value) : sortedItems items = items.map sorted := by
  induction items with
  | nil => rfl
  | cons item rest ih => rw [sortedItems, ih, List.map_cons]

/-! ### What the validator leaves -/

mutual

/-- A metric value made of JSON values. -/
def closedMetric : Value → Bool
  | null | bool _ | integer _ | float _ | text _ => true
  | list items => closedMetricItems items
  | dict entries => closedMetricEntries entries
  | _ => false
  termination_by structural value => value

def closedMetricItems : List Value → Bool
  | [] => true
  | item :: rest => closedMetric item && closedMetricItems rest
  termination_by structural items => items

def closedMetricEntries : List (String × Value) → Bool
  | [] => true
  | (_, value) :: rest => closedMetric value && closedMetricEntries rest
  termination_by structural entries => entries

end

/-- A tuple of metric values. -/
def closedMetrics : Value → Bool
  | tuple items => closedMetricItems items
  | _ => false

mutual

/-- A value made of scalars, tuples and records with all of their fields. -/
def closed : Value → Bool
  | null | bool _ | integer _ | float _ | text _ => true
  | tuple items => closedItems items
  | record type fields => closedFields type (type.fields.map Prod.fst) fields
  | _ => false
  termination_by structural value => value

def closedItems : List Value → Bool
  | [] => true
  | item :: rest => closed item && closedItems rest
  termination_by structural items => items

def closedFields (type : RecordType) : List String → List Value → Bool
  | name :: names, value :: rest =>
    (if isMetricValues type name then closedMetrics value else closed value) &&
      closedFields type names rest
  | [], [] => true
  | _, _ => false
  termination_by structural _ values => values

end

section

variable {budget : Budget}

mutual

theorem closedMetric_of_nodes : ∀ (value : Value) {depth nodes after : ℕ},
    metricNodes budget value depth nodes = some after → closedMetric value = true
  | null, _, _, _, _ => rfl
  | bool _, _, _, _, _ => rfl
  | integer _, _, _, _, _ => rfl
  | float _, _, _, _, _ => rfl
  | text _, _, _, _, _ => rfl
  | list items, _, _, _, success => by
    obtain ⟨_, _, continued⟩ := Option.bind_eq_some_iff.mp success
    exact closedMetricItems_of_nodes items continued
  | dict entries, _, _, _, success => by
    obtain ⟨_, _, continued⟩ := Option.bind_eq_some_iff.mp success
    exact closedMetricEntries_of_nodes entries continued
  | nonFinite, _, _, _, success => by cases success
  | tuple _, _, _, _, success => by cases success
  | record _ _, _, _, _, success => by cases success
  | other, _, _, _, success => by cases success
  termination_by structural value => value

theorem closedMetricItems_of_nodes : ∀ (items : List Value) {depth nodes after : ℕ},
    metricItems budget items depth nodes = some after → closedMetricItems items = true
  | [], _, _, _, _ => rfl
  | item :: rest, _, _, _, success => by
    obtain ⟨_, first, continued⟩ := Option.bind_eq_some_iff.mp success
    rw [closedMetricItems, closedMetric_of_nodes item first, closedMetricItems_of_nodes rest continued]
    rfl
  termination_by structural items => items

theorem closedMetricEntries_of_nodes : ∀ (entries : List (String × Value)) {depth nodes after : ℕ},
    metricEntries budget entries depth nodes = some after → closedMetricEntries entries = true
  | [], _, _, _, _ => rfl
  | (_, value) :: rest, _, _, _, success => by
    obtain ⟨_, _, named⟩ := Option.bind_eq_some_iff.mp success
    obtain ⟨_, first, continued⟩ := Option.bind_eq_some_iff.mp named
    rw [closedMetricEntries, closedMetric_of_nodes value first,
      closedMetricEntries_of_nodes rest continued]
    rfl
  termination_by structural entries => entries

end

theorem closedMetrics_of_valid {value : Value} (valid : validMetricValues budget value = true) :
    closedMetrics value = true := by
  cases value with
  | tuple items =>
    have each : ∀ item ∈ items, closedMetric item = true := by
      intro item member
      have := List.all_eq_true.mp valid item member
      obtain ⟨_, counted⟩ := Option.isSome_iff_exists.mp this
      exact closedMetric_of_nodes item counted
    clear valid
    induction items with
    | nil => rfl
    | cons item rest ih =>
      obtain ⟨first, others⟩ := List.forall_mem_cons.mp each
      have rest := ih others
      rw [closedMetrics] at rest ⊢
      rw [closedMetricItems, first, rest]
      rfl
  | _ => cases valid

open Projection (Usage)

mutual

/-- What is visited outside of the metric values is closed. -/
theorem closed_of_visit : ∀ (value : Value) {name : String} {mode : Mode} {usage after : Usage},
    mode.metric = false → value.visit budget name mode usage = .ok after → closed value = true
  | null, _, _, _, _, _, _ => rfl
  | bool _, _, _, _, _, _, _ => rfl
  | integer _, _, _, _, _, _, _ => rfl
  | float _, _, _, _, _, _, _ => rfl
  | text _, _, _, _, _, _, _ => rfl
  | tuple items, _, _, _, _, plain, success => by
    simp only [visit, bind_eq_ok_iff (α := Usage), check_then_eq_ok_iff] at success
    obtain ⟨_, _, _, visited⟩ := success
    exact closedItems_of_visit items plain visited
  | record type fields, _, _, _, _, _, success => by
    simp only [visit, bind_eq_ok_iff (α := Usage)] at success
    obtain ⟨_, _, visited⟩ := success
    exact closedFields_of_visit type fields visited
  | list _, _, _, _, _, plain, success => by
    simp [visit, bind_eq_ok_iff, plain] at success
  | dict _, _, _, _, _, plain, success => by
    simp [visit, bind_eq_ok_iff, plain] at success
  | nonFinite, _, _, _, _, _, success => by
    simp [visit, visitScalar, bind_eq_ok_iff] at success
  | other, _, _, _, _, _, success => by
    simp [visit, visitScalar, bind_eq_ok_iff] at success
  termination_by structural value => value

theorem closedItems_of_visit : ∀ (items : List Value) {name : String} {seen : List Value} {mode : Mode}
    {usage after : Usage}, mode.metric = false →
      visitItems budget name seen items mode usage = .ok after → closedItems items = true
  | [], _, _, _, _, _, _, _ => rfl
  | item :: rest, _, _, _, _, _, plain, success => by
    simp only [visitItems, bind_eq_ok_iff (α := Usage), check_then_eq_ok_iff] at success
    obtain ⟨_, first, _, visited⟩ := success
    rw [closedItems, closed_of_visit item plain first, closedItems_of_visit rest plain visited]
    rfl
  termination_by structural items => items

theorem closedFields_of_visit (type : RecordType) : ∀ (values : List Value)
    {declared : List (String × Annotation)} {name : String} {usage after : Usage},
      visitFields budget name type declared values usage = .ok after →
        closedFields type (declared.map Prod.fst) values = true
  | [], declared, _, _, _, success => by
    cases declared with
    | nil => rfl
    | cons first rest => cases success
  | value :: rest, declared, _, _, _, success => by
    cases declared with
    | nil => cases success
    | cons field others =>
      obtain ⟨fieldName, hint⟩ := field
      simp only [visitFields, bind_eq_ok_iff (α := Usage), check_then_eq_ok_iff,
        require_eq_ok_iff] at success
      obtain ⟨matched, _, first, visited⟩ := success
      rw [List.map_cons, closedFields, closedFields_of_visit type rest visited, Bool.and_true]
      split_ifs at matched ⊢ with metrics
      · exact closedMetrics_of_valid matched
      · exact closed_of_visit value (by simpa using metrics) first
  termination_by structural values => values

end

end

/-! ### Reading back -/

mutual

/-- Read a metric value. -/
def readMetric : Json → Value
  | .null => null
  | .bool value => bool value
  | .integer value => integer value
  | .number literal => if fractional : Json.isFractional literal then float ⟨literal, fractional⟩ else other
  | .text value => text value
  | .array items => list (readMetricItems items)
  | .object fields => dict (readMetricFields fields)
  termination_by structural value => value

def readMetricItems : List Json → List Value
  | [] => []
  | item :: rest => readMetric item :: readMetricItems rest
  termination_by structural items => items

def readMetricFields : List (String × Json) → List (String × Value)
  | [] => []
  | (name, value) :: rest => (name, readMetric value) :: readMetricFields rest
  termination_by structural fields => fields

end

def readMetrics : Json → Value
  | .array items => tuple (readMetricItems items)
  | _ => other

/-- The fields of a native closure, which does not write its absent receipt. -/
def nativeFields : List (String × Annotation) :=
  RecordType.acceptedMeasurementClosure.fields.filter (·.1 ≠ "root_completion_receipt")

/-- These are the names of the fields, in any order. -/
def hasNames (names : List String) (fields : List (String × Annotation)) : Bool :=
  names.length = fields.length && fields.all fun field => names.contains field.1

def recordTypes : List RecordType :=
  [.stageRunRequest, .heldFixedBinding, .contentBindingProof, .receiptProof, .experimentBrief,
    .formalPlan, .codeReviewRecord, .revisionEvidenceProof, .resultReviewRecord, .codeReviewScope,
    .targetExecutionPreflight, .protocolAggregationProof, .protocolPart, .routeSpec, .targetCandidate,
    .strategyUpdate, .targetBinding, .acceptedInputAssetProof, .targetWorkHandle, .targetLaunchRequest,
    .targetLaunchAck, .targetControlRequest, .targetControlAck, .targetFrontierEntry,
    .stopDecisionProof, .monitorObservation, .technicalBlocker, .executionInputBindingProof,
    .acceptedMeasurementClosure, .externalOperationReconciliation, .routeDisposition, .semanticBarrier,
    .goalWorkDisposition, .targetRunHandoff, .targetWorkNotice, .bundleInboxBatch, .bundlePause,
    .bundleReport]

/-- The record type with these field names. -/
def typeOf? (names : List String) : Option RecordType :=
  if hasNames names nativeFields then some .acceptedMeasurementClosure
  else recordTypes.find? fun type => hasNames names type.fields

/-- The record of these fields; an absent field has the value null. -/
def assemble (entries : List (String × Value)) : Value :=
  match typeOf? (entries.map Prod.fst) with
  | some type => record type (type.fields.map fun field => (entries.lookup field.1).getD null)
  | none => other

mutual

/-- Read a closed value. -/
def read : Json → Value
  | .null => null
  | .bool value => bool value
  | .integer value => integer value
  | .number literal => if fractional : Json.isFractional literal then float ⟨literal, fractional⟩ else other
  | .text value => text value
  | .array items => tuple (readItems items)
  | .object fields => assemble (readFields fields)
  termination_by structural value => value

def readItems : List Json → List Value
  | [] => []
  | item :: rest => read item :: readItems rest
  termination_by structural items => items

def readFields : List (String × Json) → List (String × Value)
  | [] => []
  | (name, value) :: rest =>
    (name, if name = "metric_values" then readMetrics value else read value) :: readFields rest
  termination_by structural fields => fields

end

theorem hasNames_perm {first second : List String} (perm : first.Perm second)
    (fields : List (String × Annotation)) : hasNames first fields = hasNames second fields := by
  unfold hasNames
  rw [perm.length_eq]
  simp only [List.contains_eq_mem, perm.mem_iff]

theorem typeOf_perm {first second : List String} (perm : first.Perm second) :
    typeOf? first = typeOf? second := by
  simp only [typeOf?, hasNames_perm perm]

theorem length_nativeFields : nativeFields.length = 31 := by decide +kernel

/-- The field names tell the record types apart. -/
theorem typeOf_names (type : RecordType) : typeOf? (type.fields.map Prod.fst) = some type := by
  -- No record type has as many fields as a native closure.
  have native : hasNames (type.fields.map Prod.fst) nativeFields = false := by
    have other : type.fields.length ≠ 31 := by cases type <;> decide
    simp [hasNames, length_nativeFields, other]
  simp only [typeOf?, native, Bool.false_eq_true, if_false]
  cases type <;> decide +kernel

theorem typeOf_nativeNames :
    typeOf? (nativeFields.map Prod.fst) = some .acceptedMeasurementClosure := by
  decide +kernel

example : typeOf? ["implementation_revision_ref", "semantic_slot"] = some .heldFixedBinding := by
  decide +kernel

theorem names_nodup (type : RecordType) : (type.fields.map Prod.fst).Nodup := by
  cases type <;> decide +kernel

/-- Only a closure has metric values. -/
theorem isMetricValues_of_mem {type : RecordType} {name : String}
    (member : name ∈ type.fields.map Prod.fst) :
    isMetricValues type name = decide (name = "metric_values") := by
  have each : ∀ name ∈ type.fields.map Prod.fst,
      isMetricValues type name = decide (name = "metric_values") := by
    cases type <;> decide +kernel
  exact each name member

theorem readMetricFields_eq_map (fields : List (String × Json)) :
    readMetricFields fields = fields.map fun field => (field.1, readMetric field.2) := by
  induction fields with
  | nil => rfl
  | cons field rest ih => rw [readMetricFields, ih, List.map_cons]

theorem readFields_eq_map (fields : List (String × Json)) :
    readFields fields = fields.map fun field =>
      (field.1, if field.1 = "metric_values" then readMetrics field.2 else read field.2) := by
  induction fields with
  | nil => rfl
  | cons field rest ih => rw [readFields, ih, List.map_cons]

mutual

/-- A metric value is read back, up to the order of its entries. -/
theorem readMetric_json : ∀ (value : Value) {json : Json}, closedMetric value = true →
    value.json? = some json → readMetric json.canonical = value.sorted
  | null, _, _, written => by cases written; rfl
  | bool _, _, _, written => by cases written; rfl
  | integer _, _, _, written => by cases written; rfl
  | float value, _, _, written => by
    cases written
    rw [Json.canonical, readMetric, dif_pos value.fractional]
    rfl
  | text _, _, _, written => by cases written; rfl
  | list items, _, formed, written => by
    obtain ⟨jsons, each, rfl⟩ := Option.map_eq_some_iff.mp written
    rw [Json.canonical, readMetric, sorted, readMetric_jsonItems items formed each]
  | dict entries, _, formed, written => by
    obtain ⟨jsons, each, rfl⟩ := Option.map_eq_some_iff.mp written
    rw [Json.canonical, readMetric, sorted, ← readMetric_jsonEntries entries formed each,
      readMetricFields_eq_map, readMetricFields_eq_map, Json.sortNamed_map fun _ => readMetric]
  | tuple _, _, formed, _ => by cases formed
  | record _ _, _, formed, _ => by cases formed
  | nonFinite, _, formed, _ => by cases formed
  | other, _, formed, _ => by cases formed
  termination_by structural value => value

theorem readMetric_jsonItems : ∀ (items : List Value) {jsons : List Json},
    closedMetricItems items = true → jsonItems? items = some jsons →
      readMetricItems (Json.canonicalItems jsons) = sortedItems items
  | [], _, _, written => by cases written; rfl
  | item :: rest, _, formed, written => by
    rw [closedMetricItems, Bool.and_eq_true] at formed
    obtain ⟨first, firstWritten, later⟩ := Option.bind_eq_some_iff.mp written
    obtain ⟨others, othersWritten, made⟩ := Option.bind_eq_some_iff.mp later
    cases made
    rw [Json.canonicalItems, readMetricItems, sortedItems, readMetric_json item formed.1 firstWritten,
      readMetric_jsonItems rest formed.2 othersWritten]
  termination_by structural items => items

theorem readMetric_jsonEntries : ∀ (entries : List (String × Value)) {jsons : List (String × Json)},
    closedMetricEntries entries = true → jsonEntries? entries = some jsons →
      readMetricFields (Json.canonicalFields jsons) = sortedEntries entries
  | [], _, _, written => by cases written; rfl
  | (_, value) :: rest, _, formed, written => by
    rw [closedMetricEntries, Bool.and_eq_true] at formed
    obtain ⟨first, firstWritten, later⟩ := Option.bind_eq_some_iff.mp written
    obtain ⟨others, othersWritten, made⟩ := Option.bind_eq_some_iff.mp later
    cases made
    rw [Json.canonicalFields, readMetricFields, sortedEntries,
      readMetric_json value formed.1 firstWritten, readMetric_jsonEntries rest formed.2 othersWritten]
  termination_by structural entries => entries

end

theorem readMetrics_json {value : Value} {json : Json} (formed : closedMetrics value = true)
    (written : value.json? = some json) : readMetrics json.canonical = value.sorted := by
  cases value with
  | tuple items =>
    obtain ⟨jsons, each, rfl⟩ := Option.map_eq_some_iff.mp written
    rw [Json.canonical, readMetrics, sorted, readMetric_jsonItems items formed each]
  | _ => cases formed

/-! ### Reading a record -/

/-- The fields that are written, with their values. -/
def present (type : RecordType) (names : List String) (values : List Value) : List (String × Value) :=
  (names.zip values).filter fun entry => !omitted type entry.1 entry.2

theorem omitted_sorted (type : RecordType) (name : String) (value : Value) :
    omitted type name value.sorted = omitted type name value := by
  cases value <;> rfl

theorem lookup_eq_of_perm {α : Type} {first second : List (String × α)} (perm : first.Perm second)
    (distinct : (first.map Prod.fst).Nodup) (name : String) : first.lookup name = second.lookup name := by
  induction perm with
  | nil => rfl
  | cons entry _ ih =>
    obtain ⟨key, value⟩ := entry
    rw [List.map_cons, List.nodup_cons] at distinct
    rw [List.lookup_cons, List.lookup_cons, ih distinct.2]
  | swap first second rest =>
    obtain ⟨key, value⟩ := first
    obtain ⟨other, more⟩ := second
    simp only [List.map_cons, List.nodup_cons, List.mem_cons, not_or] at distinct
    simp only [List.lookup_cons]
    by_cases isFirst : name = key
    · subst isFirst
      have differs : (name == other) = false := beq_false_of_ne (Ne.symm distinct.1.1)
      simp [differs]
    · have differs : (name == key) = false := beq_false_of_ne isFirst
      simp [differs]
  | trans front _ ih later =>
    exact (ih distinct).trans (later ((front.map Prod.fst).nodup_iff.mp distinct))

theorem lookup_present_of_not_mem {type : RecordType} {names : List String} {values : List Value}
    {name : String} (new : name ∉ names) : (present type names values).lookup name = none := by
  rw [List.lookup_eq_none_iff]
  rintro ⟨other, value⟩ member
  have present : other ∈ names := (List.of_mem_zip (List.mem_of_mem_filter member)).1
  have differs : name ≠ other := fun same => new (same ▸ present)
  exact bne_iff_ne.mpr differs

/-- The fields that are written and the omitted ones give the values back. -/
theorem lookup_present {type : RecordType} {names : List String} {values : List Value}
    (distinct : names.Nodup) (sizes : names.length = values.length) :
    names.map (fun name => ((present type names values).lookup name).getD null) = values := by
  induction names generalizing values with
  | nil =>
    cases values with
    | nil => rfl
    | cons value values => cases sizes
  | cons name names ih =>
    cases values with
    | nil => cases sizes
    | cons value values =>
      rw [List.nodup_cons] at distinct
      have rest := ih distinct.2 (Nat.succ.inj sizes)
      have split : present type (name :: names) (value :: values) =
          (if omitted type name value then [] else [(name, value)]) ++ present type names values := by
        unfold present
        rw [List.zip_cons_cons, List.filter_cons]
        cases omitted type name value <;> rfl
      have others : ∀ other ∈ names,
          ((if omitted type name value then [] else [(name, value)]) ++ present type names values).lookup
            other = (present type names values).lookup other := by
        intro other member
        have differs : (other == name) = false := beq_false_of_ne fun same => distinct.1 (same ▸ member)
        split_ifs
        · rfl
        · rw [List.singleton_append, List.lookup_cons, differs]
      rw [split, List.map_cons, List.map_congr_left (fun other member => by rw [others other member]),
        rest]
      congr 1
      split_ifs with absent
      · have null : value = null := by
          cases value <;> first | rfl | cases absent
        rw [List.nil_append, lookup_present_of_not_mem distinct.1, null]
        rfl
      · simp

theorem closedFields_length {type : RecordType} {names : List String} {values : List Value}
    (formed : closedFields type names values = true) : names.length = values.length := by
  induction names generalizing values with
  | nil =>
    cases values with
    | nil => rfl
    | cons value values => cases formed
  | cons name names ih =>
    cases values with
    | nil => cases formed
    | cons value values =>
      rw [closedFields, Bool.and_eq_true] at formed
      simp [ih formed.2]

/-- Every field is written, or all but the receipt of a native closure. -/
theorem names_present {type : RecordType} {names : List String} {values : List Value}
    (distinct : names.Nodup) (sizes : names.length = values.length) :
    (present type names values).map Prod.fst = names ∨ type = .acceptedMeasurementClosure ∧
      (present type names values).map Prod.fst = names.filter (· ≠ "root_completion_receipt") := by
  induction names generalizing values with
  | nil => exact .inl rfl
  | cons name names ih =>
    cases values with
    | nil => cases sizes
    | cons value values =>
      rw [List.nodup_cons] at distinct
      have rest := ih distinct.2 (Nat.succ.inj sizes)
      have all (isReceipt : name = "root_completion_receipt") :
          names.filter (· ≠ "root_completion_receipt") = names := by
        rw [List.filter_eq_self]
        intro other member
        exact decide_eq_true fun same => distinct.1 (isReceipt.trans same.symm ▸ member)
      unfold present at rest ⊢
      rw [List.zip_cons_cons, List.filter_cons]
      cases absent : omitted type name value with
      | true =>
        have receipt : type = .acceptedMeasurementClosure ∧ name = "root_completion_receipt" := by
          cases value <;> simp_all [omitted]
        refine .inr ⟨receipt.1, ?_⟩
        have skip : ¬ decide (name ≠ "root_completion_receipt") = true := by simpa using receipt.2
        rw [List.filter_cons, if_neg skip, all receipt.2]
        rw [all receipt.2] at rest
        exact rest.elim id And.right
      | false =>
        simp only [Bool.not_false, if_true, List.map_cons]
        rcases rest with same | ⟨closure, same⟩
        · exact .inl (by rw [same])
        · by_cases isReceipt : name = "root_completion_receipt"
          · exact .inl (by rw [same, all isReceipt])
          · refine .inr ⟨closure, ?_⟩
            rw [List.filter_cons, if_pos (by simpa using isReceipt), same]

/-- The written names tell the type. -/
theorem typeOf_present {type : RecordType} {values : List Value}
    (sizes : (type.fields.map Prod.fst).length = values.length) :
    typeOf? ((present type (type.fields.map Prod.fst) values).map Prod.fst) = some type := by
  rcases @names_present type _ _ (names_nodup type) sizes with same | ⟨rfl, same⟩
  · rw [same, typeOf_names]
  · have native : (RecordType.acceptedMeasurementClosure.fields.map Prod.fst).filter
        (· ≠ "root_completion_receipt") = nativeFields.map Prod.fst := by
      rw [List.filter_map]
      rfl
    rw [same, native, typeOf_nativeNames]

theorem present_nodup {type : RecordType} {values : List Value}
    (sizes : (type.fields.map Prod.fst).length = values.length) :
    ((present type (type.fields.map Prod.fst) values).map Prod.fst).Nodup := by
  rcases @names_present type _ _ (names_nodup type) sizes with same | ⟨_, same⟩
  · rw [same]
    exact names_nodup type
  · rw [same]
    exact (names_nodup type).filter _

/-- A record is put together again from its written fields in any order. -/
theorem assemble_present {type : RecordType} {values : List Value}
    (sizes : (type.fields.map Prod.fst).length = values.length) :
    assemble (sortNamed (present type (type.fields.map Prod.fst) values)) = record type values := by
  have perm := Json.sortNamed_perm (present type (type.fields.map Prod.fst) values)
  have distinct : ((sortNamed (present type (type.fields.map Prod.fst) values)).map Prod.fst).Nodup :=
    (perm.map Prod.fst).nodup_iff.mpr (present_nodup sizes)
  unfold assemble
  rw [typeOf_perm (perm.map Prod.fst), typeOf_present sizes]
  have each := @lookup_present type _ _ (names_nodup type) sizes
  rw [List.map_map] at each
  simp only [lookup_eq_of_perm perm distinct]
  exact congrArg (record type) each

mutual

/-- A closed value is read back, up to the order of the dictionaries in it. -/
theorem read_plainValue : ∀ (value : Value) {json : Json}, closed value = true →
    value.plainValue? = some json → read json.canonical = value.sorted
  | null, _, _, written => by cases written; rfl
  | bool _, _, _, written => by cases written; rfl
  | integer _, _, _, written => by cases written; rfl
  | float value, _, _, written => by
    cases written
    rw [Json.canonical, read, dif_pos value.fractional]
    rfl
  | text _, _, _, written => by cases written; rfl
  | tuple items, _, formed, written => by
    obtain ⟨jsons, each, rfl⟩ := Option.map_eq_some_iff.mp written
    rw [Json.canonical, read, sorted, read_plainItems items formed each]
  | record type fields, _, formed, written => by
    obtain ⟨jsons, each, rfl⟩ := Option.map_eq_some_iff.mp written
    have entries := read_plainFields type fields formed each fun name member =>
      isMetricValues_of_mem member
    rw [readFields_eq_map] at entries
    rw [Json.canonical, read, readFields_eq_map, ← Json.sortNamed_map fun name json =>
      if name = "metric_values" then readMetrics json else read json, entries, sorted]
    apply assemble_present
    have sizes := closedFields_length formed
    simpa [sortedItems_eq_map] using sizes
  | list _, _, formed, _ => by cases formed
  | dict _, _, formed, _ => by cases formed
  | nonFinite, _, formed, _ => by cases formed
  | other, _, formed, _ => by cases formed
  termination_by structural value => value

theorem read_plainItems : ∀ (items : List Value) {jsons : List Json}, closedItems items = true →
    plainItems? items = some jsons → readItems (Json.canonicalItems jsons) = sortedItems items
  | [], _, _, written => by cases written; rfl
  | item :: rest, _, formed, written => by
    rw [closedItems, Bool.and_eq_true] at formed
    obtain ⟨first, firstWritten, later⟩ := Option.bind_eq_some_iff.mp written
    obtain ⟨others, othersWritten, made⟩ := Option.bind_eq_some_iff.mp later
    cases made
    rw [Json.canonicalItems, readItems, sortedItems, read_plainValue item formed.1 firstWritten,
      read_plainItems rest formed.2 othersWritten]
  termination_by structural items => items

theorem read_plainFields (type : RecordType) : ∀ (values : List Value) {names : List String}
    {jsons : List (String × Json)}, closedFields type names values = true →
      plainFields? type names values = some jsons →
        (∀ name ∈ names, isMetricValues type name = decide (name = "metric_values")) →
          readFields (Json.canonicalFields jsons) = present type names (sortedItems values)
  | [], names, _, formed, written, _ => by
    cases names with
    | nil => cases written; rfl
    | cons name names => cases formed
  | value :: rest, names, _, formed, written, metrics => by
    cases names with
    | nil => cases formed
    | cons name names =>
      rw [closedFields, Bool.and_eq_true] at formed
      obtain ⟨isMetrics, metrics⟩ := List.forall_mem_cons.mp metrics
      obtain ⟨first, firstWritten, later⟩ := Option.bind_eq_some_iff.mp written
      obtain ⟨others, othersWritten, made⟩ := Option.map_eq_some_iff.mp later
      have back : (if name = "metric_values" then readMetrics first.canonical
          else read first.canonical) = value.sorted := by
        rw [isMetrics] at formed firstWritten
        by_cases named : name = "metric_values"
        · rw [if_pos named]
          exact readMetrics_json (by simpa [named] using formed.1) (by simpa [named] using firstWritten)
        · rw [if_neg named]
          exact read_plainValue value (by simpa [named] using formed.1)
            (by simpa [named] using firstWritten)
      have rest := read_plainFields type rest formed.2 othersWritten metrics
      unfold present at rest ⊢
      rw [sortedItems, List.zip_cons_cons, List.filter_cons, omitted_sorted, ← rest]
      cases made
      cases omitted type name value with
      | true => rfl
      | false =>
        simp only [Bool.false_eq_true, if_false, Bool.not_false, if_true]
        rw [Json.canonicalFields, readFields, back]
  termination_by structural values => values

end

/-! ### Canonical text -/

mutual

theorem wellFormed_json : ∀ (value : Value) {json : Json}, value.json? = some json →
    json.wellFormed = true
  | null, _, written => by cases written; rfl
  | bool _, _, written => by cases written; rfl
  | integer _, _, written => by cases written; rfl
  | float value, _, written => by cases written; exact value.fractional
  | text _, _, written => by cases written; rfl
  | tuple items, _, written => by
    obtain ⟨jsons, each, rfl⟩ := Option.map_eq_some_iff.mp written
    exact wellFormed_jsonItems items each
  | list items, _, written => by
    obtain ⟨jsons, each, rfl⟩ := Option.map_eq_some_iff.mp written
    exact wellFormed_jsonItems items each
  | dict entries, _, written => by
    obtain ⟨jsons, each, rfl⟩ := Option.map_eq_some_iff.mp written
    exact wellFormed_jsonEntries entries each
  | record _ _, _, written => by cases written
  | nonFinite, _, written => by cases written
  | other, _, written => by cases written
  termination_by structural value => value

theorem wellFormed_jsonItems : ∀ (items : List Value) {jsons : List Json},
    jsonItems? items = some jsons → Json.itemsWellFormed jsons = true
  | [], _, written => by cases written; rfl
  | item :: rest, _, written => by
    obtain ⟨first, firstWritten, later⟩ := Option.bind_eq_some_iff.mp written
    obtain ⟨others, othersWritten, made⟩ := Option.bind_eq_some_iff.mp later
    cases made
    rw [Json.itemsWellFormed, wellFormed_json item firstWritten, wellFormed_jsonItems rest othersWritten]
    rfl
  termination_by structural items => items

theorem wellFormed_jsonEntries : ∀ (entries : List (String × Value)) {jsons : List (String × Json)},
    jsonEntries? entries = some jsons → Json.fieldsWellFormed jsons = true
  | [], _, written => by cases written; rfl
  | (_, value) :: rest, _, written => by
    obtain ⟨first, firstWritten, later⟩ := Option.bind_eq_some_iff.mp written
    obtain ⟨others, othersWritten, made⟩ := Option.bind_eq_some_iff.mp later
    cases made
    rw [Json.fieldsWellFormed, wellFormed_json value firstWritten,
      wellFormed_jsonEntries rest othersWritten]
    rfl
  termination_by structural entries => entries

end

mutual

theorem wellFormed_plainValue : ∀ (value : Value) {json : Json}, value.plainValue? = some json →
    json.wellFormed = true
  | null, _, written => by cases written; rfl
  | bool _, _, written => by cases written; rfl
  | integer _, _, written => by cases written; rfl
  | float value, _, written => by cases written; exact value.fractional
  | text _, _, written => by cases written; rfl
  | tuple items, _, written => by
    obtain ⟨jsons, each, rfl⟩ := Option.map_eq_some_iff.mp written
    exact wellFormed_plainItems items each
  | list items, _, written => by
    obtain ⟨jsons, each, rfl⟩ := Option.map_eq_some_iff.mp written
    exact wellFormed_jsonItems items each
  | dict entries, _, written => by
    obtain ⟨jsons, each, rfl⟩ := Option.map_eq_some_iff.mp written
    exact wellFormed_jsonEntries entries each
  | record type fields, _, written => by
    obtain ⟨jsons, each, rfl⟩ := Option.map_eq_some_iff.mp written
    exact wellFormed_plainFields type fields each
  | nonFinite, _, written => by cases written
  | other, _, written => by cases written
  termination_by structural value => value

theorem wellFormed_plainItems : ∀ (items : List Value) {jsons : List Json},
    plainItems? items = some jsons → Json.itemsWellFormed jsons = true
  | [], _, written => by cases written; rfl
  | item :: rest, _, written => by
    obtain ⟨first, firstWritten, later⟩ := Option.bind_eq_some_iff.mp written
    obtain ⟨others, othersWritten, made⟩ := Option.bind_eq_some_iff.mp later
    cases made
    rw [Json.itemsWellFormed, wellFormed_plainValue item firstWritten,
      wellFormed_plainItems rest othersWritten]
    rfl
  termination_by structural items => items

theorem wellFormed_plainFields (type : RecordType) : ∀ (values : List Value) {names : List String}
    {jsons : List (String × Json)}, plainFields? type names values = some jsons →
      Json.fieldsWellFormed jsons = true
  | [], names, _, written => by
    cases names with
    | nil => cases written; rfl
    | cons name names => cases written
  | value :: rest, names, _, written => by
    cases names with
    | nil => cases written
    | cons name names =>
      obtain ⟨first, firstWritten, later⟩ := Option.bind_eq_some_iff.mp written
      obtain ⟨others, othersWritten, rfl⟩ := Option.map_eq_some_iff.mp later
      have formed : first.wellFormed = true := by
        split_ifs at firstWritten
        · exact wellFormed_json value firstWritten
        · exact wellFormed_plainValue value firstWritten
      have rest := wellFormed_plainFields type rest othersWritten
      split_ifs
      · exact rest
      · rw [Json.fieldsWellFormed, formed, rest]
        rfl
  termination_by structural values => values

end

/-- An accepted value is closed and has a canonical text. -/
theorem closed_of_validateClosed {budget : Budget} {name serialized : String} {value : Value}
    (accepted : value.validateClosed budget name = .ok serialized) :
    closed value = true ∧ ∃ json, value.plainValue? = some json := by
  simp only [validateClosed, bind_eq_ok_iff] at accepted
  obtain ⟨_, visited, text, projected, _⟩ := accepted
  refine ⟨closed_of_visit value rfl visited, ?_⟩
  unfold canonicalProjection at projected
  split at projected
  · rename_i json written
    exact ⟨json, written⟩
  · cases projected

/-- Two accepted values with the same canonical bytes are equal. -/
theorem equal_of_canonicalProjectionBytes_eq {firstBudget secondBudget : Budget}
    {firstName secondName firstText secondText name : String} {first second : Value}
    (firstAccepted : first.validateClosed firstBudget firstName = .ok firstText)
    (secondAccepted : second.validateClosed secondBudget secondName = .ok secondText)
    (bytes : first.canonicalProjectionBytes name = second.canonicalProjectionBytes name) :
    first.Equal second := by
  obtain ⟨firstClosed, firstJson, firstPlain⟩ := closed_of_validateClosed firstAccepted
  obtain ⟨secondClosed, secondJson, secondPlain⟩ := closed_of_validateClosed secondAccepted
  simp only [canonicalProjectionBytes, canonicalProjection, firstPlain, secondPlain, Except.map,
    Except.ok.injEq] at bytes
  have texts : firstJson.dumps = secondJson.dumps := String.toByteArray_inj.mp bytes
  have same : firstJson.canonical = secondJson.canonical :=
    Json.same_of_dumps_eq (wellFormed_plainValue first firstPlain)
      (wellFormed_plainValue second secondPlain) texts
  unfold Equal
  rw [← read_plainValue first firstClosed firstPlain, ← read_plainValue second secondClosed secondPlain,
    same]

/-- A native closure with these metric values. -/
def sampleClosure (metrics : List Value) : Value :=
  let receipt (subject : String) : Value :=
    record .receiptProof [text "receipt", text subject, bool true, bool true, bool true]
  let binding (name subject : String) : Value :=
    record .executionInputBindingProof [text name, text subject, texts [], receipt name]
  record .acceptedMeasurementClosure [text "target", text "run", text "commit", texts ["experiment"],
    text "unit", text "variant", text "evaluation", text "protocol", text "attempt", text "result",
    tuple metrics, text "manifest", text "execution", text "fence", texts [], text "revision",
    tuple [], texts ["provenance"], binding "variant-input" "variant", binding "attempt-input" "attempt",
    receipt "manifest", receipt "execution", receipt "attempt", receipt "commit", null, null, bool true,
    bool true, bool true, null, tuple [], null]

theorem equal_of_canonicalProjectionBytes_eq_metrics :
    (sampleClosure [dict [("b", integer 1), ("a", bool true)]]).Equal
      (sampleClosure [dict [("a", bool true), ("b", integer 1)]]) := by
  obtain ⟨first, firstAccepted⟩ : ∃ text, (sampleClosure [dict [("b", integer 1), ("a", bool true)]]
      ).validateClosed (Budget.standard.rooted 65536) "closure" = .ok text :=
    validateClosed_of_light (by decide +kernel) (by decide +kernel) (by decide +kernel)
  obtain ⟨second, secondAccepted⟩ : ∃ text, (sampleClosure [dict [("a", bool true), ("b", integer 1)]]
      ).validateClosed (Budget.standard.rooted 65536) "closure" = .ok text :=
    validateClosed_of_light (by decide +kernel) (by decide +kernel) (by decide +kernel)
  have texts : (sampleClosure [dict [("b", integer 1), ("a", bool true)]]).canonicalProjection "closure" =
      (sampleClosure [dict [("a", bool true), ("b", integer 1)]]).canonicalProjection "closure" := by
    rfl
  exact equal_of_canonicalProjectionBytes_eq firstAccepted secondAccepted
    (congrArg (Except.map String.toByteArray) texts)

end Value

end MetaResearch.Bundle

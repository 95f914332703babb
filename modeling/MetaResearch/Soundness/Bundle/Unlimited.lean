import MetaResearch.Soundness.Bundle.Projections
import MetaResearch.Soundness.Bundle.Rolling

/-! # Validation without byte, node and item budgets

With unlimited budgets a projection is refused only for an oversized integer or oversized Plan
prose, and a document only for its depth or an oversized integer. The plain candidate is the least
that passes every check of its own content.
-/

namespace MetaResearch.Bundle

theorem exceeds_none (size : ℕ) : exceeds none size = false := rfl

namespace Projection

theorem itemsFit_iff {budget : Budget} {items : List Projection} :
    itemsFit budget items = true ↔ ∀ item ∈ items, item.fits budget = true := by
  induction items with
  | nil => simp [itemsFit]
  | cons item rest ih => simp [itemsFit, ih]

theorem tuple_fits {items : List Projection} (each : ∀ item ∈ items, item.fits .unlimited = true) :
    (tuple items).fits .unlimited = true := by
  rw [fits, Bool.and_eq_true]
  exact ⟨rfl, itemsFit_iff.mpr each⟩

theorem fieldsFit_iff {budget : Budget} {fields : List (String × Projection)} :
    fieldsFit budget fields = true ↔ ∀ field ∈ fields, field.2.fits budget = true := by
  induction fields with
  | nil => simp [fieldsFit]
  | cons field rest ih => simp [fieldsFit, ih]

theorem texts_fits (values : List String) : (texts values).fits .unlimited = true := by
  refine tuple_fits fun item member => ?_
  obtain ⟨value, _, rfl⟩ := List.mem_map.mp member
  rfl

end Projection

theorem validateClosedBundleProjection_unlimited {name : String} {value : Projection}
    (small : value.fits .unlimited = true) :
    validateClosedBundleProjection .unlimited name value = .ok () :=
  validateClosedBundleProjection_eq_ok_iff.mpr ⟨small, rfl, rfl, rfl⟩

theorem TargetCandidate.projection_fits (candidate : TargetCandidate) :
    candidate.projection.fits .unlimited = true := by
  have bindings : (Projection.tuple (candidate.heldFixedBindings.map
      HeldFixedBinding.projection)).fits .unlimited = true := by
    refine Projection.tuple_fits fun item member => ?_
    obtain ⟨binding, _, rfl⟩ := List.mem_map.mp member
    rfl
  have routes : (Projection.tuple (candidate.routes.map RouteSpec.projection)).fits .unlimited =
      true := by
    refine Projection.tuple_fits fun item member => ?_
    obtain ⟨route, _, rfl⟩ := List.mem_map.mp member
    refine Projection.fieldsFit_iff.mpr ?_
    simp only [List.forall_mem_cons]
    exact ⟨rfl, Projection.texts_fits _, by simp⟩
  refine Projection.fieldsFit_iff.mpr ?_
  simp only [List.forall_mem_cons]
  exact ⟨rfl, Projection.texts_fits _, Projection.texts_fits _, bindings, rfl, rfl, routes,
    Projection.texts_fits _, Projection.texts_fits _, by simp⟩

theorem StrategyUpdate.projection_fits {update : StrategyUpdate}
    (small : update.revision.natAbs ≤ canonicalIntegerMaxAbs) :
    update.projection.fits .unlimited = true := by
  have candidates : (Projection.tuple (update.candidates.map TargetCandidate.projection)).fits
      .unlimited = true := by
    refine Projection.tuple_fits fun item member => ?_
    obtain ⟨candidate, _, rfl⟩ := List.mem_map.mp member
    exact candidate.projection_fits
  have revision : (Projection.integer update.revision).fits .unlimited = true := by
    simpa [Projection.fits] using small
  refine Projection.fieldsFit_iff.mpr ?_
  simp only [List.forall_mem_cons]
  exact ⟨revision, candidates, Projection.texts_fits _, rfl, by simp⟩

/-! ### Documents -/

mutual

/-- The value has no number out of bounds and no more levels than the given ones below it. -/
def jsonFits : Json → ℕ → Bool
  | .object fields, levels => 0 < levels && jsonFieldsFit fields (levels - 1)
  | .array items, levels => 0 < levels && jsonItemsFit items (levels - 1)
  | .integer value, _ => value.natAbs ≤ canonicalIntegerMaxAbs
  | _, _ => true
  termination_by structural value => value

def jsonItemsFit : List Json → ℕ → Bool
  | [], _ => true
  | item :: rest, levels => jsonFits item levels && jsonItemsFit rest levels
  termination_by structural items => items

def jsonFieldsFit : List (String × Json) → ℕ → Bool
  | [], _ => true
  | (_, value) :: rest, levels => jsonFits value levels && jsonFieldsFit rest levels
  termination_by structural fields => fields

end

private theorem enterNode_unlimited {name : String} {depth nodes : ℕ}
    (shallow : depth ≤ bundleRootMaxDepth) :
    enterNode .unlimited name depth nodes = .ok (nodes + 1) := by
  simp [enterNode, require, shallow, Budget.unlimited, exceeds_none, bind, Except.bind, pure,
    Except.pure]

mutual

theorem visitJson_unlimited (name : String) : ∀ (value : Json) (levels depth nodes : ℕ),
    jsonFits value levels = true → depth + levels ≤ bundleRootMaxDepth →
      ∃ after, visitJson .unlimited name false value depth false nodes = .ok after
  | .object fields, levels, depth, nodes, small, shallow => by
    simp only [jsonFits, Bool.and_eq_true, decide_eq_true_eq] at small
    obtain ⟨after, visited⟩ := visitJsonFields_unlimited name fields (levels - 1) (depth + 1)
      (nodes + 1) small.2 (by omega)
    refine ⟨after, ?_⟩
    rw [visitJson, enterNode_unlimited (by omega)]
    exact visited
  | .array items, levels, depth, nodes, small, shallow => by
    simp only [jsonFits, Bool.and_eq_true, decide_eq_true_eq] at small
    obtain ⟨after, visited⟩ := visitJsonItems_unlimited name items (levels - 1) (depth + 1)
      (nodes + 1) small.2 (by omega)
    refine ⟨after, ?_⟩
    rw [visitJson, enterNode_unlimited (by omega)]
    exact visited
  | .integer value, levels, depth, nodes, small, shallow => by
    simp only [jsonFits, decide_eq_true_eq] at small
    refine ⟨nodes + 1, ?_⟩
    rw [visitJson, enterNode_unlimited (by omega)]
    simp [bind, Except.bind, require, small, pure, Except.pure]
  | .text value, levels, depth, nodes, _, shallow => by
    refine ⟨nodes + 1, ?_⟩
    rw [visitJson, enterNode_unlimited (by omega)]
    rfl
  | .null, levels, depth, nodes, _, shallow => ⟨nodes + 1, enterNode_unlimited (by omega)⟩
  | .bool _, levels, depth, nodes, _, shallow => ⟨nodes + 1, enterNode_unlimited (by omega)⟩
  | .number _, levels, depth, nodes, _, shallow => ⟨nodes + 1, enterNode_unlimited (by omega)⟩
  termination_by structural value => value

theorem visitJsonItems_unlimited (name : String) : ∀ (items : List Json) (levels depth nodes : ℕ),
    jsonItemsFit items levels = true → depth + levels ≤ bundleRootMaxDepth →
      ∃ after, visitJsonItems .unlimited name false items depth nodes = .ok after
  | [], _, _, nodes, _, _ => ⟨nodes, rfl⟩
  | item :: rest, levels, depth, nodes, small, shallow => by
    simp only [jsonItemsFit, Bool.and_eq_true] at small
    obtain ⟨middle, first⟩ := visitJson_unlimited name item levels depth nodes small.1 shallow
    obtain ⟨after, last⟩ := visitJsonItems_unlimited name rest levels depth middle small.2 shallow
    exact ⟨after, by simp [visitJsonItems, bind, Except.bind, first, last]⟩
  termination_by structural items => items

theorem visitJsonFields_unlimited (name : String) :
    ∀ (fields : List (String × Json)) (levels depth nodes : ℕ),
      jsonFieldsFit fields levels = true → depth + levels ≤ bundleRootMaxDepth →
        ∃ after, visitJsonFields .unlimited name false false fields depth nodes = .ok after
  | [], _, _, nodes, _, _ => ⟨nodes, rfl⟩
  | (_, value) :: rest, levels, depth, nodes, small, shallow => by
    simp only [jsonFieldsFit, Bool.and_eq_true] at small
    obtain ⟨middle, first⟩ := visitJson_unlimited name value levels depth nodes small.1 shallow
    obtain ⟨after, last⟩ := visitJsonFields_unlimited name rest levels depth middle small.2 shallow
    exact ⟨after, by simp [visitJsonFields, bind, Except.bind, first, last]⟩
  termination_by structural fields => fields

end

theorem jsonItemsFit_texts (values : List String) (levels : ℕ) :
    jsonItemsFit (values.map Json.text) levels = true := by
  induction values with
  | nil => rfl
  | cons value rest ih => simp [jsonItemsFit, jsonFits, ih]

theorem validateJsonRoot_unlimited {value : Json} {name : String}
    (small : jsonFits value bundleRootMaxDepth = true) :
    ∃ encoded, validateJsonRoot .unlimited value name false = .ok encoded := by
  obtain ⟨nodes, visited⟩ := visitJson_unlimited name value bundleRootMaxDepth 0 0 small (by simp)
  refine ⟨value.dumps, ?_⟩
  simp only [validateJsonRoot, visited, bind, Except.bind]
  rfl

/-! ### Plain candidates -/

theorem validate_plainDocument (name : String) :
    validateFrozenDomainDocument .unlimited plainDocument name = .ok () := by
  have small : jsonFits plainDocument.asDict bundleRootMaxDepth = true := by decide
  obtain ⟨encoded, valid⟩ : ∃ encoded, validateJsonRoot .unlimited plainDocument.asDict name false =
      .ok encoded := validateJsonRoot_unlimited small
  have plain : isRoutingField "content" = false := by decide +kernel
  simp only [validateFrozenDomainDocument, valid, bind, Except.bind]
  simp [validateDomainDocumentRoot, plainDocument, plain, fieldsContainRouting, containsRouting,
    require, bind, Except.bind]

/-- A text of the given length. -/
def padding (length : ℕ) : String := String.ofList (List.replicate length 'x')

theorem length_padding (length : ℕ) : (padding length).length = length := by simp [padding]

theorem isRef_padding {length : ℕ} (positive : 0 < length) : IsRef .unlimited (padding length) := by
  have chars : ∀ char ∈ (padding length).toList, char = 'x' := by
    simp [padding, List.mem_replicate]
  refine ⟨?_, rfl, ?_, fun char member => ?_⟩
  · have first : 'x' ∈ (padding length).toList := by
      rw [padding, String.toList_ofList, List.mem_replicate]
      exact ⟨by omega, rfl⟩
    rw [Text.isBlank, List.all_eq_false]
    exact ⟨'x', first, by decide⟩
  · refine (Text.strip_of_no_space fun char member => ?_).symm
    rw [chars char member]
    rfl
  · rw [chars char member]
    decide

theorem validate_plainProtocol : validateProtocolVersion .unlimited plainProtocol = .ok () := by
  have parts : canonicalStringTuple .unlimited [] "protocol internal part keys" true = .ok () := by
    decide
  have required : validateMetricDefinitions .unlimited [] "required_metrics" = .ok () := by decide
  have optional : validateMetricDefinitions .unlimited [] "optional_metrics" = .ok () := by decide
  have items : exceeds Budget.unlimited.tupleItems 0 = false := rfl
  simp [validateProtocolVersion, plainProtocol, validate_plainDocument, parts, required, optional,
    check_then_eq_ok_iff, items, validateStopRules]

theorem validate_plainMeasurement {keys : List String} {unit : String}
    (keysRef : IsRefTuple .unlimited keys false) (unitRef : IsRef .unlimited unit) :
    validateMeasurementContract .unlimited (plainMeasurement keys unit) = .ok () := by
  have small : jsonFits (plainMeasurement keys unit).toDict bundleRootMaxDepth = true := by
    simp [plainMeasurement, plainProtocol, plainDocument, TargetMeasurementContractCandidate.toDict,
      FrozenProtocolVersionCandidate.toDict, FrozenJsonObject.asDict, jsonFits, jsonFieldsFit,
      jsonItemsFit, jsonItemsFit_texts, Json.texts, bundleRootMaxDepth]
  obtain ⟨encoded, root⟩ : ∃ encoded, validateJsonRoot .unlimited (plainMeasurement keys unit).toDict
      "TargetMeasurementContractCandidate" false = .ok encoded := validateJsonRoot_unlimited small
  have schema : ref .unlimited "schema" "measurement result schema" = .ok () := by decide +kernel
  have policy : checkpointPolicy "optional" = .ok () := by decide
  have keysChecked : canonicalStringTuple .unlimited keys "measurement contract ExperimentKeys" false =
      .ok () := canonicalStringTuple_eq_ok_iff.mpr keysRef
  have unitChecked : ref .unlimited unit "measurement contract cell" = .ok () := ref_eq_ok_iff.mpr unitRef
  simp only [validateMeasurementContract, root]
  simp [plainMeasurement, check_then_eq_ok_iff, keysChecked, unitChecked, validate_plainDocument,
    validate_plainProtocol, policy, schema]

end MetaResearch.Bundle

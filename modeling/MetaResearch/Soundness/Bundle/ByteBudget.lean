import MetaResearch.Soundness.Bundle.CanonicalBytes

/-! # The byte budget is exact

A projection that passes the structural checks has canonical bytes, and their number alone decides
whether a byte budget refuses it: the running count of its scalar bytes is an early exit only.
-/

namespace MetaResearch.Bundle

namespace Value

open Projection (Usage)

/-! ### Closed values are written -/

mutual

theorem json_of_closedMetric : ∀ value : Value, closedMetric value = true → ∃ json, value.json? = some json
  | null, _ => ⟨_, rfl⟩
  | bool _, _ => ⟨_, rfl⟩
  | integer _, _ => ⟨_, rfl⟩
  | float _, _ => ⟨_, rfl⟩
  | text _, _ => ⟨_, rfl⟩
  | list items, formed => by
    obtain ⟨parts, written⟩ := jsonItems_of_closedMetric items formed
    exact ⟨.array parts, by rw [json?, written, Option.map_some]⟩
  | dict entries, formed => by
    obtain ⟨parts, written⟩ := jsonEntries_of_closedMetric entries formed
    exact ⟨.object parts, by rw [json?, written, Option.map_some]⟩
  | nonFinite, formed => by cases formed
  | tuple _, formed => by cases formed
  | record _ _, formed => by cases formed
  | other, formed => by cases formed
  termination_by structural value => value

theorem jsonItems_of_closedMetric : ∀ items : List Value, closedMetricItems items = true →
    ∃ parts, jsonItems? items = some parts
  | [], _ => ⟨[], rfl⟩
  | item :: rest, formed => by
    obtain ⟨first, others⟩ := Bool.and_eq_true_iff.mp formed
    obtain ⟨json, written⟩ := json_of_closedMetric item first
    obtain ⟨parts, remaining⟩ := jsonItems_of_closedMetric rest others
    exact ⟨json :: parts, by rw [jsonItems?, written, remaining]; rfl⟩
  termination_by structural items => items

theorem jsonEntries_of_closedMetric : ∀ entries : List (String × Value),
    closedMetricEntries entries = true → ∃ parts, jsonEntries? entries = some parts
  | [], _ => ⟨[], rfl⟩
  | (name, value) :: rest, formed => by
    obtain ⟨first, others⟩ := Bool.and_eq_true_iff.mp formed
    obtain ⟨json, written⟩ := json_of_closedMetric value first
    obtain ⟨parts, remaining⟩ := jsonEntries_of_closedMetric rest others
    exact ⟨(name, json) :: parts, by rw [jsonEntries?, written, remaining]; rfl⟩
  termination_by structural entries => entries

end

theorem json_of_closedMetrics {value : Value} (formed : closedMetrics value = true) :
    ∃ json, value.json? = some json := by
  cases value with
  | tuple items =>
    obtain ⟨parts, written⟩ := jsonItems_of_closedMetric items formed
    exact ⟨.array parts, by rw [json?, written, Option.map_some]⟩
  | _ => cases formed

mutual

/-- A closed value has a canonical text. -/
theorem plainValue_of_closed : ∀ value : Value, closed value = true → ∃ json, value.plainValue? = some json
  | null, _ => ⟨_, rfl⟩
  | bool _, _ => ⟨_, rfl⟩
  | integer _, _ => ⟨_, rfl⟩
  | float _, _ => ⟨_, rfl⟩
  | text _, _ => ⟨_, rfl⟩
  | tuple items, formed => by
    obtain ⟨parts, written⟩ := plainItems_of_closed items formed
    exact ⟨.array parts, by rw [plainValue?, written, Option.map_some]⟩
  | record type fields, formed => by
    obtain ⟨parts, written⟩ := plainFields_of_closed type fields formed
    exact ⟨.object parts, by rw [plainValue?, written, Option.map_some]⟩
  | list _, formed => by cases formed
  | dict _, formed => by cases formed
  | nonFinite, formed => by cases formed
  | other, formed => by cases formed
  termination_by structural value => value

theorem plainItems_of_closed : ∀ items : List Value, closedItems items = true →
    ∃ parts, plainItems? items = some parts
  | [], _ => ⟨[], rfl⟩
  | item :: rest, formed => by
    obtain ⟨first, others⟩ := Bool.and_eq_true_iff.mp formed
    obtain ⟨json, written⟩ := plainValue_of_closed item first
    obtain ⟨parts, remaining⟩ := plainItems_of_closed rest others
    exact ⟨json :: parts, by rw [plainItems?, written, remaining]; rfl⟩
  termination_by structural items => items

theorem plainFields_of_closed (type : RecordType) : ∀ (values : List Value) {names : List String},
    closedFields type names values = true → ∃ parts, plainFields? type names values = some parts
  | [], names, formed => by
    cases names with
    | nil => exact ⟨[], rfl⟩
    | cons name rest => cases formed
  | value :: values, names, formed => by
    cases names with
    | nil => cases formed
    | cons name rest =>
      obtain ⟨first, others⟩ := Bool.and_eq_true_iff.mp formed
      obtain ⟨parts, remaining⟩ := plainFields_of_closed type values others
      obtain ⟨json, written⟩ : ∃ json, (if isMetricValues type name then value.json?
          else value.plainValue?) = some json := by
        split_ifs at first ⊢
        · exact json_of_closedMetrics first
        · exact plainValue_of_closed value first
      exact ⟨if omitted type name value then parts else (name, json) :: parts, by
        rw [plainFields?, written, remaining, Option.bind_some, Option.map_some]⟩
  termination_by structural values => values

end

/-! ### The verdict -/

/-- The size of the canonical bytes decides, under every admissible byte budget. -/
theorem byte_budget_exact (budget : Budget) (name : String) (value : Value) (after : Usage)
    (visited : value.visit budget.unrooted name {} ⟨0, 0⟩ = .ok after) :
    ∃ bytes, value.canonicalProjectionBytes name = .ok bytes ∧ after.scalarBytes ≤ bytes.size ∧
      ∀ maxSerializedBytes : ℤ,
        if 1 ≤ maxSerializedBytes ∧ maxSerializedBytes ≤ rootMaxSerializedBytes then
          (value.validateClosedWithin budget maxSerializedBytes name = .error (rootExceeded name) ↔
              maxSerializedBytes < bytes.size) ∧
            ((∃ serialized, value.validateClosedWithin budget maxSerializedBytes name = .ok serialized ∧
                serialized.toByteArray = bytes) ↔ bytes.size ≤ maxSerializedBytes)
        else value.validateClosedWithin budget maxSerializedBytes name =
          .error "Bundle projection budget is invalid" := by
  obtain ⟨json, written⟩ := plainValue_of_closed value (closed_of_visit value rfl visited)
  have counted : after.scalarBytes ≤ json.dumps.utf8ByteSize := by
    obtain ⟨count, _⟩ := counts_visit budget name value {} ⟨0, 0⟩ after visited
    have start : after.scalarBytes = 0 + value.scalarBytes := count
    have least := scalarBytes_le_plainValue value written
    omega
  refine ⟨json.dumps.toByteArray, ?_, counted, fun most => ?_⟩
  · rw [canonicalProjectionBytes, canonicalProjection, written]
    rfl
  have size : json.dumps.toByteArray.size = json.dumps.utf8ByteSize := rfl
  split_ifs with valid
  · have verdict : value.validateClosedWithin budget most name =
        if json.dumps.utf8ByteSize ≤ most.toNat then .ok json.dumps else .error (rootExceeded name) := by
      rw [validateClosedWithin, ← validateClosed_rooted visited written most.toNat]
      simp [require, valid, bind, Except.bind, Budget.rooted]
    rw [verdict, size]
    split_ifs with fits
    · refine ⟨⟨by simp, fun beyond => by omega⟩, ⟨fun _ => by omega, fun _ => ⟨_, rfl, rfl⟩⟩⟩
    · refine ⟨⟨fun _ => by omega, fun _ => rfl⟩, ⟨by simp, fun within => by omega⟩⟩
  · have refused : (decide (1 ≤ most) && decide (most ≤ rootMaxSerializedBytes)) = false := by
      simpa using valid
    simp [validateClosedWithin, require, refused, bind, Except.bind]

/-- A closure that leaves a field out and measures escaped and non-ASCII text is far over one byte. -/
theorem byte_budget_exact_closure :
    let closure := sampleClosure [text "\u00e4\n\"", dict [("\u00b5", integer (-3)), ("b", null)]]
    ∃ bytes, closure.canonicalProjectionBytes "closure" = .ok bytes ∧
      closure.validateClosedWithin .standard 1 "closure" = .error (rootExceeded "closure") := by
  intro closure
  have visited : (closure.visit Budget.standard.unrooted "closure" {} ⟨0, 0⟩).toOption.isSome = true := by
    decide +kernel
  cases visit : closure.visit Budget.standard.unrooted "closure" {} ⟨0, 0⟩ with
  | error error => simp [visit, Except.toOption] at visited
  | ok after =>
    obtain ⟨bytes, written, counted, verdict⟩ := byte_budget_exact .standard "closure" closure after visit
    have least : 2 ≤ after.scalarBytes := by
      have quoted : closure.scalarBytes = (Text.quote "target").utf8ByteSize + _ := rfl
      have marks := Json.two_le_size_quote "target"
      have count : after.scalarBytes = 0 + closure.scalarBytes :=
        (counts_visit .standard "closure" closure {} ⟨0, 0⟩ after visit).1
      omega
    have one := verdict 1
    rw [if_pos ⟨Int.le_refl 1, by decide⟩] at one
    exact ⟨bytes, written, one.1.mpr (by omega)⟩

end Value

end MetaResearch.Bundle

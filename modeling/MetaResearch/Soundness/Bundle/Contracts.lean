import MetaResearch.Model.Bundle.PlanDocument
import MetaResearch.Soundness.Bundle.Candidates

/-! # What a checked completion contract looks like

The check against the Plan makes keys, slots and units distinct references, so that looking a key
up finds the experiment of that key.
-/

namespace MetaResearch.Bundle

variable {budget : Budget} {contract : NormalizedCompletionContract}

/-- The shape of a contract that was checked against its Plan. -/
structure ContractWellFormed (budget : Budget) (contract : NormalizedCompletionContract) : Prop where
  keys : (contract.experiments.map (·.brief.experimentKey)).Nodup
  same : ∀ item ∈ contract.experiments, item.semanticInputs.experimentKey = item.brief.experimentKey
  keyRefs : ∀ item ∈ contract.experiments, IsRef budget item.brief.experimentKey
  slots : ∀ item ∈ contract.experiments, IsRefTuple budget item.brief.heldFixedSlots true
  units : ∀ item ∈ contract.experiments,
    IsRefTuple budget item.brief.requiredMeasurementUnitKeys false

/-! ### The checks -/

private theorem isRef_of_checkPlanBriefs {gaps seen : List String} {briefs : List PlanBrief}
    (checked : checkPlanBriefs budget gaps seen briefs = .ok ()) :
    ∀ brief ∈ briefs, IsRef budget brief.experimentKey := by
  induction briefs generalizing seen with
  | nil => simp
  | cons brief rest ih =>
    rw [checkPlanBriefs, check_then_eq_ok_iff] at checked
    refine List.forall_mem_cons.mpr ⟨?_, ih checked.2⟩
    have first := checked.1
    rw [checkPlanBrief, check_then_eq_ok_iff, ref_eq_ok_iff] at first
    exact first.1

private theorem isRef_of_planBriefs {plan : PlanDocument} {briefs : List (String × PlanBrief)}
    (checked : planBriefs budget plan = .ok briefs) : ∀ entry ∈ briefs, IsRef budget entry.1 := by
  simp only [planBriefs, check_then_eq_ok_iff, pure, Except.pure, Except.ok.injEq] at checked
  obtain ⟨_, _, _, all, rfl⟩ := checked
  intro entry member
  obtain ⟨brief, present, rfl⟩ := List.mem_map.mp member
  exact isRef_of_checkPlanBriefs all brief present

/-- What the loop over the experiments establishes for each of them. -/
private def ExperimentChecked (budget : Budget) (briefs : List (String × PlanBrief))
    (item : NormalizedExperimentCompletion) : Prop :=
  item.semanticInputs.experimentKey ∈ briefs.map Prod.fst ∧
    item.semanticInputs.experimentKey = item.brief.experimentKey ∧
      IsRefTuple budget item.brief.heldFixedSlots true ∧
        IsRefTuple budget item.brief.requiredMeasurementUnitKeys false

private theorem experimentChecked_of_check {briefs : List (String × PlanBrief)} {seen : List String}
    {item : NormalizedExperimentCompletion}
    (checked : checkExperiment budget briefs seen item = .ok ()) :
    item.semanticInputs.experimentKey ∉ seen ∧ ExperimentChecked budget briefs item := by
  simp only [checkExperiment, check_then_eq_ok_iff, require_eq_ok_iff] at checked
  obtain ⟨new, _, rest⟩ := checked
  refine ⟨by simpa using new, ?_⟩
  split at rest
  · cases rest
  · rename_i brief found
    simp only [check_then_eq_ok_iff, require_eq_ok_iff, canonicalStringTuple_eq_ok_iff,
      NormalizedExperimentCompletion.repeats, Bool.and_eq_true, decide_eq_true_eq] at rest
    obtain ⟨⟨⟨_, same⟩, _⟩, slots, units⟩ := rest
    exact ⟨List.mem_map_of_mem (mem_of_dictGet found), same.symm, slots, units⟩

private theorem experimentsChecked_of_checks {briefs : List (String × PlanBrief)} {seen : List String}
    {items : List NormalizedExperimentCompletion}
    (checked : checkExperiments budget briefs seen items = .ok ()) :
    (items.map (·.semanticInputs.experimentKey)).Nodup ∧
      (∀ item ∈ items, item.semanticInputs.experimentKey ∉ seen) ∧
      ∀ item ∈ items, ExperimentChecked budget briefs item := by
  induction items generalizing seen with
  | nil => simp
  | cons item rest ih =>
    rw [checkExperiments, check_then_eq_ok_iff] at checked
    obtain ⟨new, first⟩ := experimentChecked_of_check checked.1
    obtain ⟨distinct, others, all⟩ := ih checked.2
    refine ⟨List.nodup_cons.mpr ⟨?_, distinct⟩, List.forall_mem_cons.mpr ⟨new, ?_⟩,
      List.forall_mem_cons.mpr ⟨first, all⟩⟩
    · rintro member
      obtain ⟨other, present, same⟩ := List.mem_map.mp member
      exact others other present (same ▸ List.mem_cons_self)
    · exact fun other present member => others other present (List.mem_cons_of_mem _ member)

theorem contractWellFormed_of_validate {planHash : String} {plan : PlanDocument}
    (checked : validateCompletionContract budget planHash plan contract = .ok ()) :
    ContractWellFormed budget contract := by
  simp only [validateCompletionContract, check_then_eq_ok_iff,
    bind_eq_ok_iff (α := List (String × PlanBrief))] at checked
  obtain ⟨_, briefs, parsed, _, loop, _⟩ := checked
  obtain ⟨distinct, _, all⟩ := experimentsChecked_of_checks loop
  refine ⟨?_, fun item member => (all item member).2.1, ?_, fun item member => (all item member).2.2.1,
    fun item member => (all item member).2.2.2⟩
  · rw [← List.map_congr_left fun item member => (all item member).2.1]
    exact distinct
  · intro item member
    obtain ⟨entry, present, same⟩ := List.mem_map.mp (all item member).1
    rw [← (all item member).2.1, ← same]
    exact isRef_of_planBriefs parsed entry present

/-! ### Looking up an experiment -/

namespace ContractWellFormed

theorem byKey_of_mem (formed : ContractWellFormed budget contract)
    {item : NormalizedExperimentCompletion} (member : item ∈ contract.experiments) :
    dictGet contract.byKey item.brief.experimentKey = some item := by
  refine dictGet_of_mem ?_ (List.mem_map_of_mem (f := fun item : NormalizedExperimentCompletion =>
    (item.brief.experimentKey, item)) member)
  rw [NormalizedCompletionContract.byKey, List.map_map]
  exact formed.keys

theorem briefs_of_mem (formed : ContractWellFormed budget contract)
    {item : NormalizedExperimentCompletion} (member : item ∈ contract.experiments) :
    dictGet contract.briefs item.brief.experimentKey = some item.brief := by
  refine dictGet_of_mem ?_ (List.mem_map_of_mem (f := fun item : NormalizedExperimentCompletion =>
    (item.brief.experimentKey, item.brief)) member)
  rw [NormalizedCompletionContract.briefs, List.map_map]
  exact formed.keys

theorem unitsOf_of_mem (formed : ContractWellFormed budget contract)
    {item : NormalizedExperimentCompletion} (member : item ∈ contract.experiments) :
    unitsOf contract.briefs item.brief.experimentKey = item.brief.requiredMeasurementUnitKeys := by
  rw [unitsOf, formed.briefs_of_mem member, Option.elim_some]

theorem slotsOf_of_mem (formed : ContractWellFormed budget contract)
    {item : NormalizedExperimentCompletion} (member : item ∈ contract.experiments) :
    slotsOf contract.briefs item.brief.experimentKey = item.brief.heldFixedSlots := by
  rw [slotsOf, formed.briefs_of_mem member, Option.elim_some]

/-- The required cells are the required units of the experiments. -/
theorem mem_cells_iff (formed : ContractWellFormed budget contract) {key unit : String} :
    (key, unit) ∈ contract.cells ↔ unit ∈ unitsOf contract.briefs key := by
  constructor
  · intro member
    obtain ⟨item, present, cell⟩ := List.mem_flatMap.mp member
    obtain ⟨required, needed, same⟩ := List.mem_map.mp cell
    obtain ⟨rfl, rfl⟩ := Prod.mk.inj same
    rw [formed.unitsOf_of_mem present]
    exact needed
  · intro required
    obtain ⟨item, present, rfl, needed⟩ := mem_unitsOf_briefs required
    exact List.mem_flatMap.mpr ⟨item, present, List.mem_map.mpr ⟨unit, needed, rfl⟩⟩

end ContractWellFormed

end MetaResearch.Bundle

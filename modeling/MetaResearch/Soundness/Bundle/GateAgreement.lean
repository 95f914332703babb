import MetaResearch.Model.Bundle.Completion
import MetaResearch.Soundness.Bundle.Projections
import MetaResearch.Soundness.Bundle.Rolling

/-! # The two completion gates agree

For candidates that pass the checks of the target contract, the loop of the prototype gate runs in
lockstep with the loop of the target gate. What is left between the two gates is the Plan itself,
which only the prototype gate checks, and repeated labels, which a mapping cannot hold.
-/

namespace MetaResearch.Bundle

namespace Completion

variable {budget : Budget} {briefs : List (String × ExperimentBrief)} {plan : FormalPlan}

/-! ### The Plan -/

theorem requireRef_of_isRef {value name : String} (isRef : IsRef budget value) :
    requireRef value name = .ok () := by
  simp [requireRef, isRef.1]

private theorem briefsByKeyFrom_eq_ok {result : List (String × ExperimentBrief)}
    {remaining : List ExperimentBrief} (distinct : (result.map Prod.fst).Nodup)
    (success : briefsByKeyFrom budget result remaining = .ok briefs) :
    briefs = result ++ remaining.map (fun brief => (brief.experimentKey, brief)) ∧
      (briefs.map Prod.fst).Nodup ∧ ∀ brief ∈ remaining, validateBrief budget brief = .ok () := by
  induction remaining generalizing result with
  | nil =>
    obtain rfl : result = briefs := Except.ok.inj success
    exact ⟨by simp, distinct, by simp⟩
  | cons brief rest ih =>
    simp only [briefsByKeyFrom, check_then_eq_ok_iff, require_eq_ok_iff, Bool.not_eq_true',
      List.contains_eq_mem, decide_eq_false_iff_not] at success
    obtain ⟨valid, new, others⟩ := success
    have extended : ((result ++ [(brief.experimentKey, brief)]).map Prod.fst).Nodup := by
      rw [List.map_append, List.map_singleton, List.nodup_append]
      refine ⟨distinct, List.nodup_singleton _, ?_⟩
      intro key member other single same
      rw [same, List.mem_singleton.mp single] at member
      exact new member
    obtain ⟨rfl, all, checked⟩ := ih extended others
    exact ⟨by simp, all, List.forall_mem_cons.mpr ⟨valid, checked⟩⟩

/-- What an accepted Plan says of its briefs. -/
structure BriefsChecked (budget : Budget) (plan : FormalPlan)
    (briefs : List (String × ExperimentBrief)) : Prop where
  entries : briefs = plan.briefs.map fun brief => (brief.experimentKey, brief)
  keys : (plan.briefs.map ExperimentBrief.experimentKey).Nodup
  valid : ∀ brief ∈ plan.briefs, validateBrief budget brief = .ok ()

theorem briefsChecked_of_briefsByKey (success : briefsByKey budget plan = .ok briefs) :
    BriefsChecked budget plan briefs := by
  simp only [briefsByKey, check_then_eq_ok_iff,
    bind_eq_ok_iff (α := List (String × ExperimentBrief)), pure, Except.pure, Except.ok.injEq] at success
  obtain ⟨_, _, _, result, loop, _, rfl⟩ := success
  obtain ⟨entries, keys, valid⟩ := briefsByKeyFrom_eq_ok (by simp) loop
  rw [List.nil_append] at entries
  refine ⟨entries, ?_, valid⟩
  rw [entries, List.map_map] at keys
  exact keys

/-! ### One candidate -/

private theorem bindingMapFrom_of_target {result entries : List (String × String)}
    {bindings : List HeldFixedBinding}
    (projections : ∀ binding ∈ bindings,
      validateClosedBundleProjection budget "HeldFixedBinding" binding.projection = .ok ())
    (success : Bundle.bindingMapFrom budget result bindings = .ok entries) :
    bindingMapFrom budget result bindings = .ok entries := by
  induction bindings generalizing result with
  | nil => exact success
  | cons binding rest ih =>
    simp only [Bundle.bindingMapFrom, check_then_eq_ok_iff, ref_eq_ok_iff, require_eq_ok_iff] at success
    obtain ⟨slot, revision, new, others⟩ := success
    obtain ⟨first, later⟩ := List.forall_mem_cons.mp projections
    simp only [bindingMapFrom, check_then_eq_ok_iff, require_eq_ok_iff]
    exact ⟨first, requireRef_of_isRef slot, requireRef_of_isRef revision, new, ih later others⟩

private theorem bindingPart {candidate : TargetCandidate} {binding : HeldFixedBinding}
    (member : binding ∈ candidate.heldFixedBindings) :
    Projection.Part binding.projection candidate.projection := by
  have inside : Projection.Part binding.projection
      (.tuple (candidate.heldFixedBindings.map HeldFixedBinding.projection)) :=
    .item (List.mem_map_of_mem member) .itself
  exact @Projection.Part.field _ "held_fixed_bindings" _ _ (by simp) inside

private theorem verifyRoutes_of_valid {routes : List RouteSpec} (valid : RoutesValid budget routes) :
    verifyRoutes routes = .ok () := by
  obtain ⟨some, distinct, each⟩ := valid
  simp only [verifyRoutes, check_then_eq_ok_iff, require_eq_ok_iff, checkAll_eq_ok_iff,
    Bool.and_eq_true, decide_eq_true_eq, Bool.not_eq_true', List.isEmpty_eq_false_iff]
  exact ⟨⟨some, distinct⟩, fun route member => ⟨requireRef_of_isRef (each route member).1,
    (each route member).2.2.2, fun operation used =>
      requireRef_of_isRef ((each route member).2.1 operation used)⟩⟩

/-- A candidate that passes the target check passes this one, with the same bindings. -/
theorem verifyCandidate_of_valid {candidate : TargetCandidate}
    (valid : CandidateValid budget briefs candidate) (checked : BriefsChecked budget plan briefs) :
    verifyCandidate budget candidate briefs =
      .ok (candidate.heldFixedBindings.map HeldFixedBinding.entry) := by
  have bindings : bindingMap budget candidate.heldFixedBindings =
      .ok (candidate.heldFixedBindings.map HeldFixedBinding.entry) := by
    refine bindingMapFrom_of_target (fun binding member =>
      validateClosedBundleProjection_part (bindingPart member) valid.projection) ?_
    exact bindingMap_eq_ok_iff.mpr ⟨valid.bindings, valid.distinct, rfl⟩
  have slots : (candidate.heldFixedBindings.map HeldFixedBinding.entry).map Prod.fst =
      candidate.heldFixedBindings.map HeldFixedBinding.semanticSlot := by
    rw [List.map_map]
    rfl
  have entries : ∀ entry ∈ briefs, entry.1 = entry.2.experimentKey ∧
      validateBrief budget entry.2 = .ok () := by
    rw [checked.entries]
    intro entry member
    obtain ⟨brief, present, rfl⟩ := List.mem_map.mp member
    exact ⟨rfl, checked.valid brief present⟩
  have required : ∀ key ∈ candidate.experimentKeys,
      verifyRequired budget briefs candidate.unit key = .ok () := by
    intro key member
    obtain ⟨brief, found⟩ := Option.isSome_iff_exists.mp (valid.known key member)
    rw [verifyRequired, check_then_eq_ok_iff, found, Option.elim_some, require_eq_ok_iff]
    exact ⟨(entries _ (mem_of_dictGet found)).2, by simpa using valid.required key member⟩
  simp only [verifyCandidate, check_then_eq_ok_iff, valid.unit.1, checkAll_eq_ok_iff,
    bind_eq_ok_iff (α := List (String × String)), require_eq_ok_iff, decide_eq_true_eq]
  refine ⟨valid.projection, entries, requireRef_of_isRef valid.label, ?_, valid.keys.2.2, ?_,
    requireRef_of_isRef valid.unit.2, ?_, required, _, bindings, ?_,
    requireRef_of_isRef valid.implementation, verifyRoutes_of_valid valid.routes, valid.assets.2.2,
    fun asset member => requireRef_of_isRef (valid.assets.1 asset member), rfl⟩
  · simpa using valid.keys.2.1
  · simpa using valid.known
  · simpa using valid.irreflexive
  · rw [slots, sameSet_eq_true_iff]
    exact valid.bound

/-! ### The loops in lockstep -/

/-- The two loops have recorded the same units and revisions. -/
structure Matches (cover : Cover) (planned : Planned) : Prop where
  units : planned.targetByUnit = cover.usedUnits
  held : planned.heldByExperiment = cover.heldByExperiment

/-- One round of the target loop for a valid candidate of a new label. -/
private theorem coverCandidate_of_valid {cover after : Cover} {candidate : TargetCandidate}
    (valid : CandidateValid budget briefs candidate) (fresh : candidate.localLabel ∉ cover.labels) :
    coverCandidate budget briefs cover candidate = .ok after ↔
      (cover.usedUnits candidate.unit).all (· = candidate.localLabel) = true ∧
      ∃ held, (candidate.heldSlots briefs).foldlM (fun held slot =>
        establish "held_fixed_binding_drift" (candidate.heldFixedBindings.map HeldFixedBinding.entry)
          held slot.1 slot.2)
          cover.heldByExperiment = .ok held ∧
        ⟨candidate.localLabel :: cover.labels,
          Function.update cover.usedUnits candidate.unit (some candidate.localLabel), held⟩ = after := by
  have verified : Bundle.verifyCandidate budget candidate briefs =
      .ok (candidate.heldFixedBindings.map HeldFixedBinding.entry) :=
    verifyCandidate_eq_ok_iff.mpr ⟨valid, rfl⟩
  simp only [coverCandidate, check_then_eq_ok_iff, require_eq_ok_iff, verified,
    bind_eq_ok_iff (α := List (String × String)),
    bind_eq_ok_iff (α := String → String → Option String), Except.ok.injEq, exists_eq_left', pure,
    Except.pure, List.contains_eq_mem, fresh, decide_false, Bool.not_false, true_and]

/-- One round of the prototype loop for a valid candidate under its own label. -/
private theorem planCandidate_of_valid {planned after : Planned} {candidate : TargetCandidate}
    (valid : CandidateValid budget briefs candidate) (checked : BriefsChecked budget plan briefs) :
    planCandidate budget briefs planned (candidate.localLabel, candidate) = .ok after ↔
      (planned.targetByUnit candidate.unit).all (· = candidate.localLabel) = true ∧
      ∃ held, (candidate.heldSlots briefs).foldlM (fun held slot =>
        establish "held_fixed_binding_drift" (candidate.heldFixedBindings.map HeldFixedBinding.entry)
          held slot.1 slot.2)
          planned.heldByExperiment = .ok held ∧
        ⟨planned.cells ++ candidate.cells,
          Function.update planned.targetByUnit candidate.unit (some candidate.localLabel), held⟩ =
            after := by
  simp only [planCandidate, check_then_eq_ok_iff, require_eq_ok_iff,
    verifyCandidate_of_valid valid checked, bind_eq_ok_iff (α := List (String × String)),
    bind_eq_ok_iff (α := String → String → Option String), Except.ok.injEq, exists_eq_left', pure,
    Except.pure, decide_true, true_and, foldlM_establish_eq_ok_iff]

/-- The candidates under their own labels. -/
def labelled (candidates : List TargetCandidate) : List (String × TargetCandidate) :=
  candidates.map fun candidate => (candidate.localLabel, candidate)

private theorem foldlM_planCandidate_iff {candidates : List TargetCandidate} {cover : Cover}
    {planned : Planned} (same : Matches cover planned) (checked : BriefsChecked budget plan briefs)
    (valid : ∀ candidate ∈ candidates, CandidateValid budget briefs candidate)
    (distinct : (candidates.map TargetCandidate.localLabel).Nodup)
    (fresh : ∀ candidate ∈ candidates, candidate.localLabel ∉ cover.labels) {cells : List (String × String)} :
    (∃ after, (labelled candidates).foldlM (planCandidate budget briefs) planned = .ok after ∧
        after.cells = cells) ↔
      (∃ after, candidates.foldlM (coverCandidate budget briefs) cover = .ok after) ∧
        cells = planned.cells ++ coveredCells candidates := by
  induction candidates generalizing cover planned with
  | nil => simp [labelled, coveredCells, pure, Except.pure, eq_comm]
  | cons candidate rest ih =>
    obtain ⟨firstValid, valid⟩ := List.forall_mem_cons.mp valid
    obtain ⟨firstFresh, fresh⟩ := List.forall_mem_cons.mp fresh
    obtain ⟨firstNew, distinct⟩ := List.nodup_cons.mp distinct
    have later (units : String → Option String) (held : String → String → Option String) :=
      @ih ⟨candidate.localLabel :: cover.labels, units, held⟩
        ⟨planned.cells ++ candidate.cells, units, held⟩ ⟨rfl, rfl⟩ valid distinct (by
          intro other member known
          rcases List.mem_cons.mp known with same | old
          · exact firstNew (List.mem_map.mpr ⟨other, member, same⟩)
          · exact fresh other member old)
    have cellsSplit : planned.cells ++ coveredCells (candidate :: rest) =
        (planned.cells ++ candidate.cells) ++ coveredCells rest := by
      simp [coveredCells]
    rw [cellsSplit]
    simp only [labelled, List.map_cons, List.foldlM_cons, bind_eq_ok_iff,
      planCandidate_of_valid firstValid checked, coverCandidate_of_valid firstValid firstFresh,
      same.units, same.held]
    constructor
    · rintro ⟨after, ⟨_, ⟨unit, held, established, rfl⟩, others⟩, total⟩
      obtain ⟨⟨cover, covers⟩, rest⟩ := (later _ _).mp ⟨after, others, total⟩
      exact ⟨⟨cover, _, ⟨unit, held, established, rfl⟩, covers⟩, rest⟩
    · rintro ⟨⟨cover, _, ⟨unit, held, established, rfl⟩, covers⟩, rest⟩
      obtain ⟨after, others, total⟩ := (later _ _).mpr ⟨⟨cover, covers⟩, rest⟩
      exact ⟨after, ⟨_, ⟨unit, held, established, rfl⟩, others⟩, total⟩

/-! ### Dependencies and cells -/

theorem verifyAcyclic_labelled_iff {candidates : List TargetCandidate} :
    verifyAcyclic (labelled candidates) = .ok () ↔ Bundle.verifyAcyclic candidates = .ok () := by
  have labels : (labelled candidates).map Prod.fst = candidates.map TargetCandidate.localLabel := by
    rw [labelled, List.map_map]
    rfl
  have values : (labelled candidates).map Prod.snd = candidates := by
    rw [labelled, List.map_map]
    exact List.map_id _
  have all (check : TargetCandidate → Bool) :
      (labelled candidates).all (fun entry => check entry.2) = candidates.all check := by
    rw [labelled, List.all_map]
    rfl
  simp only [verifyAcyclic, Bundle.verifyAcyclic, check_then_eq_ok_iff, require_eq_ok_iff, labels, values,
    all fun candidate => candidate.dependsOnLabels.all
      ((candidates.map TargetCandidate.localLabel).contains ·)]

private theorem coversOnce_iff {cells : List (String × String)} (once : cells.Nodup)
    {brief : ExperimentBrief} : coversOnce cells brief = true ↔
      ∀ cell, (cell ∈ cells ∧ cell.1 = brief.experimentKey) ↔ cell ∈ expectedCells brief := by
  have count {cell : String × String} : cells.count cell = 1 ↔ cell ∈ cells :=
    ⟨fun one => List.count_pos_iff.mp (by omega), List.count_eq_one_of_mem once⟩
  simp only [coversOnce, Bool.and_eq_true, List.all_eq_true, List.contains_iff_mem, List.mem_filter,
    decide_eq_true_eq, count]
  constructor
  · rintro ⟨⟨actual, expected⟩, _⟩ cell
    exact ⟨fun ⟨member, same⟩ => actual cell ⟨member, same, member⟩,
      fun member => ⟨(expected cell member).1, (expected cell member).2.1⟩⟩
  · intro exact
    exact ⟨⟨fun cell ⟨member, same, _⟩ => (exact cell).mp ⟨member, same⟩,
      fun cell member => ⟨((exact cell).mpr member).1, ((exact cell).mpr member).2,
        ((exact cell).mpr member).1⟩⟩, fun cell member => ((exact cell).mpr member).1⟩

private theorem mem_contract_cells {contract : NormalizedCompletionContract}
    (same : plan.briefs = contract.experiments.map (·.brief)) {cell : String × String} :
    cell ∈ contract.cells ↔ ∃ brief ∈ plan.briefs, cell ∈ expectedCells brief := by
  simp [NormalizedCompletionContract.cells, expectedCells, same]

/-- Brief by brief, or all at once: the same cells are covered. -/
private theorem coversOnce_all_iff {contract : NormalizedCompletionContract}
    {candidates : List TargetCandidate} (same : plan.briefs = contract.experiments.map (·.brief))
    (keys : (plan.briefs.map ExperimentBrief.experimentKey).Nodup)
    (set : CandidateSetValid budget contract.briefs candidates) :
    plan.briefs.all (coversOnce (coveredCells candidates)) = true ↔
      ∀ cell, cell ∈ coveredCells candidates ↔ cell ∈ contract.cells := by
  rw [List.all_eq_true]
  simp only [coversOnce_iff set.coveredCells_nodup, mem_contract_cells same]
  have required {cell : String × String} (member : cell ∈ coveredCells candidates) :
      ∃ brief ∈ plan.briefs, cell ∈ expectedCells brief := by
    obtain ⟨candidate, present, inside⟩ := List.mem_flatMap.mp member
    exact (mem_contract_cells same).mp ((set.valid candidate present).requires inside)
  have keyOf {brief : ExperimentBrief} {cell : String × String} (member : cell ∈ expectedCells brief) :
      cell.1 = brief.experimentKey := by
    obtain ⟨unit, _, rfl⟩ := List.mem_map.mp member
    rfl
  constructor
  · intro each cell
    exact ⟨required, fun ⟨brief, present, member⟩ => ((each brief present cell).mpr member).1⟩
  · intro exact brief present cell
    constructor
    · rintro ⟨member, key⟩
      obtain ⟨other, inside, expected⟩ := required member
      obtain rfl : other = brief :=
        List.inj_on_of_nodup_map keys inside present ((keyOf expected).symm.trans key)
      exact expected
    · intro member
      exact ⟨(exact cell).mpr ⟨brief, present, member⟩, keyOf member⟩

/-! ### The gates -/

/-- Candidates of distinct labels are mapped as they are. -/
theorem byLabel_of_nodup {candidates : List TargetCandidate}
    (distinct : (candidates.map TargetCandidate.localLabel).Nodup) :
    byLabel candidates = labelled candidates := by
  have step (front rest : List TargetCandidate)
      (distinct : ((front ++ rest).map TargetCandidate.localLabel).Nodup) :
      rest.foldl (fun entries candidate => dictSet entries candidate.localLabel candidate)
        (labelled front) = labelled (front ++ rest) := by
    induction rest generalizing front with
    | nil => rw [List.append_nil, List.foldl_nil]
    | cons candidate rest ih =>
      have regroup : front ++ candidate :: rest = (front ++ [candidate]) ++ rest := by simp
      have new : candidate.localLabel ∉ (labelled front).map Prod.fst := by
        rw [List.map_append, List.nodup_append] at distinct
        intro member
        obtain ⟨entry, present, same⟩ := List.mem_map.mp member
        obtain ⟨other, inside, rfl⟩ := List.mem_map.mp present
        exact distinct.2.2 _ (List.mem_map_of_mem inside) _ List.mem_cons_self same
      have added : dictSet (labelled front) candidate.localLabel candidate =
          labelled (front ++ [candidate]) := by
        rw [dictSet, if_neg (by simpa using new), labelled, labelled, List.map_append,
          List.map_singleton]
      rw [List.foldl_cons, added, regroup]
      exact ih (front ++ [candidate]) (regroup ▸ distinct)
  exact step [] candidates distinct

/-- The prototype gate in the terms of the target gate. -/
private theorem verifyCompletionCells_labelled_iff {contract : NormalizedCompletionContract}
    {candidates : List TargetCandidate} (same : plan.briefs = contract.experiments.map (·.brief))
    (each : ∀ candidate ∈ candidates, CandidateValid budget contract.briefs candidate)
    (distinct : (candidates.map TargetCandidate.localLabel).Nodup) :
    verifyCompletionCells budget plan (labelled candidates) = .ok () ↔
      (∃ briefs, briefsByKey budget plan = .ok briefs) ∧
        CandidateSetValid budget contract.briefs candidates ∧ DependenciesRanked candidates ∧
          ∀ cell, cell ∈ coveredCells candidates ↔ cell ∈ contract.cells := by
  simp only [verifyCompletionCells, bind_eq_ok_iff (α := List (String × ExperimentBrief)),
    bind_eq_ok_iff (α := Planned), check_then_eq_ok_iff, require_eq_ok_iff,
    verifyAcyclic_labelled_iff, verifyAcyclic_eq_ok_iff distinct]
  rw [← exists_and_right]
  refine exists_congr fun briefs => and_congr_right fun parsed => ?_
  have checked := briefsChecked_of_briefsByKey parsed
  obtain rfl : briefs = contract.briefs := by
    rw [checked.entries, same, List.map_map]
    rfl
  have loop (cells : List (String × String)) :
      (∃ after, (labelled candidates).foldlM (planCandidate budget contract.briefs) Planned.empty =
          .ok after ∧ after.cells = cells) ↔
        (∃ after, candidates.foldlM (coverCandidate budget contract.briefs) Cover.empty = .ok after) ∧
          cells = coveredCells candidates :=
    foldlM_planCandidate_iff ⟨rfl, rfl⟩ checked each distinct (by simp [Cover.empty])
  have covers : (∃ after, candidates.foldlM (coverCandidate budget contract.briefs) Cover.empty =
      .ok after) ↔ CandidateSetValid budget contract.briefs ([] ++ candidates) :=
    foldlM_coverCandidate_iff Cover.records_empty CandidateSetValid.nil
  rw [List.nil_append] at covers
  simp only [covers] at loop
  constructor
  · rintro ⟨planned, planning, ranked, all⟩
    obtain ⟨set, cells⟩ := (loop planned.cells).mp ⟨planned, planning, rfl⟩
    rw [cells] at all
    exact ⟨set, ranked, (coversOnce_all_iff same checked.keys set).mp all⟩
  · rintro ⟨set, ranked, covered⟩
    obtain ⟨planned, planning, cells⟩ := (loop (coveredCells candidates)).mpr ⟨set, rfl⟩
    refine ⟨planned, planning, ranked, ?_⟩
    rw [cells]
    exact (coversOnce_all_iff same checked.keys set).mpr covered

/-- The target gate accepts the candidates and the Plan is accepted exactly when the labels are
distinct and the prototype gate accepts the candidates by label. -/
theorem gates_agree (budget : Budget) (plan : FormalPlan) (contract : NormalizedCompletionContract)
    (same : plan.briefs = contract.experiments.map (·.brief))
    (candidates : List FormalTargetCandidate)
    (valid : ∀ formal ∈ candidates, ∃ entries,
      Bundle.verifyCandidate budget formal.candidate contract.briefs = .ok entries) :
    (Bundle.verifyCompletionCells budget candidates contract = .ok () ∧
        ∃ briefs, briefsByKey budget plan = .ok briefs) ↔
      (candidates.map (·.candidate.localLabel)).Nodup ∧
        verifyCompletionCells budget plan
          (byLabel (candidates.map FormalTargetCandidate.candidate)) = .ok () := by
  have each : ∀ candidate ∈ candidates.map FormalTargetCandidate.candidate,
      CandidateValid budget contract.briefs candidate := by
    intro candidate member
    obtain ⟨formal, present, rfl⟩ := List.mem_map.mp member
    obtain ⟨entries, verified⟩ := valid formal present
    exact (verifyCandidate_eq_ok_iff.mp verified).1
  have labels : (candidates.map FormalTargetCandidate.candidate).map TargetCandidate.localLabel =
      candidates.map (·.candidate.localLabel) := by
    rw [List.map_map]
    rfl
  rw [verifyCompletionCells_eq_ok_iff, verifyCandidateSet_eq_ok_iff, ← labels]
  constructor
  · rintro ⟨⟨⟨set, ranked⟩, _, covered⟩, parsed⟩
    rw [byLabel_of_nodup set.labels]
    exact ⟨set.labels, (verifyCompletionCells_labelled_iff same each set.labels).mpr
      ⟨parsed, set, ranked, covered⟩⟩
  · rintro ⟨distinct, accepted⟩
    rw [byLabel_of_nodup distinct, verifyCompletionCells_labelled_iff same each distinct] at accepted
    obtain ⟨parsed, set, ranked, covered⟩ := accepted
    exact ⟨⟨⟨set, ranked⟩, set.coveredCells_nodup, covered⟩, parsed⟩

/-- The Plan of one cell, with a current or a stale acceptance receipt. -/
def soloPlan (current : Bool) : FormalPlan where
  formalPlanRef := "plan"
  briefs := soloContract.experiments.map (·.brief)
  contentBinding := ⟨"plan", "hash"⟩
  acceptanceReceipt := ⟨"receipt", "hash", true, true, current⟩

theorem soloPlan_projection (current : Bool) :
    validateClosedBundleProjection .standard "FormalPlan" (soloPlan current).projection = .ok () := by
  cases current <;> exact validateClosedBundleProjection_of_light (by decide) (by decide) (by decide)

/-- The brief of the only experiment. -/
def soloBrief : ExperimentBrief := ⟨"key", "delta", ["slot"], ["unit"]⟩

theorem validate_soloBrief : validateBrief .standard soloBrief = .ok () := by
  have projection : validateClosedBundleProjection .standard "ExperimentBrief" soloBrief.projection =
      .ok () := validateClosedBundleProjection_of_light (by decide) (by decide) (by decide)
  simp only [validateBrief, projection]
  decide

theorem briefsByKeyFrom_solo (current : Bool) :
    briefsByKeyFrom .standard [] (soloPlan current).briefs = .ok [("key", soloBrief)] := by
  show briefsByKeyFrom .standard [] [soloBrief] = .ok [("key", soloBrief)]
  simp only [briefsByKeyFrom, validate_soloBrief]
  rfl

theorem briefsByKey_solo : briefsByKey .standard (soloPlan true) = .ok [("key", soloBrief)] := by
  simp only [briefsByKey, soloPlan_projection, briefsByKeyFrom_solo]
  decide +kernel

theorem soloCandidate_planned :
    verifyCandidate .standard soloCandidate [("key", soloBrief)] = .ok [("slot", "revision")] := by
  simp only [verifyCandidate, soloCandidate_projection, checkAll, validate_soloBrief]
  decide +kernel

theorem verifyCompletionCells_solo :
    verifyCompletionCells .standard (soloPlan true) [("label", soloCandidate)] = .ok () := by
  have planned : [("label", soloCandidate)].foldlM (planCandidate .standard [("key", soloBrief)])
      Planned.empty = planCandidate .standard [("key", soloBrief)] Planned.empty ("label", soloCandidate) :=
    by simp
  refine bind_eq_ok_iff.mpr ⟨_, briefsByKey_solo, ?_⟩
  rw [planned, planCandidate, soloCandidate_planned]
  decide

theorem soloCandidate_verified : ∀ formal ∈ soloUpdate.candidates, ∃ entries,
    Bundle.verifyCandidate .standard formal.candidate soloContract.briefs = .ok entries := by
  simp only [soloUpdate, List.mem_singleton, forall_eq]
  exact ⟨[("slot", "revision")], Bundle.soloCandidate_verified⟩

/-- Both gates accept the strategy of one cell. -/
theorem gates_agree_on_solo :
    Bundle.verifyCompletionCells .standard soloUpdate.candidates soloContract = .ok () ∧
      ∃ briefs, briefsByKey .standard (soloPlan true) = .ok briefs := by
  refine (gates_agree .standard (soloPlan true) soloContract rfl soloUpdate.candidates
    soloCandidate_verified).mpr ⟨by decide, ?_⟩
  exact verifyCompletionCells_solo

/-- A stale receipt is refused by the prototype gate only, a repeated label by the target gate only. -/
theorem gates_disagree :
    (soloPlan false).briefs = soloContract.experiments.map (·.brief) ∧
      (∀ formal ∈ soloUpdate.candidates, ∃ entries,
        Bundle.verifyCandidate .standard formal.candidate soloContract.briefs = .ok entries) ∧
      Bundle.verifyCompletionCells .standard soloUpdate.candidates soloContract = .ok () ∧
      verifyCompletionCells .standard (soloPlan false) (byLabel [soloCandidate]) =
        .error ("FormalPlan acceptance receipt is invalid: " ++
          "receipt proof is absent, stale, or subject-drifted") ∧
      Bundle.verifyCompletionCells .standard (soloUpdate.candidates ++ soloUpdate.candidates)
        soloContract = .error "strategy_repeats_target_label" ∧
      verifyCompletionCells .standard (soloPlan true) (byLabel [soloCandidate, soloCandidate]) =
        .ok () := by
  refine ⟨rfl, soloCandidate_verified, soloUpdate_covers, ?_, ?_, ?_⟩
  · simp only [verifyCompletionCells, briefsByKey, soloPlan_projection, briefsByKeyFrom_solo]
    decide +kernel
  · simp only [Bundle.verifyCompletionCells, verifyCandidateSet, soloUpdate, List.map_cons, List.map_nil,
      List.cons_append, List.nil_append, List.foldlM_cons, coverCandidate, Bundle.soloCandidate_verified]
    decide
  · have once : byLabel [soloCandidate, soloCandidate] = [("label", soloCandidate)] := by decide
    rw [once]
    exact verifyCompletionCells_solo

end Completion

end MetaResearch.Bundle

import Mathlib.Data.List.Pairwise
import MetaResearch.Model.Bundle.TargetRun
import MetaResearch.Soundness.Bundle.GateAgreement
import MetaResearch.Soundness.Bundle.ResultSets
import MetaResearch.Soundness.Bundle.Sizes

/-! # The result sets partition the Plan

A completed strategy plans each required cell in exactly one candidate, so the experiments that a
selection of accepted candidates leaves unrealized are those of the other candidates. The result sets,
the report gate and the replan gate agree on them.
-/

namespace MetaResearch.Bundle

namespace Completion

variable {budget : Budget} {digest : String → String} {briefs : List (String × ExperimentBrief)}
  {plan : FormalPlan}

/-! ### Sorted sets -/

theorem mem_sortedSet {values : List String} {value : String} :
    value ∈ sortedSet values ↔ value ∈ values := by
  rw [sortedSet, List.mem_insertionSort, List.mem_dedup]

/-- A sorted set is determined by its members. -/
theorem sortedSet_congr {first second : List String}
    (same : ∀ value, value ∈ first ↔ value ∈ second) : sortedSet first = sortedSet second := by
  have permuted : first.dedup.Perm second.dedup := by
    rw [List.perm_ext_iff_of_nodup first.nodup_dedup second.nodup_dedup]
    simpa using same
  have sorted : (sortedSet first).Perm (sortedSet second) :=
    (List.perm_insertionSort _ _).trans (permuted.trans (List.perm_insertionSort _ _).symm)
  exact sorted.eq_of_sortedLE List.sortedLE_insertionSort List.sortedLE_insertionSort

theorem sortedSet_eq_iff {first second : List String} :
    sortedSet first = sortedSet second ↔ ∀ value, value ∈ first ↔ value ∈ second := by
  refine ⟨fun same value => ?_, sortedSet_congr⟩
  exact mem_sortedSet.symm.trans (same ▸ mem_sortedSet)

/-! ### Planned candidates -/

/-- What an accepted candidate says of its cells. -/
structure CandidateChecked (briefs : List (String × ExperimentBrief)) (candidate : TargetCandidate) :
    Prop where
  keys : candidate.experimentKeys ≠ []
  distinct : candidate.experimentKeys.Nodup
  required : ∀ key ∈ candidate.experimentKeys, candidate.unit ∈ unitsOf briefs key

private theorem checked_of_verifyCandidate {candidate : TargetCandidate} {entries : List (String × String)}
    (verified : verifyCandidate budget candidate briefs = .ok entries) :
    CandidateChecked briefs candidate ∧
      entries = candidate.heldFixedBindings.map HeldFixedBinding.entry := by
  unfold verifyCandidate at verified
  simp only [check_then_eq_ok_iff, require_eq_ok_iff, Bool.not_eq_true', List.isEmpty_eq_false_iff,
    decide_eq_true_eq] at verified
  obtain ⟨_, _, _, keys, distinct, _, unit⟩ := verified
  rcases units : candidate.measurementUnitKeys with _ | ⟨unitKey, _ | ⟨_, _⟩⟩
  · simp [units] at unit
  · have same : candidate.unit = unitKey := by simp [TargetCandidate.unit, units]
    simp only [units, check_then_eq_ok_iff, checkAll_eq_ok_iff,
      bind_eq_ok_iff (α := List (String × String)), pure, Except.pure, Except.ok.injEq] at unit
    obtain ⟨_, _, required, bindings, bound, _, _, _, _, _, rfl⟩ := unit
    refine ⟨⟨keys, distinct, fun key member => ?_⟩, entries_of_bindingMap bound⟩
    have needed := required key member
    rw [verifyRequired, check_then_eq_ok_iff, require_eq_ok_iff, List.contains_iff_mem] at needed
    exact same ▸ needed.2
  · simp [units] at unit

/-- What the loop over the candidates establishes of those it has passed. -/
private structure Passed (budget : Budget) (briefs : List (String × ExperimentBrief))
    (candidates : List (String × TargetCandidate)) (planned : Planned) : Prop where
  checked : ∀ entry ∈ candidates, CandidateChecked briefs entry.2
  cells : planned.cells = candidates.flatMap (·.2.cells)
  held : ∀ entry ∈ candidates, ∀ pair ∈ entry.2.heldSlots briefs,
    planned.heldByExperiment pair.1 pair.2 = some (entry.2.revisionOf pair.2)

private theorem Passed.empty : Passed budget briefs [] Planned.empty :=
  ⟨by simp, by simp [Planned.empty], by simp⟩

private theorem Passed.step {candidates : List (String × TargetCandidate)} {planned after : Planned}
    {entry : String × TargetCandidate} (passed : Passed budget briefs candidates planned)
    (success : planCandidate budget briefs planned entry = .ok after) :
    Passed budget briefs (candidates ++ [entry]) after := by
  simp only [planCandidate, check_then_eq_ok_iff, bind_eq_ok_iff (α := List (String × String)),
    bind_eq_ok_iff (α := String → String → Option String), foldlM_establish_eq_ok_iff, pure,
    Except.pure, Except.ok.injEq] at success
  obtain ⟨_, entries, verified, _, _, ⟨consistent, rfl⟩, rfl⟩ := success
  obtain ⟨checked, rfl⟩ := checked_of_verifyCandidate verified
  refine ⟨?_, ?_, ?_⟩
  · intro other member
    rcases List.mem_append.mp member with old | new
    · exact passed.checked other old
    · exact List.mem_singleton.mp new ▸ checked
  · simp [passed.cells]
  · intro other member pair here
    dsimp only
    rcases List.mem_append.mp member with old | new
    · have established := passed.held other old pair here
      split_ifs with there
      · rw [consistent pair there _ established]
      · exact established
    · rw [List.mem_singleton.mp new] at here ⊢
      rw [if_pos here]
      rfl

private theorem Passed.run {first rest : List (String × TargetCandidate)} {planned after : Planned}
    (passed : Passed budget briefs first planned)
    (success : rest.foldlM (planCandidate budget briefs) planned = .ok after) :
    Passed budget briefs (first ++ rest) after := by
  induction rest generalizing first planned with
  | nil =>
    obtain rfl : planned = after := Except.ok.inj success
    simpa using passed
  | cons entry rest ih =>
    rw [List.foldlM_cons, bind_eq_ok_iff] at success
    obtain ⟨middle, round, others⟩ := success
    have regroup : first ++ entry :: rest = (first ++ [entry]) ++ rest := by simp
    rw [regroup]
    exact ih (passed.step round) others

/-- A completed strategy: each cell of the Plan is planned in one candidate, and candidates of one
experiment agree on what it holds fixed. -/
structure Planning (briefs : List (String × ExperimentBrief)) (plan : FormalPlan)
    (candidates : List (String × TargetCandidate)) : Prop where
  checked : ∀ entry ∈ candidates, CandidateChecked briefs entry.2
  once : (candidates.flatMap (·.2.cells)).Nodup
  exact : ∀ cell, cell ∈ candidates.flatMap (·.2.cells) ↔
    ∃ brief ∈ plan.briefs, cell ∈ expectedCells brief
  held : ∀ entry ∈ candidates, ∀ other ∈ candidates, ∀ key ∈ entry.2.experimentKeys,
    key ∈ other.2.experimentKeys → ∀ slot ∈ slotsOf briefs key,
      entry.2.revisionOf slot = other.2.revisionOf slot

theorem BriefsChecked.dictGet_of_mem (checked : BriefsChecked budget plan briefs)
    {brief : ExperimentBrief} (member : brief ∈ plan.briefs) :
    dictGet briefs brief.experimentKey = some brief := by
  rw [checked.entries]
  refine Bundle.dictGet_of_mem ?_ (List.mem_map_of_mem (f := fun brief : ExperimentBrief =>
    (brief.experimentKey, brief)) member)
  rw [List.map_map]
  exact checked.keys

/-- A required unit of a key belongs to the brief of that key. -/
theorem BriefsChecked.mem_unitsOf (checked : BriefsChecked budget plan briefs) {key unit : String}
    (required : unit ∈ unitsOf briefs key) :
    ∃ brief ∈ plan.briefs, (key, unit) ∈ expectedCells brief := by
  unfold unitsOf at required
  cases found : dictGet briefs key with
  | none => simp [found] at required
  | some brief =>
    have member := mem_of_dictGet found
    rw [checked.entries] at member
    obtain ⟨brief, present, same⟩ := List.mem_map.mp member
    obtain ⟨rfl, rfl⟩ := Prod.mk.inj same
    exact ⟨brief, present, List.mem_map.mpr ⟨unit, by simpa [found] using required, rfl⟩⟩

theorem planning_of_verifyCompletionCells {candidates : List (String × TargetCandidate)}
    (covered : verifyCompletionCells budget plan candidates = .ok ()) :
    ∃ briefs, briefsByKey budget plan = .ok briefs ∧ Planning briefs plan candidates := by
  simp only [verifyCompletionCells, bind_eq_ok_iff (α := List (String × ExperimentBrief)),
    bind_eq_ok_iff (α := Planned), check_then_eq_ok_iff, require_eq_ok_iff, List.all_eq_true] at covered
  obtain ⟨briefs, parsed, planned, loop, _, covers⟩ := covered
  have passed : Passed budget briefs candidates planned := by
    simpa using Passed.empty.run loop
  have briefsChecked := briefsChecked_of_briefsByKey parsed
  have required : ∀ cell ∈ planned.cells, ∃ brief ∈ plan.briefs, cell ∈ expectedCells brief := by
    intro cell member
    rw [passed.cells] at member
    obtain ⟨entry, present, inside⟩ := List.mem_flatMap.mp member
    obtain ⟨key, claimed, rfl⟩ := List.mem_map.mp inside
    exact briefsChecked.mem_unitsOf ((passed.checked entry present).required key claimed)
  have counted : ∀ brief ∈ plan.briefs, ∀ cell ∈ expectedCells brief, planned.cells.count cell = 1 := by
    intro brief member cell expected
    have all := covers brief member
    simp only [coversOnce, Bool.and_eq_true, List.all_eq_true, decide_eq_true_eq] at all
    exact all.2 cell expected
  refine ⟨briefs, parsed, passed.checked, ?_, ?_, ?_⟩
  · rw [← passed.cells, List.nodup_iff_count_le_one]
    intro cell
    by_cases member : cell ∈ planned.cells
    · obtain ⟨brief, present, expected⟩ := required cell member
      exact Nat.le_of_eq (counted brief present cell expected)
    · simp [List.count_eq_zero_of_not_mem member]
  · intro cell
    rw [← passed.cells]
    constructor
    · exact required cell
    · rintro ⟨brief, present, expected⟩
      have one := counted brief present cell expected
      exact List.count_pos_iff.mp (by omega)
  · intro entry member other present key here there slot held
    have first := passed.held entry member (key, slot) (mem_heldSlots.mpr ⟨here, held⟩)
    have second := passed.held other present (key, slot) (mem_heldSlots.mpr ⟨there, held⟩)
    exact Option.some.inj (first.symm.trans second)

/-! ### Accepted candidates -/

/-- The accepted closures are those of the candidates of these labels. -/
structure Selected (candidates : List (String × TargetCandidate)) (labels : List String)
    (accepted : List (String × AcceptedMeasurementClosure)) : Prop where
  distinct : labels.Nodup
  closures : List.Forall₂ (fun label entry => ∃ candidate, (label, candidate) ∈ candidates ∧
    entry.2.experimentKeys = candidate.experimentKeys ∧
    entry.2.measurementUnitKey = candidate.unit ∧
    entry.2.heldFixedBindings = candidate.heldFixedBindings) labels accepted

/-- The experiments of the candidates of no accepted label. -/
def unacceptedKeys (candidates : List (String × TargetCandidate)) (labels : List String) : List String :=
  (candidates.filter fun entry => !labels.contains entry.1).flatMap (·.2.experimentKeys)

theorem mem_unacceptedKeys {candidates : List (String × TargetCandidate)} {labels : List String}
    {key : String} : key ∈ unacceptedKeys candidates labels ↔
      ∃ entry ∈ candidates, entry.1 ∉ labels ∧ key ∈ entry.2.experimentKeys := by
  simp [unacceptedKeys, and_assoc]

namespace Selected

variable {candidates : List (String × TargetCandidate)} {labels : List String}
  {accepted : List (String × AcceptedMeasurementClosure)}

/-- Each accepted closure realizes the cells of its candidate. -/
private theorem mem_acceptedCells
    (closures : List.Forall₂ (fun label (entry : String × AcceptedMeasurementClosure) => ∃ candidate,
      (label, candidate) ∈ candidates ∧ entry.2.experimentKeys = candidate.experimentKeys ∧
      entry.2.measurementUnitKey = candidate.unit ∧
      entry.2.heldFixedBindings = candidate.heldFixedBindings) labels accepted)
    (keys : (candidates.map Prod.fst).Nodup) {cell : String × String} :
    cell ∈ acceptedCells accepted ↔
      ∃ entry ∈ candidates, entry.1 ∈ labels ∧ cell ∈ entry.2.cells := by
  induction closures with
  | nil => simp [acceptedCells]
  | @cons label closure labels accepted first _ ih =>
    obtain ⟨candidate, member, sameKeys, sameUnit, _⟩ := first
    have cells : cellsOf closure.2 = candidate.cells := by
      rw [cellsOf, TargetCandidate.cells, sameKeys, sameUnit]
    have only : ∀ entry ∈ candidates, entry.1 = label → entry = (label, candidate) := by
      intro entry present same
      exact List.inj_on_of_nodup_map keys present member same
    rw [acceptedCells, List.flatMap_cons, List.mem_append, cells]
    rw [acceptedCells] at ih
    rw [ih]
    constructor
    · rintro (here | ⟨entry, present, known, there⟩)
      · exact ⟨_, member, List.mem_cons_self, here⟩
      · exact ⟨entry, present, List.mem_cons_of_mem _ known, there⟩
    · rintro ⟨entry, present, known, inside⟩
      rcases List.mem_cons.mp known with same | later
      · rw [only entry present same] at inside
        exact .inl inside
      · exact .inr ⟨entry, present, later, inside⟩

/-- A cell is planned in one candidate. -/
private theorem entry_unique (planning : Planning briefs plan candidates) {cell : String × String}
    {entry other : String × TargetCandidate} (member : entry ∈ candidates) (present : other ∈ candidates)
    (here : cell ∈ entry.2.cells) (there : cell ∈ other.2.cells) : entry = other := by
  have apart := (List.nodup_flatMap.mp planning.once).2
  by_contra different
  have : Std.Symm (Function.onFun List.Disjoint fun entry : String × TargetCandidate => entry.2.cells) :=
    ⟨fun _ _ disjoint => disjoint.symm⟩
  exact apart.forall member present different here there

private theorem acceptedCells_nodup (planning : Planning briefs plan candidates)
    (keys : (candidates.map Prod.fst).Nodup) (selected : Selected candidates labels accepted) :
    (acceptedCells accepted).Nodup := by
  obtain ⟨distinct, closures⟩ := selected
  induction closures with
  | nil => simp [acceptedCells]
  | @cons label closure labels accepted first rest ih =>
    obtain ⟨new, distinct⟩ := List.nodup_cons.mp distinct
    obtain ⟨candidate, member, sameKeys, sameUnit, _⟩ := first
    have cells : cellsOf closure.2 = candidate.cells := by
      rw [cellsOf, TargetCandidate.cells, sameKeys, sameUnit]
    rw [acceptedCells, List.flatMap_cons, cells, List.nodup_append]
    refine ⟨?_, ih distinct, ?_⟩
    · exact (planning.checked _ member).distinct.map fun _ _ same => congrArg Prod.fst same
    · rintro cell here other there rfl
      obtain ⟨entry, present, known, inside⟩ := (mem_acceptedCells rest keys).mp there
      obtain rfl := entry_unique planning member present here inside
      exact new known

/-- An experiment is realized unless a candidate of it is not accepted. -/
private theorem isRealized_iff (planning : Planning briefs plan candidates)
    (keys : (candidates.map Prod.fst).Nodup) (selected : Selected candidates labels accepted)
    (distinct : (plan.briefs.map ExperimentBrief.experimentKey).Nodup)
    {brief : ExperimentBrief} (member : brief ∈ plan.briefs) :
    isRealized (acceptedCells accepted) brief = true ↔
      brief.experimentKey ∉ unacceptedKeys candidates labels := by
  have acceptedUnit {unit : String} : unit ∈ ((acceptedCells accepted).filter
      (·.1 = brief.experimentKey)).map Prod.snd ↔ (brief.experimentKey, unit) ∈ acceptedCells accepted := by
    simp
  have planned {unit : String} : (brief.experimentKey, unit) ∈ candidates.flatMap (·.2.cells) ↔
      unit ∈ brief.requiredMeasurementUnitKeys := by
    rw [planning.exact]
    constructor
    · rintro ⟨other, present, expected⟩
      obtain ⟨needed, required, same⟩ := List.mem_map.mp expected
      obtain ⟨sameKey, rfl⟩ := Prod.mk.inj same
      obtain rfl := List.inj_on_of_nodup_map distinct present member sameKey
      exact required
    · exact fun required => ⟨brief, member, List.mem_map.mpr ⟨unit, required, rfl⟩⟩
  rw [isRealized, sameSet_eq_true_iff, mem_unacceptedKeys]
  simp only [acceptedUnit, mem_acceptedCells selected.closures keys]
  constructor
  · rintro realized ⟨entry, present, unknown, claimed⟩
    have inside : (brief.experimentKey, entry.2.unit) ∈ entry.2.cells :=
      List.mem_map.mpr ⟨_, claimed, rfl⟩
    have required := planned.mp (List.mem_flatMap.mpr ⟨entry, present, inside⟩)
    obtain ⟨other, otherPresent, known, there⟩ := (realized entry.2.unit).mp required
    obtain rfl := entry_unique planning present otherPresent inside there
    exact unknown known
  · intro all unit
    constructor
    · intro required
      obtain ⟨entry, present, inside⟩ := List.mem_flatMap.mp (planned.mpr required)
      obtain ⟨key, claimed, same⟩ := List.mem_map.mp inside
      obtain ⟨rfl, rfl⟩ := Prod.mk.inj same
      by_contra missing
      exact all ⟨entry, present, fun known => missing ⟨entry, present, known, inside⟩, claimed⟩
    · rintro ⟨entry, present, _, inside⟩
      exact planned.mp (List.mem_flatMap.mpr ⟨entry, present, inside⟩)

/-- The experiments of candidates are experiments of the Plan. -/
private theorem unacceptedKeys_known (planning : Planning briefs plan candidates) {key : String}
    (member : key ∈ unacceptedKeys candidates labels) :
    key ∈ plan.briefs.map ExperimentBrief.experimentKey := by
  obtain ⟨entry, present, _, claimed⟩ := mem_unacceptedKeys.mp member
  have inside : (key, entry.2.unit) ∈ candidates.flatMap (·.2.cells) :=
    List.mem_flatMap.mpr ⟨entry, present, List.mem_map.mpr ⟨_, claimed, rfl⟩⟩
  obtain ⟨brief, known, expected⟩ := (planning.exact _).mp inside
  obtain ⟨_, _, same⟩ := List.mem_map.mp expected
  exact List.mem_map.mpr ⟨brief, known, congrArg Prod.fst same⟩

/-- The remaining experiments are those of the candidates that are not accepted. -/
theorem remaining_eq (planning : Planning briefs plan candidates)
    (keys : (candidates.map Prod.fst).Nodup) (selected : Selected candidates labels accepted)
    (distinct : (plan.briefs.map ExperimentBrief.experimentKey).Nodup) :
    (setsOf plan (acceptedCells accepted)).2 = sortedSet (unacceptedKeys candidates labels) := by
  refine sortedSet_congr fun key => ?_
  constructor
  · intro left
    obtain ⟨brief, inside, rfl⟩ := List.mem_map.mp left
    obtain ⟨member, unrealized⟩ := List.mem_filter.mp inside
    by_contra accepted
    rw [(isRealized_iff planning keys selected distinct member).mpr accepted] at unrealized
    simp at unrealized
  · intro unaccepted
    obtain ⟨brief, member, rfl⟩ := List.mem_map.mp (unacceptedKeys_known planning unaccepted)
    refine List.mem_map_of_mem (List.mem_filter.mpr ⟨member, ?_⟩)
    rw [Bool.not_eq_true', Bool.eq_false_iff]
    exact fun realized =>
      (isRealized_iff planning keys selected distinct member).mp realized unaccepted

/-- The realized experiments are the other ones of the Plan. -/
theorem mem_realized_iff (planning : Planning briefs plan candidates)
    (keys : (candidates.map Prod.fst).Nodup) (selected : Selected candidates labels accepted)
    (distinct : (plan.briefs.map ExperimentBrief.experimentKey).Nodup) {key : String} :
    key ∈ (setsOf plan (acceptedCells accepted)).1 ↔
      key ∈ plan.briefs.map ExperimentBrief.experimentKey ∧ key ∉ unacceptedKeys candidates labels := by
  rw [setsOf, mem_sortedSet]
  constructor
  · intro realized
    obtain ⟨brief, inside, rfl⟩ := List.mem_map.mp realized
    obtain ⟨member, all⟩ := List.mem_filter.mp inside
    exact ⟨List.mem_map_of_mem member, (isRealized_iff planning keys selected distinct member).mp all⟩
  · rintro ⟨known, all⟩
    obtain ⟨brief, member, rfl⟩ := List.mem_map.mp known
    exact List.mem_map_of_mem (List.mem_filter.mpr
      ⟨member, (isRealized_iff planning keys selected distinct member).mpr all⟩)

/-- Nothing remains when every candidate is accepted. -/
theorem unacceptedKeys_eq_nil_iff (planning : Planning briefs plan candidates) :
    (∀ key, key ∉ unacceptedKeys candidates labels) ↔ ∀ entry ∈ candidates, entry.1 ∈ labels := by
  constructor
  · intro none entry present
    by_contra unknown
    obtain ⟨key, claimed⟩ := List.exists_mem_of_ne_nil _ (planning.checked entry present).keys
    exact none key (mem_unacceptedKeys.mpr ⟨entry, present, unknown, claimed⟩)
  · intro all key member
    obtain ⟨entry, present, unknown, _⟩ := mem_unacceptedKeys.mp member
    exact unknown (all entry present)

/-- Closures of the candidates agree on what an experiment holds fixed. -/
private theorem held (planning : Planning briefs plan candidates)
    (closures : List.Forall₂ (fun label (entry : String × AcceptedMeasurementClosure) => ∃ candidate,
      (label, candidate) ∈ candidates ∧ entry.2.experimentKeys = candidate.experimentKeys ∧
      entry.2.measurementUnitKey = candidate.unit ∧
      entry.2.heldFixedBindings = candidate.heldFixedBindings) labels accepted) :
    ∀ entry ∈ accepted, ∀ other ∈ accepted, ∀ key ∈ entry.2.experimentKeys,
      key ∈ other.2.experimentKeys → ∀ slot ∈ slotsOf briefs key,
        entry.2.revisionOf slot = other.2.revisionOf slot := by
  have candidateOf : ∀ entry ∈ accepted, ∃ planned ∈ candidates,
      entry.2.experimentKeys = planned.2.experimentKeys ∧
        ∀ slot, entry.2.revisionOf slot = planned.2.revisionOf slot := by
    induction closures with
    | nil => simp
    | cons first _ ih =>
      obtain ⟨candidate, present, sameKeys, _, sameBindings⟩ := first
      refine List.forall_mem_cons.mpr ⟨⟨_, present, sameKeys, fun slot => ?_⟩, ih⟩
      rw [AcceptedMeasurementClosure.revisionOf, TargetCandidate.revisionOf, sameBindings]
  intro entry member other present key here there slot slotHeld
  obtain ⟨first, firstPlanned, firstKeys, firstRevision⟩ := candidateOf entry member
  obtain ⟨second, secondPlanned, secondKeys, secondRevision⟩ := candidateOf other present
  rw [firstRevision, secondRevision]
  exact planning.held first firstPlanned second secondPlanned key (firstKeys ▸ here)
    (secondKeys ▸ there) slot slotHeld

end Selected

/-! ### The replan gate -/

/-- The text of the coverage check of the replan gate. -/
def uncoveredError : String := "semantic barriers do not exactly cover remaining ExperimentKeys"

/-- The barriers passed the gate of their Target. -/
def BarriersChecked (budget : Budget) (candidates : List (String × TargetCandidate))
    (targetByLabel : List (String × String)) (semanticBarriers : List (String × SemanticBarrier)) : Prop :=
  ∀ barrier ∈ semanticBarriers, ∀ entry ∈ candidates, (entry.1, barrier.1) ∈ targetByLabel →
    ∃ handle, TargetRun.validateSemanticBarrier budget barrier.2 entry.2 handle = .ok ()

private theorem experimentKeys_of_validate {barrier : SemanticBarrier} {candidate : TargetCandidate}
    {handle : TargetWorkHandle}
    (checked : TargetRun.validateSemanticBarrier budget barrier candidate handle = .ok ()) :
    barrier.experimentKeys = candidate.experimentKeys := by
  simp only [TargetRun.validateSemanticBarrier, check_then_eq_ok_iff, require_eq_ok_iff,
    decide_eq_true_eq] at checked
  exact checked.2.2.1

variable {candidates : List (String × TargetCandidate)} {labels : List String}
  {targetByLabel : List (String × String)} {semanticBarriers : List (String × SemanticBarrier)}

theorem mem_of_lookup {α : Type} {entries : List (String × α)} {key : String} {value : α}
    (found : entries.lookup key = some value) : (key, value) ∈ entries := by
  obtain ⟨front, back, rfl, _⟩ := List.lookup_eq_some_iff.mp found
  simp

theorem exists_lookup {α : Type} {entries : List (String × α)} {key : String}
    (member : key ∈ entries.map Prod.fst) : ∃ value, entries.lookup key = some value := by
  cases found : entries.lookup key with
  | some value => exact ⟨value, rfl⟩
  | none =>
    obtain ⟨entry, present, same⟩ := List.mem_map.mp member
    have apart := List.lookup_eq_none_iff.mp found entry present
    simp [same] at apart

/-- The targets that need a barrier are those of the labels that are not accepted. -/
private theorem mem_expectedBarrierTargets {targetRef : String} :
    targetRef ∈ expectedBarrierTargets candidates targetByLabel labels ↔
      ∃ entry ∈ candidates, entry.1 ∉ labels ∧ targetByLabel.lookup entry.1 = some targetRef := by
  simp only [expectedBarrierTargets, unresolvedLabels, List.mem_filterMap, List.mem_filter,
    List.mem_map, Bool.not_eq_true', List.contains_eq_mem, decide_eq_false_iff_not]
  constructor
  · rintro ⟨_, ⟨⟨entry, present, rfl⟩, unknown⟩, target⟩
    exact ⟨entry, present, unknown, target⟩
  · rintro ⟨entry, present, unknown, target⟩
    exact ⟨_, ⟨⟨entry, present, rfl⟩, unknown⟩, target⟩

/-- Barriers of exactly the unresolved Targets cover exactly the remaining experiments. -/
private theorem barriers_cover (checked : BarriersChecked budget candidates targetByLabel semanticBarriers)
    (mapped : ∀ label, label ∈ targetByLabel.map Prod.fst ↔ label ∈ candidates.map Prod.fst)
    (targets : ∀ target, target ∈ semanticBarriers.map Prod.fst ↔
      target ∈ expectedBarrierTargets candidates targetByLabel labels) (key : String) :
    key ∈ (semanticBarriers.flatMap fun entry => entry.2.experimentKeys) ↔
      key ∈ unacceptedKeys candidates labels := by
  rw [mem_unacceptedKeys]
  constructor
  · intro member
    obtain ⟨barrier, present, claimed⟩ := List.mem_flatMap.mp member
    obtain ⟨entry, candidate, unknown, target⟩ :=
      mem_expectedBarrierTargets.mp ((targets barrier.1).mp (List.mem_map_of_mem present))
    obtain ⟨handle, valid⟩ := checked barrier present entry candidate (mem_of_lookup target)
    exact ⟨entry, candidate, unknown, experimentKeys_of_validate valid ▸ claimed⟩
  · rintro ⟨entry, candidate, unknown, claimed⟩
    obtain ⟨target, found⟩ := exists_lookup ((mapped entry.1).mpr (List.mem_map_of_mem candidate))
    obtain ⟨barrier, present, rfl⟩ := List.mem_map.mp
      ((targets target).mpr (mem_expectedBarrierTargets.mpr ⟨entry, candidate, unknown, found⟩))
    obtain ⟨handle, valid⟩ := checked barrier present entry candidate (mem_of_lookup found)
    exact List.mem_flatMap.mpr ⟨barrier, present, experimentKeys_of_validate valid ▸ claimed⟩

private theorem verifyLabels_ne_error {acceptedLabels : List String} :
    verifyLabels candidates targetByLabel acceptedLabels ≠ .error uncoveredError :=
  bind_ne_error (require_ne_error (by decide)) fun _ _ =>
    bind_ne_error (require_ne_error (by decide)) fun _ _ => require_ne_error (by decide)

private theorem collectLabel_ne_error (replan : Replan) (label : String) :
    collectLabel candidates targetByLabel semanticBarriers replan label ≠ .error uncoveredError := by
  have route (replan : Replan) (route : RouteSpec) : collectRoute replan route ≠ .error uncoveredError :=
    bind_ne_error (require_ne_error (by decide)) fun _ _ => by simp [pure, Except.pure]
  have reconciliation (replan : Replan) (item : ExternalOperationReconciliation) :
      collectReconciliation replan item ≠ .error uncoveredError :=
    bind_ne_error (require_ne_error (by decide)) fun _ _ =>
      bind_ne_error (require_ne_error (by decide)) fun _ _ => by simp [pure, Except.pure]
  have disposition (replan : Replan) (disposition : RouteDisposition) :
      collectDisposition replan disposition ≠ .error uncoveredError :=
    bind_ne_error (require_ne_error (by decide)) fun _ _ =>
      bind_ne_error (require_ne_error (by decide)) fun _ _ => foldlM_ne_error reconciliation
  unfold collectLabel
  split
  · split
    · exact bind_ne_error (require_ne_error (by decide)) fun _ _ =>
        bind_ne_error (require_ne_error (by decide)) fun _ _ =>
          bind_ne_error (foldlM_ne_error route) fun _ _ => foldlM_ne_error disposition
    · simp
  · simp

/-- The coverage check of the replan gate does not fail once the result sets are known. -/
private theorem closedSemanticReplanPayload_ne_error
    {accepted : List (String × AcceptedMeasurementClosure)} {realized : List String}
    (success : resultSets budget digest plan accepted =
      .ok (realized, sortedSet (unacceptedKeys candidates labels)))
    (nonempty : ∀ entry ∈ candidates, entry.2.experimentKeys ≠ [])
    (checked : BarriersChecked budget candidates targetByLabel semanticBarriers)
    (strategyComplete : Bool) (requestedTargetRefs blockedTargetRefs pendingNoticeRefs : List String) :
    closedSemanticReplanPayload budget digest plan candidates targetByLabel accepted labels
      semanticBarriers strategyComplete requestedTargetRefs blockedTargetRefs pendingNoticeRefs ≠
        .error uncoveredError := by
  unfold closedSemanticReplanPayload
  split
  · simp
  rename_i absent
  refine bind_ne_error verifyLabels_ne_error fun _ labelled => ?_
  simp only [verifyLabels, check_then_eq_ok_iff, require_eq_ok_iff, sameSet_eq_true_iff] at labelled
  split_ifs with targets
  · rw [sameSet_eq_true_iff] at targets
    have cover := barriers_cover checked labelled.2.1 targets
    have some : semanticBarriers ≠ [] := by
      intro empty
      simp [empty] at absent
    obtain ⟨barrier, present⟩ := List.exists_mem_of_ne_nil _ some
    obtain ⟨entry, candidate, unknown, _⟩ :=
      mem_expectedBarrierTargets.mp ((targets barrier.1).mp (List.mem_map_of_mem present))
    obtain ⟨key, claimed⟩ := List.exists_mem_of_ne_nil _ (nonempty entry candidate)
    have left : key ∈ sortedSet (unacceptedKeys candidates labels) :=
      mem_sortedSet.mpr (mem_unacceptedKeys.mpr ⟨entry, candidate, unknown, claimed⟩)
    have passes : (!(sortedSet (unacceptedKeys candidates labels)).isEmpty &&
        sameSet (semanticBarriers.flatMap fun entry => entry.2.experimentKeys)
          (sortedSet (unacceptedKeys candidates labels))) = true := by
      rw [Bool.and_eq_true, Bool.not_eq_true', List.isEmpty_eq_false_iff, sameSet_eq_true_iff]
      exact ⟨List.ne_nil_of_mem left, fun key => (cover key).trans mem_sortedSet.symm⟩
    have closed : closedReplan budget digest plan candidates targetByLabel accepted labels
        semanticBarriers ≠ .error uncoveredError := by
      unfold closedReplan
      refine bind_ne_error (by simp [success]) fun sets found => ?_
      obtain rfl := Except.ok.inj (success.symm.trans found)
      refine bind_ne_error (by simp [require, passes]) fun _ _ => ?_
      refine bind_ne_error (foldlM_ne_error collectLabel_ne_error) fun _ _ => ?_
      exact bind_ne_error (require_ne_error (by decide)) fun _ _ => by simp [pure, Except.pure]
    cases result : closedReplan budget digest plan candidates targetByLabel accepted labels
        semanticBarriers with
    | ok payload => simp [Functor.map, Except.map]
    | error other => simpa [Functor.map, Except.map, result] using closed
  · simp

/-! ### The partition -/

/-- The report gate accepts the outcome "realized" on a partition when nothing remains and nothing
else is open. -/
private theorem verifyReportGate_realized_iff {realized remaining keys blockerRefs
    semanticChangeRequired activeTargetRefs pendingSubmissionRefs outcomeUnknownRefs : List String}
    (partition : ∀ key, key ∈ keys ↔ key ∈ realized ∨ key ∈ remaining)
    (disjoint : ∀ key ∈ realized, key ∉ remaining) :
    verifyReportGate "realized" realized remaining keys blockerRefs semanticChangeRequired
      activeTargetRefs pendingSubmissionRefs outcomeUnknownRefs = .ok () ↔
    remaining = [] ∧ blockerRefs = [] ∧ semanticChangeRequired = [] ∧ activeTargetRefs = [] ∧
      pendingSubmissionRefs = [] ∧ outcomeUnknownRefs = [] := by
  have complete : remaining = [] → ∀ key, key ∈ realized ↔ key ∈ keys := by
    rintro rfl key
    simp [partition key]
  have realizedValid : (["realized", "blocked", "replan_required"].contains "realized") = true := by decide
  have notBlocked : ("realized" = "blocked") = False := by decide
  simp only [verifyReportGate, verifyRealized, check_then_eq_ok_iff, require_eq_ok_iff, realizedValid,
    notBlocked, if_false, if_true, decide_false, Bool.or_false, Bool.and_eq_true, List.isEmpty_iff,
    sameSet_eq_true_iff, true_and]
  constructor
  · rintro ⟨⟨⟨active, pending⟩, unknown⟩, blockers, ⟨_, none⟩, changes⟩
    exact ⟨none, blockers, changes, active, pending, unknown⟩
  · rintro ⟨none, blockers, changes, active, pending, unknown⟩
    exact ⟨⟨⟨active, pending⟩, unknown⟩, blockers, ⟨complete none, none⟩, changes⟩

/-- For a completed strategy and any selection of its labels with accepted closures, the result sets
return exactly when every closure is verified and no two share an identity, and they partition the
Plan: what remains are the experiments of the other candidates. The gates agree with that. -/
theorem result_sets_partition (budget : Budget) (digest : String → String) (plan : FormalPlan)
    (candidates : List (String × TargetCandidate)) (labels : List String)
    (accepted : List (String × AcceptedMeasurementClosure)) (keys : (candidates.map Prod.fst).Nodup)
    (covered : verifyCompletionCells budget plan candidates = .ok ())
    (selected : Selected candidates labels accepted) :
    ∃ briefs, briefsByKey budget plan = .ok briefs ∧
      ((∃ sets, resultSets budget digest plan accepted = .ok sets) ↔
        (∀ entry ∈ accepted, entry.1 = entry.2.targetRef ∧
            verifyAcceptedClosure budget digest entry.2 briefs = .ok ()) ∧
          (accepted.map (·.2.targetCommitRef)).Nodup ∧
          (accepted.filterMap (·.2.evaluationAttemptRef)).Nodup ∧
          (accepted.filterMap (·.2.metricResultRef)).Nodup) ∧
      ∀ realized remaining, resultSets budget digest plan accepted = .ok (realized, remaining) →
        (∀ key ∈ realized, key ∉ remaining) ∧
        (∀ key, key ∈ plan.briefs.map ExperimentBrief.experimentKey ↔ key ∈ realized ∨ key ∈ remaining) ∧
        remaining = sortedSet (unacceptedKeys candidates labels) ∧
        (realized = sortedSet (plan.briefs.map ExperimentBrief.experimentKey) ↔
          ∀ entry ∈ candidates, entry.1 ∈ labels) ∧
        (∀ blockerRefs semanticChangeRequired activeTargetRefs pendingSubmissionRefs outcomeUnknownRefs,
          verifyReportGate "realized" realized remaining (briefs.map Prod.fst) blockerRefs
            semanticChangeRequired activeTargetRefs pendingSubmissionRefs outcomeUnknownRefs = .ok () ↔
          (∀ entry ∈ candidates, entry.1 ∈ labels) ∧ blockerRefs = [] ∧ semanticChangeRequired = [] ∧
            activeTargetRefs = [] ∧ pendingSubmissionRefs = [] ∧ outcomeUnknownRefs = []) ∧
        ∀ targetByLabel semanticBarriers strategyComplete requestedTargetRefs blockedTargetRefs
            pendingNoticeRefs, BarriersChecked budget candidates targetByLabel semanticBarriers →
          closedSemanticReplanPayload budget digest plan candidates targetByLabel accepted labels
            semanticBarriers strategyComplete requestedTargetRefs blockedTargetRefs pendingNoticeRefs ≠
              .error "semantic barriers do not exactly cover remaining ExperimentKeys" := by
  obtain ⟨briefs, parsed, planning⟩ := planning_of_verifyCompletionCells covered
  have checked := briefsChecked_of_briefsByKey parsed
  refine ⟨briefs, parsed, ?_, ?_⟩
  · constructor
    · rintro ⟨sets, success⟩
      obtain ⟨other, sameParsed, valid, _⟩ := resultSets_eq_ok_iff.mp success
      obtain rfl := Except.ok.inj (parsed.symm.trans sameParsed)
      exact ⟨valid.verified, valid.targetCommits, valid.evaluationAttempts, valid.metricResults⟩
    · rintro ⟨verified, commits, attempts, results⟩
      exact ⟨_, resultSets_eq_ok_iff.mpr ⟨briefs, parsed,
        ⟨verified, commits, attempts, results, Selected.held planning selected.closures⟩,
        Selected.acceptedCells_nodup planning keys selected, rfl⟩⟩
  · intro realized remaining success
    obtain ⟨_, _, _, _, same⟩ := resultSets_eq_ok_iff.mp success
    have remainingEq : remaining = sortedSet (unacceptedKeys candidates labels) :=
      (congrArg Prod.snd same).trans (Selected.remaining_eq planning keys selected checked.keys)
    have realizedIff : ∀ key, key ∈ realized ↔
        key ∈ plan.briefs.map ExperimentBrief.experimentKey ∧ key ∉ unacceptedKeys candidates labels := by
      obtain rfl := congrArg Prod.fst same
      exact fun key => Selected.mem_realized_iff planning keys selected checked.keys
    have remainingIff : ∀ key, key ∈ remaining ↔ key ∈ unacceptedKeys candidates labels :=
      fun key => remainingEq ▸ mem_sortedSet
    have disjoint : ∀ key ∈ realized, key ∉ remaining := fun key here there =>
      ((realizedIff key).mp here).2 ((remainingIff key).mp there)
    have union : ∀ key, key ∈ plan.briefs.map ExperimentBrief.experimentKey ↔
        key ∈ realized ∨ key ∈ remaining := by
      intro key
      rw [realizedIff, remainingIff]
      constructor
      · intro known
        by_cases left : key ∈ unacceptedKeys candidates labels
        · exact .inr left
        · exact .inl ⟨known, left⟩
      · rintro (here | left)
        · exact here.1
        · exact Selected.unacceptedKeys_known planning left
    have none : (remaining = [] ↔ ∀ entry ∈ candidates, entry.1 ∈ labels) := by
      rw [← Selected.unacceptedKeys_eq_nil_iff planning, List.eq_nil_iff_forall_not_mem]
      exact forall_congr' fun key => not_congr (remainingIff key)
    have briefKeys : briefs.map Prod.fst = plan.briefs.map ExperimentBrief.experimentKey := by
      rw [checked.entries, List.map_map]
      rfl
    refine ⟨disjoint, union, remainingEq, ?_, ?_, ?_⟩
    · obtain rfl : realized = sortedSet _ := congrArg Prod.fst same
      rw [← none, sortedSet_eq_iff, List.eq_nil_iff_forall_not_mem]
      constructor
      · intro all key left
        have known := Selected.unacceptedKeys_known planning ((remainingIff key).mp left)
        exact disjoint key (mem_sortedSet.mpr ((all key).mpr known)) left
      · intro nothing key
        rw [union key]
        simp only [nothing key, or_false]
        exact mem_sortedSet.symm
    · intros
      rw [briefKeys, ← none]
      exact verifyReportGate_realized_iff union disjoint
    · intro targetByLabel semanticBarriers complete requested blocked pending barriers
      obtain rfl := remainingEq
      exact closedSemanticReplanPayload_ne_error success
        (fun entry member => (planning.checked entry member).keys) barriers complete requested blocked
        pending

/-! ### A Plan of two cells -/

def receiptOf (subjectRef : String) : ReceiptProof := ⟨subjectRef ++ "-receipt", subjectRef, true, true, true⟩

/-- A Plan with one experiment that needs two units. -/
def pairedPlan : FormalPlan where
  formalPlanRef := "plan"
  briefs := [⟨"experiment", "delta", ["slot"], ["first", "second"]⟩]
  contentBinding := ⟨"plan", "hash"⟩
  acceptanceReceipt := receiptOf "hash"

def pairedBriefs : List (String × ExperimentBrief) :=
  pairedPlan.briefs.map fun brief => (brief.experimentKey, brief)

/-- The candidate of one unit. -/
def pairedCandidate (unit : String) : TargetCandidate where
  localLabel := unit
  experimentKeys := ["experiment"]
  measurementUnitKeys := [unit]
  heldFixedBindings := [⟨"slot", "revision"⟩]
  implementationRevisionRef := "revision"
  codeChanged := false
  routes := [⟨"route-" ++ unit, []⟩]
  dependsOnLabels := []
  directAcceptedInputAssetRefs := []

def pairedCandidates : List (String × TargetCandidate) :=
  ["first", "second"].map fun unit => (unit, pairedCandidate unit)

/-- The accepted closure of one unit. -/
def pairedClosure (unit : String) : AcceptedMeasurementClosure where
  targetRef := "target-" ++ unit
  targetRunRef := "run"
  targetCommitRef := "commit-" ++ unit
  experimentKeys := ["experiment"]
  measurementUnitKey := unit
  variantRunRef := "variant"
  evaluationRef := "evaluation"
  protocolVersionRef := "protocol"
  evaluationAttemptRef := some ("evaluation-" ++ unit)
  metricResultRef := some ("metric-" ++ unit)
  metricValues := [.integer 1]
  assetManifestRef := "manifest"
  executionAttemptRef := "attempt"
  executionFenceRef := "fence"
  checkpointArtifactRefs := []
  implementationRevisionRef := "revision"
  heldFixedBindings := [⟨"slot", "revision"⟩]
  implementationProvenanceRefs := ["revision"]
  variantRunInputBinding := ⟨"variant-input", "variant", [], receiptOf "variant-input"⟩
  evaluationAttemptInputBinding := some
    ⟨"evaluation-input", "evaluation-" ++ unit, [], receiptOf "evaluation-input"⟩
  rmAssetReceipt := receiptOf "manifest"
  arExecutionReceipt := receiptOf "attempt"
  rgFormalMeasurementReceipt := some (receiptOf ("evaluation-" ++ unit))
  rgTargetCommitReceipt := receiptOf ("commit-" ++ unit)
  codeReview := some ⟨false, "not_applicable(empty_diff)", "revision", none, none, none, none, none, none,
    none, 0, 0⟩
  resultReview := some ⟨"evaluation-" ++ unit, "metric-" ++ unit, "manifest", "review", "root", "reviewer",
    "spawn", 0⟩
  formalMeasurementAccepted := true
  currentnessKnown := true
  current := true

def pairedEntry (unit : String) : String × AcceptedMeasurementClosure :=
  ("target-" ++ unit, pairedClosure unit)

theorem receiptOf_valid {subjectRef name : String} (short : subjectRef.utf8ByteSize ≤ 4000) :
    validateReceipt .standard (receiptOf subjectRef) subjectRef name = .ok () := by
  have size : ("-receipt").utf8ByteSize = 8 := by decide
  have present : Text.isBlank (subjectRef ++ "-receipt") = false := by
    have mark : ("-receipt".toList.all Text.isSpace) = false := by decide
    rw [Text.isBlank, String.toList_append, List.all_append, mark, Bool.and_false]
  have valid : validateReceiptProof .standard (receiptOf subjectRef) subjectRef = .ok () := by
    refine validateReceiptProof_of_short present rfl ⟨rfl, rfl, rfl⟩ ⟨?_, ?_⟩
    · rw [receiptOf, String.utf8ByteSize_append]
      omega
    · exact Nat.le_trans short (by decide)
  rw [validateReceipt, valid]

private theorem pairedClosure_projection : ∀ unit ∈ ["first", "second"],
    validateProjection .standard "AcceptedMeasurementClosure" (pairedClosure unit).value = .ok () := by
  have light (unit : String) (checks : ((pairedClosure unit).value.visit Budget.standard.unrooted
        "AcceptedMeasurementClosure" {} ⟨0, 0⟩).isOk = true ∧
      (pairedClosure unit).value.plainValue?.isSome = true ∧
      (pairedClosure unit).value.weight ≤ 8 * 1024 * 1024) :=
    validateProjection_of_light checks.1 checks.2.1 checks.2.2
  exact List.forall_mem_cons.mpr ⟨light "first" (by decide +kernel),
    List.forall_mem_cons.mpr ⟨light "second" (by decide +kernel), by simp⟩⟩

private theorem pairedClosure_texts : ∀ unit ∈ ["first", "second"],
    verifyMeasurement (pairedClosure unit) = .ok () ∧
      verifyCoverage (pairedClosure unit) pairedBriefs = .ok () ∧
      verifyProvenance (pairedClosure unit) = .ok () ∧
      checkAll (verifyResultReview (pairedClosure unit)) (pairedClosure unit).resultReview.toList = .ok () ∧
      unit.utf8ByteSize ≤ 6 := by
  decide

private theorem pairedClosure_reviews (unit : String) :
    verifyReviews .standard (pairedClosure unit) = .ok () := by
  have empty : verifyCodeReview .standard ⟨false, "not_applicable(empty_diff)", "revision", none, none, none,
      none, none, none, none, 0, 0⟩ "revision" = .ok () := by decide +kernel
  exact empty

private theorem pairedClosure_held (unit : String) :
    verifyHeldFixed .standard (pairedClosure unit) pairedBriefs = .ok () := by
  have bound : bindingMap .standard [⟨"slot", "revision"⟩] = .ok [("slot", "revision")] := by
    decide
  have slots : sameSet ["slot"] (["experiment"].flatMap (slotsOf pairedBriefs)) = true := by decide
  exact bind_eq_ok_iff.mpr ⟨_, bound, require_eq_ok_iff.mpr slots⟩

private theorem pairedClosure_inputs (unit : String) :
    verifyInputBindings .standard (pairedClosure unit) = .ok () := by
  have apart : (("evaluation-input" : String) ≠ "variant-input") ∧
      (receiptOf "evaluation-input").receiptRef ≠ (receiptOf "variant-input").receiptRef := by decide
  simp only [verifyInputBindings, verifyInputBinding, check_then_eq_ok_iff, pairedClosure,
    receiptOf_valid (show ("variant-input").utf8ByteSize ≤ 4000 by decide),
    receiptOf_valid (show ("evaluation-input").utf8ByteSize ≤ 4000 by decide), require_eq_ok_iff]
  simp only [apart, Option.all_some, decide_true, and_true, ne_eq, not_false_eq_true]
  decide

private theorem pairedClosure_receipts {unit : String} (short : unit.utf8ByteSize ≤ 6) :
    verifyOwnerReceipts .standard (pairedClosure unit) = .ok () := by
  have sizes : ("commit-").utf8ByteSize = 7 ∧ ("evaluation-").utf8ByteSize = 11 := by decide
  have commit : ("commit-" ++ unit).utf8ByteSize ≤ 4000 := by
    rw [String.utf8ByteSize_append]
    omega
  have evaluation : ("evaluation-" ++ unit).utf8ByteSize ≤ 4000 := by
    rw [String.utf8ByteSize_append]
    omega
  simp only [verifyOwnerReceipts, check_then_eq_ok_iff]
  exact ⟨receiptOf_valid (by decide), receiptOf_valid (by decide), receiptOf_valid evaluation,
    receiptOf_valid commit⟩

theorem pairedClosure_verified (digest : String → String) : ∀ unit ∈ ["first", "second"],
    verifyAcceptedClosure .standard digest (pairedClosure unit) pairedBriefs = .ok () := by
  intro unit member
  obtain ⟨measurement, coverage, provenance, result, short⟩ := pairedClosure_texts unit member
  simp only [verifyAcceptedClosure, check_then_eq_ok_iff]
  refine ⟨pairedClosure_projection unit member, ?_, measurement, rfl, ?_, coverage, provenance,
    pairedClosure_reviews unit, pairedClosure_held unit, pairedClosure_inputs unit,
    pairedClosure_receipts short, result, rfl⟩
  all_goals
    revert unit
    decide

private theorem validate_pairedBrief :
    validateBrief .standard ⟨"experiment", "delta", ["slot"], ["first", "second"]⟩ = .ok () := by
  have projection : validateClosedBundleProjection .standard "ExperimentBrief"
      (ExperimentBrief.projection ⟨"experiment", "delta", ["slot"], ["first", "second"]⟩) = .ok () :=
    validateClosedBundleProjection_of_light (by decide) (by decide) (by decide)
  simp only [validateBrief, projection]
  decide

theorem pairedPlan_briefs : briefsByKey .standard pairedPlan = .ok pairedBriefs := by
  have projection : validateClosedBundleProjection .standard "FormalPlan" pairedPlan.projection = .ok () :=
    validateClosedBundleProjection_of_light (by decide) (by decide) (by decide)
  have binding : validatePlanBinding .standard pairedPlan = .ok () := by
    have accepted : validateReceipt .standard (receiptOf "hash") "hash" "FormalPlan acceptance receipt" =
        .ok () := receiptOf_valid (by decide)
    simp only [validatePlanBinding, pairedPlan, accepted]
    decide +kernel
  simp only [briefsByKey, projection, binding]
  simp only [pairedPlan, briefsByKeyFrom, validate_pairedBrief]
  decide

private theorem pairedCandidate_verified : ∀ unit ∈ ["first", "second"],
    verifyCandidate .standard (pairedCandidate unit) pairedBriefs = .ok [("slot", "revision")] := by
  intro unit member
  have projection : validateClosedBundleProjection .standard "TargetCandidate"
      (pairedCandidate unit).projection = .ok () := by
    revert unit
    simp only [List.forall_mem_cons, List.not_mem_nil, false_implies, implies_true, and_true]
    exact ⟨validateClosedBundleProjection_of_light (by decide) (by decide) (by decide),
      validateClosedBundleProjection_of_light (by decide) (by decide) (by decide)⟩
  simp only [verifyCandidate, projection, pairedBriefs, pairedPlan, List.map_cons, List.map_nil, checkAll,
    validate_pairedBrief]
  clear projection
  revert unit
  decide +kernel

theorem pairedCandidates_covered :
    verifyCompletionCells .standard pairedPlan pairedCandidates = .ok () := by
  refine bind_eq_ok_iff.mpr ⟨_, pairedPlan_briefs, ?_⟩
  have first := pairedCandidate_verified "first" (by simp)
  have second := pairedCandidate_verified "second" (by simp)
  simp only [pairedCandidates, List.map_cons, List.map_nil, List.foldlM_cons, planCandidate, first, second]
  decide

/-- With one of two candidates accepted, their experiment remains. -/
theorem result_sets_partition_paired :
    ∃ realized, resultSets .standard id pairedPlan [pairedEntry "first"] = .ok (realized, ["experiment"]) ∧
      realized ≠ ["experiment"] := by
  have selected : Selected pairedCandidates ["first"] [pairedEntry "first"] :=
    ⟨by simp, .cons ⟨pairedCandidate "first", by simp [pairedCandidates], rfl, rfl, rfl⟩ .nil⟩
  obtain ⟨briefs, parsed, returns, partition⟩ := result_sets_partition .standard id pairedPlan
    pairedCandidates ["first"] [pairedEntry "first"] (by decide) pairedCandidates_covered selected
  obtain rfl := Except.ok.inj (pairedPlan_briefs.symm.trans parsed)
  obtain ⟨⟨realized, remaining⟩, success⟩ := returns.mpr ⟨by
    simpa [pairedEntry, pairedClosure] using pairedClosure_verified id "first" (by simp),
    by simp, by simp [pairedEntry, pairedClosure], by simp [pairedEntry, pairedClosure]⟩
  obtain ⟨disjoint, _, left, _⟩ := partition realized remaining success
  obtain rfl : remaining = ["experiment"] := left.trans (by decide)
  refine ⟨realized, success, ?_⟩
  rintro rfl
  exact disjoint "experiment" (by simp) (by simp)

end Completion

end MetaResearch.Bundle

import MetaResearch.Model.Bundle.TargetContract

/-! # What the candidate checks accept

One characterization for each check of the target contract: the text checks, a single candidate,
the accumulated candidate set and the cell gate. The runs and the comparison with the other gate
reason from these and never open a check again.
-/

namespace MetaResearch.Bundle

variable {budget : Budget} {briefs : List (String × ExperimentBrief)}

/-! ### Text -/

/-- The text that `_ref` accepts. -/
def IsRef (budget : Budget) (value : String) : Prop :=
  Text.isBlank value = false ∧ exceeds budget.textBytes value.utf8ByteSize = false ∧
    value = Text.strip value ∧
      ∀ char ∈ value.toList, char ≠ Char.ofNat 0 ∧ char ≠ '\r' ∧ char ≠ '\n'

theorem ref_eq_ok_iff {value name : String} {done : Unit} :
    ref budget value name = .ok done ↔ IsRef budget value := by
  simp [ref, text, IsRef, check_then_eq_ok_iff, and_assoc]

/-- A nonempty tuple of distinct references. -/
def IsRefTuple (budget : Budget) (values : List String) (allowEmpty : Bool) : Prop :=
  (∀ value ∈ values, IsRef budget value) ∧ (values ≠ [] ∨ allowEmpty = true) ∧ values.Nodup

theorem canonicalStringTuple_eq_ok_iff {values : List String} {name : String} {allowEmpty : Bool}
    {done : Unit} : canonicalStringTuple budget values name allowEmpty = .ok done ↔
      IsRefTuple budget values allowEmpty := by
  simp [canonicalStringTuple, IsRefTuple, check_then_eq_ok_iff, ref_eq_ok_iff]

theorem sameSet_eq_true_iff {first second : List String} :
    sameSet first second = true ↔ ∀ value, value ∈ first ↔ value ∈ second := by
  simp only [sameSet, Bool.and_eq_true, List.all_eq_true, List.contains_iff_mem]
  exact ⟨fun ⟨forth, back⟩ value => ⟨forth value, back value⟩,
    fun same => ⟨fun value => (same value).mp, fun value => (same value).mpr⟩⟩

/-! ### One candidate -/

private theorem lookup_isNone_iff {entries : List (String × String)} {slot : String} :
    (entries.lookup slot).isNone = true ↔ slot ∉ entries.map Prod.fst := by
  rw [Option.isNone_iff_eq_none, List.lookup_eq_none_iff]
  simp only [List.mem_map, not_exists, not_and, bne_iff_ne]
  exact ⟨fun absent entry member same => absent entry member same.symm,
    fun absent entry member same => absent entry member same.symm⟩

private theorem bindingMapFrom_eq_ok_iff {result entries : List (String × String)}
    {bindings : List HeldFixedBinding} (distinct : (result.map Prod.fst).Nodup) :
    bindingMapFrom budget result bindings = .ok entries ↔
      (∀ binding ∈ bindings, IsRef budget binding.semanticSlot ∧
        IsRef budget binding.implementationRevisionRef) ∧
      ((result ++ bindings.map HeldFixedBinding.entry).map Prod.fst).Nodup ∧
      entries = result ++ bindings.map HeldFixedBinding.entry := by
  induction bindings generalizing result with
  | nil => simp [bindingMapFrom, distinct, eq_comm]
  | cons binding rest ih =>
    simp only [bindingMapFrom, check_then_eq_ok_iff, ref_eq_ok_iff, require_eq_ok_iff,
      lookup_isNone_iff]
    have regroup : result ++ (binding :: rest).map HeldFixedBinding.entry =
        (result ++ [binding.entry]) ++ rest.map HeldFixedBinding.entry := by simp
    rw [regroup]
    constructor
    · rintro ⟨slot, revision, new, success⟩
      have extended : ((result ++ [binding.entry]).map Prod.fst).Nodup := by
        rw [List.map_append, List.map_singleton]
        exact List.nodup_append.mpr ⟨distinct, List.nodup_singleton _, by
          simp only [List.mem_singleton]
          rintro other member _ rfl rfl
          exact new member⟩
      obtain ⟨refs, all, rfl⟩ := (ih extended).mp success
      exact ⟨List.forall_mem_cons.mpr ⟨⟨slot, revision⟩, refs⟩, all, rfl⟩
    · rintro ⟨refs, all, same⟩
      obtain ⟨⟨slot, revision⟩, refs⟩ := List.forall_mem_cons.mp refs
      have extended : ((result ++ [binding.entry]).map Prod.fst).Nodup := by
        rw [List.map_append] at all
        exact (List.nodup_append.mp all).1
      have new : binding.semanticSlot ∉ result.map Prod.fst := by
        rw [List.map_append, List.map_singleton] at extended
        exact fun member => (List.nodup_append.mp extended).2.2 _ member _ List.mem_cons_self rfl
      exact ⟨slot, revision, new, (ih extended).mpr ⟨refs, all, same⟩⟩

theorem bindingMap_eq_ok_iff {bindings : List HeldFixedBinding} {entries : List (String × String)} :
    bindingMap budget bindings = .ok entries ↔
      (∀ binding ∈ bindings, IsRef budget binding.semanticSlot ∧
        IsRef budget binding.implementationRevisionRef) ∧
      (bindings.map HeldFixedBinding.semanticSlot).Nodup ∧
      entries = bindings.map HeldFixedBinding.entry := by
  rw [bindingMap, bindingMapFrom_eq_ok_iff (by simp), List.nil_append, List.map_map]
  rfl

/-- The routes of a candidate are distinct references with distinct external operations. -/
def RoutesValid (budget : Budget) (routes : List RouteSpec) : Prop :=
  routes ≠ [] ∧ (routes.map RouteSpec.routeRef).Nodup ∧
    ∀ route ∈ routes, IsRef budget route.routeRef ∧
      IsRefTuple budget route.knownExternalOperationRefs true

theorem verifyRoutes_eq_ok_iff {routes : List RouteSpec} {done : Unit} :
    verifyRoutes budget routes = .ok done ↔ RoutesValid budget routes := by
  simp [verifyRoutes, RoutesValid, check_then_eq_ok_iff, ref_eq_ok_iff,
    canonicalStringTuple_eq_ok_iff, and_assoc]

/-- A candidate that passes its own checks. -/
structure CandidateValid (budget : Budget) (briefs : List (String × ExperimentBrief))
    (candidate : TargetCandidate) : Prop where
  projection : validateClosedBundleProjection budget "TargetCandidate" candidate.projection = .ok ()
  label : IsRef budget candidate.localLabel
  keys : IsRefTuple budget candidate.experimentKeys false
  known : ∀ key ∈ candidate.experimentKeys, (dictGet briefs key).isSome
  unit : candidate.measurementUnitKeys = [candidate.unit] ∧ IsRef budget candidate.unit
  dependencies : IsRefTuple budget candidate.dependsOnLabels true
  irreflexive : candidate.localLabel ∉ candidate.dependsOnLabels
  required : ∀ key ∈ candidate.experimentKeys, candidate.unit ∈ unitsOf briefs key
  bindings : ∀ binding ∈ candidate.heldFixedBindings, IsRef budget binding.semanticSlot ∧
    IsRef budget binding.implementationRevisionRef
  distinct : (candidate.heldFixedBindings.map HeldFixedBinding.semanticSlot).Nodup
  bound : ∀ slot, slot ∈ candidate.heldFixedBindings.map HeldFixedBinding.semanticSlot ↔
    slot ∈ candidate.experimentKeys.flatMap (slotsOf briefs)
  implementation : IsRef budget candidate.implementationRevisionRef
  routes : RoutesValid budget candidate.routes
  assets : IsRefTuple budget candidate.directAcceptedInputAssetRefs true

theorem verifyCandidate_eq_ok_iff {candidate : TargetCandidate} {entries : List (String × String)} :
    verifyCandidate budget candidate briefs = .ok entries ↔
      CandidateValid budget briefs candidate ∧
        entries = candidate.heldFixedBindings.map HeldFixedBinding.entry := by
  have slots : (candidate.heldFixedBindings.map HeldFixedBinding.entry).map Prod.fst =
      candidate.heldFixedBindings.map HeldFixedBinding.semanticSlot := by
    rw [List.map_map]
    rfl
  have other (units : ∀ unit, candidate.measurementUnitKeys ≠ [unit]) :
      ¬ CandidateValid budget briefs candidate := fun valid => units _ valid.unit.1
  unfold verifyCandidate
  simp only [check_then_eq_ok_iff, ref_eq_ok_iff, canonicalStringTuple_eq_ok_iff, require_eq_ok_iff]
  rcases units : candidate.measurementUnitKeys with _ | ⟨unit, _ | ⟨_, _⟩⟩
  · simp [other (by simp [units])]
  · have same : candidate.unit = unit := by simp [TargetCandidate.unit, units]
    simp only [check_then_eq_ok_iff, bind_eq_ok_iff (α := List (String × String)), ref_eq_ok_iff,
      canonicalStringTuple_eq_ok_iff, require_eq_ok_iff, verifyRoutes_eq_ok_iff, bindingMap_eq_ok_iff,
      List.all_eq_true, List.contains_eq_mem, Bool.not_eq_true', decide_eq_false_iff_not,
      decide_eq_true_eq, sameSet_eq_true_iff]
    constructor
    · rintro ⟨projection, label, keys, known, unitRef, dependencies, irreflexive, required, bindings,
        ⟨refs, distinct, rfl⟩, bound, implementation, routes, assets, done⟩
      rw [slots] at bound
      exact ⟨⟨projection, label, keys, known, ⟨same ▸ units, same ▸ unitRef⟩, dependencies,
        irreflexive, same ▸ required, refs, distinct, bound, implementation, routes, assets⟩,
        (Except.ok.inj done).symm⟩
    · rintro ⟨valid, rfl⟩
      exact ⟨valid.projection, valid.label, valid.keys, valid.known, same ▸ valid.unit.2,
        valid.dependencies, valid.irreflexive, same ▸ valid.required, _,
        ⟨valid.bindings, valid.distinct, rfl⟩, slots ▸ valid.bound, valid.implementation,
        valid.routes, valid.assets, rfl⟩
  · simp [other (by simp [units])]

/-! ### Candidate sets -/

/-- A set of candidates that passes `_verify_candidate_set`, up to the dependencies. -/
structure CandidateSetValid (budget : Budget) (briefs : List (String × ExperimentBrief))
    (candidates : List TargetCandidate) : Prop where
  labels : (candidates.map TargetCandidate.localLabel).Nodup
  valid : ∀ candidate ∈ candidates, CandidateValid budget briefs candidate
  units : (candidates.map TargetCandidate.unit).Nodup
  held : ∀ candidate ∈ candidates, ∀ other ∈ candidates, ∀ key ∈ candidate.experimentKeys,
    key ∈ other.experimentKeys → ∀ slot ∈ slotsOf briefs key,
      candidate.revisionOf slot = other.revisionOf slot

theorem mem_heldSlots {candidate : TargetCandidate} {key slot : String} :
    (key, slot) ∈ candidate.heldSlots briefs ↔
      key ∈ candidate.experimentKeys ∧ slot ∈ slotsOf briefs key := by
  simp [TargetCandidate.heldSlots]

/-- The revision of a slot among the entries. -/
private abbrev revisionIn (entries : List (String × String)) (slot : String) : String :=
  (entries.lookup slot).getD ""

private theorem update_apply {held : String → String → Option String} {key slot other otherSlot : String}
    {revision : Option String} :
    Function.update held key (Function.update (held key) slot revision) other otherSlot =
      if (other, otherSlot) = (key, slot) then revision else held other otherSlot := by
  by_cases sameKey : other = key
  · subst other
    by_cases sameSlot : otherSlot = slot <;> simp [sameSlot]
  · simp [sameKey]

private theorem establish_eq_ok_iff {drift : String} {entries : List (String × String)}
    {held after : String → String → Option String} {key slot : String} :
    establish drift entries held key slot = .ok after ↔
      (∀ revision, held key slot = some revision → revision = revisionIn entries slot) ∧
      after = fun other otherSlot => if (other, otherSlot) = (key, slot) then
        some (revisionIn entries slot) else held other otherSlot := by
  unfold establish
  cases before : held key slot with
  | none =>
    simp only [Except.ok.injEq, reduceCtorEq, false_implies, implies_true, true_and]
    rw [eq_comm]
    refine Eq.congr_right ?_
    funext other otherSlot
    exact update_apply
  | some previous =>
    rw [check_then_eq_ok_iff, require_eq_ok_iff, decide_eq_true_eq]
    simp only [Option.some.injEq, forall_eq', pure, Except.pure, Except.ok.injEq]
    refine and_congr_right fun same => ?_
    rw [eq_comm]
    refine Eq.congr_right ?_
    funext other otherSlot
    split_ifs with here
    · obtain ⟨rfl, rfl⟩ := Prod.mk.inj here
      rw [before, same]
    · rfl

/-- The slots are established when none of them has another revision, and then they all are. -/
theorem foldlM_establish_eq_ok_iff {drift : String} {entries : List (String × String)}
    {pairs : List (String × String)} {held after : String → String → Option String} :
    pairs.foldlM (fun held slot => establish drift entries held slot.1 slot.2) held = .ok after ↔
      (∀ pair ∈ pairs, ∀ revision, held pair.1 pair.2 = some revision →
        revision = revisionIn entries pair.2) ∧
      after = fun key slot =>
        if (key, slot) ∈ pairs then some (revisionIn entries slot) else held key slot := by
  induction pairs generalizing held with
  | nil => simp [pure, Except.pure, eq_comm]
  | cons pair rest ih =>
    rw [List.foldlM_cons, bind_eq_ok_iff, List.forall_mem_cons]
    simp only [establish_eq_ok_iff]
    constructor
    · rintro ⟨middle, ⟨first, rfl⟩, success⟩
      obtain ⟨consistent, rfl⟩ := ih.mp success
      refine ⟨⟨first, fun other member revision found => ?_⟩, ?_⟩
      · by_cases same : other = pair
        · exact same ▸ first revision (same ▸ found)
        · exact consistent other member revision (by rw [if_neg same, found])
      · funext key slot
        by_cases same : (key, slot) = pair
        · subst same
          simp
        · simp [same]
    · rintro ⟨⟨first, consistent⟩, rfl⟩
      refine ⟨_, ⟨first, rfl⟩, ih.mpr ⟨fun other member revision found => ?_, ?_⟩⟩
      · split_ifs at found with same
        · obtain rfl : other = pair := same
          exact (Option.some.inj found).symm
        · exact consistent other member revision found
      · funext key slot
        by_cases same : (key, slot) = pair
        · subst same
          simp
        · simp [same]

/-- What the recorded cover says about the candidates before. -/
structure Cover.Records (briefs : List (String × ExperimentBrief)) (cover : Cover)
    (candidates : List TargetCandidate) : Prop where
  labels : ∀ label, label ∈ cover.labels ↔ label ∈ candidates.map TargetCandidate.localLabel
  units : ∀ unit label, cover.usedUnits unit = some label ↔
    ∃ candidate ∈ candidates, candidate.unit = unit ∧ candidate.localLabel = label
  held : ∀ key slot revision, cover.heldByExperiment key slot = some revision ↔
    ∃ candidate ∈ candidates, (key, slot) ∈ candidate.heldSlots briefs ∧
      candidate.revisionOf slot = revision

theorem Cover.records_empty : Cover.empty.Records briefs [] :=
  ⟨by simp [Cover.empty], by simp [Cover.empty], by simp [Cover.empty]⟩

theorem CandidateSetValid.nil : CandidateSetValid budget briefs [] :=
  ⟨by simp, by simp, by simp, by simp⟩

theorem CandidateSetValid.left {first second : List TargetCandidate}
    (all : CandidateSetValid budget briefs (first ++ second)) :
    CandidateSetValid budget briefs first where
  labels := by
    have labels := all.labels
    rw [List.map_append] at labels
    exact (List.nodup_append.mp labels).1
  valid candidate member := all.valid candidate (List.mem_append_left _ member)
  units := by
    have units := all.units
    rw [List.map_append] at units
    exact (List.nodup_append.mp units).1
  held candidate member other present :=
    all.held candidate (List.mem_append_left _ member) other (List.mem_append_left _ present)

/-- A valid set grows by a valid candidate with a new label, a new unit and no other revision of a
slot that is already held. -/
theorem CandidateSetValid.snoc_iff {candidates : List TargetCandidate} {candidate : TargetCandidate}
    (before : CandidateSetValid budget briefs candidates) :
    CandidateSetValid budget briefs (candidates ++ [candidate]) ↔
      candidate.localLabel ∉ candidates.map TargetCandidate.localLabel ∧
      CandidateValid budget briefs candidate ∧
      candidate.unit ∉ candidates.map TargetCandidate.unit ∧
      ∀ other ∈ candidates, ∀ key ∈ candidate.experimentKeys, key ∈ other.experimentKeys →
        ∀ slot ∈ slotsOf briefs key, other.revisionOf slot = candidate.revisionOf slot := by
  have new_iff {projection : TargetCandidate → String} :
      ((candidates ++ [candidate]).map projection).Nodup ↔
        (candidates.map projection).Nodup ∧ projection candidate ∉ candidates.map projection := by
    rw [List.map_append, List.map_singleton, List.nodup_append]
    simp only [List.nodup_singleton, true_and, List.mem_singleton, forall_eq]
    exact and_congr_right fun _ => ⟨fun apart member => apart _ member rfl,
      fun new other member same => new (same ▸ member)⟩
  have last : candidate ∈ candidates ++ [candidate] := by simp
  constructor
  · intro after
    exact ⟨(new_iff.mp after.labels).2, after.valid candidate last, (new_iff.mp after.units).2,
      fun other member key here there slot held =>
        after.held other (List.mem_append_left _ member) candidate last key there here slot held⟩
  · rintro ⟨label, valid, unit, held⟩
    refine ⟨new_iff.mpr ⟨before.labels, label⟩, ?_, new_iff.mpr ⟨before.units, unit⟩, ?_⟩
    · intro other member
      rcases List.mem_append.mp member with old | new
      · exact before.valid other old
      · exact List.mem_singleton.mp new ▸ valid
    · intro first firstMember second secondMember key here there slot slotHeld
      rcases List.mem_append.mp firstMember with firstOld | firstNew <;>
        rcases List.mem_append.mp secondMember with secondOld | secondNew
      · exact before.held first firstOld second secondOld key here there slot slotHeld
      · obtain rfl := List.mem_singleton.mp secondNew
        exact held first firstOld key there here slot slotHeld
      · obtain rfl := List.mem_singleton.mp firstNew
        exact (held second secondOld key here there slot slotHeld).symm
      · rw [List.mem_singleton.mp firstNew, List.mem_singleton.mp secondNew]

/-- One round of the set check accepts exactly the candidates that keep the set valid. -/
private theorem coverCandidate_eq_ok_iff {cover after : Cover} {candidates : List TargetCandidate}
    {candidate : TargetCandidate} (records : cover.Records briefs candidates)
    (before : CandidateSetValid budget briefs candidates) :
    coverCandidate budget briefs cover candidate = .ok after ↔
      CandidateSetValid budget briefs (candidates ++ [candidate]) ∧
        after = {
          labels := candidate.localLabel :: cover.labels
          usedUnits := Function.update cover.usedUnits candidate.unit (some candidate.localLabel)
          heldByExperiment := fun key slot => if (key, slot) ∈ candidate.heldSlots briefs then
            some (candidate.revisionOf slot) else cover.heldByExperiment key slot } := by
  unfold coverCandidate
  simp only [check_then_eq_ok_iff, bind_eq_ok_iff (α := List (String × String)),
    bind_eq_ok_iff (α := String → String → Option String), require_eq_ok_iff,
    verifyCandidate_eq_ok_iff, foldlM_establish_eq_ok_iff, pure, Except.pure, Except.ok.injEq]
  rw [before.snoc_iff]
  have fresh : (!cover.labels.contains candidate.localLabel) = true ↔
      candidate.localLabel ∉ candidates.map TargetCandidate.localLabel := by
    simp [records.labels]
  have unused (label : candidate.localLabel ∉ candidates.map TargetCandidate.localLabel) :
      (cover.usedUnits candidate.unit).all (· = candidate.localLabel) = true ↔
        candidate.unit ∉ candidates.map TargetCandidate.unit := by
    simp only [Option.all_eq_true, decide_eq_true_eq, List.mem_map, not_exists, not_and]
    constructor
    · intro own other member same
      have used := (records.units _ _).mpr ⟨other, member, same, rfl⟩
      exact label (List.mem_map.mpr ⟨other, member, own _ used⟩)
    · intro new user used
      obtain ⟨other, member, same, _⟩ := (records.units _ _).mp used
      exact (new other member same).elim
  have agreeing : (∀ pair ∈ candidate.heldSlots briefs, ∀ revision,
        cover.heldByExperiment pair.1 pair.2 = some revision →
          revision = candidate.revisionOf pair.2) ↔
      ∀ other ∈ candidates, ∀ key ∈ candidate.experimentKeys, key ∈ other.experimentKeys →
        ∀ slot ∈ slotsOf briefs key, other.revisionOf slot = candidate.revisionOf slot := by
    constructor
    · intro consistent other member key here there slot held
      exact consistent (key, slot) (mem_heldSlots.mpr ⟨here, held⟩) _
        ((records.held _ _ _).mpr ⟨other, member, mem_heldSlots.mpr ⟨there, held⟩, rfl⟩)
    · rintro consistent ⟨key, slot⟩ here revision established
      obtain ⟨other, member, there, rfl⟩ := (records.held _ _ _).mp established
      exact consistent other member key (mem_heldSlots.mp here).1 (mem_heldSlots.mp there).1 slot
        (mem_heldSlots.mp here).2
  constructor
  · rintro ⟨label, entries, ⟨valid, rfl⟩, unit, held, ⟨consistent, rfl⟩, rfl⟩
    exact ⟨⟨fresh.mp label, valid, (unused (fresh.mp label)).mp unit, agreeing.mp consistent⟩, rfl⟩
  · rintro ⟨⟨label, valid, unit, consistent⟩, rfl⟩
    exact ⟨fresh.mpr label, _, ⟨valid, rfl⟩, (unused label).mpr unit, _,
      ⟨agreeing.mpr consistent, rfl⟩, rfl⟩

private theorem records_coverCandidate {cover : Cover} {candidates : List TargetCandidate}
    {candidate : TargetCandidate} (records : cover.Records briefs candidates)
    (grown : CandidateSetValid budget briefs (candidates ++ [candidate])) :
    Cover.Records briefs {
      labels := candidate.localLabel :: cover.labels
      usedUnits := Function.update cover.usedUnits candidate.unit (some candidate.localLabel)
      heldByExperiment := fun key slot => if (key, slot) ∈ candidate.heldSlots briefs then
        some (candidate.revisionOf slot) else cover.heldByExperiment key slot }
      (candidates ++ [candidate]) := by
  obtain ⟨_, _, unit, agree⟩ := grown.left.snoc_iff.mp grown
  constructor
  · intro label
    simp [records.labels, or_comm]
  · intro other label
    by_cases same : other = candidate.unit
    · subst same
      simp only [Function.update_self, Option.some.injEq, List.mem_append, List.mem_singleton]
      constructor
      · rintro rfl
        exact ⟨candidate, .inr rfl, rfl, rfl⟩
      · rintro ⟨user, old | rfl, used, rfl⟩
        · exact (unit (List.mem_map.mpr ⟨user, old, used⟩)).elim
        · rfl
    · simp only [Function.update_of_ne same, records.units, List.mem_append, List.mem_singleton]
      constructor
      · rintro ⟨user, old, used, rfl⟩
        exact ⟨user, .inl old, used, rfl⟩
      · rintro ⟨user, old | rfl, used, rfl⟩
        · exact ⟨user, old, used, rfl⟩
        · exact (same used.symm).elim
  · intro key slot revision
    dsimp only
    split_ifs with here
    · rw [Option.some.injEq]
      constructor
      · rintro rfl
        exact ⟨candidate, by simp, here, rfl⟩
      · rintro ⟨other, member, there, rfl⟩
        rcases List.mem_append.mp member with old | new
        · exact (agree other old key (mem_heldSlots.mp here).1 (mem_heldSlots.mp there).1 slot
            (mem_heldSlots.mp here).2).symm
        · rw [List.mem_singleton.mp new]
    · simp only [records.held, List.mem_append, List.mem_singleton]
      constructor
      · rintro ⟨other, old, there, rfl⟩
        exact ⟨other, .inl old, there, rfl⟩
      · rintro ⟨other, old | rfl, there, rfl⟩
        · exact ⟨other, old, there, rfl⟩
        · exact (here there).elim

/-- The loop of the set check accepts exactly the valid sets. -/
theorem foldlM_coverCandidate_iff {cover : Cover} {first rest : List TargetCandidate}
    (records : cover.Records briefs first) (before : CandidateSetValid budget briefs first) :
    (∃ after, rest.foldlM (coverCandidate budget briefs) cover = .ok after) ↔
      CandidateSetValid budget briefs (first ++ rest) := by
  induction rest generalizing cover first with
  | nil => simpa [pure, Except.pure] using before
  | cons candidate rest ih =>
    have regroup : first ++ candidate :: rest = (first ++ [candidate]) ++ rest := by simp
    rw [regroup]
    simp only [List.foldlM_cons, bind_eq_ok_iff, coverCandidate_eq_ok_iff records before]
    constructor
    · rintro ⟨after, middle, ⟨grown, rfl⟩, success⟩
      exact (ih (records_coverCandidate records grown) grown).mp ⟨after, success⟩
    · intro all
      obtain ⟨after, success⟩ := (ih (records_coverCandidate records all.left) all.left).mpr all
      exact ⟨after, _, ⟨all.left, rfl⟩, success⟩

/-! ### Dependencies -/

/-- Dependencies are labels of the set, of smaller rank. -/
def DependenciesRanked (candidates : List TargetCandidate) : Prop :=
  ∃ rank, Ranked TargetCandidate.localLabel TargetCandidate.dependsOnLabels candidates rank

theorem verifyAcyclic_eq_ok_iff {candidates : List TargetCandidate} {done : Unit}
    (labels : (candidates.map TargetCandidate.localLabel).Nodup) :
    verifyAcyclic candidates = .ok done ↔ DependenciesRanked candidates := by
  have complete : sameSet (reachableLabels candidates) (candidates.map TargetCandidate.localLabel) =
      true ↔ DependenciesRanked candidates := by
    rw [sameSet_eq_true_iff, DependenciesRanked, ← reachable_complete_iff labels]
    constructor
    · exact fun same candidate member => (same _).mpr (List.mem_map_of_mem member)
    · refine fun all label => ⟨mem_of_mem_reachable labels, fun member => ?_⟩
      obtain ⟨candidate, present, rfl⟩ := List.mem_map.mp member
      exact all candidate present
  unfold verifyAcyclic
  rw [check_then_eq_ok_iff, require_eq_ok_iff, require_eq_ok_iff, complete]
  refine and_iff_right_of_imp fun ⟨rank, ranked⟩ => ?_
  simp only [List.all_eq_true, List.contains_iff_mem]
  exact fun candidate member label need => (ranked candidate member label need).1

theorem verifyCandidateSet_eq_ok_iff {contract : NormalizedCompletionContract}
    {candidates : List FormalTargetCandidate} {done : Unit} :
    verifyCandidateSet budget candidates contract = .ok done ↔
      CandidateSetValid budget contract.briefs (candidates.map FormalTargetCandidate.candidate) ∧
        DependenciesRanked (candidates.map FormalTargetCandidate.candidate) := by
  unfold verifyCandidateSet
  rw [bind_eq_ok_iff]
  constructor
  · rintro ⟨cover, success, acyclic⟩
    have valid := (foldlM_coverCandidate_iff Cover.records_empty CandidateSetValid.nil).mp
      ⟨cover, success⟩
    rw [List.nil_append] at valid
    exact ⟨valid, (verifyAcyclic_eq_ok_iff valid.labels).mp acyclic⟩
  · rintro ⟨valid, ranked⟩
    obtain ⟨cover, success⟩ := (foldlM_coverCandidate_iff Cover.records_empty CandidateSetValid.nil).mpr
      (by rwa [List.nil_append])
    exact ⟨cover, success, (verifyAcyclic_eq_ok_iff valid.labels).mpr ranked⟩

/-! ### Cells -/

/-- The cells covered by a list of candidates. -/
def coveredCells (candidates : List TargetCandidate) : List (String × String) :=
  candidates.flatMap TargetCandidate.cells

theorem mem_of_dictGet {α : Type} {entries : List (String × α)} {key : String} {value : α}
    (found : dictGet entries key = some value) : (key, value) ∈ entries := by
  obtain ⟨front, back, same, _⟩ := List.lookup_eq_some_iff.mp found
  rw [← List.mem_reverse, same]
  simp

/-- A dictionary of distinct keys finds each of its entries. -/
theorem dictGet_of_mem {α : Type} {entries : List (String × α)}
    (distinct : (entries.map Prod.fst).Nodup) {key : String} {value : α}
    (member : (key, value) ∈ entries) : dictGet entries key = some value := by
  have reversed : (entries.reverse.map Prod.fst).Nodup := by
    rw [List.map_reverse]
    exact List.nodup_reverse.mpr distinct
  obtain ⟨front, back, split⟩ := List.append_of_mem (List.mem_reverse.mpr member)
  refine List.lookup_eq_some_iff.mpr ⟨front, back, split, fun entry earlier => ?_⟩
  rw [split, List.map_append, List.map_cons, List.nodup_append] at reversed
  have apart := reversed.2.2 entry.1 (List.mem_map_of_mem earlier) key List.mem_cons_self
  simpa using Ne.symm apart

/-- A required unit of a key belongs to an experiment of that key. -/
theorem mem_unitsOf_briefs {contract : NormalizedCompletionContract} {key unit : String}
    (required : unit ∈ unitsOf contract.briefs key) :
    ∃ item ∈ contract.experiments, item.brief.experimentKey = key ∧
      unit ∈ item.brief.requiredMeasurementUnitKeys := by
  unfold unitsOf at required
  cases found : dictGet contract.briefs key with
  | none => simp [found] at required
  | some brief =>
    obtain ⟨item, present, same⟩ := List.mem_map.mp (mem_of_dictGet found)
    obtain ⟨rfl, rfl⟩ := Prod.mk.inj same
    exact ⟨item, present, rfl, by simpa [found] using required⟩

/-- A valid candidate claims its unit for experiments that require it. -/
theorem CandidateValid.requires {contract : NormalizedCompletionContract} {candidate : TargetCandidate}
    (valid : CandidateValid budget contract.briefs candidate) {cell : String × String}
    (member : cell ∈ candidate.cells) : cell ∈ contract.cells := by
  obtain ⟨key, claimed, rfl⟩ := List.mem_map.mp member
  obtain ⟨item, present, rfl, unit⟩ := mem_unitsOf_briefs (valid.required key claimed)
  exact List.mem_flatMap.mpr ⟨item, present, List.mem_map.mpr ⟨_, unit, rfl⟩⟩

/-- A set of valid candidates covers no cell twice. -/
theorem CandidateSetValid.coveredCells_nodup {candidates : List TargetCandidate}
    (set : CandidateSetValid budget briefs candidates) : (coveredCells candidates).Nodup := by
  rw [coveredCells, List.nodup_flatMap]
  constructor
  · intro candidate member
    exact (set.valid candidate member).keys.2.2.map fun _ _ same => congrArg Prod.fst same
  · refine (List.pairwise_map.mp set.units).imp fun {first second} apart cell here there => ?_
    obtain ⟨_, _, rfl⟩ := List.mem_map.mp here
    obtain ⟨_, _, same⟩ := List.mem_map.mp there
    exact apart (congrArg Prod.snd same).symm

/-- The cell gate: the candidates cover exactly the required cells, each once. -/
theorem verifyCompletionCells_eq_ok_iff {contract : NormalizedCompletionContract}
    {candidates : List FormalTargetCandidate} {done : Unit} :
    verifyCompletionCells budget candidates contract = .ok done ↔
      verifyCandidateSet budget candidates contract = .ok () ∧
        (coveredCells (candidates.map FormalTargetCandidate.candidate)).Nodup ∧
          ∀ cell, cell ∈ coveredCells (candidates.map FormalTargetCandidate.candidate) ↔
            cell ∈ contract.cells := by
  have same : (candidates.flatMap fun formal => formal.candidate.cells) =
      coveredCells (candidates.map FormalTargetCandidate.candidate) := by
    simp [coveredCells, List.flatMap_map]
  unfold verifyCompletionCells
  rw [check_then_eq_ok_iff, same, require_eq_ok_iff]
  refine and_congr_right fun _ => ?_
  simp only [Bool.and_eq_true, List.all_eq_true, List.contains_iff_mem, decide_eq_true_eq]
  constructor
  · rintro ⟨⟨covered, required⟩, once⟩
    refine ⟨List.nodup_iff_count_le_one.mpr fun cell => ?_, fun cell => ⟨covered cell, required cell⟩⟩
    by_cases member : cell ∈ coveredCells (candidates.map FormalTargetCandidate.candidate)
    · exact Nat.le_of_eq (once cell (covered cell member))
    · simp [List.count_eq_zero_of_not_mem member]
  · rintro ⟨distinct, exact⟩
    exact ⟨⟨fun cell => (exact cell).mp, fun cell => (exact cell).mpr⟩,
      fun cell member => List.count_eq_one_of_mem distinct ((exact cell).mpr member)⟩

end MetaResearch.Bundle

import MetaResearch.Model.Bundle.Report
import MetaResearch.Soundness.Bundle.Candidates

/-! # What the result sets accept

The loop over the accepted closures accepts exactly the valid sets of closures, and what it records
depends on the closures alone.
-/

namespace MetaResearch.Bundle

/-- The revision that a closure binds to a slot. -/
def AcceptedMeasurementClosure.revisionOf (closure : AcceptedMeasurementClosure) (slot : String) : String :=
  ((closure.heldFixedBindings.map HeldFixedBinding.entry).lookup slot).getD ""

/-- The slots that a closure holds fixed, with their experiments. -/
def AcceptedMeasurementClosure.heldSlots (closure : AcceptedMeasurementClosure)
    (briefs : List (String × ExperimentBrief)) : List (String × String) :=
  closure.experimentKeys.flatMap fun key => (slotsOf briefs key).map (key, ·)

theorem AcceptedMeasurementClosure.mem_heldSlots {closure : AcceptedMeasurementClosure}
    {briefs : List (String × ExperimentBrief)} {key slot : String} :
    (key, slot) ∈ closure.heldSlots briefs ↔
      key ∈ closure.experimentKeys ∧ slot ∈ slotsOf briefs key := by
  simp [AcceptedMeasurementClosure.heldSlots]

namespace Completion

variable {budget : Budget} {digest : String → String} {briefs : List (String × ExperimentBrief)}
  {plan : FormalPlan}

/-! ### Bindings -/

private theorem entries_of_bindingMapFrom {result entries : List (String × String)}
    {bindings : List HeldFixedBinding}
    (success : bindingMapFrom budget result bindings = .ok entries) :
    entries = result ++ bindings.map HeldFixedBinding.entry := by
  induction bindings generalizing result with
  | nil => simpa [bindingMapFrom, eq_comm] using success
  | cons binding rest ih =>
    simp only [bindingMapFrom, check_then_eq_ok_iff] at success
    obtain ⟨_, _, _, _, others⟩ := success
    rw [ih others]
    simp

/-- An accepted list of bindings is read entry by entry. -/
theorem entries_of_bindingMap {entries : List (String × String)} {bindings : List HeldFixedBinding}
    (success : bindingMap budget bindings = .ok entries) :
    entries = bindings.map HeldFixedBinding.entry := by
  simpa using entries_of_bindingMapFrom success

private theorem foldlM_pairs_eq {keys : List String} {slots : String → List String}
    {entries : List (String × String)} {drift : String} {held : String → String → Option String} :
    keys.foldlM (fun held key => (slots key).foldlM (fun held slot =>
      establish drift entries held key slot) held) held =
    (keys.flatMap fun key => (slots key).map (key, ·)).foldlM (fun held slot =>
      establish drift entries held slot.1 slot.2) held := by
  induction keys generalizing held with
  | nil => rfl
  | cons key rest ih =>
    rw [List.foldlM_cons, List.flatMap_cons, List.foldlM_append, List.foldlM_map]
    exact bind_congr fun _ => ih

/-! ### Sets of closures -/

/-- A set of closures that passes the loop. -/
structure ClosuresValid (budget : Budget) (digest : String → String)
    (briefs : List (String × ExperimentBrief))
    (accepted : List (String × AcceptedMeasurementClosure)) : Prop where
  verified : ∀ entry ∈ accepted, entry.1 = entry.2.targetRef ∧
    verifyAcceptedClosure budget digest entry.2 briefs = .ok ()
  targetCommits : (accepted.map (·.2.targetCommitRef)).Nodup
  evaluationAttempts : (accepted.filterMap (·.2.evaluationAttemptRef)).Nodup
  metricResults : (accepted.filterMap (·.2.metricResultRef)).Nodup
  held : ∀ entry ∈ accepted, ∀ other ∈ accepted, ∀ key ∈ entry.2.experimentKeys,
    key ∈ other.2.experimentKeys → ∀ slot ∈ slotsOf briefs key,
      entry.2.revisionOf slot = other.2.revisionOf slot

theorem ClosuresValid.nil : ClosuresValid budget digest briefs [] :=
  ⟨by simp, by simp, by simp, by simp, by simp⟩

/-- The order of the closures does not matter. -/
theorem ClosuresValid.perm {first second : List (String × AcceptedMeasurementClosure)}
    (permuted : first.Perm second) (valid : ClosuresValid budget digest briefs first) :
    ClosuresValid budget digest briefs second where
  verified entry member := valid.verified entry (permuted.mem_iff.mpr member)
  targetCommits := (permuted.map _).nodup_iff.mp valid.targetCommits
  evaluationAttempts := (permuted.filterMap _).nodup_iff.mp valid.evaluationAttempts
  metricResults := (permuted.filterMap _).nodup_iff.mp valid.metricResults
  held entry member other present :=
    valid.held entry (permuted.mem_iff.mpr member) other (permuted.mem_iff.mpr present)

theorem ClosuresValid.left {first second : List (String × AcceptedMeasurementClosure)}
    (all : ClosuresValid budget digest briefs (first ++ second)) :
    ClosuresValid budget digest briefs first where
  verified entry member := all.verified entry (List.mem_append_left _ member)
  targetCommits := by
    have distinct := all.targetCommits
    rw [List.map_append] at distinct
    exact (List.nodup_append.mp distinct).1
  evaluationAttempts := by
    have distinct := all.evaluationAttempts
    rw [List.filterMap_append] at distinct
    exact (List.nodup_append.mp distinct).1
  metricResults := by
    have distinct := all.metricResults
    rw [List.filterMap_append] at distinct
    exact (List.nodup_append.mp distinct).1
  held entry member other present :=
    all.held entry (List.mem_append_left _ member) other (List.mem_append_left _ present)

private theorem nodup_filterMap_snoc {α : Type} {items : List α} {item : α}
    {projection : α → Option String} : ((items ++ [item]).filterMap projection).Nodup ↔
      (items.filterMap projection).Nodup ∧
        ∀ value, projection item = some value → value ∉ items.filterMap projection := by
  rw [List.filterMap_append]
  cases found : projection item with
  | none => simp [found]
  | some value =>
    simp only [List.filterMap_cons, found, List.filterMap_nil, List.nodup_append,
      List.nodup_singleton, true_and, List.mem_singleton, forall_eq, Option.some.injEq]
    exact and_congr_right fun _ => ⟨fun apart other same member => apart _ member same.symm,
      fun new other member same => new value rfl (same ▸ member)⟩

/-- A valid set grows by a verified closure of new identities that agrees on every slot held. -/
theorem ClosuresValid.snoc_iff {accepted : List (String × AcceptedMeasurementClosure)}
    {entry : String × AcceptedMeasurementClosure}
    (before : ClosuresValid budget digest briefs accepted) :
    ClosuresValid budget digest briefs (accepted ++ [entry]) ↔
      (entry.1 = entry.2.targetRef ∧ verifyAcceptedClosure budget digest entry.2 briefs = .ok ()) ∧
      entry.2.targetCommitRef ∉ accepted.map (·.2.targetCommitRef) ∧
      (∀ value, entry.2.evaluationAttemptRef = some value →
        value ∉ accepted.filterMap (·.2.evaluationAttemptRef)) ∧
      (∀ value, entry.2.metricResultRef = some value →
        value ∉ accepted.filterMap (·.2.metricResultRef)) ∧
      ∀ other ∈ accepted, ∀ key ∈ entry.2.experimentKeys, key ∈ other.2.experimentKeys →
        ∀ slot ∈ slotsOf briefs key, other.2.revisionOf slot = entry.2.revisionOf slot := by
  have commits : ((accepted ++ [entry]).map (·.2.targetCommitRef)).Nodup ↔
      entry.2.targetCommitRef ∉ accepted.map (·.2.targetCommitRef) := by
    rw [List.map_append, List.map_singleton, List.nodup_append]
    simp only [before.targetCommits, List.nodup_singleton, true_and, List.mem_singleton, forall_eq]
    exact ⟨fun apart member => apart _ member rfl, fun new other member same => new (same ▸ member)⟩
  have last : entry ∈ accepted ++ [entry] := by simp
  constructor
  · intro after
    exact ⟨after.verified entry last, commits.mp after.targetCommits,
      (nodup_filterMap_snoc.mp after.evaluationAttempts).2,
      (nodup_filterMap_snoc.mp after.metricResults).2,
      fun other member key here there slot held =>
        after.held other (List.mem_append_left _ member) entry last key there here slot held⟩
  · rintro ⟨verified, commit, attempt, result, held⟩
    refine ⟨?_, commits.mpr commit, nodup_filterMap_snoc.mpr ⟨before.evaluationAttempts, attempt⟩,
      nodup_filterMap_snoc.mpr ⟨before.metricResults, result⟩, ?_⟩
    · intro other member
      rcases List.mem_append.mp member with old | new
      · exact before.verified other old
      · exact List.mem_singleton.mp new ▸ verified
    · intro first firstMember second secondMember key here there slot slotHeld
      rcases List.mem_append.mp firstMember with firstOld | firstNew <;>
        rcases List.mem_append.mp secondMember with secondOld | secondNew
      · exact before.held first firstOld second secondOld key here there slot slotHeld
      · obtain rfl := List.mem_singleton.mp secondNew
        exact held first firstOld key there here slot slotHeld
      · obtain rfl := List.mem_singleton.mp firstNew
        exact (held second secondOld key here there slot slotHeld).symm
      · rw [List.mem_singleton.mp firstNew, List.mem_singleton.mp secondNew]

/-! ### The loop -/

/-- The revision established for a slot of an experiment: that of the last closure which holds it. -/
def heldOf (briefs : List (String × ExperimentBrief))
    (accepted : List (String × AcceptedMeasurementClosure)) (key slot : String) : Option String :=
  (accepted.reverse.find? fun entry => (key, slot) ∈ entry.2.heldSlots briefs).map
    (·.2.revisionOf slot)

/-- What the loop has recorded after a valid set. -/
def recordedOf (briefs : List (String × ExperimentBrief))
    (accepted : List (String × AcceptedMeasurementClosure)) : Accepted where
  cells := accepted.flatMap (cellsOf ·.2)
  targetCommits := (accepted.map (·.2.targetCommitRef)).reverse
  evaluationAttempts := (accepted.filterMap (·.2.evaluationAttemptRef)).reverse
  metricResults := (accepted.filterMap (·.2.metricResultRef)).reverse
  heldByExperiment := heldOf briefs accepted

theorem recordedOf_nil : recordedOf briefs [] = Accepted.empty := rfl

theorem recordedOf_snoc {accepted : List (String × AcceptedMeasurementClosure)}
    {entry : String × AcceptedMeasurementClosure} :
    recordedOf briefs (accepted ++ [entry]) = {
      cells := (recordedOf briefs accepted).cells ++ cellsOf entry.2
      targetCommits := entry.2.targetCommitRef :: (recordedOf briefs accepted).targetCommits
      evaluationAttempts := entry.2.evaluationAttemptRef.toList ++
        (recordedOf briefs accepted).evaluationAttempts
      metricResults := entry.2.metricResultRef.toList ++ (recordedOf briefs accepted).metricResults
      heldByExperiment := fun key slot => if (key, slot) ∈ entry.2.heldSlots briefs then
        some (entry.2.revisionOf slot) else (recordedOf briefs accepted).heldByExperiment key slot } := by
  have one (projection : String × AcceptedMeasurementClosure → Option String) :
      ((accepted ++ [entry]).filterMap projection).reverse =
        (projection entry).toList ++ (accepted.filterMap projection).reverse := by
    cases found : projection entry <;> simp [found]
  have held : heldOf briefs (accepted ++ [entry]) = fun key slot =>
      if (key, slot) ∈ entry.2.heldSlots briefs then some (entry.2.revisionOf slot)
      else heldOf briefs accepted key slot := by
    funext key slot
    rw [heldOf, List.reverse_append, List.reverse_singleton, List.singleton_append, List.find?_cons]
    by_cases here : (key, slot) ∈ entry.2.heldSlots briefs <;> simp [here, heldOf]
  simp only [recordedOf, one, held, List.flatMap_append, List.flatMap_singleton, List.map_append,
    List.map_singleton, List.reverse_append, List.reverse_singleton, List.singleton_append]

theorem heldOf_eq_some_iff {accepted : List (String × AcceptedMeasurementClosure)}
    (valid : ClosuresValid budget digest briefs accepted) {key slot revision : String} :
    heldOf briefs accepted key slot = some revision ↔ ∃ entry ∈ accepted,
      (key, slot) ∈ entry.2.heldSlots briefs ∧ entry.2.revisionOf slot = revision := by
  constructor
  · intro established
    obtain ⟨entry, found, same⟩ := Option.map_eq_some_iff.mp established
    exact ⟨entry, List.mem_reverse.mp (List.mem_of_find?_eq_some found),
      by simpa using List.find?_some found, same⟩
  · rintro ⟨entry, member, here, rfl⟩
    cases found : accepted.reverse.find? fun entry => (key, slot) ∈ entry.2.heldSlots briefs with
    | none =>
      have absent := List.find?_eq_none.mp found entry (List.mem_reverse.mpr member)
      exact (absent (by simpa using here)).elim
    | some other =>
      have present := List.mem_reverse.mp (List.mem_of_find?_eq_some found)
      have there : (key, slot) ∈ other.2.heldSlots briefs := by simpa using List.find?_some found
      rw [heldOf, found, Option.map_some, Option.some.injEq]
      have hereSlot := AcceptedMeasurementClosure.mem_heldSlots.mp here
      exact valid.held other present entry member key
        (AcceptedMeasurementClosure.mem_heldSlots.mp there).1 hereSlot.1 slot hereSlot.2

private theorem selectIdentity_eq_ok_iff {name : String} {value : Option String}
    {selected after : List String} : selectIdentity name value selected = .ok after ↔
      (∀ identity, value = some identity → identity ∉ selected) ∧ after = value.toList ++ selected := by
  cases value with
  | none => simp [selectIdentity, eq_comm]
  | some identity =>
    simp only [selectIdentity, check_then_eq_ok_iff, require_eq_ok_iff, pure, Except.pure,
      Except.ok.injEq, Option.some.injEq, forall_eq', Option.toList_some, List.singleton_append,
      Bool.not_eq_true', List.contains_eq_mem, decide_eq_false_iff_not]
    exact and_congr_right fun _ => eq_comm

private theorem bindings_of_verified {closure : AcceptedMeasurementClosure}
    (verified : verifyAcceptedClosure budget digest closure briefs = .ok ()) :
    bindingMap budget closure.heldFixedBindings =
      .ok (closure.heldFixedBindings.map HeldFixedBinding.entry) := by
  simp only [verifyAcceptedClosure, check_then_eq_ok_iff] at verified
  obtain ⟨_, _, _, _, _, _, _, _, held, _⟩ := verified
  rw [verifyHeldFixed, bind_eq_ok_iff] at held
  obtain ⟨entries, bound, _⟩ := held
  rw [bound, entries_of_bindingMap bound]

private theorem foldlM_establishSlots_eq_ok_iff {closure : AcceptedMeasurementClosure}
    (bound : bindingMap budget closure.heldFixedBindings =
      .ok (closure.heldFixedBindings.map HeldFixedBinding.entry))
    {held after : String → String → Option String} :
    closure.experimentKeys.foldlM (establishSlots budget briefs closure) held = .ok after ↔
      (∀ pair ∈ closure.heldSlots briefs, ∀ revision, held pair.1 pair.2 = some revision →
        revision = closure.revisionOf pair.2) ∧
      after = fun key slot => if (key, slot) ∈ closure.heldSlots briefs then
        some (closure.revisionOf slot) else held key slot := by
  have rounds : establishSlots budget briefs closure = fun held key =>
      (slotsOf briefs key).foldlM (fun held slot =>
        establish "accepted closures drifted a held-fixed semantic slot"
          (closure.heldFixedBindings.map HeldFixedBinding.entry) held key slot) held := by
    funext held key
    rw [establishSlots, bound]
    rfl
  rw [rounds, foldlM_pairs_eq]
  exact foldlM_establish_eq_ok_iff

/-- One round accepts exactly the closures that keep the set valid. -/
theorem acceptClosure_eq_ok_iff {accepted : List (String × AcceptedMeasurementClosure)}
    {entry : String × AcceptedMeasurementClosure} {after : Accepted}
    (before : ClosuresValid budget digest briefs accepted) :
    acceptClosure budget digest briefs (recordedOf briefs accepted) entry = .ok after ↔
      ClosuresValid budget digest briefs (accepted ++ [entry]) ∧
        after = recordedOf briefs (accepted ++ [entry]) := by
  rw [before.snoc_iff, recordedOf_snoc]
  have agreeing : (∀ pair ∈ entry.2.heldSlots briefs, ∀ revision,
        (recordedOf briefs accepted).heldByExperiment pair.1 pair.2 = some revision →
          revision = entry.2.revisionOf pair.2) ↔
      ∀ other ∈ accepted, ∀ key ∈ entry.2.experimentKeys, key ∈ other.2.experimentKeys →
        ∀ slot ∈ slotsOf briefs key, other.2.revisionOf slot = entry.2.revisionOf slot := by
    constructor
    · intro consistent other member key here there slot held
      exact consistent (key, slot) (AcceptedMeasurementClosure.mem_heldSlots.mpr ⟨here, held⟩) _
        ((heldOf_eq_some_iff before).mpr
          ⟨other, member, AcceptedMeasurementClosure.mem_heldSlots.mpr ⟨there, held⟩, rfl⟩)
    · rintro consistent ⟨key, slot⟩ here revision established
      obtain ⟨other, member, there, rfl⟩ := (heldOf_eq_some_iff before).mp established
      have hereSlot := AcceptedMeasurementClosure.mem_heldSlots.mp here
      exact consistent other member key hereSlot.1 (AcceptedMeasurementClosure.mem_heldSlots.mp there).1
        slot hereSlot.2
  simp only [acceptClosure, check_then_eq_ok_iff, require_eq_ok_iff, decide_eq_true_eq,
    bind_eq_ok_iff (α := List String), bind_eq_ok_iff (α := String → String → Option String),
    selectIdentity_eq_ok_iff, pure, Except.pure, Except.ok.injEq]
  constructor
  · rintro ⟨named, verified, commits, ⟨commit, rfl⟩, attempts, ⟨attempt, rfl⟩, results, ⟨result, rfl⟩,
      held, established, rfl⟩
    obtain ⟨consistent, rfl⟩ :=
      (foldlM_establishSlots_eq_ok_iff (bindings_of_verified verified)).mp established
    exact ⟨⟨⟨named, verified⟩, by simpa [recordedOf] using commit _ rfl,
      by simpa [recordedOf] using attempt, by simpa [recordedOf] using result,
      agreeing.mp consistent⟩, rfl⟩
  · rintro ⟨⟨⟨named, verified⟩, commit, attempt, result, consistent⟩, rfl⟩
    exact ⟨named, verified, _, ⟨by simpa [recordedOf] using commit, rfl⟩, _,
      ⟨by simpa [recordedOf] using attempt, rfl⟩, _, ⟨by simpa [recordedOf] using result, rfl⟩, _,
      (foldlM_establishSlots_eq_ok_iff (bindings_of_verified verified)).mpr
        ⟨agreeing.mpr consistent, rfl⟩, rfl⟩

/-- The loop accepts exactly the valid sets. -/
theorem foldlM_acceptClosure_eq_ok_iff {first rest : List (String × AcceptedMeasurementClosure)}
    {after : Accepted} (before : ClosuresValid budget digest briefs first) :
    rest.foldlM (acceptClosure budget digest briefs) (recordedOf briefs first) = .ok after ↔
      ClosuresValid budget digest briefs (first ++ rest) ∧ after = recordedOf briefs (first ++ rest) := by
  induction rest generalizing first with
  | nil => simp [pure, Except.pure, before, eq_comm]
  | cons entry rest ih =>
    have regroup : first ++ entry :: rest = (first ++ [entry]) ++ rest := by simp
    rw [regroup, List.foldlM_cons, bind_eq_ok_iff]
    simp only [acceptClosure_eq_ok_iff before]
    constructor
    · rintro ⟨_, ⟨grown, rfl⟩, success⟩
      exact (ih grown).mp success
    · rintro ⟨all, rfl⟩
      exact ⟨_, ⟨all.left, rfl⟩, (ih all.left).mpr ⟨all, rfl⟩⟩

/-! ### The result sets -/

/-- The cells of a list of accepted closures. -/
def acceptedCells (accepted : List (String × AcceptedMeasurementClosure)) : List (String × String) :=
  accepted.flatMap (cellsOf ·.2)

/-- The keys of the experiments that the cells realize, and of those that they do not. -/
def setsOf (plan : FormalPlan) (cells : List (String × String)) : List String × List String :=
  (sortedSet ((plan.briefs.filter (isRealized cells)).map ExperimentBrief.experimentKey),
    sortedSet ((plan.briefs.filter (!isRealized cells ·)).map ExperimentBrief.experimentKey))

private theorem counted_iff {cells : List (String × String)} :
    (cells.all fun cell => cells.count cell = 1) = true ↔ cells.Nodup := by
  simp only [List.all_eq_true, decide_eq_true_eq]
  constructor
  · refine fun once => List.nodup_iff_count_le_one.mpr fun cell => ?_
    by_cases member : cell ∈ cells
    · exact Nat.le_of_eq (once cell member)
    · simp [List.count_eq_zero_of_not_mem member]
  · exact fun distinct cell member => List.count_eq_one_of_mem distinct member

theorem resultSets_eq_ok_iff {accepted : List (String × AcceptedMeasurementClosure)}
    {sets : List String × List String} :
    resultSets budget digest plan accepted = .ok sets ↔ ∃ briefs, briefsByKey budget plan = .ok briefs ∧
      ClosuresValid budget digest briefs accepted ∧ (acceptedCells accepted).Nodup ∧
        sets = setsOf plan (acceptedCells accepted) := by
  simp only [resultSets, bind_eq_ok_iff (α := List (String × ExperimentBrief)),
    bind_eq_ok_iff (α := Accepted), check_then_eq_ok_iff, require_eq_ok_iff, counted_iff, pure,
    Except.pure, Except.ok.injEq]
  refine exists_congr fun briefs => and_congr_right fun _ => ?_
  rw [← @recordedOf_nil briefs]
  simp only [foldlM_acceptClosure_eq_ok_iff ClosuresValid.nil, List.nil_append]
  constructor
  · rintro ⟨_, ⟨valid, rfl⟩, once, rfl⟩
    exact ⟨valid, once, rfl⟩
  · rintro ⟨valid, once, rfl⟩
    exact ⟨_, ⟨valid, rfl⟩, once, rfl⟩

end Completion

end MetaResearch.Bundle

import MetaResearch.Soundness.Evidence.Slices

/-! # The pages of the evidence catalog

The cursor passes over a candidate that is not the least of its commit in the slice, and stops before the first that
does not fit. So the candidate with the least role of all is on the page that passes over it.
-/

namespace MetaResearch.Evidence

variable (digest : String → String) (facts : Facts)

/-- No eligible entry is too large for a page of its own. -/
def Facts.Fits : Prop :=
  ∀ row ∈ facts.candidates, ∀ entry, facts.Admits digest row entry →
    ∀ projection, entry.projection digest row = .ok projection →
      proposedSize digest [entry] [projection] ≤ catalogMaxBytes

variable {digest facts}

/-- What a page has selected: the entries of the candidates that were scanned, at least one unless all were. -/
def Selects (catalog : List Entry) (rows : List Candidate) (before after : Selection) : Prop :=
  ∃ front back, rows = front ++ back ∧ after.scanned = before.scanned + front.length ∧
    (back = [] ∨ after.selected ≠ []) ∧
    after.selected = before.selected ++ front.filterMap fun row =>
      catalog.find? fun entry => entry.roleRef = row.roleRef

/-- Every entry of the catalog has a projection, with which it fits on a page. -/
def HasProjections (digest : String → String) (catalog : List Entry) (projections : List (String × Json)) : Prop :=
  ∀ entry ∈ catalog, ∃ projection, projections.lookup (entry.ref digest) = some projection ∧
    proposedSize digest [entry] [projection] ≤ catalogMaxBytes

theorem selectPage_spec {catalog : List Entry} {projections : List (String × Json)}
    (has : HasProjections digest catalog projections) (rows : List Candidate) {selection : Selection}
    (paired : selection.selected = [] → selection.projections = []) :
    ∃ after, selectPage digest catalog projections rows selection = .ok after ∧
      Selects catalog rows selection after := by
  induction rows generalizing selection with
  | nil => exact ⟨selection, rfl, [], [], rfl, rfl, .inl rfl, by simp⟩
  | cons row rest ih =>
    rw [selectPage]
    cases found : catalog.find? fun entry => entry.roleRef = row.roleRef with
    | none =>
      obtain ⟨after, ran, front, back, split, count, ended, selected⟩ := @ih
        { selection with scanned := selection.scanned + 1 } paired
      refine ⟨after, ran, row :: front, back, by rw [split]; rfl, ?_, ended, ?_⟩
      · simp only [count, List.length_cons]
        omega
      · simp only [selected, List.filterMap_cons, found]
    | some entry =>
      obtain ⟨projection, there, small⟩ := has entry (List.mem_of_find?_eq_some found)
      simp only [there]
      split_ifs with large first
      · rw [List.isEmpty_iff] at first
        rw [first, paired first] at large
        exact absurd large (not_lt.mpr small)
      · refine ⟨selection, rfl, [], row :: rest, rfl, rfl, .inr ?_, by simp⟩
        rwa [List.isEmpty_iff] at first
      · obtain ⟨after, ran, front, back, split, count, ended, selected⟩ := @ih
          ⟨selection.selected ++ [entry], selection.projections ++ [projection], selection.scanned + 1⟩ (by simp)
        refine ⟨after, ran, row :: front, back, by rw [split]; rfl, ?_, ended, ?_⟩
        · simp only [count, List.length_cons]
          omega
        · simp only [selected, List.filterMap_cons, found, List.append_assoc, List.singleton_append]

/-- What a page of the rows from an offset on holds. -/
structure IsPage (digest : String → String) (facts : Facts) (limit offset : ℕ) (page : Page) : Prop where
  /-- The cursor passes over the candidates that were scanned, at least one if there is one. -/
  next : page.nextOffset = if offset + page.scannedCount < facts.candidates.length then
    some (offset + page.scannedCount) else none
  moves : offset < facts.candidates.length → 0 < page.scannedCount
  /-- The least entry of a commit among the rows of the slice is shown, once its candidate is scanned. -/
  shows : ∀ row ∈ (facts.candidates.drop offset).take page.scannedCount, ∀ entry, facts.Admits digest row entry →
    (∀ other ∈ facts.entriesOf digest facts.candidates, other.commitRef = entry.commitRef →
      entry.roleRef ≤ other.roleRef) → entry ∈ page.catalog

theorem entriesOf_mono {rows others : List Candidate} (subset : rows ⊆ others) :
    facts.entriesOf digest rows ⊆ facts.entriesOf digest others :=
  fun _ ⟨row, member, admits⟩ => ⟨row, subset member, admits⟩

theorem hasProjections {rows : List Candidate} {catalog : List Entry} {projections : List (String × Json)}
    (fits : facts.Fits digest) (is : IsCatalog digest facts true rows catalog projections) :
    HasProjections digest catalog projections := by
  intro entry member
  obtain ⟨row, present, admits, projection, projects, found⟩ := is.projected rfl entry member
  exact ⟨projection, found, fits row present entry admits projection projects⟩

/-- The least entry of all is the least of its slice. -/
theorem find_least {rows : List Candidate} {catalog : List Entry} {projections : List (String × Json)}
    (is : IsCatalog digest facts true rows catalog projections) (slice : rows ⊆ facts.candidates)
    {row : Candidate} (inSlice : row ∈ rows) {entry : Entry} (admits : facts.Admits digest row entry)
    (least : ∀ other ∈ facts.entriesOf digest facts.candidates, other.commitRef = entry.commitRef →
      entry.roleRef ≤ other.roleRef) :
    (catalog.find? fun entry => entry.roleRef = row.roleRef) = some entry := by
  obtain ⟨shown, member, same⟩ := is.covers entry ⟨row, inSlice, admits⟩
  obtain ⟨source, sourceIn, sourceAdmits⟩ := is.eligible shown member
  have below := is.least shown member entry ⟨row, inSlice, admits⟩ same.symm
  have above := least shown (entriesOf_mono slice ⟨source, sourceIn, sourceAdmits⟩) same
  obtain rfl := sourceAdmits.unique (slice sourceIn) (slice inSlice) admits (le_antisymm below above)
  cases found : catalog.find? fun entry => entry.roleRef = row.roleRef with
  | none => exact absurd (decide_eq_true admits.eq.1) (List.find?_eq_none.mp found shown member)
  | some other =>
    have named : other.roleRef = row.roleRef := by simpa using List.find?_some found
    obtain ⟨also, alsoIn, alsoAdmits⟩ := is.eligible other (List.mem_of_find?_eq_some found)
    rw [alsoAdmits.unique (slice alsoIn) (slice inSlice) admits (named.trans admits.eq.1.symm)]

theorem queryPlanEvidencePage_spec (consistent : facts.Consistent digest) (apart : facts.RefsApart digest)
    (fits : facts.Fits digest) {limit : ℕ} (admitted : 1 ≤ limit ∧ limit ≤ 256) (offset : ℕ) :
    ∃ page, queryPlanEvidencePage digest facts offset limit = .ok page ∧ IsPage digest facts limit offset page := by
  set rows := (facts.candidates.drop offset).take limit with slicing
  have slice : rows ⊆ facts.candidates := fun row member =>
    List.mem_of_mem_drop (List.mem_of_mem_take member)
  have queried : facts.queryCandidates offset limit = .ok (facts.candidates.length, rows) :=
    check_then_eq_ok_iff.mpr ⟨require_eq_ok_iff.mpr (by simp [admitted]), rfl⟩
  obtain ⟨catalog, projections, collected, is⟩ := catalogForCandidates_spec consistent apart true slice
  obtain ⟨selection, selects, front, back, split, count, ended, selected⟩ :=
    selectPage_spec (hasProjections fits is) rows fun (_ : ({} : Selection).selected = []) => rfl
  rw [Nat.zero_add] at count
  rw [List.nil_append] at selected
  refine ⟨_, bind_eq_ok_iff.mpr ⟨_, queried, bind_eq_ok_iff.mpr ⟨_, collected,
    bind_eq_ok_iff.mpr ⟨selection, selects, rfl⟩⟩⟩, rfl, fun inside => ?_, fun row scanned entry admits least => ?_⟩
  · by_contra still
    change ¬ 0 < selection.scanned at still
    have none : front = [] := List.length_eq_zero_iff.mp (by omega)
    subst none
    rcases ended with rfl | some
    · have length := congrArg List.length (slicing.symm.trans split)
      simp only [List.length_take, List.length_drop, List.nil_append, List.length_nil] at length
      omega
    · exact some selected
  · have inFront : row ∈ front := by
      have whole : (facts.candidates.drop offset).take selection.scanned = front := by
        have within : front.length ≤ limit := by
          have length := congrArg List.length (slicing.symm.trans split)
          simp only [List.length_take, List.length_append] at length
          omega
        have again := congrArg (List.take front.length) (slicing.symm.trans split)
        rwa [List.take_take, Nat.min_eq_left within, List.take_left, ← count] at again
      rwa [← whole]
    have found := find_least is slice (split ▸ List.mem_append_left back inFront) admits least
    have shown : entry ∈ selection.selected := by
      rw [selected]
      exact List.mem_filterMap.mpr ⟨row, inFront, found⟩
    exact (sortByKey_perm _ _).mem_iff.mpr shown

/-! ### Following the cursor -/

/-- The pages from an offset on show the least entry of each commit whose candidate is at the offset or later. -/
theorem pagesFrom_spec (consistent : facts.Consistent digest) (apart : facts.RefsApart digest)
    (fits : facts.Fits digest) {limit : ℕ} (admitted : 1 ≤ limit ∧ limit ≤ 256) (fuel offset : ℕ)
    (inside : offset ≤ facts.candidates.length) (enough : facts.candidates.length < offset + fuel) :
    ∃ pages, pagesFrom digest facts limit fuel offset = some (.ok pages) ∧
      ∀ row ∈ facts.candidates.drop offset, ∀ entry, facts.Admits digest row entry →
        (∀ other ∈ facts.entriesOf digest facts.candidates, other.commitRef = entry.commitRef →
          entry.roleRef ≤ other.roleRef) → ∃ page ∈ pages, entry ∈ page.catalog := by
  induction fuel generalizing offset with
  | zero => omega
  | succ fuel ih =>
    obtain ⟨page, answered, is⟩ := queryPlanEvidencePage_spec consistent apart fits admitted offset
    rw [pagesFrom, answered]
    have next := is.next
    split_ifs at next with more
    · have moved := is.moves (by omega)
      obtain ⟨pages, followed, shown⟩ := ih (offset + page.scannedCount) (by omega) (by omega)
      refine ⟨page :: pages, by simp only [next, followed]; rfl, fun row member entry admits least => ?_⟩
      rw [← List.take_append_drop page.scannedCount (facts.candidates.drop offset), List.mem_append,
        List.drop_drop] at member
      rcases member with here | later
      · exact ⟨page, List.mem_cons_self, is.shows row here entry admits least⟩
      · obtain ⟨other, present, found⟩ := shown row later entry admits least
        exact ⟨other, List.mem_cons_of_mem _ present, found⟩
    · refine ⟨[page], by simp only [next], fun row member entry admits least => ?_⟩
      refine ⟨page, List.mem_singleton_self page, is.shows row ?_ entry admits least⟩
      rwa [List.take_of_length_le (by rw [List.length_drop]; omega)]

/-- Among the eligible entries of a commit one has the least role. -/
theorem exists_least (consistent : facts.Consistent digest) (apart : facts.RefsApart digest) {entry : Entry}
    (member : entry ∈ facts.entriesOf digest facts.candidates) :
    ∃ least ∈ facts.entriesOf digest facts.candidates, least.commitRef = entry.commitRef ∧
      ∀ other ∈ facts.entriesOf digest facts.candidates, other.commitRef = least.commitRef →
        least.roleRef ≤ other.roleRef := by
  obtain ⟨catalog, projections, _, is⟩ :=
    catalogForCandidates_spec consistent apart false (List.Subset.refl facts.candidates)
  obtain ⟨least, listed, same⟩ := is.covers entry member
  exact ⟨least, is.eligible least listed, same, is.least least listed⟩

/-! ### The slices of exact roots -/

/-- What has been merged of some rows. -/
abbrev IsMerged (digest : String → String) (facts : Facts) (rows : List Candidate)
    (accepted : List (String × Entry)) : Prop :=
  IsLeastBy (Entry.ref digest) Entry.roleRef (facts.entriesOf digest rows) accepted

theorem entriesOf_append (rows others : List Candidate) :
    facts.entriesOf digest (rows ++ others) = facts.entriesOf digest rows ∪ facts.entriesOf digest others := by
  ext entry
  simp only [Facts.entriesOf, Set.mem_union, Set.mem_ofPred_eq, List.mem_append, or_and_right, exists_or]

theorem mergeEntries_spec {rows others : List Candidate} {accepted : List (String × Entry)}
    (merged : IsMerged digest facts rows accepted) {catalog : List Entry} {projections : List (String × Json)}
    (is : IsCatalog digest facts false others catalog projections) :
    IsMerged digest facts (rows ++ others) (mergeEntries digest accepted catalog) := by
  rw [IsMerged, entriesOf_append]
  refine (merged.foldl catalog).of_subset ?_ fun other member => ?_
  · exact Set.union_subset_union_right _ is.eligible
  · rcases member with before | here
    · exact ⟨other, .inl before, rfl, le_refl _⟩
    · obtain ⟨entry, listed, same⟩ := is.covers other here
      refine ⟨entry, .inr listed, ?_, is.least entry listed other here same.symm⟩
      rw [Entry.ref, Entry.ref, same]

theorem catalogForRefsFrom_spec (consistent : facts.Consistent digest) (apart : facts.RefsApart digest)
    {limit : ℕ} (admitted : 1 ≤ limit ∧ limit ≤ 256) (fuel offset : ℕ) (inside : offset ≤ facts.candidates.length)
    (enough : facts.candidates.length < offset + fuel) {accepted : List (String × Entry)}
    (merged : IsMerged digest facts (facts.candidates.take offset) accepted) :
    ∃ whole, catalogForRefsFrom digest facts limit fuel offset accepted = some (.ok whole) ∧
      IsMerged digest facts facts.candidates whole := by
  induction fuel generalizing offset accepted with
  | zero => omega
  | succ fuel ih =>
    set rows := (facts.candidates.drop offset).take limit with slicing
    have slice : rows ⊆ facts.candidates := fun row member =>
      List.mem_of_mem_drop (List.mem_of_mem_take member)
    have queried : facts.queryCandidates offset limit = .ok (facts.candidates.length, rows) :=
      check_then_eq_ok_iff.mpr ⟨require_eq_ok_iff.mpr (by simp [admitted]), rfl⟩
    obtain ⟨catalog, projections, collected, is⟩ := catalogForCandidates_spec consistent apart false slice
    have together := mergeEntries_spec merged is
    have count : rows.length = min limit (facts.candidates.length - offset) := by
      rw [slicing, List.length_take, List.length_drop]
    have taken : facts.candidates.take offset ++ rows = facts.candidates.take (offset + rows.length) := by
      rw [List.take_add, ← List.prefix_iff_eq_take.mp (List.take_prefix limit (facts.candidates.drop offset))]
    rw [taken] at together
    rw [catalogForRefsFrom, queried]
    simp only [bind, Except.bind, collected, pure, Except.pure]
    split_ifs with finished
    · have whole : facts.candidates.length ≤ offset + rows.length := by
        rw [Bool.or_eq_true, List.isEmpty_iff_length_eq_zero, decide_eq_true_eq] at finished
        omega
      rw [List.take_of_length_le whole] at together
      exact ⟨_, rfl, together⟩
    · have some : rows.length ≠ 0 := fun none =>
        finished (by rw [List.isEmpty_iff_length_eq_zero.mpr none, Bool.true_or])
      exact ih (offset + rows.length) (by omega) (by omega) together

/-- The catalog of exact roots: one entry for each commit with an eligible candidate, the one with the least role. -/
structure IsLeastCatalog (digest : String → String) (facts : Facts) (entries : List Entry) : Prop where
  one : (entries.map Entry.commitRef).Nodup
  eligible : ∀ entry ∈ entries, ∃ row ∈ facts.candidates, facts.Admits digest row entry
  covers : ∀ row ∈ facts.candidates, ∀ entry, facts.Admits digest row entry →
    ∃ other ∈ entries, other.commitRef = row.targetCommitRef
  least : ∀ entry ∈ entries, ∀ row ∈ facts.candidates, ∀ other, facts.Admits digest row other →
    row.targetCommitRef = entry.commitRef → entry.roleRef ≤ row.roleRef

theorem IsMerged.isLeastCatalog (apart : facts.RefsApart digest) {accepted : List (String × Entry)}
    (merged : IsMerged digest facts facts.candidates accepted) :
    IsLeastCatalog digest facts ((sortByKey Prod.fst accepted).map Prod.snd) := by
  have values : ∀ entry, entry ∈ (sortByKey Prod.fst accepted).map Prod.snd →
      accepted.lookup (entry.ref digest) = some entry := by
    intro entry member
    obtain ⟨⟨ref, found⟩, listed, rfl⟩ := List.mem_map.mp member
    have there := (Dict.mem_iff_lookup merged.nodup).mp ((sortByKey_perm _ _).mem_iff.mp listed)
    rwa [(merged.sound _ _ there).2]
  have eligible : ∀ entry ∈ (sortByKey Prod.fst accepted).map Prod.snd,
      ∃ row ∈ facts.candidates, facts.Admits digest row entry := fun entry member =>
    (merged.sound _ _ (values entry member)).1
  constructor
  · have keys : ((sortByKey Prod.fst accepted).map Prod.fst).Nodup :=
      ((sortByKey_perm _ _).map _).nodup_iff.mpr merged.nodup
    refine List.Nodup.of_map (evidenceRef digest) ?_
    have same : (((sortByKey Prod.fst accepted).map Prod.snd).map Entry.commitRef).map (evidenceRef digest) =
        (sortByKey Prod.fst accepted).map Prod.fst := by
      rw [List.map_map, List.map_map]
      refine List.map_congr_left fun pair member => ?_
      have there := (Dict.mem_iff_lookup merged.nodup).mp ((sortByKey_perm _ _).mem_iff.mp member)
      exact (merged.sound _ _ there).2
    rwa [same]
  · exact eligible
  · intro row member entry admits
    obtain ⟨other, found⟩ := merged.covers entry ⟨row, member, admits⟩
    obtain ⟨⟨source, present, also⟩, same⟩ := merged.sound _ _ found
    refine ⟨other, List.mem_map.mpr ⟨_, (sortByKey_perm _ _).mem_iff.mpr (Dict.mem_of_lookup found), rfl⟩, ?_⟩
    rw [ref_apart apart present member also admits same, admits.eq.2]
  · intro entry member row present other admits same
    rw [← admits.eq.1]
    refine merged.least _ entry (values entry member) other ⟨row, present, admits⟩ ?_
    rw [Entry.ref, Entry.ref, admits.eq.2, same]

end MetaResearch.Evidence

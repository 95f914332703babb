import MetaResearch.Model.Evidence.Catalog
import MetaResearch.ToMathlib.LeastByKey

/-! # The catalog of a slice

Whether a candidate is admitted is a fact of its own row, whatever slice it is met in. So the catalog of a slice
holds, for each commit, the admitted entry of the slice with the least role.
-/

namespace MetaResearch.Evidence

open Json (get)

variable (digest : String → String)

/-- The entry of a candidate, if it is admitted: that of its own role, asset and commit. -/
def Facts.entryOf (facts : Facts) (row : Candidate) : Except String (Option Entry) := do
  let commit ← facts.commit row.targetCommitRef
  match facts.roles.find? fun role => role.roleRef = row.roleRef with
  | none => pure none
  | some role => admitRole digest facts [commit] role

/-- The candidate is eligible, with this entry. -/
def Facts.Admits (facts : Facts) (row : Candidate) (entry : Entry) : Prop :=
  facts.entryOf digest row = .ok (some entry)

/-- The entries of the eligible candidates among some. -/
def Facts.entriesOf (facts : Facts) (rows : List Candidate) : Set Entry :=
  {entry | ∃ row ∈ rows, facts.Admits digest row entry}

/-- No fact that a candidate needs fails the integrity checks of its Owner or of the catalog. -/
structure Facts.Consistent (facts : Facts) : Prop where
  commit : ∀ row ∈ facts.candidates, ∃ commit, facts.commit row.targetCommitRef = .ok commit
  role : ∀ role ∈ facts.roles, ∀ row ∈ facts.candidates, row.versionRef = role.versionRef →
    facts.verifyRole role = .ok ()
  entry : ∀ row ∈ facts.candidates, ∃ entry, facts.entryOf digest row = .ok entry
  projection : ∀ row ∈ facts.candidates, ∀ entry, facts.Admits digest row entry →
    ∃ projection, entry.projection digest row = .ok projection

/-- The evidence references of the commits differ: no two digests begin alike. -/
def Facts.RefsApart (facts : Facts) : Prop :=
  ∀ row ∈ facts.candidates, ∀ other ∈ facts.candidates,
    evidenceRef digest row.targetCommitRef = evidenceRef digest other.targetCommitRef →
      row.targetCommitRef = other.targetCommitRef

variable {digest} {facts : Facts}

/-! ### One row -/

theorem role_unique {role other : AssetRole} (member : role ∈ facts.roles) (present : other ∈ facts.roles)
    (same : role.roleRef = other.roleRef) : role = other :=
  List.inj_on_of_nodup_map facts.roleKey member present same

theorem candidate_unique {row other : Candidate} (member : row ∈ facts.candidates)
    (present : other ∈ facts.candidates) (same : row.roleRef = other.roleRef) : row = other :=
  List.inj_on_of_nodup_map facts.candidateKey member present same

/-- The role of a candidate, which the join has found. -/
theorem find_role {row : Candidate} (member : row ∈ facts.candidates) :
    ∃ role ∈ facts.roles, (facts.roles.find? fun role => role.roleRef = row.roleRef) = some role ∧
      role.roleRef = row.roleRef ∧ role.versionRef = row.versionRef := by
  obtain ⟨role, present, same, version⟩ := facts.joined row member
  refine ⟨role, present, ?_, same, version⟩
  cases found : facts.roles.find? fun role => role.roleRef = row.roleRef with
  | none => exact absurd (decide_eq_true same) (List.find?_eq_none.mp found role present)
  | some other =>
    have named : other.roleRef = row.roleRef := by simpa using List.find?_some found
    rw [role_unique (List.mem_of_find?_eq_some found) present (named.trans same.symm)]

theorem admitAsset_eq {commit : TargetCommit} {asset : AssetVersion} {role : AssetRole} {entry : Entry}
    (admitted : admitAsset digest facts commit asset role = .ok (some entry)) : entry = ⟨commit, asset, role⟩ := by
  unfold admitAsset at admitted
  split_ifs at admitted
  · cases admitted
  · cases admitted
  obtain ⟨content, _, admitted⟩ := bind_eq_ok_iff.mp admitted
  obtain ⟨expected, _, admitted⟩ := bind_eq_ok_iff.mp admitted
  split_ifs at admitted
  · cases admitted
  · obtain ⟨_, admitted⟩ := check_then_eq_ok_iff.mp admitted
    exact (Option.some.inj (Except.ok.inj admitted)).symm

/-- An admitted entry is that of the role, with a commit that was asked for. -/
theorem admitRole_eq {commits : List TargetCommit} {role : AssetRole} {entry : Entry}
    (admitted : admitRole digest facts commits role = .ok (some entry)) :
    entry.role = role ∧ entry.commit ∈ commits := by
  obtain ⟨found, _, admitted⟩ := bind_eq_ok_iff.mp admitted
  cases found with
  | none => cases admitted
  | some asset =>
    simp only at admitted
    split at admitted
    · cases admitted
    · rename_i commit located
      obtain ⟨root, _, located⟩ := Option.bind_eq_some_iff.mp located
      rw [admitAsset_eq admitted]
      exact ⟨rfl, List.mem_of_find?_eq_some located⟩

theorem Facts.Admits.eq {row : Candidate} {entry : Entry} (admits : facts.Admits digest row entry) :
    entry.roleRef = row.roleRef ∧ entry.commitRef = row.targetCommitRef := by
  obtain ⟨commit, held, admits⟩ := bind_eq_ok_iff.mp admits
  cases found : facts.roles.find? fun role => role.roleRef = row.roleRef with
  | none =>
    simp only [found] at admits
    cases admits
  | some role =>
    simp only [found] at admits
    obtain ⟨same, member⟩ := admitRole_eq admits
    have named : role.roleRef = row.roleRef := by simpa using List.find?_some found
    rw [Entry.roleRef, same, Entry.commitRef, List.mem_singleton.mp member, facts.commitRef _ _ held]
    exact ⟨named, rfl⟩

/-- Two eligible candidates with one role are one, and so are their entries. -/
theorem Facts.Admits.unique {row other : Candidate} {entry also : Entry} (member : row ∈ facts.candidates)
    (present : other ∈ facts.candidates) (admits : facts.Admits digest row entry)
    (again : facts.Admits digest other also) (same : entry.roleRef = also.roleRef) : entry = also := by
  have one := candidate_unique member present (admits.eq.1.symm.trans (same.trans again.eq.1))
  subst one
  exact Option.some.inj (Except.ok.inj (admits.symm.trans again))

theorem commitsFor_spec {rows : List Candidate} {commits : List TargetCommit}
    (answered : facts.commitsFor rows = .ok commits) :
    (∀ row ∈ rows, ∃ commit ∈ commits, facts.commit row.targetCommitRef = .ok commit) ∧
      ∀ commit ∈ commits, facts.commit commit.commitRef = .ok commit := by
  refine ⟨fun row member => ?_, fun commit member => ?_⟩
  · have listed : row.targetCommitRef ∈ (rows.map Candidate.targetCommitRef).dedup :=
      List.mem_dedup.mpr (List.mem_map_of_mem member)
    exact exists_result_of_mapM answered _ listed
  · obtain ⟨ref, _, held⟩ := exists_item_of_mapM answered commit member
    rwa [facts.commitRef ref commit held]

/-- In any slice with the candidate, its role is admitted as the candidate is. -/
theorem admitRole_eq_entryOf {rows : List Candidate} {commits : List TargetCommit}
    (answered : facts.commitsFor rows = .ok commits) {row : Candidate} (inSlice : row ∈ rows)
    (member : row ∈ facts.candidates) {role : AssetRole} (present : role ∈ facts.roles)
    (same : role.roleRef = row.roleRef) :
    admitRole digest facts commits role = facts.entryOf digest row := by
  obtain ⟨reached, known⟩ := commitsFor_spec answered
  obtain ⟨commit, among, held⟩ := reached row inSlice
  obtain ⟨own, ownPresent, found, named, version⟩ := find_role member
  obtain rfl := role_unique ownPresent present (named.trans same.symm)
  have refOf := facts.commitRef _ _ held
  have located : (commits.find? fun commit => commit.commitRef = row.targetCommitRef) = some commit := by
    cases search : commits.find? fun commit => commit.commitRef = row.targetCommitRef with
    | none => exact absurd (decide_eq_true refOf) (List.find?_eq_none.mp search commit among)
    | some other =>
      have otherRef : other.commitRef = row.targetCommitRef := by simpa using List.find?_some search
      have again := known other (List.mem_of_find?_eq_some search)
      rw [otherRef] at again
      rw [Except.ok.inj (again.symm.trans held)]
  have alone : ([commit].find? fun commit => commit.commitRef = row.targetCommitRef) = some commit := by
    exact List.find?_cons_of_pos (by simpa using refOf)
  simp only [Facts.entryOf, held, found]
  change admitRole digest facts commits own = admitRole digest facts [commit] own
  unfold admitRole
  cases answer : facts.asset own.versionRef with
  | error code => rfl
  | ok asset =>
    cases asset with
    | none => rfl
    | some asset =>
      rw [version] at answer
      have root := facts.rooted row member asset answer
      simp only [bind, Except.bind, root, Json.text?, Option.bind, located, alone]

/-! ### A slice -/

variable {rows : List Candidate}

theorem commitsFor_ok (consistent : facts.Consistent digest) (slice : rows ⊆ facts.candidates) :
    ∃ commits, facts.commitsFor rows = .ok commits := by
  have all : ∀ refs : List String, (∀ ref ∈ refs, ∃ commit, facts.commit ref = .ok commit) →
      ∃ commits, refs.mapM facts.commit = .ok commits := by
    intro refs
    induction refs with
    | nil => exact fun _ => ⟨[], rfl⟩
    | cons ref rest ih =>
      intro each
      obtain ⟨⟨commit, here⟩, later⟩ := List.forall_mem_cons.mp each
      obtain ⟨commits, there⟩ := ih later
      exact ⟨commit :: commits, by rw [List.mapM_cons, here, there]; rfl⟩
  refine all _ fun ref listed => ?_
  obtain ⟨row, member, rfl⟩ := List.mem_map.mp (List.mem_dedup.mp listed)
  exact consistent.commit row (slice member)

theorem rolesFor_eq (consistent : facts.Consistent digest) (slice : rows ⊆ facts.candidates) :
    facts.rolesFor rows = .ok (facts.roles.filter fun role =>
      (rows.map Candidate.versionRef).contains role.versionRef) := by
  refine check_then_eq_ok_iff.mpr ⟨checkAll_eq_ok_iff.mpr fun role member => ?_, rfl⟩
  obtain ⟨present, listed⟩ := List.mem_filter.mp member
  obtain ⟨row, inSlice, same⟩ := List.mem_map.mp (List.contains_iff_mem.mp listed)
  exact consistent.role role present row (slice inSlice) same

/-- The roles that the loop goes over are those of the candidates. -/
theorem mem_selected {role : AssetRole} (slice : rows ⊆ facts.candidates) :
    role ∈ (facts.roles.filter fun role => (rows.map Candidate.versionRef).contains role.versionRef).filter
        (fun role => (rows.map Candidate.roleRef).contains role.roleRef) ↔
      role ∈ facts.roles ∧ ∃ row ∈ rows, role.roleRef = row.roleRef := by
  simp only [List.mem_filter, List.contains_iff_mem, List.mem_map]
  constructor
  · rintro ⟨⟨present, _⟩, row, inSlice, same⟩
    exact ⟨present, row, inSlice, same.symm⟩
  · rintro ⟨present, row, inSlice, same⟩
    obtain ⟨own, ownPresent, _, named, version⟩ := find_role (slice inSlice)
    obtain rfl := role_unique ownPresent present (named.trans same.symm)
    exact ⟨⟨present, row, inSlice, version.symm⟩, row, inSlice, same.symm⟩

/-- What the loop holds: the least entry of each commit, and the projection of each entry that it holds. -/
structure IsCollected (digest : String → String) (facts : Facts) (project : Bool) (entries : Set Entry)
    (held : Collected) : Prop where
  least : IsLeastBy Entry.commitRef Entry.roleRef entries held.accepted
  projected : project = true → ∀ entry ∈ held.accepted.map Prod.snd, ∃ row ∈ facts.candidates,
    facts.Admits digest row entry ∧ ∃ projection, entry.projection digest row = .ok projection ∧
      held.projections.lookup (entry.ref digest) = some projection

theorem IsCollected.empty (project : Bool) : IsCollected digest facts project ∅ {} :=
  ⟨.empty, fun _ _ member => nomatch member⟩

theorem IsLeastBy.mem_values {entries : Set Entry} {held : List (String × Entry)}
    (least : IsLeastBy Entry.commitRef Entry.roleRef entries held) {entry : Entry} :
    entry ∈ held.map Prod.snd ↔ held.lookup entry.commitRef = some entry := by
  constructor
  · intro member
    obtain ⟨⟨ref, found⟩, present, rfl⟩ := List.mem_map.mp member
    have there := (Dict.mem_iff_lookup least.nodup).mp present
    rwa [(least.sound _ _ there).2]
  · intro found
    exact List.mem_map.mpr ⟨_, Dict.mem_of_lookup found, rfl⟩

theorem ref_apart (apart : facts.RefsApart digest) {row other : Candidate} (member : row ∈ facts.candidates)
    (present : other ∈ facts.candidates) {entry also : Entry} (admits : facts.Admits digest row entry)
    (again : facts.Admits digest other also) (same : entry.ref digest = also.ref digest) :
    entry.commitRef = also.commitRef := by
  rw [Entry.ref, Entry.ref, admits.eq.2, again.eq.2] at same
  rw [admits.eq.2, again.eq.2, apart row member other present same]

theorem find_candidate (slice : rows ⊆ facts.candidates) {row : Candidate} (inSlice : row ∈ rows) {entry : Entry}
    (admits : facts.Admits digest row entry) :
    (rows.find? fun row => row.roleRef = entry.roleRef) = some row := by
  cases found : rows.find? fun row => row.roleRef = entry.roleRef with
  | none => exact absurd (decide_eq_true admits.eq.1.symm) (List.find?_eq_none.mp found row inSlice)
  | some other =>
    have named : other.roleRef = entry.roleRef := by simpa using List.find?_some found
    have present := slice (List.mem_of_find?_eq_some found)
    rw [candidate_unique present (slice inSlice) (named.trans admits.eq.1)]

/-- One entry more. -/
theorem keepLeast_spec (consistent : facts.Consistent digest) (apart : facts.RefsApart digest) {project : Bool}
    {entries : Set Entry} {held : Collected} (collected : IsCollected digest facts project entries held)
    (slice : rows ⊆ facts.candidates) {row : Candidate} (inSlice : row ∈ rows) {entry : Entry}
    (admits : facts.Admits digest row entry) :
    ∃ next, keepLeast digest project rows held entry = .ok next ∧
      IsCollected digest facts project (insert entry entries) next := by
  have kept := collected.least.keep entry
  unfold keepLeastBy at kept
  unfold keepLeast
  split_ifs at kept ⊢ with better asked
  · obtain ⟨projection, projects⟩ := consistent.projection row (slice inSlice) entry admits
    rw [find_candidate slice inSlice admits]
    refine ⟨_, by simp only [projects]; rfl, kept, fun _ other member => ?_⟩
    rcases Dict.lookup_set_cases ((IsLeastBy.mem_values kept).mp member) with ⟨_, rfl⟩ | before
    · exact ⟨row, slice inSlice, admits, projection, projects, Dict.lookup_set_self _ _ _⟩
    · have held := (IsLeastBy.mem_values collected.least).mpr before
      obtain ⟨source, present, also, earlier, projected, found⟩ := collected.projected asked other held
      refine ⟨source, present, also, earlier, projected, ?_⟩
      by_cases same : other.ref digest = entry.ref digest
      · have commits := ref_apart apart present (slice inSlice) also admits same
        have there := (IsLeastBy.mem_values kept).mp member
        rw [commits, Dict.lookup_set_self] at there
        obtain rfl := Option.some.inj there
        obtain rfl := candidate_unique (slice inSlice) present (admits.eq.1.symm.trans also.eq.1)
        rw [Dict.lookup_set_self, Except.ok.inj (projects.symm.trans projected)]
      · rw [Dict.lookup_set_of_ne same, found]
  · exact ⟨_, rfl, kept, fun yes => absurd yes asked⟩
  · exact ⟨held, rfl, kept, collected.projected⟩

/-- The loop of `_catalog_for_candidates`, over roles of the slice. -/
theorem collect_spec (consistent : facts.Consistent digest) (apart : facts.RefsApart digest) {project : Bool}
    (slice : rows ⊆ facts.candidates) {commits : List TargetCommit} (answered : facts.commitsFor rows = .ok commits)
    {roles : List AssetRole} (listed : ∀ role ∈ roles, role ∈ facts.roles ∧ ∃ row ∈ rows, role.roleRef = row.roleRef)
    {entries : Set Entry} {held : Collected} (collected : IsCollected digest facts project entries held) :
    ∃ next, (roles.foldlM (fun held role => do
        match ← admitRole digest facts commits role with
        | none => pure held
        | some entry => keepLeast digest project rows held entry) held) = .ok next ∧
      IsCollected digest facts project
        (entries ∪ {entry | ∃ role ∈ roles, admitRole digest facts commits role = .ok (some entry)}) next := by
  induction roles generalizing entries held with
  | nil => exact ⟨held, rfl, by simpa using collected⟩
  | cons role rest ih =>
    obtain ⟨⟨present, row, inSlice, same⟩, later⟩ := List.forall_mem_cons.mp listed
    have admission : admitRole digest facts commits role = facts.entryOf digest row :=
      admitRole_eq_entryOf answered inSlice (slice inSlice) present same
    obtain ⟨entry, answer⟩ := consistent.entry row (slice inSlice)
    rw [answer] at admission
    rw [List.foldlM_cons, admission]
    cases entry with
    | none =>
      obtain ⟨next, ran, spec⟩ := ih later collected
      refine ⟨next, ran, ?_⟩
      have same : {entry | ∃ role' ∈ role :: rest, admitRole digest facts commits role' = .ok (some entry)} =
          {entry | ∃ role' ∈ rest, admitRole digest facts commits role' = .ok (some entry)} := by
        ext entry
        simp [admission]
      rwa [same]
    | some entry =>
      obtain ⟨middle, here, more⟩ := keepLeast_spec consistent apart collected slice inSlice answer
      obtain ⟨next, ran, spec⟩ := ih later more
      refine ⟨next, bind_eq_ok_iff.mpr ⟨middle, here, ran⟩, ?_⟩
      have same : entries ∪ {entry | ∃ role' ∈ role :: rest, admitRole digest facts commits role' = .ok (some entry)} =
          insert entry entries ∪ {entry | ∃ role' ∈ rest, admitRole digest facts commits role' = .ok (some entry)} := by
        ext other
        simp only [Set.mem_union, Set.mem_ofPred_eq, List.exists_mem_cons_iff, admission, Except.ok.injEq,
          Option.some.injEq, Set.mem_insert_iff]
        tauto
      rwa [same]

/-- The catalog of a slice holds, for each commit, the eligible entry of the slice with the least role; and it
has the projection of each of its entries where projections are asked for. -/
structure IsCatalog (digest : String → String) (facts : Facts) (project : Bool) (rows : List Candidate)
    (catalog : List Entry) (projections : List (String × Json)) : Prop where
  eligible : ∀ entry ∈ catalog, entry ∈ facts.entriesOf digest rows
  least : ∀ entry ∈ catalog, ∀ other ∈ facts.entriesOf digest rows, other.commitRef = entry.commitRef →
    entry.roleRef ≤ other.roleRef
  covers : ∀ entry ∈ facts.entriesOf digest rows, ∃ other ∈ catalog, other.commitRef = entry.commitRef
  projected : project = true → ∀ entry ∈ catalog, ∃ row ∈ facts.candidates, facts.Admits digest row entry ∧
    ∃ projection, entry.projection digest row = .ok projection ∧
      projections.lookup (entry.ref digest) = some projection

/-- The entries that the roles of a slice are admitted with are those of its candidates. -/
theorem entries_of_roles (slice : rows ⊆ facts.candidates) {commits : List TargetCommit}
    (answered : facts.commitsFor rows = .ok commits) {roles : List AssetRole}
    (listed : ∀ role, role ∈ roles ↔ role ∈ facts.roles ∧ ∃ row ∈ rows, role.roleRef = row.roleRef) :
    {entry | ∃ role ∈ roles, admitRole digest facts commits role = .ok (some entry)} =
      facts.entriesOf digest rows := by
  ext entry
  constructor
  · rintro ⟨role, member, admitted⟩
    obtain ⟨present, row, inSlice, same⟩ := (listed role).mp member
    rw [admitRole_eq_entryOf answered inSlice (slice inSlice) present same] at admitted
    exact ⟨row, inSlice, admitted⟩
  · rintro ⟨row, inSlice, admits⟩
    obtain ⟨role, present, _, same, _⟩ := find_role (slice inSlice)
    refine ⟨role, (listed role).mpr ⟨present, row, inSlice, same⟩, ?_⟩
    rw [admitRole_eq_entryOf answered inSlice (slice inSlice) present same]
    exact admits

theorem IsCollected.isCatalog {project : Bool} {held : Collected}
    (collected : IsCollected digest facts project (facts.entriesOf digest rows) held) :
    IsCatalog digest facts project rows (sortByKey (Entry.ref digest) (held.accepted.map Prod.snd))
      held.projections := by
  have values : ∀ entry, entry ∈ sortByKey (Entry.ref digest) (held.accepted.map Prod.snd) ↔
      held.accepted.lookup entry.commitRef = some entry := fun entry => by
    rw [(sortByKey_perm _ _).mem_iff, IsLeastBy.mem_values collected.least]
  constructor
  · exact fun entry member => (collected.least.sound _ _ ((values entry).mp member)).1
  · exact fun entry member other => collected.least.least _ _ ((values entry).mp member) other
  · intro entry member
    obtain ⟨other, found⟩ := collected.least.covers entry member
    have same := (collected.least.sound _ _ found).2
    exact ⟨other, (values other).mpr (same ▸ found), same⟩
  · exact fun asked entry member => collected.projected asked entry ((sortByKey_perm _ _).mem_iff.mp member)

theorem catalogForCandidates_spec (consistent : facts.Consistent digest) (apart : facts.RefsApart digest)
    (project : Bool) (slice : rows ⊆ facts.candidates) :
    ∃ catalog projections, catalogForCandidates digest facts project rows = .ok (catalog, projections) ∧
      IsCatalog digest facts project rows catalog projections := by
  obtain ⟨commits, answered⟩ := commitsFor_ok consistent slice
  unfold catalogForCandidates
  rw [answered]
  by_cases none : rows = []
  · subst none
    refine ⟨[], [], rfl, List.forall_mem_nil _, List.forall_mem_nil _, ?_, fun _ => List.forall_mem_nil _⟩
    rintro entry ⟨row, member, _⟩
    cases member
  · have some : rows.isEmpty = false := by rwa [List.isEmpty_eq_false_iff]
    obtain ⟨held, ran, collected⟩ := collect_spec consistent apart slice answered
      (fun role member => (mem_selected slice).mp member) (IsCollected.empty project)
    rw [Set.empty_union, entries_of_roles slice answered fun role => mem_selected slice] at collected
    refine ⟨_, _, ?_, collected.isCatalog⟩
    refine bind_eq_ok_iff.mpr ⟨commits, rfl, ?_⟩
    rw [some]
    exact bind_eq_ok_iff.mpr ⟨_, rolesFor_eq consistent slice, bind_eq_ok_iff.mpr ⟨held, ran, rfl⟩⟩

end MetaResearch.Evidence

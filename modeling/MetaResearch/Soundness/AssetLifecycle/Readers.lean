import MetaResearch.Soundness.AssetLifecycle.Chain

/-! # The two readers of an asset agree

The tables are sound when the changes of every asset are a chain and the stored head and the stored
states say what the chain amounts to. Both readers then answer, and what the short one reads off the
latest rows is what the full one replays.
-/

namespace MetaResearch.AssetLifecycle

variable {digest : String → String} {tables : Tables}

namespace Tables

/-- The asset has the version. -/
def knows (tables : Tables) (assetRef versionRef : String) : Bool :=
  (tables.versionsOf assetRef).any (·.versionRef = versionRef)

theorem knows_iff {assetRef versionRef : String} : tables.knows assetRef versionRef = true ↔
    ∃ version ∈ tables.versions, version.assetRef = assetRef ∧ version.versionRef = versionRef := by
  simp [knows, versionsOf, and_assoc]

theorem knows_of_mem {version : Version} (member : version ∈ tables.versions) :
    tables.knows version.assetRef version.versionRef = true :=
  knows_iff.mpr ⟨version, member, rfl, rfl⟩

/-- The changes of an asset as they are stored. -/
def chain (tables : Tables) (assetRef : String) : List Change :=
  tables.changes.select (·.assetRef = assetRef)

/-- What the changes of an asset amount to. -/
def replay (tables : Tables) (assetRef : String) : Replay := replayOf (tables.chain assetRef)

/-- The head says what the chain amounts to; there is none only where nothing has changed. -/
def Headed (tables : Tables) (assetRef : String) : Prop :=
  (tables.heads.find? assetRef).elim (tables.chain assetRef = []) fun head =>
    head.revision = (tables.chain assetRef).length ∧
      head.currentVersionRef = (tables.replay assetRef).current

structure Sound (digest : String → String) (tables : Tables) : Prop where
  chains : ∀ assetRef, Chain digest (tables.knows assetRef) (tables.chain assetRef)
  headed : ∀ assetRef, tables.Headed assetRef
  stated : ∀ version ∈ tables.versions, tables.stateOf version.versionRef =
    (tables.replay version.assetRef).states version.versionRef
  keyed : ∀ row ∈ tables.states, ∃ version ∈ tables.versions, version.versionRef = row.versionRef
  housed : ∀ version ∈ tables.versions, version.assetRef ∈ tables.assets
  labelled : ∀ row ∈ tables.changes, ∀ key, row.idempotencyKey = "retire:" ++ key → row.kind = .retirement

end Tables

open Tables (Sound)

/-! ### Rows -/

theorem Tables.Sound.changesOf (sound : Sound digest tables) (assetRef : String) :
    tables.changesOf assetRef = tables.chain assetRef :=
  Table.selectBy_of_sorted ((sound.chains assetRef).sorted.imp fun below => below.le)

theorem Tables.select_and (assetRef : String) (keep : Change → Bool) :
    tables.changes.select (fun row => row.assetRef = assetRef && keep row) =
      (tables.chain assetRef).filter keep := by
  unfold Tables.chain Table.select
  rw [List.filter_filter]
  exact List.filter_congr fun row _ => Bool.and_comm _ _

theorem Tables.Sound.selectBy_and (sound : Sound digest tables) (assetRef : String)
    (keep : Change → Bool) :
    tables.changes.selectBy (fun row => row.assetRef = assetRef && keep row)
      (fun row => row.revision) = (tables.chain assetRef).filter keep := by
  rw [Table.selectBy_of_sorted, Tables.select_and]
  rw [Tables.select_and]
  exact ((sound.chains assetRef).sorted.imp fun below => below.le).filter _

theorem Tables.Sound.latest_and (sound : Sound digest tables) (assetRef : String)
    (keep : Change → Bool) :
    tables.changes.latest? (fun row => row.assetRef = assetRef && keep row)
      (fun row => row.revision) = ((tables.chain assetRef).filter keep).getLast? := by
  rw [Table.latest?_of_sorted, Tables.select_and]
  rw [Tables.select_and]
  exact (sound.chains assetRef).sorted.filter _

theorem Tables.Sound.latest (sound : Sound digest tables) (assetRef : String) :
    tables.changes.latest? (·.assetRef = assetRef) (fun row => row.revision) =
      (tables.chain assetRef).getLast? :=
  Table.latest?_of_sorted (sound.chains assetRef).sorted

/-- The revision of the latest change counts the changes. -/
theorem Chain.revision_getLast {known : String → Bool} {rows : List Change}
    (chain : Chain digest known rows) : rows.getLast?.elim 0 Change.revision = rows.length := by
  cases chain with
  | nil => rfl
  | concat earlier follows =>
    rw [List.getLast?_concat, Option.elim_some, follows.revision, List.length_append,
      List.length_singleton]

theorem Tables.Sound.genuine_of_mem (sound : Sound digest tables) {assetRef : String} {row : Change}
    (member : row ∈ tables.chain assetRef) : acceptedChange digest row = .ok () :=
  (sound.chains assetRef).genuine row member

/-! ### The full reader -/

theorem Tables.Sound.head_of_find? (sound : Sound digest tables) {assetRef : String} {head : Head}
    (found : tables.heads.find? assetRef = some head) :
    head.revision = (tables.chain assetRef).length ∧
      head.currentVersionRef = (tables.replay assetRef).current := by
  have headed := sound.headed assetRef
  rwa [Tables.Headed, found, Option.elim_some] at headed

theorem Tables.Sound.chain_of_headless (sound : Sound digest tables) {assetRef : String}
    (absent : tables.heads.find? assetRef = none) : tables.chain assetRef = [] := by
  have headed := sound.headed assetRef
  rwa [Tables.Headed, absent, Option.elim_none] at headed

theorem Tables.Sound.verifiedLifecycle_eq (sound : Sound digest tables) (assetRef : String) :
    verifiedLifecycle digest tables assetRef =
      .ok (tables.heads.find? assetRef, tables.chain assetRef, tables.replay assetRef) := by
  have chain := sound.chains assetRef
  unfold verifiedLifecycle
  rw [check_then_eq_ok_iff, checkAll_eq_ok_iff, sound.changesOf]
  refine ⟨chain.genuine, bind_eq_ok_iff.mpr ⟨tables.replay assetRef, chain.replayChanges_eq, ?_⟩⟩
  rw [check_then_eq_ok_iff, check_then_eq_ok_iff, require_eq_ok_iff, require_eq_ok_iff]
  refine ⟨?_, List.all_eq_true.mpr fun version member => ?_, rfl⟩
  · cases found : tables.heads.find? assetRef with
    | none => simp [sound.chain_of_headless found]
    | some head => simp [sound.head_of_find? found]
  · obtain ⟨present, same⟩ := Table.mem_select.mp member
    have stated := sound.stated version present
    rw [of_decide_eq_true same] at stated
    exact decide_eq_true stated

theorem Tables.Sound.head_revision (sound : Sound digest tables) (assetRef : String) :
    (tables.heads.find? assetRef).elim 0 Head.revision = (tables.chain assetRef).length := by
  cases found : tables.heads.find? assetRef with
  | none => simp [sound.chain_of_headless found]
  | some head => exact (sound.head_of_find? found).1

theorem Tables.Sound.head_current (sound : Sound digest tables) (assetRef : String) :
    (tables.heads.find? assetRef).bind Head.currentVersionRef = (tables.replay assetRef).current := by
  cases found : tables.heads.find? assetRef with
  | none => simp [Tables.replay, sound.chain_of_headless found]
  | some head => exact (sound.head_of_find? found).2

/-- A version that is not retired may be used, and a retired one may not. -/
theorem Tables.Sound.assertAssetUsable_eq (sound : Sound digest tables) {version : Version}
    (member : version ∈ tables.versions) : assertAssetUsable digest tables version.versionRef =
      if (tables.replay version.assetRef).states version.versionRef = .retired then
        .error (.versionRetired version.versionRef) else .ok () := by
  unfold assertAssetUsable
  rw [Table.find?_of_mem member]
  dsimp only
  rw [sound.verifiedLifecycle_eq]
  simp only [bind, Except.bind, require]
  by_cases retired : (tables.replay version.assetRef).states version.versionRef = .retired <;>
    simp [retired]

/-- What the full reader says about a version. -/
def historyOf (tables : Tables) (version : Version) : VersionHistory where
  versionRef := version.versionRef
  state :=
    if (tables.replay version.assetRef).current = some version.versionRef then .current
    else (tables.replay version.assetRef).states version.versionRef
  predecessorVersionRef :=
    (((tables.chain version.assetRef).filter (·.kind ≠ .retirement)).find?
      (·.versionRef = version.versionRef)).bind Change.predecessorVersionRef
  successorVersionRefs :=
    (((tables.chain version.assetRef).filter (·.kind ≠ .retirement)).filter
      (·.predecessorVersionRef = some version.versionRef)).map Change.versionRef
  changes := (tables.chain version.assetRef).filter (·.touches version.versionRef)

theorem Tables.Sound.queryAssetLifecycle_eq (sound : Sound digest tables) {assetRef : String}
    (known : assetRef ∈ tables.assets) : queryAssetLifecycle digest tables assetRef = .ok {
      revision := (tables.chain assetRef).length
      currentVersionRef := (tables.replay assetRef).current
      changes := tables.chain assetRef
      versions := (tables.versions.selectBy (·.assetRef = assetRef) fun row => row.versionNumber).map
        (historyOf tables) } := by
  unfold queryAssetLifecycle
  rw [bind_eq_ok_iff]
  refine ⟨_, sound.verifiedLifecycle_eq assetRef, check_then_eq_ok_iff.mpr ⟨?_, ?_⟩⟩
  · simp [known]
  · rw [sound.head_revision, sound.head_current]
    refine congrArg Except.ok (congrArg _ (List.map_congr_left fun version member => ?_))
    have same := of_decide_eq_true (Table.mem_selectBy.mp member).2
    subst same
    rfl

theorem Tables.Sound.changes_of_queryAssetLifecycle (sound : Sound digest tables) {assetRef : String}
    {lifecycle : Lifecycle} (answer : queryAssetLifecycle digest tables assetRef = .ok lifecycle) :
    lifecycle.changes = tables.chain assetRef := by
  unfold queryAssetLifecycle at answer
  rw [sound.verifiedLifecycle_eq] at answer
  obtain ⟨_, ⟨⟩, answer⟩ := bind_eq_ok_iff.mp answer
  obtain ⟨_, ⟨⟩⟩ := check_then_eq_ok_iff.mp answer
  rfl

/-! ### The short reader -/

/-- The retirement of the latest creation, where there is one. -/
theorem Tables.Sound.current_of_latest (sound : Sound digest tables) (assetRef : String) :
    (if ((creationOf (tables.chain assetRef)).bind fun creation =>
        tables.changes.latest? (fun row => row.assetRef = assetRef &&
          row.versionRef = creation.versionRef && row.kind = .retirement)
          fun row => row.revision).isSome then none
      else (creationOf (tables.chain assetRef)).map Change.versionRef) =
      (tables.replay assetRef).current := by
  have chain := sound.chains assetRef
  rw [Tables.replay, chain.current_eq]
  cases created : creationOf (tables.chain assetRef) with
  | none => rfl
  | some creation =>
    rw [Option.bind_some, Option.bind_some, Option.map_some]
    have same := sound.latest_and assetRef fun row =>
      row.versionRef = creation.versionRef && row.kind = .retirement
    simp only [← Bool.and_assoc] at same
    rw [same]
    by_cases retired : (replayOf (tables.chain assetRef)).states creation.versionRef = .retired
    · obtain ⟨row, member, retires, touched⟩ := exists_of_retired retired
      rw [if_pos retired, if_pos]
      rw [List.getLast?_isSome]
      exact List.ne_nil_of_mem (List.mem_filter.mpr ⟨member, by simp [retires, touched]⟩)
    · rw [if_neg retired, if_neg]
      intro found
      obtain ⟨row, member⟩ := List.exists_mem_of_ne_nil _ (List.getLast?_isSome.mp found)
      obtain ⟨present, matching⟩ := List.mem_filter.mp member
      simp only [Bool.and_eq_true, decide_eq_true_eq] at matching
      have impossible := chain.retired_of_mem row present matching.2
      rw [matching.1] at impossible
      exact retired impossible

theorem Tables.find_version {version : Version} (member : version ∈ tables.versions) :
    (tables.versionsOf version.assetRef).find? (·.versionRef = version.versionRef) = some version := by
  cases found : (tables.versionsOf version.assetRef).find? (·.versionRef = version.versionRef) with
  | none =>
    have absent := List.find?_eq_none.mp found version (Table.mem_select.mpr ⟨member, by simp⟩)
    simp at absent
  | some other =>
    have same : other.versionRef = version.versionRef := by simpa using List.find?_some found
    exact congrArg some (Table.eq_of_key (Table.mem_select.mp (List.mem_of_find?_eq_some found)).1
      member same)

/-- The short reader answers for a version of the asset only. -/
theorem exists_of_queryAssetStatus {assetRef versionRef : String} {status : Status}
    (answer : queryAssetStatus digest tables assetRef (some versionRef) = .ok status) :
    ∃ version ∈ tables.versions, version.assetRef = assetRef ∧ version.versionRef = versionRef := by
  unfold queryAssetStatus at answer
  simp only [check_then_eq_ok_iff, Option.some_or] at answer
  obtain ⟨_, _, _, _, _, answer⟩ := answer
  cases found : (tables.versionsOf assetRef).find? (·.versionRef = versionRef) with
  | none =>
    rw [found] at answer
    cases answer
  | some version =>
    obtain ⟨present, owned⟩ := Table.mem_select.mp (List.mem_of_find?_eq_some found)
    exact ⟨version, present, of_decide_eq_true owned, by simpa using List.find?_some found⟩

/-- The answer of the short reader is the entry of the full one. -/
theorem Tables.Sound.queryAssetStatus_eq (sound : Sound digest tables) {version : Version}
    (member : version ∈ tables.versions) :
    queryAssetStatus digest tables version.assetRef (some version.versionRef) = .ok {
      revision := (tables.chain version.assetRef).length
      currentVersionRef := (tables.replay version.assetRef).current
      versionRef := version.versionRef
      state := (historyOf tables version).state
      changes := (historyOf tables version).changes } := by
  have chain := sound.chains version.assetRef
  have creation : tables.changes.latest?
      (fun row => row.assetRef = version.assetRef && row.kind ≠ .retirement)
      (fun row => row.revision) = creationOf (tables.chain version.assetRef) :=
    sound.latest_and version.assetRef fun row => row.kind ≠ .retirement
  have touching := sound.selectBy_and version.assetRef (·.touches version.versionRef)
  have state := replayOf_states_touching (tables.chain version.assetRef) version.versionRef
  unfold queryAssetStatus
  simp only [creation, touching, ← state, sound.latest, sound.current_of_latest, sound.head_revision,
    check_then_eq_ok_iff, checkAll_eq_ok_iff, require_eq_ok_iff, Option.some_or,
    Tables.find_version member, Option.mem_toList]
  refine ⟨fun row last => sound.genuine_of_mem (List.mem_of_getLast? last), ?_, fun row found =>
    sound.genuine_of_mem (mem_of_creationOf found).1, fun row found => ?_, ?_, fun row kept =>
    sound.genuine_of_mem (List.mem_filter.mp kept).1, decide_eq_true (sound.stated version member), rfl⟩
  · cases found : tables.heads.find? version.assetRef with
    | none => simp [sound.chain_of_headless found]
    | some head => simp [(sound.head_of_find? found).1, chain.revision_getLast]
  · obtain ⟨last, _, latest⟩ := Option.bind_eq_some_iff.mp found
    obtain ⟨present, matching⟩ := Table.mem_of_latest? latest
    simp only [Bool.and_eq_true] at matching
    exact sound.genuine_of_mem (Table.mem_select.mpr ⟨present, matching.1.1⟩)
  · cases found : tables.heads.find? version.assetRef with
    | none => rfl
    | some head => simp [(sound.head_of_find? found).2]

/-- Without a version, the short reader answers for the current one. -/
theorem Tables.Sound.queryAssetStatus_none (sound : Sound digest tables) {assetRef versionRef : String}
    (current : (tables.replay assetRef).current = some versionRef) :
    queryAssetStatus digest tables assetRef none =
      queryAssetStatus digest tables assetRef (some versionRef) := by
  have creation : tables.changes.latest?
      (fun row => row.assetRef = assetRef && row.kind ≠ .retirement)
      (fun row => row.revision) = creationOf (tables.chain assetRef) :=
    sound.latest_and assetRef fun row => row.kind ≠ .retirement
  unfold queryAssetStatus
  simp only [creation, sound.current_of_latest, current, Option.none_or, Option.some_or]

end MetaResearch.AssetLifecycle

import MetaResearch.Soundness.AssetLifecycle.Steps

/-! # Runs over the assets

From the tables that the migration leaves, every run of transactions keeps the tables sound. So both
readers answer for every asset and agree, a retired version is never touched again, and a retirement
takes effect once, however often it is sent.
-/

namespace MetaResearch.AssetLifecycle

variable {digest : String → String} {tables after : Tables}

open Tables (Sound)
open Datasets (canonicalHash)

/-! ### One call -/

theorem retirementReplay_of_some {idempotencyKey : String} {change : Change} {payload : Retirement}
    (stored : tables.retirement idempotencyKey = some change) :
    retirementReplay digest tables idempotencyKey payload = (do
      require (change.requestHash = canonicalHash digest (Payload.retirement payload).json)
        (.conflict "asset_retirement_idempotency_conflict")
      acceptedChange digest change
      pure (some change)) := by
  unfold Tables.retirement at stored
  rw [retirementReplay, stored]

theorem retirementReplay_of_none {idempotencyKey : String} {payload : Retirement}
    (stored : tables.retirement idempotencyKey = none) :
    retirementReplay digest tables idempotencyKey payload = .ok none := by
  unfold Tables.retirement at stored
  rw [retirementReplay, stored]

/-- A retirement that succeeds is stored under its key. -/
theorem Tables.Sound.of_retireAssetVersion (sound : Sound digest tables) {owners : Owners}
    {minted : Minted} {request : RetirementRequest} {change : Change}
    (success : retireAssetVersion digest owners request minted tables = .ok (change, after)) :
    (Sound digest after ∧ tables.Grows after) ∧ after.retirement request.idempotencyKey = some change ∧
      ∃ payload, retirementPayload request = .ok payload ∧
        change.requestHash = canonicalHash digest (Payload.retirement payload).json ∧
        change.Genuine digest := by
  unfold retireAssetVersion at success
  obtain ⟨payload, checked, success⟩ := bind_eq_ok_iff.mp success
  obtain ⟨replayed, known, success⟩ := bind_eq_ok_iff.mp success
  cases stored : tables.retirement request.idempotencyKey with
  | some row =>
    rw [retirementReplay_of_some stored] at known
    simp only [check_then_eq_ok_iff, require_eq_ok_iff, decide_eq_true_eq] at known
    obtain ⟨hash, genuine, ⟨⟩⟩ := known
    cases success
    exact ⟨⟨sound, .refl _⟩, stored, payload, checked, hash, genuine⟩
  | none =>
    rw [retirementReplay_of_none stored] at known
    cases known
    obtain ⟨kept, grows, -, -, -, key, hash, genuine, rows⟩ := sound.of_retire success
    refine ⟨⟨kept, grows⟩, ?_, payload, checked, hash, genuine⟩
    unfold Tables.retirement at stored ⊢
    rw [rows, List.find?_append, stored, Option.none_or, List.find?_singleton, if_pos (decide_eq_true key)]

theorem Tables.Sound.call (sound : Sound digest tables) (call : Call) :
    Sound digest (tables.call digest call) ∧ tables.Grows (tables.call digest call) := by
  unfold Tables.call
  cases ran : call.run digest tables with
  | error failure => exact ⟨sound, .refl tables⟩
  | ok after =>
    change Sound digest after ∧ tables.Grows after
    unfold Call.run at ran
    cases command : call.command with
    | intake request =>
      rw [command] at ran
      exact sound.of_acceptPreparedAsset ran
    | content versionRef acceptanceKind =>
      rw [command] at ran
      exact sound.of_mirrorContent ran
    | retire request =>
      rw [command] at ran
      cases retired : retireAssetVersion digest call.owners request call.minted tables with
      | error failure =>
        simp only [retired] at ran
        cases ran
      | ok result =>
        simp only [retired] at ran
        cases ran
        exact (sound.of_retireAssetVersion retired).1

/-! ### Runs -/

theorem Tables.Migrated.sound (migrated : tables.Migrated) : Sound digest tables := by
  have empty : ∀ assetRef, tables.chain assetRef = [] := fun assetRef => by
    rw [Tables.chain, migrated.changes]
    rfl
  have replay : ∀ assetRef, tables.replay assetRef = {} := fun assetRef => by
    rw [Tables.replay, empty, replayOf_nil]
  constructor
  · intro assetRef
    rw [empty]
    exact .nil
  · intro assetRef
    unfold Tables.Headed
    cases found : tables.heads.find? assetRef with
    | none => exact empty assetRef
    | some head =>
      rw [Option.elim_some, empty, replay]
      exact migrated.heads head (Table.mem_of_find? found)
  · intro version _
    rw [replay, Tables.stateOf]
    cases found : tables.states.find? version.versionRef with
    | none => rfl
    | some row => exact (migrated.states row (Table.mem_of_find? found)).1
  · exact fun row stored => (migrated.states row stored).2
  · exact migrated.versions
  · intro row member
    rw [migrated.changes] at member
    exact (Table.not_mem_empty row member).elim

/-- The tables after some calls. -/
def Tables.calls (digest : String → String) (tables : Tables) (calls : List Call) : Tables :=
  runInputs (Tables.call digest) tables calls

theorem Tables.Sound.calls (sound : Sound digest tables) (calls : List Call) :
    Sound digest (tables.calls digest calls) ∧ tables.Grows (tables.calls digest calls) := by
  induction calls generalizing tables with
  | nil => exact ⟨sound, .refl tables⟩
  | cons call rest ih =>
    obtain ⟨kept, grows⟩ := sound.call call
    obtain ⟨last, more⟩ := ih kept
    exact ⟨last, grows.trans more⟩

/-! ### Reading -/

theorem Tables.Sound.historyOf_retired_iff (sound : Sound digest tables) (version : Version) :
    (historyOf tables version).state = .retired ↔
      (tables.replay version.assetRef).states version.versionRef = .retired := by
  unfold historyOf
  dsimp only
  split_ifs with current
  · have usable := (sound.chains version.assetRef).current_not_retired current
    constructor
    · intro impossible
      cases impossible
    · exact fun retired => (usable retired).elim
  · exact Iff.rfl

/-- The current version is one of the asset. -/
theorem Tables.Sound.exists_of_current (sound : Sound digest tables) {assetRef versionRef : String}
    (current : (tables.replay assetRef).current = some versionRef) :
    ∃ version ∈ tables.versions, version.assetRef = assetRef ∧ version.versionRef = versionRef := by
  have chain := sound.chains assetRef
  rw [Tables.replay, chain.current_eq, Option.bind_eq_some_iff] at current
  obtain ⟨creation, found, chosen⟩ := current
  split_ifs at chosen
  cases chosen
  exact Tables.knows_iff.mp (chain.known_of_touches creation (mem_of_creationOf found).1 _
    (by simp [Change.touches]))

/-- Owners that accept everything and refer to nothing. -/
def quietOwners : Owners where
  quest _ := true
  assetReceipt _ := true
  versionReceipt _ := true
  referenceState := some fun _ => (0, [])
  retainedReferences _ := []
  activeHolds _ := []

def firstIntake : Call where
  owners := quietOwners
  minted := ⟨"asset", "version", "change:1", "receipt:1", "1.0"⟩
  command := .intake ⟨none, none, none, "first"⟩

def superfluousRetirement : RetirementRequest where
  versionRef := "version"
  expectedRevision := 1
  expectedReferenceRevision := 0
  explanation := some "superfluous"
  lowValue := true
  obsolete := true
  incorrect := true
  impactUnderstood := true
  hasExplanationValue := false
  idempotencyKey := "superfluous"

def retirementCall : Call where
  owners := quietOwners
  minted := ⟨"", "", "change:2", "receipt:2", "2.0"⟩
  command := .retire superfluousRetirement

/-- An intake that names the retired version as its predecessor. -/
def lateIntake : Call where
  owners := quietOwners
  minted := ⟨"", "version:2", "change:3", "receipt:3", "3.0"⟩
  command := .intake ⟨some "asset", some ⟨.supplement, "version", 2, "late", none⟩, none, "late"⟩

theorem migrated_empty : ({} : Tables).Migrated where
  changes := rfl
  heads _ member := (Table.not_mem_empty _ member).elim
  states _ member := (Table.not_mem_empty _ member).elim
  versions _ member := (Table.not_mem_empty _ member).elim

/-- In every run the two readers answer for every asset and agree on every version, and a version may
be used exactly when they do not call it retired. -/
theorem readers_agree {start : Tables} (migrated : start.Migrated) (calls : List Call) :
    ∀ assetRef ∈ (start.calls digest calls).assets, ∃ lifecycle,
      queryAssetLifecycle digest (start.calls digest calls) assetRef = .ok lifecycle ∧
      lifecycle.revision = lifecycle.changes.length ∧
      (∀ entry ∈ lifecycle.versions,
        queryAssetStatus digest (start.calls digest calls) assetRef (some entry.versionRef) = .ok {
          revision := lifecycle.revision
          currentVersionRef := lifecycle.currentVersionRef
          versionRef := entry.versionRef
          state := entry.state
          changes := entry.changes } ∧
        assertAssetUsable digest (start.calls digest calls) entry.versionRef =
          if entry.state = .retired then .error (.versionRetired entry.versionRef) else .ok ()) ∧
      ∀ versionRef, lifecycle.currentVersionRef = some versionRef →
        queryAssetStatus digest (start.calls digest calls) assetRef none =
          queryAssetStatus digest (start.calls digest calls) assetRef (some versionRef) ∧
        ∃ entry ∈ lifecycle.versions, entry.versionRef = versionRef ∧ entry.state = .current := by
  have sound : Sound digest (start.calls digest calls) := (migrated.sound.calls calls).1
  generalize start.calls digest calls = tables at sound ⊢
  intro assetRef known
  refine ⟨_, sound.queryAssetLifecycle_eq known, rfl, fun entry listed => ?_, fun versionRef current => ?_⟩
  · obtain ⟨version, member, rfl⟩ := List.mem_map.mp listed
    obtain ⟨present, owned⟩ := Table.mem_selectBy.mp member
    rw [decide_eq_true_eq] at owned
    subst owned
    refine ⟨sound.queryAssetStatus_eq present, ?_⟩
    simp only [sound.historyOf_retired_iff]
    exact sound.assertAssetUsable_eq present
  · obtain ⟨version, present, rfl, rfl⟩ := sound.exists_of_current current
    refine ⟨sound.queryAssetStatus_none current, historyOf tables version, List.mem_map.mpr ⟨version,
      Table.mem_selectBy.mpr ⟨present, by simp⟩, rfl⟩, rfl, ?_⟩
    exact if_pos current

theorem readers_agree_retired : ∃ lifecycle,
    queryAssetLifecycle (fun _ => "") (({} : Tables).calls (fun _ => "") [firstIntake, retirementCall])
      "asset" = .ok lifecycle ∧ lifecycle.revision = lifecycle.changes.length := by
  have known : "asset" ∈ (({} : Tables).calls (fun _ => "") [firstIntake, retirementCall]).assets :=
    List.mem_singleton_self "asset"
  obtain ⟨lifecycle, answer, counted, _⟩ :=
    readers_agree migrated_empty [firstIntake, retirementCall] "asset" known
  exact ⟨lifecycle, answer, counted⟩

/-- Once the readers call a version retired, every later run leaves it: they keep saying so with the
same changes, the version is not current, and it may not be used. -/
theorem retired_final {start : Tables} (migrated : start.Migrated) (calls more : List Call)
    {assetRef versionRef : String} {status : Status}
    (answer : queryAssetStatus digest (start.calls digest calls) assetRef (some versionRef) = .ok status)
    (retired : status.state = .retired) :
    ∃ later, queryAssetStatus digest ((start.calls digest calls).calls digest more) assetRef
        (some versionRef) = .ok later ∧
      later.state = .retired ∧ later.changes = status.changes ∧
      later.currentVersionRef ≠ some versionRef ∧
      assertAssetUsable digest ((start.calls digest calls).calls digest more) versionRef =
        .error (.versionRetired versionRef) := by
  have sound : Sound digest (start.calls digest calls) := (migrated.sound.calls calls).1
  generalize start.calls digest calls = tables at sound answer ⊢
  obtain ⟨kept, grows⟩ := sound.calls more
  generalize tables.calls digest more = after at kept grows ⊢
  obtain ⟨version, present, rfl, rfl⟩ : ∃ version ∈ tables.versions,
      version.assetRef = assetRef ∧ version.versionRef = versionRef :=
    exists_of_queryAssetStatus answer
  rw [sound.queryAssetStatus_eq present] at answer
  cases answer
  have before := (sound.historyOf_retired_iff version).mp retired
  obtain ⟨added, split⟩ := grows.chain version.assetRef
  have chain := kept.chains version.assetRef
  rw [← split] at chain
  obtain ⟨still, untouched⟩ := Chain.retired_append before chain
  rw [split] at still
  have later := (kept.historyOf_retired_iff version).mpr still
  refine ⟨_, kept.queryAssetStatus_eq (grows.version present), later, ?_, fun current => ?_, ?_⟩
  · change (after.chain version.assetRef).filter _ = (tables.chain version.assetRef).filter _
    have none : added.filter (·.touches version.versionRef) = [] :=
      List.filter_eq_nil_iff.mpr fun row member => by simp [untouched row member]
    rw [← split, List.filter_append, none, List.append_nil]
  · exact (kept.chains version.assetRef).current_not_retired current still
  · rw [kept.assertAssetUsable_eq (grows.version present)]
    exact if_pos still

theorem retired_final_late : ∃ later,
    queryAssetStatus (fun _ => "") ((({} : Tables).calls (fun _ => "") [firstIntake, retirementCall]).calls
      (fun _ => "") [lateIntake]) "asset" (some "version") = .ok later ∧ later.state = .retired := by
  obtain ⟨status, answer, retired⟩ : ∃ status, queryAssetStatus (fun _ => "") (({} : Tables).calls
      (fun _ => "") [firstIntake, retirementCall]) "asset" (some "version") = .ok status ∧
      status.state = .retired := ⟨_, rfl, rfl⟩
  obtain ⟨later, again, still, _⟩ := retired_final migrated_empty [firstIntake, retirementCall]
    [lateIntake] answer retired
  exact ⟨later, again, still⟩

/-! ### Repeating -/

/-- The version of a stored retirement is reported as retired, with the change. -/
theorem Tables.Sound.status_of_retirement (sound : Sound digest tables) {change : Change}
    (member : change ∈ tables.changes) (retires : change.kind = .retirement) :
    ∃ status, queryAssetStatus digest tables change.assetRef (some change.versionRef) = .ok status ∧
      status.state = .retired ∧ change ∈ status.changes := by
  have listed : change ∈ tables.chain change.assetRef := Table.mem_select.mpr ⟨member, by simp⟩
  have chain := sound.chains change.assetRef
  obtain ⟨version, present, owned, named⟩ := Tables.knows_iff.mp
    (chain.known_of_touches change listed change.versionRef (by simp [Change.touches]))
  rw [← owned, ← named, sound.queryAssetStatus_eq present]
  refine ⟨_, rfl, (sound.historyOf_retired_iff version).mpr ?_, List.mem_filter.mpr ⟨?_, ?_⟩⟩
  · rw [owned, named]
    exact chain.retired_of_mem change listed retires
  · exact owned ▸ listed
  · simp [Change.touches, named]

/-- The key of a stored retirement does not serve for another payload. -/
theorem retireAssetVersion_conflict {owners : Owners} {minted : Minted} {request : RetirementRequest}
    {payload : Retirement} {change : Change} (stored : tables.retirement request.idempotencyKey = some change)
    (valid : retirementPayload request = .ok payload)
    (apart : canonicalHash digest (Payload.retirement payload).json ≠ change.requestHash) :
    retireAssetVersion digest owners request minted tables =
      .error (.conflict "asset_retirement_idempotency_conflict") := by
  unfold retireAssetVersion
  rw [valid]
  change (retirementReplay digest tables request.idempotencyKey payload >>= _) = _
  rw [retirementReplay_of_some stored]
  simp only [require, decide_eq_false (Ne.symm apart)]
  rfl

end MetaResearch.AssetLifecycle

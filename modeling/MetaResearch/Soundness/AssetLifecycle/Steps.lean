import MetaResearch.Soundness.AssetLifecycle.Readers

/-! # Transactions keep an asset sound

A transaction adds assets and versions that nothing has touched, or appends one change that may follow
the chain of its asset, with the head and the states that the change amounts to. Assets, versions and
changes are never taken away.
-/

namespace MetaResearch.AssetLifecycle

variable {digest : String → String} {tables after : Tables} {owners : Owners} {minted : Minted}

open Tables (Sound)
open Datasets (canonicalHash)

/-! ### Tables -/

theorem inserted_eq_ok_iff {κ ρ : Type} {key : ρ → κ} {table : Option (Table key)} {result : Table key} :
    inserted table = .ok result ↔ table = some result := by
  cases table <;> simp [inserted]

theorem stateOf_setState (tables : Tables) (ref other : String) (state : VersionState) :
    (setState tables ref state).stateOf other = if ref = other then state else tables.stateOf other := by
  unfold setState
  cases added : tables.states.insert? ⟨ref, state⟩ with
  | some states =>
    simp only [Tables.stateOf, Table.find?_insert? added]
    split_ifs <;> rfl
  | none =>
    simp only [Tables.stateOf, Table.find?_update]
    cases found : tables.states.find? other with
    | none =>
      rw [Option.map_none, Option.map_none, if_neg]
      rintro rfl
      obtain ⟨row, member, same⟩ := Table.insert?_eq_none_iff.mp added
      exact Table.find?_eq_none_iff.mp found row member same
    | some row =>
      obtain ⟨_, rfl⟩ := Table.find?_eq_some_iff.mp found
      rw [Option.map_some, Option.map_some, Option.map_some, Option.getD_some, Option.getD_some]
      by_cases same : row.versionRef = ref
      · simp [same]
      · simp [same, Ne.symm same]

/-- The versions with a stored state are the earlier ones and the one that is set. -/
theorem exists_key_setState {ref versionRef : String} {state : VersionState} {row : VersionLifecycle}
    (member : row ∈ (setState tables ref state).states) (key : row.versionRef = versionRef) :
    versionRef = ref ∨ ∃ old ∈ tables.states, old.versionRef = versionRef := by
  unfold setState at member
  cases added : tables.states.insert? ⟨ref, state⟩ with
  | some states =>
    rw [added] at member
    rcases (Table.mem_insert? added).mp member with present | rfl
    · exact .inr ⟨row, present, key⟩
    · exact .inl key.symm
  | none =>
    rw [added] at member
    exact .inr (Table.exists_key_update.mp ⟨row, member, key⟩)

/-- A version whose state is set has a stored one. -/
theorem mem_setState (tables : Tables) (ref : String) (state : VersionState) :
    ∃ row ∈ (setState tables ref state).states, row.versionRef = ref := by
  unfold setState
  cases added : tables.states.insert? ⟨ref, state⟩ with
  | some states => exact ⟨⟨ref, state⟩, (Table.mem_insert? added).mpr (.inr rfl), rfl⟩
  | none => exact Table.exists_key_update.mpr (Table.insert?_eq_none_iff.mp added)

theorem find?_ensureHead (tables : Tables) (assetRef other : String) :
    (ensureHead tables assetRef).heads.find? other =
      if assetRef = other then some ((tables.heads.find? assetRef).getD ⟨assetRef, 0, none⟩)
      else tables.heads.find? other := by
  unfold ensureHead
  cases added : tables.heads.insert? ⟨assetRef, 0, none⟩ with
  | some heads =>
    have fresh := (Table.insert?_eq_some_iff.mp added).1
    have absent : tables.heads.find? assetRef = none := Table.find?_eq_none_iff.mpr fresh
    dsimp only
    rw [Table.find?_insert? added, absent]
    rfl
  | none =>
    split_ifs with same
    · subst same
      obtain ⟨head, member, same⟩ := Table.insert?_eq_none_iff.mp added
      have found : tables.heads.find? assetRef = some head := Table.find?_eq_some_iff.mpr ⟨member, same⟩
      rw [found, Option.getD_some]
    · rfl

theorem find?_setHead {assetRef : String} {rewrite : Head → Head}
    {keeps : ∀ head, (rewrite head).assetRef = head.assetRef} (other : String) :
    (setHead tables assetRef rewrite keeps).heads.find? other =
      if assetRef = other then (tables.heads.find? other).map rewrite else tables.heads.find? other := by
  unfold setHead
  rw [Table.find?_update]
  cases found : tables.heads.find? other with
  | none => simp
  | some head =>
    obtain ⟨_, rfl⟩ := Table.find?_eq_some_iff.mp found
    by_cases same : head.assetRef = assetRef
    · simp [same]
    · simp [same, Ne.symm same]

/-! ### Growth -/

/-- Nothing is taken away. -/
structure Tables.Grows (tables after : Tables) : Prop where
  assets : tables.assets <+: after.assets
  versions : tables.versions.rows <+: after.versions.rows
  changes : tables.changes.rows <+: after.changes.rows

theorem Tables.Grows.refl (tables : Tables) : tables.Grows tables :=
  ⟨List.prefix_rfl, List.prefix_rfl, List.prefix_rfl⟩

theorem Tables.Grows.trans {later : Tables} (first : tables.Grows after) (second : after.Grows later) :
    tables.Grows later :=
  ⟨first.assets.trans second.assets, first.versions.trans second.versions,
    first.changes.trans second.changes⟩

theorem Tables.Grows.version {version : Version} (grows : tables.Grows after)
    (member : version ∈ tables.versions) : version ∈ after.versions :=
  grows.versions.subset member

theorem Tables.Grows.chain (grows : tables.Grows after) (assetRef : String) :
    tables.chain assetRef <+: after.chain assetRef :=
  grows.changes.filter _

theorem Tables.Grows.addAsset (tables : Tables) (assetRef : String) :
    tables.Grows { tables with assets := tables.assets ++ [assetRef] } :=
  ⟨List.prefix_append _ _, List.prefix_rfl, List.prefix_rfl⟩

theorem Tables.Grows.addVersion {version : Version} {versions : Table Version.versionRef}
    (added : tables.versions.insert? version = some versions) :
    tables.Grows { tables with versions } where
  assets := List.prefix_rfl
  versions := by
    rw [(Table.insert?_eq_some_iff.mp added).2]
    exact List.prefix_append _ _
  changes := List.prefix_rfl

/-! ### New assets and versions -/

theorem Tables.Sound.addAsset (sound : Sound digest tables) (assetRef : String) :
    Sound digest { tables with assets := tables.assets ++ [assetRef] } where
  chains := sound.chains
  headed := sound.headed
  stated := sound.stated
  keyed := sound.keyed
  housed version member := List.mem_append_left _ (sound.housed version member)
  labelled := sound.labelled

/-- No change touches a version that is not there. -/
theorem Tables.Sound.untouched (sound : Sound digest tables) {versionRef : String}
    (fresh : ∀ version ∈ tables.versions, version.versionRef ≠ versionRef) (assetRef : String) :
    ∀ row ∈ tables.chain assetRef, row.touches versionRef = false := by
  intro row member
  rw [Bool.eq_false_iff]
  intro touched
  obtain ⟨version, present, _, same⟩ :=
    Tables.knows_iff.mp ((sound.chains assetRef).known_of_touches row member versionRef touched)
  exact fresh version present same

theorem Tables.Sound.addVersion (sound : Sound digest tables) {version : Version}
    {versions : Table Version.versionRef} (added : tables.versions.insert? version = some versions)
    (housed : version.assetRef ∈ tables.assets) : Sound digest { tables with versions } where
  chains assetRef := (sound.chains assetRef).mono fun ref known => by
    obtain ⟨other, present, owned⟩ := Tables.knows_iff.mp known
    exact Tables.knows_iff.mpr ⟨other, (Table.mem_insert? added).mpr (.inl present), owned⟩
  headed := sound.headed
  stated other member := by
    rcases (Table.mem_insert? added).mp member with present | rfl
    · exact sound.stated other present
    · have fresh := (Table.insert?_eq_some_iff.mp added).1
      have unselected : tables.states.find? other.versionRef = none :=
        Table.find?_eq_none_iff.mpr fun row stored same => by
          obtain ⟨version, present, owned⟩ := sound.keyed row stored
          exact fresh version present (owned.trans same)
      have untouched := states_of_untouched (sound.untouched fresh other.assetRef)
      simp only [Tables.stateOf, unselected, Option.map_none, Option.getD_none]
      exact untouched.symm
  keyed row stored := by
    obtain ⟨other, present, owned⟩ := sound.keyed row stored
    exact ⟨other, (Table.mem_insert? added).mpr (.inl present), owned⟩
  housed other member := by
    rcases (Table.mem_insert? added).mp member with present | rfl
    · exact sound.housed other present
    · exact housed
  labelled := sound.labelled

theorem ensureHead_eq (tables : Tables) (assetRef : String) :
    ensureHead tables assetRef = { tables with heads := (ensureHead tables assetRef).heads } := by
  unfold ensureHead
  cases tables.heads.insert? ⟨assetRef, 0, none⟩ <;> rfl

theorem Tables.Sound.ensured (sound : Sound digest tables) (assetRef : String) :
    Sound digest (ensureHead tables assetRef) := by
  rw [ensureHead_eq]
  refine ⟨sound.chains, fun other => ?_, sound.stated, sound.keyed, sound.housed, sound.labelled⟩
  unfold Tables.Headed
  dsimp only
  rw [find?_ensureHead]
  split_ifs with here
  · subst here
    cases found : tables.heads.find? assetRef with
    | none =>
      have empty := sound.chain_of_headless found
      have start : (tables.replay assetRef).current = none := by simp [Tables.replay, empty]
      exact ⟨(congrArg List.length empty).symm, start.symm⟩
    | some head => exact sound.head_of_find? found
  · exact sound.headed other

/-! ### A new change -/

/-- The tables after one more change, with the head and the states that it amounts to. -/
structure Tables.Appended (tables : Tables) (change : Change) (after : Tables) : Prop where
  assets : after.assets = tables.assets
  versions : after.versions = tables.versions
  changes : after.changes.rows = tables.changes.rows ++ [change]
  head : after.heads.find? change.assetRef = some ⟨change.assetRef,
    (tables.chain change.assetRef).length + 1, ((tables.replay change.assetRef).next change).current⟩
  heads : ∀ other, change.assetRef ≠ other → after.heads.find? other = tables.heads.find? other
  states : ∀ ref, after.stateOf ref = touchedState ref (tables.stateOf ref) change
  keyed : ∀ row ∈ after.states, row.versionRef = change.versionRef ∨
    change.predecessorVersionRef = some row.versionRef ∨
    ∃ old ∈ tables.states, old.versionRef = row.versionRef
  label : ∀ key, change.idempotencyKey = "retire:" ++ key → change.kind = .retirement

variable {change : Change}

theorem Tables.Appended.grows (appended : tables.Appended change after) : tables.Grows after where
  assets := appended.assets ▸ List.prefix_rfl
  versions := appended.versions ▸ List.prefix_rfl
  changes := by
    rw [appended.changes]
    exact List.prefix_append _ _

theorem Tables.Appended.chain_self (appended : tables.Appended change after) :
    after.chain change.assetRef = tables.chain change.assetRef ++ [change] := by
  simp [Tables.chain, Table.select, appended.changes]

theorem Tables.Appended.chain_other (appended : tables.Appended change after) {other : String}
    (apart : change.assetRef ≠ other) : after.chain other = tables.chain other := by
  simp [Tables.chain, Table.select, appended.changes, apart]

theorem Tables.Sound.append (sound : Sound digest tables) (appended : tables.Appended change after)
    (follows : Follows digest (tables.knows change.assetRef) (tables.chain change.assetRef) change) :
    Sound digest after := by
  have known : ∀ assetRef ref, after.knows assetRef ref = tables.knows assetRef ref := fun _ _ => by
    rw [Tables.knows, Tables.versionsOf, appended.versions]
    rfl
  have touches : ∀ ref, change.touches ref = true → tables.knows change.assetRef ref = true :=
    ((sound.chains change.assetRef).concat follows).known_of_touches change (by simp)
  constructor
  · intro assetRef
    by_cases here : change.assetRef = assetRef
    · subst here
      rw [appended.chain_self]
      exact ((sound.chains _).concat follows).mono fun ref there => (known _ ref).trans there
    · rw [appended.chain_other here]
      exact (sound.chains assetRef).mono fun ref there => (known _ ref).trans there
  · intro assetRef
    by_cases here : change.assetRef = assetRef
    · subst here
      unfold Tables.Headed Tables.replay
      rw [appended.head, appended.chain_self, Option.elim_some, replayOf_concat]
      simp [Tables.replay]
    · have headed := sound.headed assetRef
      unfold Tables.Headed Tables.replay at headed ⊢
      rwa [appended.heads assetRef here, appended.chain_other here]
  · intro version member
    rw [appended.versions] at member
    rw [appended.states, sound.stated version member]
    by_cases here : change.assetRef = version.assetRef
    · rw [Tables.replay, Tables.replay, ← here, appended.chain_self, replayOf_concat]
      rfl
    · rw [Tables.replay, Tables.replay, appended.chain_other here]
      refine touchedState_of_not_touches (Bool.eq_false_iff.mpr fun touched => here ?_)
      obtain ⟨other, present, owned, same⟩ := Tables.knows_iff.mp (touches _ touched)
      rw [← owned, Table.eq_of_key present member same]
  · intro row stored
    have named : change.touches row.versionRef = true ∨ ∃ old ∈ tables.states,
        old.versionRef = row.versionRef := by
      rcases appended.keyed row stored with same | named | earlier
      · exact .inl (by simp [Change.touches, same])
      · exact .inl (by simp [Change.touches, named])
      · exact .inr earlier
    rw [appended.versions]
    rcases named with touched | ⟨old, earlier, same⟩
    · obtain ⟨version, present, _, same⟩ := Tables.knows_iff.mp (touches _ touched)
      exact ⟨version, present, same⟩
    · obtain ⟨version, present, owned⟩ := sound.keyed old earlier
      exact ⟨version, present, owned.trans same⟩
  · intro version member
    rw [appended.assets]
    exact sound.housed version (appended.versions ▸ member)
  · intro row member key same
    rw [Table.mem_def, appended.changes, List.mem_append, List.mem_singleton] at member
    rcases member with earlier | rfl
    · exact sound.labelled row earlier key same
    · exact appended.label key same

/-- What `_record_asset_change` stores is genuine. -/
theorem of_recordAssetChange {assetRef versionRef idempotencyKey : String} {revision : ℕ}
    {payload : Payload} (success : recordAssetChange digest tables assetRef versionRef revision payload
      idempotencyKey minted = .ok (change, after)) :
    change.assetRef = assetRef ∧ change.versionRef = versionRef ∧ change.revision = revision ∧
      change.payload = payload ∧ change.kind = payload.kind ∧
      change.predecessorVersionRef = payload.predecessor ∧ change.idempotencyKey = idempotencyKey ∧
      change.requestHash = canonicalHash digest payload.json ∧ change.Genuine digest ∧
      ∃ changes : Table Change.changeRef, changes.rows = tables.changes.rows ++ [change] ∧
        after = { tables with changes } := by
  unfold recordAssetChange at success
  rw [check_then_eq_ok_iff, bind_eq_ok_iff] at success
  obtain ⟨_, changes, added, success⟩ := success
  rw [check_then_eq_ok_iff] at success
  obtain ⟨genuine, ⟨⟩⟩ := success
  exact ⟨rfl, rfl, rfl, rfl, rfl, rfl, rfl, rfl, genuine, changes,
    (Table.insert?_eq_some_iff.mp (inserted_eq_ok_iff.mp added)).2, rfl⟩

/-! ### Accepting -/

/-- What `_accept_asset_lifecycle` records names a predecessor of the asset that is usable and, where a
version is current, is the current one. -/
theorem Tables.Sound.of_lifecyclePayload (sound : Sound digest tables) {assetRef : String}
    {accepted : Option AssetChange} {originQuestRef : Option String} {payload : Payload}
    (success : lifecyclePayload digest owners tables assetRef (tables.heads.find? assetRef) accepted
      originQuestRef = .ok payload) :
    payload.kind ≠ .retirement ∧ payload.expectedRevision = (tables.chain assetRef).length ∧
      ∀ ref, payload.predecessor = some ref → tables.knows assetRef ref = true ∧ (tables.replay assetRef).states ref ≠ .retired ∧
        ((tables.replay assetRef).current = none ∨ (tables.replay assetRef).current = some ref) := by
  unfold lifecyclePayload at success
  cases accepted with
  | none =>
    simp only [check_then_eq_ok_iff] at success
    obtain ⟨unchanged, _, ⟨⟩⟩ := success
    rw [require_eq_ok_iff, decide_eq_true_eq, sound.head_revision] at unchanged
    exact ⟨by simp [Payload.kind], unchanged.symm, fun ref named => by cases named⟩
  | some accepted =>
    simp only [check_then_eq_ok_iff, require_eq_ok_iff] at success
    obtain ⟨decided, owned, current, usable, _, ⟨⟩⟩ := success
    rw [decide_eq_true_eq, sound.head_revision] at decided
    refine ⟨UpdateKind.changeKind_ne _, decided.symm, fun ref named => ?_⟩
    cases named
    obtain ⟨version, found, same⟩ := (Option.any_eq_true _ _).mp owned
    obtain ⟨member, key⟩ := Table.find?_eq_some_iff.mp found
    rw [decide_eq_true_eq] at same
    subst same
    rw [← key] at usable current ⊢
    rw [sound.head_current] at current
    refine ⟨Tables.knows_of_mem member, fun retired => ?_, ?_⟩
    · rw [sound.assertAssetUsable_eq member, if_pos retired] at usable
      cases usable
    · cases now : (tables.replay version.assetRef).current with
      | none => exact .inl rfl
      | some ref =>
        rw [now] at current
        exact .inr (congrArg some (by simpa using current))

theorem stateOf_insert_unselected {versionRef : String} {states : Table VersionLifecycle.versionRef}
    (added : tables.states.insert? ⟨versionRef, .unselected⟩ = some states) (ref : String) :
    ({ tables with states } : Tables).stateOf ref = tables.stateOf ref := by
  have fresh := (Table.insert?_eq_some_iff.mp added).1
  simp only [Tables.stateOf, Table.find?_insert? added]
  split_ifs with same
  · subst same
    rw [Table.find?_eq_none_iff.mpr fresh]
    rfl
  · rfl

theorem setState_eq (tables : Tables) (ref : String) (state : VersionState) :
    setState tables ref state = { tables with states := (setState tables ref state).states } := by
  unfold setState
  cases tables.states.insert? ⟨ref, state⟩ <;> rfl

/-- The predecessor of a change is superseded, and nothing else is touched. -/
theorem supersede_eq (tables : Tables) (creates : change.kind ≠ .retirement) :
    ∃ states : Table VersionLifecycle.versionRef,
      change.predecessorVersionRef.elim tables (setState tables · .superseded) = { tables with states } ∧
      (∀ ref, ({ tables with states } : Tables).stateOf ref =
        touchedState ref (tables.stateOf ref) change) ∧
      (∀ row ∈ states, change.predecessorVersionRef = some row.versionRef ∨
        ∃ old ∈ tables.states, old.versionRef = row.versionRef) ∧
      ∀ ref, change.predecessorVersionRef = some ref → ∃ row ∈ states, row.versionRef = ref := by
  cases named : change.predecessorVersionRef with
  | none =>
    refine ⟨tables.states, rfl, fun ref => ?_, fun row stored => .inr ⟨row, stored, rfl⟩, fun ref impossible =>
      by cases impossible⟩
    simp [touchedState, creates, named]
  | some predecessor =>
    refine ⟨(setState tables predecessor .superseded).states, setState_eq .., fun ref => ?_,
      fun row stored => ?_, fun ref same => ?_⟩
    · rw [← setState_eq, stateOf_setState]
      simp [touchedState, creates, named]
    · exact (exists_key_setState stored rfl).imp_left fun same => congrArg some same.symm
    · cases same
      exact mem_setState tables predecessor .superseded

/-- The key of an intake is none of a retirement. -/
theorem intake_ne_retire (first second : String) : "intake:" ++ first ≠ "retire:" ++ second := by
  intro same
  have characters := congrArg String.toList same
  simp at characters

/-- After its checks, `_accept_asset_lifecycle` appends a change that may follow. -/
theorem Tables.Sound.appended_creation (sound : Sound digest tables) {assetRef versionRef : String}
    {idempotencyKey : String} {head : Head} {payload : Payload}
    {states : Table VersionLifecycle.versionRef} {keeps}
    (known : tables.knows assetRef versionRef = true)
    (untouched : ∀ row ∈ tables.chain assetRef, row.touches versionRef = false)
    (found : tables.heads.find? assetRef = some head)
    (creates : payload.kind ≠ .retirement)
    (decided : payload.expectedRevision = (tables.chain assetRef).length)
    (predecessor : ∀ ref, payload.predecessor = some ref →
      tables.knows assetRef ref = true ∧ (tables.replay assetRef).states ref ≠ .retired ∧
        ((tables.replay assetRef).current = none ∨ (tables.replay assetRef).current = some ref))
    (added : (payload.predecessor.elim tables (setState tables · .superseded)).states.insert?
      ⟨versionRef, .unselected⟩ = some states)
    (recorded : recordAssetChange digest (setHead
        { payload.predecessor.elim tables (setState tables · .superseded) with states } assetRef
        (fun head' => { head' with revision := head.revision + 1, currentVersionRef := some versionRef })
        keeps) assetRef versionRef (head.revision + 1) payload ("intake:" ++ idempotencyKey) minted =
          .ok (change, after)) :
    tables.Appended change after ∧
      Follows digest (tables.knows change.assetRef) (tables.chain change.assetRef) change := by
  obtain ⟨rfl, rfl, revision, rfl, kind, named, label, -, genuine, changes, rows, rfl⟩ :=
    of_recordAssetChange recorded
  obtain ⟨length, -⟩ := sound.head_of_find? found
  have creates : change.kind ≠ .retirement := kind ▸ creates
  obtain ⟨stored, superseded, stateOf, keys, present⟩ := supersede_eq tables creates
  rw [← named, superseded] at added rows ⊢
  rw [← named] at predecessor
  have fresh := (Table.insert?_eq_some_iff.mp added).1
  clear recorded
  constructor
  · constructor
    · rfl
    · rfl
    · exact rows
    · change (setHead { tables with states } change.assetRef _ keeps).heads.find? change.assetRef = _
      rw [find?_setHead, if_pos rfl]
      change (tables.heads.find? change.assetRef).map _ = _
      simp [found, Replay.next, creates, length, (Table.find?_eq_some_iff.mp found).2]
    · intro other apart
      change (setHead { tables with states } change.assetRef _ keeps).heads.find? other = _
      rw [find?_setHead, if_neg apart]
    · intro ref
      rw [← stateOf ref, ← stateOf_insert_unselected added ref]
      rfl
    · intro row member
      rcases (Table.mem_insert? added).mp member with earlier | rfl
      · exact .inr (keys row earlier)
      · exact .inl rfl
    · intro key same
      exact (intake_ne_retire idempotencyKey key (label.symm.trans same)).elim
  · refine ⟨genuine, revision.trans (congrArg (· + 1) length), decided, ⟨known, predecessor⟩, fun _ => untouched,
      fun same => ?_, fun retires => (creates retires).elim⟩
    obtain ⟨row, member, key⟩ := present _ same
    exact fresh row member key

/-- The lifecycle of an inserted version that nothing has touched. -/
theorem Tables.Sound.of_acceptAssetLifecycle (sound : Sound digest tables) {assetRef versionRef : String}
    {accepted : Option AssetChange} {originQuestRef : Option String} {idempotencyKey : String}
    (known : tables.knows assetRef versionRef = true)
    (untouched : ∀ row ∈ tables.chain assetRef, row.touches versionRef = false)
    (success : acceptAssetLifecycle digest owners tables assetRef versionRef accepted originQuestRef
      idempotencyKey minted = .ok after) : Sound digest after ∧ tables.Grows after := by
  unfold acceptAssetLifecycle at success
  obtain ⟨heads, ensure⟩ : ∃ heads, ensureHead tables assetRef = { tables with heads } :=
    ⟨_, ensureHead_eq tables assetRef⟩
  have ensured := sound.ensured assetRef
  have head := find?_ensureHead tables assetRef assetRef
  rw [if_pos rfl] at head
  simp only [ensured.verifiedLifecycle_eq, head, bind_eq_ok_iff] at success
  obtain ⟨_, ⟨⟩, payload, checked, states, added, ⟨change, _⟩, recorded, ⟨⟩⟩ := success
  rw [← head] at checked
  obtain ⟨creates, decided, predecessor⟩ := ensured.of_lifecyclePayload checked
  have untouched : ∀ row ∈ (ensureHead tables assetRef).chain assetRef, row.touches versionRef = false := by
    rwa [ensure]
  have known : (ensureHead tables assetRef).knows assetRef versionRef = true := by
    rwa [ensure]
  obtain ⟨appended, follows⟩ := ensured.appended_creation known untouched head creates decided
    predecessor (inserted_eq_ok_iff.mp added) recorded
  refine ⟨ensured.append appended follows, Tables.Grows.trans ?_ appended.grows⟩
  rw [ensure]
  exact ⟨List.prefix_rfl, List.prefix_rfl, List.prefix_rfl⟩

/-- A version is inserted for an asset that the tables have, and then accepted. -/
theorem Tables.Sound.of_insertedVersion (sound : Sound digest tables) {version : Version}
    {versions : Table Version.versionRef} {accepted : Option AssetChange} {originQuestRef : Option String}
    {idempotencyKey : String} (housed : version.assetRef ∈ tables.assets)
    (added : tables.versions.insert? version = some versions)
    (success : acceptAssetLifecycle digest owners { tables with versions } version.assetRef
      version.versionRef accepted originQuestRef idempotencyKey minted = .ok after) :
    Sound digest after ∧ tables.Grows after := by
  have known : ({ tables with versions } : Tables).knows version.assetRef version.versionRef = true :=
    Tables.knows_iff.mpr ⟨version, (Table.mem_insert? added).mpr (.inr rfl), rfl, rfl⟩
  have untouched := sound.untouched (Table.insert?_eq_some_iff.mp added).1 version.assetRef
  obtain ⟨kept, more⟩ := (sound.addVersion added housed).of_acceptAssetLifecycle known untouched success
  exact ⟨kept, Tables.Grows.trans (.addVersion added) more⟩

/-- An accepted intake keeps the tables sound. -/
theorem Tables.Sound.of_acceptPreparedAsset (sound : Sound digest tables) {intake : Intake}
    (success : acceptPreparedAsset digest owners intake minted tables = .ok after) :
    Sound digest after ∧ tables.Grows after := by
  unfold acceptPreparedAsset at success
  cases target : intake.assetRef with
  | none =>
    rw [target] at success
    dsimp only at success
    split_ifs at success with taken
    · cases success
    · obtain ⟨_, ⟨⟩, success⟩ := bind_eq_ok_iff.mp success
      obtain ⟨versions, added, success⟩ := bind_eq_ok_iff.mp success
      obtain ⟨kept, more⟩ := (sound.addAsset minted.assetRef).of_insertedVersion (by simp)
        (inserted_eq_ok_iff.mp added) success
      exact ⟨kept, (Tables.Grows.addAsset tables minted.assetRef).trans more⟩
  | some assetRef =>
    rw [target] at success
    dsimp only at success
    rw [check_then_eq_ok_iff, require_eq_ok_iff] at success
    obtain ⟨housed, success⟩ := success
    obtain ⟨_, ⟨⟩, success⟩ := bind_eq_ok_iff.mp success
    obtain ⟨versions, added, success⟩ := bind_eq_ok_iff.mp success
    exact sound.of_insertedVersion (by simpa using housed) (inserted_eq_ok_iff.mp added) success

/-- A content of another kind joins as an asset that nothing has touched. -/
theorem Tables.Sound.of_mirrorContent (sound : Sound digest tables) {versionRef acceptanceKind : String}
    (success : mirrorContent versionRef acceptanceKind tables = .ok after) :
    Sound digest after ∧ tables.Grows after := by
  unfold mirrorContent at success
  rw [check_then_eq_ok_iff, bind_eq_ok_iff] at success
  obtain ⟨_, versions, added, ⟨⟩⟩ := success
  have added := inserted_eq_ok_iff.mp added
  exact ⟨(sound.addAsset versionRef).addVersion added (List.mem_append_right _ (List.mem_singleton_self _)),
    (Tables.Grows.addAsset tables versionRef).trans (.addVersion added)⟩

/-! ### Retiring -/

/-- After its checks, a retirement appends a change that may follow. -/
theorem Tables.Sound.appended_retirement (sound : Sound digest tables) {version : Version}
    {payload : Retirement} {idempotencyKey : String} {keeps}
    (member : version ∈ tables.versions) (named : version.versionRef = payload.versionRef)
    (revision : (tables.chain version.assetRef).length = payload.expectedRevision)
    (usable : (tables.replay version.assetRef).states version.versionRef ≠ .retired)
    (recorded : recordAssetChange digest (setHead
        (setState (ensureHead tables version.assetRef) payload.versionRef .retired) version.assetRef
        (fun head => { head with
          revision := head.revision + 1
          currentVersionRef :=
            if head.currentVersionRef = some payload.versionRef then none else head.currentVersionRef })
        keeps) version.assetRef payload.versionRef (payload.expectedRevision + 1) (.retirement payload)
          idempotencyKey minted = .ok (change, after)) :
    tables.Appended change after ∧
      Follows digest (tables.knows change.assetRef) (tables.chain change.assetRef) change := by
  obtain ⟨asset, ref, number, stored, kind, predecessor, -, -, genuine, changes, rows, rfl⟩ :=
    of_recordAssetChange recorded
  have retires : change.kind = .retirement := kind
  have alone : change.predecessorVersionRef = none := predecessor
  obtain ⟨heads, ensure⟩ : ∃ heads, ensureHead tables version.assetRef = { tables with heads } :=
    ⟨_, ensureHead_eq tables version.assetRef⟩
  have head := find?_ensureHead tables version.assetRef
  rw [ensure, setState_eq] at rows ⊢
  rw [ensure] at head
  dsimp only at head
  rw [asset]
  clear recorded
  constructor
  · constructor
    · rfl
    · rfl
    · exact rows
    · rw [asset]
      change (setHead { tables with heads } version.assetRef _ keeps).heads.find? version.assetRef = _
      rw [find?_setHead, if_pos rfl]
      change (heads.find? version.assetRef).map _ = _
      rw [head, if_pos rfl]
      cases found : tables.heads.find? version.assetRef with
      | none =>
        have empty := sound.chain_of_headless found
        simp [Tables.replay, empty, Replay.next, retires]
      | some old =>
        obtain ⟨length, current⟩ := sound.head_of_find? found
        simp [Replay.next, retires, length, current, ref, (Table.find?_eq_some_iff.mp found).2]
    · intro other apart
      rw [asset] at apart
      change (setHead { tables with heads } version.assetRef _ keeps).heads.find? other = _
      rw [find?_setHead, if_neg apart]
      change heads.find? other = _
      rw [head, if_neg apart]
    · intro other
      change (setState { tables with heads } payload.versionRef .retired).stateOf other = _
      rw [stateOf_setState]
      by_cases same : payload.versionRef = other
      · simp [touchedState, retires, ref, same]
      · rw [if_neg same]
        simp [touchedState, retires, alone, ref, same]
        rfl
    · intro row member
      rw [ref]
      exact (exists_key_setState member rfl).imp_right .inr
    · exact fun _ _ => retires
  · refine ⟨genuine, number.trans (congrArg (· + 1) revision.symm), stored ▸ revision.symm, ⟨?_, fun other impossible => ?_⟩,
      fun creates => (creates retires).elim, by simp [alone], fun _ => ?_⟩
    · rw [ref, ← named]
      exact Tables.knows_of_mem member
    · rw [alone] at impossible
      cases impossible
    · rw [ref, ← named]
      exact usable

/-- The retirement that is stored under a key. -/
def Tables.retirement (tables : Tables) (idempotencyKey : String) : Option Change :=
  tables.changes.rows.find? (·.idempotencyKey = "retire:" ++ idempotencyKey)

/-- A key that has been used is answered with what was stored, and a new one by a new change. -/
theorem Tables.Sound.of_retire (sound : Sound digest tables) {payload : Retirement}
    {idempotencyKey : String}
    (success : retire digest owners payload idempotencyKey minted tables = .ok (change, after)) :
    Sound digest after ∧ tables.Grows after ∧ change.payload = .retirement payload ∧
      change.kind = .retirement ∧ change.versionRef = payload.versionRef ∧
      change.idempotencyKey = "retire:" ++ idempotencyKey ∧
      change.requestHash = canonicalHash digest (Payload.retirement payload).json ∧
      change.Genuine digest ∧ after.changes.rows = tables.changes.rows ++ [change] := by
  unfold retire at success
  cases found : tables.versions.find? payload.versionRef with
  | none =>
    rw [found] at success
    cases success
  | some version =>
    obtain ⟨member, named⟩ := Table.find?_eq_some_iff.mp found
    rw [found] at success
    dsimp only at success
    rw [sound.verifiedLifecycle_eq, check_then_eq_ok_iff] at success
    obtain ⟨_, success⟩ := success
    obtain ⟨_, ⟨⟩, success⟩ := bind_eq_ok_iff.mp success
    dsimp only at success
    rw [check_then_eq_ok_iff, require_eq_ok_iff, decide_eq_true_eq, sound.head_revision,
      check_then_eq_ok_iff, ← named, sound.assertAssetUsable_eq member] at success
    obtain ⟨revision, usable, success⟩ := success
    have usable : (tables.replay version.assetRef).states version.versionRef ≠ .retired := by
      intro retired
      rw [if_pos retired] at usable
      cases usable
    cases answer : owners.referenceState with
    | none =>
      rw [answer] at success
      cases success
    | some reader =>
      rw [answer] at success
      dsimp only at success
      rw [check_then_eq_ok_iff] at success
      obtain ⟨_, success⟩ := success
      obtain ⟨⟨row, between⟩, recorded, ⟨⟩⟩ := bind_eq_ok_iff.mp success
      rw [named] at recorded
      obtain ⟨appended, follows⟩ := sound.appended_retirement member named revision usable recorded
      obtain ⟨-, ref, -, same, kind, -, key, hash, genuine, -⟩ :=
        of_recordAssetChange recorded
      have kept := sound.append appended follows
      exact ⟨⟨kept.chains, kept.headed, kept.stated, kept.keyed, kept.housed, kept.labelled⟩,
        ⟨appended.grows.assets, appended.grows.versions, appended.grows.changes⟩, same, kind, ref, key, hash,
        genuine, appended.changes⟩

end MetaResearch.AssetLifecycle

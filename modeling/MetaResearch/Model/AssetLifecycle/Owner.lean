import MetaResearch.Model.AssetLifecycle.Records
import MetaResearch.ToMathlib.Run
import MetaResearch.ToMathlib.SortByKey
import Mathlib.Logic.Function.Basic

/-! # The lifecycle of an asset

The full reader replays every change of an asset and compares the result with the stored head and the
stored states; the writers run it first. The status reader looks only at the latest change, the latest
creation and the changes that touch one version. A transaction that raises changes nothing. What
other Owners answer is part of each call; references minted with a fresh UUID are part of it as well,
and a reference that is already taken violates a constraint.
-/

namespace MetaResearch.AssetLifecycle

open Datasets (AcceptedAssetBinding datasetAssetBinding canonicalHash)

/-! ### Reading -/

namespace Tables

def versionsOf (tables : Tables) (assetRef : String) : List Version :=
  tables.versions.select (·.assetRef = assetRef)

/-- `COALESCE(l.state,'unselected')` -/
def stateOf (tables : Tables) (versionRef : String) : VersionState :=
  ((tables.states.find? versionRef).map VersionLifecycle.state).getD .unselected

/-- The changes of an asset, `ORDER BY revision`. -/
def changesOf (tables : Tables) (assetRef : String) : List Change :=
  tables.changes.selectBy (·.assetRef = assetRef) fun row => row.revision

end Tables

/-- The states and the current version that the changes so far amount to. -/
structure Replay where
  states : String → VersionState := fun _ => .unselected
  current : Option String := none

/-- One round of the loop of `_verified_lifecycle`; `known` are the versions of the asset. -/
def Replay.step (known : String → Bool) (replay : Replay) (revision : ℕ) (change : Change) :
    Except Failure Replay := do
  require (change.revision = revision && known change.versionRef)
    (.conflict "asset_lifecycle_state_invalid")
  if change.kind = .retirement then
    pure {
      states := Function.update replay.states change.versionRef .retired
      current := if replay.current = some change.versionRef then none else replay.current }
  else
    match change.predecessorVersionRef with
    | none => pure { replay with current := some change.versionRef }
    | some predecessor => do
      require (known predecessor && replay.states predecessor ≠ .retired &&
        (replay.current = none || replay.current = some predecessor))
        (.conflict "asset_lifecycle_state_invalid")
      pure {
        states := Function.update replay.states predecessor .superseded
        current := some change.versionRef }

/-- The loop of `_verified_lifecycle` from a revision on. -/
def replayChanges (known : String → Bool) : ℕ → Replay → List Change → Except Failure Replay
  | _, replay, [] => .ok replay
  | revision, replay, change :: rest => do
    let replay ← replay.step known revision change
    replayChanges known (revision + 1) replay rest

section Digest

variable (digest : String → String)

/-- `_verified_lifecycle` -/
def verifiedLifecycle (tables : Tables) (assetRef : String) :
    Except Failure (Option Head × List Change × Replay) := do
  let head := tables.heads.find? assetRef
  let changes := tables.changesOf assetRef
  checkAll (acceptedChange digest) changes
  let versions := tables.versionsOf assetRef
  let replay ← replayChanges (fun ref => versions.any (·.versionRef = ref)) 1 {} changes
  require (head.elim changes.isEmpty fun head =>
    head.revision = changes.length && head.currentVersionRef = replay.current)
    (.conflict "asset_lifecycle_state_invalid")
  require (versions.all fun version => tables.stateOf version.versionRef = replay.states version.versionRef)
    (.conflict "asset_lifecycle_state_invalid")
  pure (head, changes, replay)

/-- `assert_asset_usable` -/
def assertAssetUsable (tables : Tables) (versionRef : String) : Except Failure Unit := do
  match tables.versions.find? versionRef with
  | none => .error (.conflict "asset_not_found")
  | some version => do
    let (_, _, replay) ← verifiedLifecycle digest tables version.assetRef
    require (replay.states versionRef ≠ .retired) (.versionRetired versionRef)

/-- What both readers say about one version of an asset. -/
structure Status where
  revision : ℕ
  currentVersionRef : Option String
  versionRef : String
  state : VersionState
  /-- The changes that touch the version, which give its applicability. -/
  changes : List Change
deriving DecidableEq, Repr

def Change.touches (change : Change) (versionRef : String) : Bool :=
  change.versionRef = versionRef || change.predecessorVersionRef = some versionRef

/-- One round of the loop of `query_asset_status` over the changes that touch a version. -/
def touchedState (versionRef : String) (state : VersionState) (change : Change) : VersionState :=
  if change.kind = .retirement && change.versionRef = versionRef then .retired
  else if change.predecessorVersionRef = some versionRef then .superseded
  else state

/-- `query_asset_status`. Of the retirements of the latest creation, the row that is read is verified. -/
def queryAssetStatus (tables : Tables) (assetRef : String) (versionRef : Option String) :
    Except Failure Status := do
  let head := tables.heads.find? assetRef
  let latest := tables.changes.latest? (·.assetRef = assetRef) fun row => row.revision
  let creation := tables.changes.latest?
    (fun row => row.assetRef = assetRef && row.kind ≠ .retirement) fun row => row.revision
  checkAll (acceptedChange digest) latest.toList
  require (head.elim latest.isNone (·.revision = latest.elim 0 Change.revision))
    (.conflict "asset_lifecycle_state_invalid")
  checkAll (acceptedChange digest) creation.toList
  let retirement := creation.bind fun creation => tables.changes.latest?
    (fun row => row.assetRef = assetRef && row.versionRef = creation.versionRef &&
      row.kind = .retirement) fun row => row.revision
  checkAll (acceptedChange digest) retirement.toList
  let current := if retirement.isSome then none else creation.map Change.versionRef
  require (head.all (·.currentVersionRef = current)) (.conflict "asset_lifecycle_state_invalid")
  let selected := (versionRef.or current).or
    ((tables.versions.latest? (·.assetRef = assetRef) fun row => row.versionNumber).map
      Version.versionRef)
  match selected with
  | none => .error (.conflict "asset_not_found")
  | some versionRef =>
    match (tables.versionsOf assetRef).find? (·.versionRef = versionRef) with
    | none => .error (.conflict "asset_not_found")
    | some version => do
      let rows := tables.changes.selectBy
        (fun row => row.assetRef = assetRef && row.touches versionRef) fun row => row.revision
      checkAll (acceptedChange digest) rows
      let state := rows.foldl (touchedState versionRef) .unselected
      require (tables.stateOf version.versionRef = state) (.conflict "asset_lifecycle_state_invalid")
      pure {
        revision := head.elim 0 Head.revision
        currentVersionRef := current
        versionRef := versionRef
        state := if current = some versionRef then .current else state
        changes := rows }

/-- One version in the answer of the full reader. -/
structure VersionHistory where
  versionRef : String
  state : VersionState
  predecessorVersionRef : Option String
  successorVersionRefs : List String
  changes : List Change
deriving DecidableEq, Repr

structure Lifecycle where
  revision : ℕ
  currentVersionRef : Option String
  changes : List Change
  versions : List VersionHistory
deriving DecidableEq, Repr

/-- `query_asset_lifecycle`. The predecessor of a version is the one of its first creation. -/
def queryAssetLifecycle (tables : Tables) (assetRef : String) : Except Failure Lifecycle := do
  let (head, changes, replay) ← verifiedLifecycle digest tables assetRef
  require (head.isSome || tables.assets.contains assetRef) (.conflict "asset_not_found")
  let current := head.bind Head.currentVersionRef
  let creations := changes.filter (·.kind ≠ .retirement)
  pure {
    revision := head.elim 0 Head.revision
    currentVersionRef := current
    changes := changes
    versions := (tables.versions.selectBy (·.assetRef = assetRef) fun row => row.versionNumber).map
      fun version => {
        versionRef := version.versionRef
        state := if current = some version.versionRef then .current else replay.states version.versionRef
        predecessorVersionRef := (creations.find? (·.versionRef = version.versionRef)).bind
          Change.predecessorVersionRef
        successorVersionRefs := (creations.filter
          (·.predecessorVersionRef = some version.versionRef)).map Change.versionRef
        changes := changes.filter (·.touches version.versionRef) } }

/-! ### Writing -/

/-- The references and the time that a transaction mints. -/
structure Minted where
  assetRef : String
  versionRef : String
  changeRef : String
  receiptRef : String
  now : String
deriving DecidableEq, Repr

/-- What other Owners answer in a transaction. -/
structure Owners where
  /-- The Quest exists. -/
  quest : String → Bool
  /-- `verify_asset_receipt` returns. -/
  assetReceipt : AcceptedAssetBinding → Bool
  /-- `verify_asset_receipt` returns for the stored version. -/
  versionReceipt : Version → Bool
  /-- `query_asset_reference_state`, where there is a reader of references. -/
  referenceState : Option (String → ℤ × List String)
  /-- `retained_asset_references` and `_retained_scientific_asset_references` -/
  retainedReferences : String → List String
  /-- The active holds on a version. -/
  activeHolds : String → List String

def inserted {κ ρ : Type} {key : ρ → κ} : Option (Table key) → Except Failure (Table key)
  | some table => .ok table
  | none => .error .integrityError

/-- `_record_asset_change`: the idempotency key and the revision of an asset are unique. -/
def recordAssetChange (tables : Tables) (assetRef versionRef : String) (revision : ℕ) (payload : Payload)
    (idempotencyKey : String) (minted : Minted) : Except Failure (Change × Tables) := do
  let row : Change := {
    changeRef := minted.changeRef
    assetRef := assetRef
    versionRef := versionRef
    predecessorVersionRef := payload.predecessor
    revision := revision
    kind := payload.kind
    payload := payload
    requestHash := canonicalHash digest payload.json
    idempotencyKey := idempotencyKey
    receiptRef := minted.receiptRef
    receiptHash := receiptHashOf digest minted.changeRef assetRef versionRef payload revision minted.now
    acceptedAt := minted.now }
  require (tables.changes.rows.all fun other => other.idempotencyKey ≠ idempotencyKey &&
    !(other.assetRef = assetRef && other.revision = revision)) .integrityError
  let changes ← inserted (tables.changes.insert? row)
  acceptedChange digest row
  pure (row, { tables with changes := changes })

/-- `INSERT OR IGNORE INTO rm_asset_lifecycle(asset_ref)` -/
def ensureHead (tables : Tables) (assetRef : String) : Tables :=
  match tables.heads.insert? ⟨assetRef, 0, none⟩ with
  | some heads => { tables with heads := heads }
  | none => tables

/-- Insert the state of a version, or overwrite the one there is. -/
def setState (tables : Tables) (versionRef : String) (state : VersionState) : Tables :=
  match tables.states.insert? ⟨versionRef, state⟩ with
  | some states => { tables with states := states }
  | none => { tables with
      states := tables.states.update (·.versionRef = versionRef)
        ⟨fun row => { row with state := state }, fun _ => rfl⟩ }

def setHead (tables : Tables) (assetRef : String) (rewrite : Head → Head)
    (keeps : ∀ head, (rewrite head).assetRef = head.assetRef) : Tables :=
  { tables with heads := tables.heads.update (·.assetRef = assetRef) ⟨rewrite, keeps⟩ }

/-- The checks of `_accept_asset_lifecycle`, with the payload to record. -/
def lifecyclePayload (owners : Owners) (tables : Tables) (assetRef : String) (head : Option Head)
    (change : Option AssetChange) (originQuestRef : Option String) : Except Failure Payload :=
  let revision := head.elim 0 Head.revision
  match change with
  | none => do
    require (revision = 0) (.conflict "asset_change_required")
    require (originQuestRef.all owners.quest) (.conflict "asset_origin_quest_invalid")
    pure (.initial originQuestRef)
  | some change => do
    require (revision = change.expectedRevision) (.conflict "asset_revision_stale")
    require ((tables.versions.find? change.predecessorVersionRef).any (·.assetRef = assetRef))
      (.conflict "asset_change_predecessor_invalid")
    require ((head.bind Head.currentVersionRef).all (· = change.predecessorVersionRef))
      (.conflict "asset_change_predecessor_stale")
    assertAssetUsable digest tables change.predecessorVersionRef
    checkAll (fun binding => do
      (datasetAssetBinding binding).mapError .conflict
      assertAssetUsable digest tables binding.versionRef
      require (owners.assetReceipt binding) (.conflict "asset_receipt_invalid"))
      (change.correction.elim [] Correction.evidenceBindings)
    pure (.change change)

/-- `_accept_asset_lifecycle`, for a version that has just been inserted. -/
def acceptAssetLifecycle (owners : Owners) (tables : Tables) (assetRef versionRef : String)
    (change : Option AssetChange) (originQuestRef : Option String) (idempotencyKey : String)
    (minted : Minted) : Except Failure Tables := do
  let tables := ensureHead tables assetRef
  let (head, _, _) ← verifiedLifecycle digest tables assetRef
  let payload ← lifecyclePayload digest owners tables assetRef head change originQuestRef
  let tables := payload.predecessor.elim tables (setState tables · .superseded)
  let states ← inserted (tables.states.insert? ⟨versionRef, .unselected⟩)
  let revision := head.elim 0 Head.revision + 1
  let tables := setHead { tables with states := states } assetRef
    (fun head => { head with revision := revision, currentVersionRef := some versionRef }) fun _ => rfl
  let (_, tables) ← recordAssetChange digest tables assetRef versionRef revision payload
    ("intake:" ++ idempotencyKey) minted
  pure tables

/-- An accepted intake, as the lifecycle sees it. -/
structure Intake where
  assetRef : Option String
  change : Option AssetChange
  originQuestRef : Option String
  idempotencyKey : String
deriving DecidableEq, Repr

/-- The part of `_accept_prepared_asset` that inserts the asset and its version, and the lifecycle. -/
def acceptPreparedAsset (owners : Owners) (intake : Intake) (minted : Minted) (tables : Tables) :
    Except Failure Tables := do
  let (assetRef, versionNumber, tables) ←
    match intake.assetRef with
    | none =>
      if tables.assets.contains minted.assetRef then .error .integrityError
      else pure (minted.assetRef, 1, { tables with assets := tables.assets ++ [minted.assetRef] })
    | some assetRef => do
      require (tables.assets.contains assetRef) (.conflict "asset_not_found")
      pure (assetRef, ((tables.versionsOf assetRef).map Version.versionNumber).foldr max 0 + 1, tables)
  let versions ← inserted (tables.versions.insert?
    ⟨minted.versionRef, assetRef, versionNumber, "asset_acceptance"⟩)
  acceptAssetLifecycle digest owners { tables with versions := versions } assetRef minted.versionRef
    intake.change intake.originQuestRef intake.idempotencyKey minted

/-- An established content of another kind joins the inventory, as its own asset. -/
def mirrorContent (versionRef acceptanceKind : String) (tables : Tables) : Except Failure Tables := do
  require (!tables.assets.contains versionRef) .integrityError
  let versions ← inserted (tables.versions.insert? ⟨versionRef, versionRef, 1, acceptanceKind⟩)
  pure { tables with assets := tables.assets ++ [versionRef], versions := versions }

/-- Why a version may not be retired. -/
def retirementObstacles (owners : Owners) (request : Retirement) (version : Version)
    (observed : ℤ) (references : List String) : List String :=
  (if !request.lowValue || !request.obsolete || !request.incorrect then ["retirement_basis_insufficient"] else []) ++
  (if !request.impactUnderstood then ["impact_uncertain"] else []) ++
  (if request.hasExplanationValue then ["explanation_value_retained"] else []) ++
  (if version.acceptanceKind ≠ "asset_acceptance" then ["owner_content_retained"] else []) ++
  (if observed ≠ request.expectedReferenceRevision then ["reference_revision_stale"] else []) ++
  (if references.isEmpty then [] else ["active_references"]) ++
  if (owners.activeHolds version.versionRef).isEmpty then [] else ["active_holds"]

/-- The idempotent replay of a retirement. -/
def retirementReplay (tables : Tables) (idempotencyKey : String) (payload : Retirement) :
    Except Failure (Option Change) :=
  match tables.changes.rows.find? (·.idempotencyKey = "retire:" ++ idempotencyKey) with
  | none => .ok none
  | some row => do
    require (row.requestHash = canonicalHash digest (Payload.retirement payload).json)
      (.conflict "asset_retirement_idempotency_conflict")
    acceptedChange digest row
    pure (some row)

/-- `query_retirement_by_idempotency_key` -/
def queryRetirementByIdempotencyKey (tables : Tables) (request : RetirementRequest) :
    Except Failure (Option Change) := do
  let payload ← retirementPayload request
  retirementReplay digest tables request.idempotencyKey payload

/-- The first execution of a retirement. -/
def retire (owners : Owners) (payload : Retirement) (idempotencyKey : String) (minted : Minted)
    (tables : Tables) : Except Failure (Change × Tables) := do
  match tables.versions.find? payload.versionRef with
  | none => .error (.conflict "asset_not_found")
  | some version => do
    require (owners.versionReceipt version) (.conflict "asset_receipt_invalid")
    let (head, _, _) ← verifiedLifecycle digest tables version.assetRef
    require (head.elim 0 Head.revision = payload.expectedRevision) (.conflict "asset_revision_stale")
    assertAssetUsable digest tables payload.versionRef
    match owners.referenceState with
    | none => .error (.conflict "reference_state_uncertain")
    | some reader => do
      let (observed, active) := reader payload.versionRef
      let references := sortByKey id (active ++ owners.retainedReferences payload.versionRef).dedup
      let reasons := retirementObstacles owners payload version observed references
      require reasons.isEmpty
        (.blocked reasons references (owners.activeHolds payload.versionRef) observed)
      let tables := ensureHead tables version.assetRef
      let tables := setState tables payload.versionRef .retired
      let tables := setHead tables version.assetRef (fun head => { head with
        revision := head.revision + 1
        currentVersionRef :=
          if head.currentVersionRef = some payload.versionRef then none else head.currentVersionRef })
        fun _ => rfl
      let (row, tables) ← recordAssetChange digest tables version.assetRef payload.versionRef
        (payload.expectedRevision + 1) (.retirement payload) ("retire:" ++ idempotencyKey) minted
      pure (row, { tables with revision := tables.revision + 1 })

/-- `retire_asset_version` -/
def retireAssetVersion (owners : Owners) (request : RetirementRequest) (minted : Minted)
    (tables : Tables) : Except Failure (Change × Tables) := do
  let payload ← retirementPayload request
  match ← retirementReplay digest tables request.idempotencyKey payload with
  | some row => pure (row, tables)
  | none => retire digest owners payload request.idempotencyKey minted tables

/-! ### Runs -/

inductive Command where
  | intake (request : Intake)
  | content (versionRef acceptanceKind : String)
  | retire (request : RetirementRequest)
deriving DecidableEq, Repr

/-- One transaction: what the Owners answer, what is minted, and the command. -/
structure Call where
  owners : Owners
  minted : Minted
  command : Command

def Call.run (call : Call) (tables : Tables) : Except Failure Tables :=
  match call.command with
  | .intake request => acceptPreparedAsset digest call.owners request call.minted tables
  | .content versionRef acceptanceKind => mirrorContent versionRef acceptanceKind tables
  | .retire request => Prod.snd <$> retireAssetVersion digest call.owners request call.minted tables

/-- A call that raises changes nothing. -/
def Tables.call (tables : Tables) (call : Call) : Tables :=
  (call.run digest tables).toOption.getD tables

end Digest

/-- The tables as the migration leaves them: no change, and nothing selected. -/
structure Tables.Migrated (tables : Tables) : Prop where
  changes : tables.changes = ∅
  heads : ∀ head ∈ tables.heads, head.revision = 0 ∧ head.currentVersionRef = none
  states : ∀ row ∈ tables.states, row.state = .unselected ∧
    ∃ version ∈ tables.versions, version.versionRef = row.versionRef
  versions : ∀ version ∈ tables.versions, version.assetRef ∈ tables.assets

end MetaResearch.AssetLifecycle

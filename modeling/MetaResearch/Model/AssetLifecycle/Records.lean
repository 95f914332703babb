import MetaResearch.Model.Datasets.Facts
import MetaResearch.ToMathlib.Table

/-! # Asset changes

What a caller asks of the lifecycle of an asset, the payloads that are recorded, and the rows of the
lifecycle tables. The digest of a text is a parameter; a row holds the payload that its canonical JSON
stores. The type checks of a request's dictionary are left out: its fields have their types here.
-/

namespace MetaResearch.AssetLifecycle

open Datasets (AcceptedAssetBinding AcceptanceReceipt datasetAssetBinding canonicalHash optionalText)

/-- `OwnerConflict`, with its details, or a violated table constraint. -/
inductive Failure where
  | conflict (code : String)
  /-- `asset_version_retired` -/
  | versionRetired (versionRef : String)
  /-- `asset_retirement_blocked` -/
  | blocked (reasons activeReferenceRefs activeHoldRefs : List String) (observedReferenceRevision : ℤ)
  | integrityError
deriving DecidableEq, Repr

/-! ### Requests -/

inductive UpdateKind where
  | supplement | substantiveChange | correction
deriving DecidableEq, Repr

inductive Judgment where
  | unaffected | recheck | redo | unknown
deriving DecidableEq, Repr

structure Impact where
  workRef : String
  judgment : Judgment
  explanation : String
deriving DecidableEq, Repr

structure ChangeRequest where
  kind : UpdateKind
  predecessorVersionRef : Option String
  expectedRevision : ℤ
  explanation : Option String
  error : Option String := none
  scope : Option String := none
  evidenceBindings : Option (List AcceptedAssetBinding) := none
  impact : Option (List Impact) := none
  noAffectedWorkExplanation : Option String := none
deriving DecidableEq, Repr

/-- What only a correction says. -/
structure Correction where
  error : String
  scope : String
  evidenceBindings : List AcceptedAssetBinding
  impact : List Impact
  noAffectedWorkExplanation : Option String
deriving DecidableEq, Repr

/-- A validated change. -/
structure AssetChange where
  kind : UpdateKind
  predecessorVersionRef : String
  expectedRevision : ℕ
  explanation : String
  correction : Option Correction
deriving DecidableEq, Repr

/-- `_description` -/
def description (value : Option String) (field : String) : Except Failure String :=
  match value with
  | some text =>
    if Text.isBlank text || 16000 < text.length then
      .error (.conflict ("asset_change_" ++ field ++ "_required"))
    else .ok (Text.strip text)
  | none => .error (.conflict ("asset_change_" ++ field ++ "_required"))

def validateImpact (item : Impact) : Except Failure Impact := do
  let workRef ← description (some item.workRef) "work_ref"
  let explanation ← description (some item.explanation) "impact"
  pure ⟨workRef, item.judgment, explanation⟩

/-- The part of `validate_asset_change` that only a correction has. -/
def validateCorrection (request : ChangeRequest) : Except Failure Correction := do
  let error ← description request.error "error"
  let scope ← description request.scope "scope"
  let evidence := request.evidenceBindings.getD []
  require (1 ≤ evidence.length && evidence.length ≤ 32)
    (.conflict "asset_correction_evidence_required")
  (checkAll datasetAssetBinding evidence).mapError .conflict
  let impact := request.impact.getD []
  require (impact.length ≤ 256) (.conflict "asset_correction_impact_invalid")
  let noAffectedWork ←
    if impact.isEmpty || request.noAffectedWorkExplanation.isSome then
      some <$> description request.noAffectedWorkExplanation "no_affected_work_explanation"
    else pure none
  let impact ← impact.mapM validateImpact
  pure ⟨error, scope, evidence, impact, noAffectedWork⟩

/-- `validate_asset_change` -/
def validateAssetChange (change : Option ChangeRequest) (assetRef : Option String) :
    Except Failure (Option AssetChange) :=
  match change with
  | none => if assetRef.isSome then .error (.conflict "asset_change_required") else .ok none
  | some request => do
    require (assetRef.any (· ≠ "")) (.conflict "asset_change_invalid")
    require (request.kind = .correction || !(request.error.isSome || request.scope.isSome ||
      request.evidenceBindings.isSome || request.impact.isSome ||
      request.noAffectedWorkExplanation.isSome)) (.conflict "asset_change_correction_fields_invalid")
    require (0 ≤ request.expectedRevision) (.conflict "asset_revision_invalid")
    let explanation ← description request.explanation "explanation"
    let predecessor ← description request.predecessorVersionRef "predecessor"
    let correction ←
      if request.kind = .correction then some <$> validateCorrection request else pure none
    pure (some ⟨request.kind, predecessor, request.expectedRevision.toNat, explanation, correction⟩)

structure RetirementRequest where
  versionRef : String
  expectedRevision : ℤ
  expectedReferenceRevision : ℤ
  explanation : Option String
  lowValue : Bool
  obsolete : Bool
  incorrect : Bool
  impactUnderstood : Bool
  hasExplanationValue : Bool
  idempotencyKey : String
deriving DecidableEq, Repr

/-! ### Payloads -/

/-- The payload of a retirement. -/
structure Retirement where
  versionRef : String
  expectedRevision : ℕ
  expectedReferenceRevision : ℕ
  explanation : String
  lowValue : Bool
  obsolete : Bool
  incorrect : Bool
  impactUnderstood : Bool
  hasExplanationValue : Bool
deriving DecidableEq, Repr

/-- `_retirement_payload` -/
def retirementPayload (request : RetirementRequest) : Except Failure Retirement := do
  let explanation ← description request.explanation "explanation"
  require (request.idempotencyKey ≠ "" && request.idempotencyKey.length ≤ 128)
    (.conflict "asset_retirement_idempotency_key_invalid")
  require (0 ≤ request.expectedRevision && 0 ≤ request.expectedReferenceRevision)
    (.conflict "asset_revision_invalid")
  pure {
    versionRef := request.versionRef
    expectedRevision := request.expectedRevision.toNat
    expectedReferenceRevision := request.expectedReferenceRevision.toNat
    explanation := explanation
    lowValue := request.lowValue
    obsolete := request.obsolete
    incorrect := request.incorrect
    impactUnderstood := request.impactUnderstood
    hasExplanationValue := request.hasExplanationValue }

inductive Payload where
  | initial (originQuestRef : Option String)
  | change (accepted : AssetChange)
  | retirement (accepted : Retirement)
deriving DecidableEq, Repr

inductive ChangeKind where
  | initial | supplement | substantiveChange | correction | retirement
deriving DecidableEq, Repr

def ChangeKind.name : ChangeKind → String
  | .initial => "initial"
  | .supplement => "supplement"
  | .substantiveChange => "substantive_change"
  | .correction => "correction"
  | .retirement => "retirement"

def UpdateKind.changeKind : UpdateKind → ChangeKind
  | .supplement => .supplement
  | .substantiveChange => .substantiveChange
  | .correction => .correction

def Payload.kind : Payload → ChangeKind
  | .initial _ => .initial
  | .change accepted => accepted.kind.changeKind
  | .retirement _ => .retirement

/-- `payload.get("predecessor_version_ref")` -/
def Payload.predecessor : Payload → Option String
  | .change accepted => some accepted.predecessorVersionRef
  | .initial _ | .retirement _ => none

def Judgment.name : Judgment → String
  | .unaffected => "unaffected"
  | .recheck => "recheck"
  | .redo => "redo"
  | .unknown => "unknown"

def Impact.json (impact : Impact) : Json :=
  .object [("work_ref", .text impact.workRef), ("judgment", .text impact.judgment.name),
    ("explanation", .text impact.explanation)]

def Correction.fields (correction : Correction) : List (String × Json) :=
  [("error", .text correction.error), ("scope", .text correction.scope),
    ("evidence_bindings", .array (correction.evidenceBindings.map AcceptedAssetBinding.json)),
    ("impact", .array (correction.impact.map Impact.json))] ++
    match correction.noAffectedWorkExplanation with
    | some text => [("no_affected_work_explanation", .text text)]
    | none => []

def Payload.json : Payload → Json
  | .initial originQuestRef =>
    .object ([("kind", .text "initial"), ("explanation", .text "Initial accepted current version.")] ++
      match originQuestRef with
      | some ref => [("origin_quest_ref", .text ref)]
      | none => [])
  | .change accepted =>
    .object ([("kind", .text accepted.kind.changeKind.name),
      ("predecessor_version_ref", .text accepted.predecessorVersionRef),
      ("expected_revision", .integer accepted.expectedRevision),
      ("explanation", .text accepted.explanation)] ++ accepted.correction.elim [] Correction.fields)
  | .retirement accepted =>
    .object [("kind", .text "retirement"), ("version_ref", .text accepted.versionRef),
      ("expected_revision", .integer accepted.expectedRevision),
      ("expected_reference_revision", .integer accepted.expectedReferenceRevision),
      ("explanation", .text accepted.explanation), ("low_value", .bool accepted.lowValue),
      ("obsolete", .bool accepted.obsolete), ("incorrect", .bool accepted.incorrect),
      ("impact_understood", .bool accepted.impactUnderstood),
      ("has_explanation_value", .bool accepted.hasExplanationValue)]

/-! ### Rows -/

/-- A row of `rm_asset_versions`. -/
structure Version where
  versionRef : String
  assetRef : String
  versionNumber : ℕ
  acceptanceKind : String
deriving DecidableEq, Repr

/-- A row of `rm_asset_lifecycle`. -/
structure Head where
  assetRef : String
  revision : ℕ
  currentVersionRef : Option String
deriving DecidableEq, Repr

inductive VersionState where
  | unselected | current | superseded | retired
deriving DecidableEq, Repr

/-- A row of `rm_asset_version_lifecycle`. -/
structure VersionLifecycle where
  versionRef : String
  state : VersionState
deriving DecidableEq, Repr

/-- A row of `rm_asset_changes`. The time is the literal of the stored float. -/
structure Change where
  changeRef : String
  assetRef : String
  versionRef : String
  predecessorVersionRef : Option String
  revision : ℕ
  kind : ChangeKind
  payload : Payload
  requestHash : String
  idempotencyKey : String
  receiptRef : String
  receiptHash : String
  acceptedAt : String
deriving DecidableEq, Repr

structure Tables where
  /-- `rm_assets` -/
  assets : List String := []
  versions : Table Version.versionRef := ∅
  heads : Table Head.assetRef := ∅
  states : Table VersionLifecycle.versionRef := ∅
  changes : Table Change.changeRef := ∅
  /-- `research_memory_state.revision` -/
  revision : ℕ := 0

section Digest

variable (digest : String → String)

/-- The receipt hash of a change. -/
def receiptHashOf (changeRef assetRef versionRef : String) (payload : Payload) (revision : ℕ)
    (acceptedAt : String) : String :=
  canonicalHash digest (.object [("change_ref", .text changeRef), ("asset_ref", .text assetRef),
    ("version_ref", .text versionRef),
    ("predecessor_version_ref", optionalText payload.predecessor),
    ("kind", .text payload.kind.name), ("payload", payload.json),
    ("revision", .integer revision), ("accepted_at", .number acceptedAt)])

/-- `_accepted_change`: the public fact is determined by the row, so only the checks are kept. -/
def acceptedChange (row : Change) : Except Failure Unit := do
  require (canonicalHash digest row.payload.json = row.requestHash)
    (.conflict "asset_change_receipt_invalid")
  require (canonicalHash digest (.object [("change_ref", .text row.changeRef),
      ("asset_ref", .text row.assetRef), ("version_ref", .text row.versionRef),
      ("predecessor_version_ref", optionalText row.predecessorVersionRef),
      ("kind", .text row.kind.name), ("payload", row.payload.json),
      ("revision", .integer row.revision), ("accepted_at", .number row.acceptedAt)]) = row.receiptHash)
    (.conflict "asset_change_receipt_invalid")
  require (row.payload.kind = row.kind && row.payload.predecessor = row.predecessorVersionRef)
    (.conflict "asset_change_receipt_invalid")

end Digest

end MetaResearch.AssetLifecycle

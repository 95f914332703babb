import MetaResearch.Model.Datasets.Facts
import MetaResearch.ToMathlib.Table
import MetaResearch.ToMathlib.Task

/-! # Editable runtime conditions

Every scope has a head that names its current version; versions are stored under the hash of their
fields and never change. A read seeds a scope that has no head yet, from the file of an earlier release
or from the initial conditions; a save replaces the head that its caller has seen. Reads and saves are
tasks of several transactions, so others may come between them. The initial conditions and what the
legacy file holds are part of the request, and what a URL parser objects to is a parameter.
-/

namespace MetaResearch.RuntimeConditions

open Datasets (canonicalHash)

inductive Failure where
  /-- `OwnerConflict` -/
  | conflict (code : String)
  /-- A constraint of a table is violated. -/
  | integrityError
deriving DecidableEq, Repr

/-! ### Conditions -/

/-- `RESEARCH_STYLES` -/
inductive ResearchStyle where
  | focus | balanced | openEnded
deriving DecidableEq, Repr

def ResearchStyle.name : ResearchStyle → String
  | .focus => "focus"
  | .balanced => "balanced"
  | .openEnded => "open"

/-- `validate_research_style` -/
def validateResearchStyle (value : String) : Except Failure ResearchStyle :=
  match [ResearchStyle.focus, .balanced, .openEnded].find? (·.name = value) with
  | some style => .ok style
  | none => .error (.conflict "research_style_invalid")

inductive LiteratureMode where
  | oaThenInstitution | oaOnly | providedOnly
deriving DecidableEq, Repr

def LiteratureMode.name : LiteratureMode → String
  | .oaThenInstitution => "oa_then_institution"
  | .oaOnly => "oa_only"
  | .providedOnly => "provided_only"

structure Literature where
  mode : LiteratureMode
  libraryEntryUrl : String
  institutionRequired : Bool
deriving DecidableEq, Repr

/-- `SUPPORTED_CODEX_MODEL_REFS` -/
inductive ModelRef where
  | sol61 | sol56
deriving DecidableEq, Repr

def ModelRef.name : ModelRef → String
  | .sol61 => "gpt-6.1-sol"
  | .sol56 => "gpt-5.6-sol"

/-- A model for each of `RESEARCH_STAGES`; the default is `DEFAULT_STAGE_MODEL`. -/
structure StageModels where
  idea : ModelRef := .sol61
  plan : ModelRef := .sol61
  bundle : ModelRef := .sol61
  target : ModelRef := .sol61
  reasoning : ModelRef := .sol61
deriving DecidableEq, Repr

structure Conditions where
  questRef : String
  text : String
  researchStyle : ResearchStyle
  literatureConfiguration : Option Literature := none
  stageModels : Option StageModels := none
deriving DecidableEq, Repr

def Literature.json (literature : Literature) : Json :=
  .object [("mode", .text literature.mode.name), ("library_entry_url", .text literature.libraryEntryUrl),
    ("institution_required", .bool literature.institutionRequired)]

def StageModels.json (models : StageModels) : Json :=
  .object [("idea", .text models.idea.name), ("plan", .text models.plan.name),
    ("bundle", .text models.bundle.name), ("target", .text models.target.name),
    ("reasoning", .text models.reasoning.name)]

def Conditions.json (conditions : Conditions) : Json :=
  .object ([("quest_ref", .text conditions.questRef), ("text", .text conditions.text),
    ("research_style", .text conditions.researchStyle.name)] ++
    (conditions.literatureConfiguration.elim [] fun literature =>
      [("literature_configuration", literature.json)]) ++
    conditions.stageModels.elim [] fun models => [("stage_models", models.json)])

/-- Conditions with the hash of their fields. -/
structure Value where
  conditions : Conditions
  revision : String
deriving DecidableEq, Repr

/-- `_LIMIT` -/
def textLimit : ℕ := 24000

inductive SourceKind where
  | initialDefault | legacyFile | humanUpdate
deriving DecidableEq, Repr

/-! ### Tables -/

/-- A row of `hc_runtime_condition_versions`. -/
structure VersionRow where
  scopeRef : String
  revision : String
  value : Value
  sourceKind : SourceKind
deriving DecidableEq, Repr

def VersionRow.key (row : VersionRow) : String × String := (row.scopeRef, row.revision)

/-- A row of `hc_runtime_condition_heads`. -/
structure HeadRow where
  scopeRef : String
  currentRevision : String
deriving DecidableEq, Repr

structure Tables where
  versions : Table VersionRow.key := ∅
  heads : Table HeadRow.scopeRef := ∅

/-- The version that the head of a scope names. -/
def Tables.lookup (tables : Tables) (scope : String) : Option VersionRow :=
  (tables.heads.find? scope).bind fun head => tables.versions.find? (scope, head.currentRevision)

def inserted {κ ρ : Type} {key : ρ → κ} : Option (Table key) → Except Failure (Table key)
  | some table => .ok table
  | none => .error .integrityError

/-! ### Requests -/

/-- What the file of an earlier release holds; `others` says that it has further keys. -/
structure LegacySaved where
  questRef : String
  text : String
  researchStyle : Option String
  revision : String
  others : Bool
deriving DecidableEq, Repr

inductive LegacyFile where
  | missing
  | undecodable
  | saved (content : LegacySaved)
deriving DecidableEq, Repr

/-- What `_initial_conditions` answers for a request, with the legacy file of its scope. -/
structure Initial where
  scope : String
  text : String
  researchStyle : ResearchStyle := .balanced
  literature : Option Literature := none
  legacy : LegacyFile := .missing
deriving DecidableEq, Repr

structure SaveRequest where
  text : String
  expectedRevision : String
  researchStyle : Option ResearchStyle := none
  literatureConfiguration : Option Literature := none
  stageModels : Option StageModels := none
deriving DecidableEq, Repr

/-! ### Values -/

/-- What is done outside of the repository: the digest, and what `urlsplit` finds wrong with a URL. -/
structure Outside where
  digest : String → String
  urlFault : String → Option String

variable (outside : Outside)

/-- `_validated_library_entry_url` -/
def validatedLibraryEntryUrl (value : String) : Except Failure String :=
  let value := Text.strip value
  if value = "" then .ok value
  else if value.toList.any fun char => char.toNat < 32 || char.toNat = 127 then
    .error (.conflict "library_entry_url_invalid")
  else
    match outside.urlFault value with
    | some code => .error (.conflict code)
    | none => .ok value

/-- `_literature_configuration` -/
def literatureConfiguration (value : Literature) : Except Failure Literature := do
  require (value.libraryEntryUrl.length ≤ 4000 &&
    (!value.institutionRequired || value.mode = .oaThenInstitution))
    (.conflict "literature_configuration_invalid")
  let url ← validatedLibraryEntryUrl outside value.libraryEntryUrl
  pure { value with libraryEntryUrl := url }

def revisionOf (conditions : Conditions) : String := canonicalHash outside.digest conditions.json

/-- The configuration of literature, where there is one. -/
def optionalLiterature : Option Literature → Except Failure (Option Literature)
  | some literature => some <$> literatureConfiguration outside literature
  | none => .ok none

/-- `_value` -/
def makeValue (conditions : Conditions) : Except Failure Value := do
  let literature ← optionalLiterature outside conditions.literatureConfiguration
  let conditions := { conditions with literatureConfiguration := literature }
  pure ⟨conditions, revisionOf outside conditions⟩

def textReadable (text : String) : Bool := !Text.isBlank text && text.length ≤ textLimit

/-- `_stored_value` -/
def storedValue (row : VersionRow) : Except Failure Value := do
  require (textReadable row.value.conditions.text) (.conflict "runtime_conditions_invalid")
  let expected ← makeValue outside { row.value.conditions with questRef := row.scopeRef }
  require (row.value = expected && row.value.revision = row.revision)
    (.conflict "runtime_conditions_invalid")
  pure expected

/-- `_legacy_value` -/
def legacyValue (initial : Initial) : Except Failure (Value × SourceKind) :=
  match initial.legacy with
  | .missing => do
    let value ← makeValue outside ⟨initial.scope, initial.text, initial.researchStyle, none, none⟩
    pure (value, .initialDefault)
  | .undecodable => .error (.conflict "runtime_conditions_invalid")
  | .saved content => do
    require (content.questRef = initial.scope && content.text.length ≤ textLimit)
      (.conflict "runtime_conditions_invalid")
    match content.researchStyle with
    | none => do
      let hash := canonicalHash outside.digest
        (.object [("quest_ref", .text content.questRef), ("text", .text content.text)])
      require (!content.others && content.revision = hash) (.conflict "runtime_conditions_invalid")
      let value ← makeValue outside ⟨initial.scope, content.text, initial.researchStyle, none, none⟩
      pure (value, .legacyFile)
    | some style => do
      let style ← validateResearchStyle style
      let value ← makeValue outside ⟨initial.scope, content.text, style, none, none⟩
      require (!content.others && content.revision = value.revision) (.conflict "runtime_conditions_invalid")
      pure (value, .legacyFile)

/-- `with_library` of `_read`: the revision stays the stored one. -/
def Initial.withLibrary (initial : Initial) (value : Value) : Value :=
  { value with conditions := { value.conditions with
      literatureConfiguration := value.conditions.literatureConfiguration.or initial.literature } }

/-- `_editable_conditions` -/
def editableConditions (value : Value) : Value :=
  { value with conditions := { value.conditions with
      stageModels := some (value.conditions.stageModels.getD {}) } }

/-! ### Transactions and tasks -/

/-- The second half of `_read`: the scope may have been seeded in the meantime. -/
def seed (initial : Initial) (imported : Value) (sourceKind : SourceKind) (tables : Tables) :
    Except Failure (Value × Tables) :=
  match tables.lookup initial.scope with
  | some row => do
    let value ← storedValue outside row
    pure (initial.withLibrary value, tables)
  | none => do
    let versions ← inserted (tables.versions.insert? ⟨initial.scope, imported.revision, imported, sourceKind⟩)
    let heads ← inserted (tables.heads.insert? ⟨initial.scope, imported.revision⟩)
    pure (initial.withLibrary imported, ⟨versions, heads⟩)

/-- `_read` -/
def read (initial : Initial) : Task Tables Failure Value := do
  match ← Task.atomically fun tables => .ok (tables.lookup initial.scope, tables) with
  | some row => Task.ofExcept (initial.withLibrary <$> storedValue outside row)
  | none => do
    let (imported, sourceKind) ← Task.ofExcept (legacyValue outside initial)
    Task.atomically (seed outside initial imported sourceKind)

/-- `read_runtime_conditions` -/
def readRuntimeConditions (initial : Initial) : Task Tables Failure Value := do
  let value ← read outside initial
  pure (editableConditions value)

/-- `read_runtime_conditions_in_transaction` with a revision. -/
def readRevision (tables : Tables) (scope revision : String) : Except Failure Value :=
  match tables.versions.find? (scope, revision) with
  | none => .error (.conflict "runtime_conditions_revision_not_found")
  | some row => storedValue outside row

/-- The transaction of `save_runtime_conditions`. -/
def replaceHead (scope expected : String) (saved : Value) (tables : Tables) :
    Except Failure (Unit × Tables) :=
  match tables.heads.find? scope with
  | none => .error (.conflict "runtime_conditions_stale")
  | some head => do
    require (head.currentRevision = expected) (.conflict "runtime_conditions_stale")
    -- `INSERT OR IGNORE`
    let versions := (tables.versions.insert? ⟨scope, saved.revision, saved, .humanUpdate⟩).getD tables.versions
    let current := fun head : HeadRow => decide (head.scopeRef = scope) && head.currentRevision = expected
    require (tables.heads.count current = 1) (.conflict "runtime_conditions_stale")
    pure ((), ⟨versions, tables.heads.update current
      ⟨fun head => { head with currentRevision := saved.revision }, fun _ => rfl⟩⟩)

/-- What a save makes of the conditions that it has read: what it leaves out is carried over. -/
def savedValue (request : SaveRequest) (current : Value) : Except Failure Value := do
  require (request.expectedRevision = current.revision) (.conflict "runtime_conditions_stale")
  makeValue outside {
    questRef := current.conditions.questRef
    text := request.text
    researchStyle := request.researchStyle.getD current.conditions.researchStyle
    literatureConfiguration := request.literatureConfiguration.or current.conditions.literatureConfiguration
    stageModels := request.stageModels.or current.conditions.stageModels }

def checkText (request : SaveRequest) : Except Failure Unit :=
  require (textReadable request.text) (.conflict "runtime_conditions_text_invalid")

/-- `save_runtime_conditions` -/
def saveRuntimeConditions (initial : Initial) (request : SaveRequest) : Task Tables Failure Value := do
  Task.ofExcept (checkText request)
  let current ← readRuntimeConditions outside initial
  let saved ← Task.ofExcept (savedValue outside request current)
  Task.atomically (replaceHead current.conditions.questRef request.expectedRevision saved)
  pure (editableConditions saved)

inductive Request where
  | read (initial : Initial)
  | save (initial : Initial) (request : SaveRequest)
deriving DecidableEq, Repr

def Request.initial : Request → Initial
  | .read initial => initial
  | .save initial _ => initial

def Request.task : Request → Task Tables Failure Value
  | .read initial => readRuntimeConditions outside initial
  | .save initial request => saveRuntimeConditions outside initial request

end MetaResearch.RuntimeConditions

import MetaResearch.Model.Idea.IdeaContract
import MetaResearch.Model.Plan.PlanContract
import MetaResearch.ToMathlib.JsonDict

/-! # The inputs of a Plan invocation

`validate_plan_context_pack`, and both validators of the Plan contract over a value that need not be a
dictionary.
-/

namespace MetaResearch.Plan

open Json (Fields get isText requireHashable)
open MetaResearch.Bundle (sameSet)

def planContextPackSchemaRef : String := "meta-research/plan-context-pack/v1"

def maxPlanEvidenceRefs : ℕ := 256

section

variable (digest materialText : String → String)

/-! ### The accepted set of ideas -/

/-- The references that the loop over the candidates collects -/
def boundaryRefs (candidate : Json) : List String :=
  let boundary := (get (candidate.object?.getD []) "evidence_boundary").object?.getD []
  (((get boundary "accepted_evidence_refs").array?.getD []).filterMap Json.text?).filter (· ≠ "")

/-- `_validate_idea_set_binding` -/
def validateIdeaSetBinding (binding : Fields) (questionRef : String) : Except String Unit := do
  let code := "plan_idea_set_binding_invalid"
  exactKeys binding ["outcome_ref", "outcome_kind", "content_ref", "payload_hash", "outcome_hash",
    "content_receipt", "outcome_receipt", "stage_commit_ref", "stage_commit_receipt", "idea_set"] code
  let outcomeRef ← requireText (get binding "outcome_ref") code
  let contentRef ← requireText (get binding "content_ref") code
  let stageCommitRef ← requireText (get binding "stage_commit_ref") code
  checkAll (fun field => sha256 (get binding field) code) ["payload_hash", "outcome_hash"]
  require ((get binding "outcome_kind").isText "idea_set") code
  let ideaSet ← object (get binding "idea_set") code
  let acceptedRefs := ((get ideaSet "candidates").array?.getD []).flatMap boundaryRefs
  let contextPackRef := get ideaSet "context_pack_ref"
  let validatedHash ← (Idea.validateIdeaOutcome digest materialText ideaSet (some (.text questionRef))
    (if contextPackRef.isNull then none else some contextPackRef) (some acceptedRefs)).mapError fun _ => code
  require ((get binding "outcome_hash").isText validatedHash) code
  let _ ← validateReceipt (get binding "content_receipt") "research_memory"
    (some "idea_outcome_content_acceptance") contentRef code
  let _ ← validateReceipt (get binding "outcome_receipt") "research_graph" (some "idea_outcome_accepted")
    outcomeRef code
  (validateReceipt (get binding "stage_commit_receipt") "advancement_engine" (some "stage_commit")
    stageCommitRef code).map fun _ => ()

/-! ### The page of the evidence catalog -/

/-- A number that is an integer and not negative -/
def pageNumber (page : Fields) (name code : String) : Except String ℕ :=
  match get page name with
  | .integer value => if 0 ≤ value then .ok value.toNat else .error code
  | _ => .error code

/-- The checks of `evidence_catalog_page`, answering its projections -/
def validateCatalogPage (page : Fields) (catalog : List Json) (questionRef : String) :
    Except String (List Json) := do
  let code := "plan_evidence_page_invalid"
  exactKeys page ["total_candidates", "candidate_unit", "candidate_count", "scanned_count", "offset", "limit",
    "next_offset", "question_ref", "selection", "snapshot_hash", "projections"] code
  let total ← pageNumber page "total_candidates" code
  let candidates ← pageNumber page "candidate_count" code
  let scanned ← pageNumber page "scanned_count" code
  let offset ← pageNumber page "offset" code
  let limit ← pageNumber page "limit" code
  require (1 ≤ limit && limit ≤ maxPlanEvidenceRefs && (get page "candidate_unit").isText "evidence_asset_role" &&
      candidates = catalog.length && (catalog.length ≤ scanned && scanned ≤ limit) &&
      scanned ≤ total - offset && (get page "question_ref").isText questionRef &&
      (get page "selection").isText "current_question_then_recent_active_or_shared" &&
      (get page "snapshot_hash").isText (digest (Json.array catalog).dumps)) code
  let projections ← list (get page "projections") code
  let nextOffset := offset + scanned
  require ((get page "next_offset").same (if nextOffset < total then .integer nextOffset else .null)) code
  pure projections

/-- The projections of the page of a pack, which may have none -/
def pageProjections (pack : Fields) (catalog : List Json) (questionRef : String) : Except String (List Json) :=
  match get pack "evidence_catalog_page" with
  | .null => pure []
  | .object page => validateCatalogPage digest page catalog questionRef
  | _ => .error "plan_evidence_page_invalid"

/-- `_valid_evidence_discovery_projection` -/
def validEvidenceDiscoveryProjection (projection : Fields) : Bool :=
  match projection.lookup "target_spec" with
  | some spec => spec.object?.isSome && (get projection "target_spec_hash").isText (digest spec.dumps) &&
      (get projection "metric_result").object?.isSome
  | none => (sha256 (get projection "target_spec_hash") "") matches .ok () &&
      (get projection "research_summary").object?.any fun summary =>
        (get summary "schema_ref").isText "meta-research/evidence-discovery-summary/v1" &&
          (get summary "summary_only" matches .bool true)

/-- One round of the loop over the catalog and its projections -/
def validateProjection (evidence : Fields) (value : Json) : Except String Unit := do
  let code := "plan_evidence_page_invalid"
  let projection ← object value code
  require ((get projection "evidence_ref").same (get evidence "evidence_ref") &&
      (get projection "target_commit_ref").same (get evidence "target_commit_root_ref") &&
      (get projection "asset_version_ref").same (get evidence "asset_version_ref") &&
      (get projection "content_hash").same (get evidence "content_hash") &&
      (textOf? (get projection "question_ref")).isSome && (textOf? (get projection "cycle_ref")).isSome &&
      validEvidenceDiscoveryProjection digest projection &&
      (get projection "exact_content_reader").isText "research_memory.plan_evidence.read") code

/-- `evidence_by_ref` and `version_refs` -/
structure Catalog where
  byRef : List (String × Fields)
  versions : List String

/-- One round of the loop over the catalog -/
def collectCatalog (catalog : Catalog) (value : Json) : Except String Catalog := do
  let evidence ← object value "plan_evidence_ref_invalid"
  validateEvidenceRef evidence
  let evidenceRef ← requireText (get evidence "evidence_ref") "plan_evidence_ref_invalid"
  let versionRef ← requireText (get evidence "asset_version_ref") "plan_evidence_ref_invalid"
  require (!(catalog.byRef.map Prod.fst).contains evidenceRef && !catalog.versions.contains versionRef)
    "plan_evidence_catalog_invalid"
  pure ⟨catalog.byRef ++ [(evidenceRef, evidence)], versionRef :: catalog.versions⟩

/-! ### The pack -/

/-- `validate_cycle_position` -/
def validateCyclePosition (position : Json) (cycleRef : String) : Except String Unit :=
  match position with
  | .object fields =>
    require (sameSet (fields.map Prod.fst) ["cycle_ref", "round", "cycle_focus", "focus_source"] &&
      (get fields "cycle_ref").isText cycleRef &&
      (match get fields "round" with
        | .integer round => 1 ≤ round
        | _ => false) &&
      ((get fields "cycle_focus").text?.any fun focus => !Text.isBlank focus) &&
      ((get fields "focus_source").object?.any fun source => !source.isEmpty)) "cycle_position_invalid"
  | _ => .error "cycle_position_invalid"

/-- The keys of a pack that has some keys, whether or not it has a page and a position -/
def packKeys (listed : String → Bool) : List String :=
  ["schema_ref", "cycle_ref", "accepted_question_binding", "accepted_idea_set_binding", "evidence_catalog",
    "evidence_reference_revision"] ++ (if listed "evidence_catalog_page" then ["evidence_catalog_page"] else []) ++
    if listed "cycle_position" then ["cycle_position"] else []

/-- The number of entries of the catalog is the revision. -/
def validateRevision (pack : Fields) : Except String (List Json) := do
  let code := "plan_evidence_catalog_invalid"
  let catalog ← list (get pack "evidence_catalog") code
  require (catalog.length ≤ maxPlanEvidenceRefs &&
    (get pack "evidence_reference_revision").isInteger catalog.length) code
  pure catalog

/-- `validate_plan_context_pack`, answering the evidence by its identity -/
def validatePlanContextPack (pack : Fields) (cycleRef : String) (acceptedQuestionBinding : Fields) :
    Except String (List (String × Fields)) := do
  let code := "plan_context_pack_invalid"
  exactKeys pack (packKeys fun name => (pack.map Prod.fst).contains name) code
  require ((get pack "schema_ref").isText planContextPackSchemaRef && (get pack "cycle_ref").isText cycleRef &&
    (get pack "accepted_question_binding").same (.object acceptedQuestionBinding)) code
  Idea.checkPresent pack "cycle_position" fun position =>
    (validateCyclePosition position cycleRef).mapError fun _ => code
  let questionRef ← requireText (get acceptedQuestionBinding "question_ref") code
  let ideaBinding ← object (get pack "accepted_idea_set_binding") "plan_idea_set_binding_invalid"
  validateIdeaSetBinding digest materialText ideaBinding questionRef
  let catalog ← validateRevision pack
  let projections ← pageProjections digest pack catalog questionRef
  let collected ← catalog.foldlM collectCatalog ⟨[], []⟩
  require (projections.isEmpty || projections.length = catalog.length) "plan_evidence_page_invalid"
  checkAll (fun pair => validateProjection digest pair.1.2 pair.2) (collected.byRef.zip projections)
  pure collected.byRef

end

/-! ### Values that are no dictionary -/

def notIterable (kind : String) : String := "argument of type '" ++ kind ++ "' is not iterable"
def noGet : String := "'list' object has no attribute 'get'"
def indexKind : String := "list indices must be integers or slices, not str"

/-- What happens before a key of a value is looked at: the fields of a dictionary, and the exceptions of
`in`, `set` and of the first look at a list of the expected keys. -/
def fieldsOf (value : Json) (expected : (String → Bool) → List String) (code look : String) :
    Except String Fields :=
  match value with
  | .object fields => .ok fields
  -- The characters of a text are not the names of fields.
  | .text _ => .error code
  | .array items => do
    let texts := items.filterMap Json.text?
    checkAll requireHashable items
    require (texts.length = items.length && sameSet texts (expected (texts.contains ·))) code
    .error look
  | .null => .error (notIterable "NoneType")
  | .bool _ => .error (notIterable "bool")
  | .integer _ => .error (notIterable "int")
  | .number _ => .error (notIterable "float")

/-- The keys of a document that has some keys, whether or not it has notes -/
def documentKeysOf (listed : String → Bool) : List String :=
  ["schema_ref", "kind", "question_ref", "idea_set_ref", "context_pack_ref", "answer_contract",
    "evidence_reuse_set", "coverage", "gap_set", "experiment_briefs", "idea_trace", "bundle_disposition",
    "source_bindings"] ++ if listed "notes" then ["notes"] else []

/-- The exception of the first look at a list of the keys of a document -/
def documentLook (value : Json) : String :=
  if ((value.array?.getD []).filterMap Json.text?).contains "notes" then indexKind else noGet

/-- `validate_plan_document` of any value -/
def validatePlanDocumentValue (digest : String → String) (arguments : PlanArguments) (document : Json) :
    Except String String := do
  let fields ← fieldsOf document documentKeysOf "plan_document_invalid" (documentLook document)
  validatePlanDocument digest arguments fields

/-- `validate_plan_context_pack` of any value -/
def validatePlanContextPackValue (digest materialText : String → String) (pack : Json) (cycleRef : String)
    (acceptedQuestionBinding : Fields) : Except String (List (String × Fields)) := do
  let fields ← fieldsOf pack packKeys "plan_context_pack_invalid" noGet
  validatePlanContextPack digest materialText fields cycleRef acceptedQuestionBinding

end MetaResearch.Plan

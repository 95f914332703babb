import MetaResearch.Model.Bundle.Handoff
import MetaResearch.ToMathlib.JsonValue

/-! # The Plan contract

`validate_plan_document`, over an arbitrary JSON document. An error is the code of a
`PlanContractError`, or the message of the exception that Python itself raises. The digest of a text is
a parameter.
-/

namespace MetaResearch.Plan

open Json (Fields get isText requireHashable)
open MetaResearch.Bundle (planTextMaxChars sameSet isHexDigit)

def planDocumentSchemaRef : String := "meta-research/plan-document/v1"
def evidenceRefSchemaRef : String := "meta-research/evidence-ref/v1"

/-- `GENERIC_EVIDENCE_KINDS` -/
def genericEvidenceKinds : List String :=
  ["HumanInput", "ScientificOutcome", "AssetVersion", "LiteratureSnapshot"]

def maxPlanObligations : ℕ := 64
def maxPlanExperimentBriefs : ℕ := 64

/-- `_QUESTION_TRACE_FIELDS` -/
def questionTraceFields : List String := ["unknown_statement", "answer_shape", "applicability_scope"]

/-- `_IDEA_ROLES` -/
def ideaRoles : List String := ["query_lens", "experiment_lens", "not_relevant"]

/-- `_COVERAGE_DISPOSITIONS` -/
def coverageDispositions : List String := ["covered", "gap"]

/-! ### Elementary checks -/

/-- `_object` -/
def object (value : Json) (code : String) : Except String Fields :=
  match value with
  | .object fields => .ok fields
  | _ => .error code

/-- `isinstance(value, list)` -/
def list (value : Json) (code : String) : Except String (List Json) :=
  match value with
  | .array items => .ok items
  | _ => .error code

/-- `_exact_keys` -/
def exactKeys (value : Fields) (expected : List String) (code : String) : Except String Unit :=
  require (sameSet (value.map Prod.fst) expected) code

/-- `_text` -/
def text (value : String) : Bool := !Text.isBlank value && decide (value.length ≤ planTextMaxChars)

/-- The text of a value that `_text` accepts. -/
def textOf? (value : Json) : Option String := value.text?.filter text

/-- `_require_text`, answering the text -/
def requireText (value : Json) (code : String) : Except String String :=
  match textOf? value with
  | some text => .ok text
  | none => .error code

/-- The texts of a list without duplicates whose items `_text` accepts. -/
def distinctTexts (value : Json) (code : String) : Except String (List String) :=
  match value.array?.bind (·.mapM textOf?) with
  | some texts => do
    require (decide texts.Nodup) code
    pure texts
  | none => .error code

/-- `_sha256` -/
def sha256 (value : Json) (code : String) : Except String Unit :=
  require (value.text?.any fun text => text.length = 64 && text.toList.all isHexDigit) code

/-- `value not in values`, where the values are a set. -/
def memberOf (value : Json) (values : List String) (code : String) : Except String String := do
  requireHashable value
  match value.text? with
  | some text => if values.contains text then .ok text else .error code
  | none => .error code

/-- `_validate_receipt`, answering its reference -/
def validateReceipt (value : Json) (issuer : String) (kind : Option String) (subjectRef code : String) :
    Except String String := do
  let receipt ← object value code
  exactKeys receipt ["status", "issuer", "kind", "receipt_ref", "subject_ref", "payload_hash"] code
  require ((get receipt "status").isText "accepted" && (get receipt "issuer").isText issuer &&
      kind.all ((get receipt "kind").isText ·) && (get receipt "subject_ref").isText subjectRef) code
  let _ ← requireText (get receipt "kind") code
  let receiptRef ← requireText (get receipt "receipt_ref") code
  sha256 (get receipt "payload_hash") code
  pure receiptRef

/-! ### Evidence -/

/-- `_validate_evidence_ref` -/
def validateEvidenceRef (evidence : Fields) : Except String Unit := do
  let code := "plan_evidence_ref_invalid"
  exactKeys evidence ["schema_ref", "evidence_ref", "asset_version_ref", "asset_ref", "content_hash",
    "manifest_hash", "target_commit_root_ref", "provenance_closure_refs", "capabilities",
    "eligibility_token_ref", "integrity_receipt_ref", "availability_receipt_ref",
    "currentness_receipt_ref", "asset_receipt", "role_ref", "role_receipt"] code
  require ((get evidence "schema_ref").isText evidenceRefSchemaRef) code
  checkAll (fun field => (requireText (get evidence field) code).map fun _ => ())
    ["evidence_ref", "asset_version_ref", "asset_ref", "target_commit_root_ref", "eligibility_token_ref",
      "integrity_receipt_ref", "availability_receipt_ref", "currentness_receipt_ref", "role_ref"]
  checkAll (fun field => sha256 (get evidence field) code) ["content_hash", "manifest_hash"]
  checkAll (fun field => do
    let values ← distinctTexts (get evidence field) code
    require (!values.isEmpty) code) ["provenance_closure_refs", "capabilities"]
  let versionRef ← requireText (get evidence "asset_version_ref") code
  let assetReceiptRef ← validateReceipt (get evidence "asset_receipt") "research_memory" none versionRef code
  let roleRef ← requireText (get evidence "role_ref") code
  let roleReceiptRef ← validateReceipt (get evidence "role_receipt") "research_graph"
    (some "asset_role_acceptance") roleRef code
  require ((get evidence "integrity_receipt_ref").isText assetReceiptRef &&
      (get evidence "availability_receipt_ref").isText assetReceiptRef &&
      (get evidence "eligibility_token_ref").isText roleReceiptRef &&
      (get evidence "currentness_receipt_ref").isText roleReceiptRef) code

/-- The source of a selected binding, by its kind. -/
def validateSource (entry source : Fields) (evidenceRef sourceRef code : String) : Except String Unit :=
  let kind := get entry "source_kind"
  if kind.isText "TargetCommit" then do
    validateEvidenceRef source
    require ((get source "schema_ref").isText evidenceRefSchemaRef &&
        (get source "evidence_ref").isText evidenceRef &&
        (get source "target_commit_root_ref").isText sourceRef) code
  else if kind.isText "AssetVersion" then
    require ((get source "version_ref").isText sourceRef && evidenceRef = sourceRef) code
  else do
    let kind ← memberOf kind genericEvidenceKinds code
    require ((get source "kind").isText kind && (get source "ref").isText sourceRef &&
        evidenceRef = sourceRef) code

/-- `_validate_selected_evidence_binding`, answering the identity, the source and its reference -/
def validateSelectedEvidenceBinding (entry : Fields) : Except String (String × Fields × String) := do
  let code := "plan_selected_evidence_invalid"
  exactKeys entry ["evidence_ref", "source_kind", "source_ref", "source_binding", "reader"] code
  let evidenceRef ← requireText (get entry "evidence_ref") code
  let sourceRef ← requireText (get entry "source_ref") code
  let source ← object (get entry "source_binding") code
  validateSource entry source evidenceRef sourceRef code
  let reader ← object (get entry "reader") code
  exactKeys reader ["operation", "args"] code
  let _ ← requireText (get reader "operation") code
  require ((get reader "args").object?.any (!·.isEmpty)) code
  pure (evidenceRef, source, sourceRef)

/-- One entry of the catalog of an invocation, under its identity. -/
structure FrozenEvidence where
  evidenceRef : String
  fields : Fields
  named : (fields.lookup "evidence_ref").bind Json.text? = some evidenceRef

/-- What the loop of `selected_plan_evidence_catalog` has collected: the identities, and the identity
under each version. -/
structure Selected where
  refs : List String
  versions : List (Json × String)

/-- One round of the loop. -/
def selectEvidence (frozen : List FrozenEvidence) (selected : Selected) (value : Json) :
    Except String Selected := do
  let code := "plan_selected_evidence_invalid"
  let entry ← object value code
  let (ref, source, sourceRef) ← validateSelectedEvidenceBinding entry
  let version := (source.lookup "asset_version_ref").getD (.text sourceRef)
  let known := frozen.reverse.find? (·.evidenceRef = ref)
  require (!selected.refs.contains ref && known.all fun item => (Json.object item.fields).same (.object source))
    code
  requireHashable version
  require ((selected.versions.find? fun entry => version.same entry.1).all (·.2 = ref)) code
  pure ⟨selected.refs ++ [ref], (version, ref) :: selected.versions⟩

/-- `selected_plan_evidence_catalog`, answering the identities -/
def selectedPlanEvidenceCatalog (document : Fields) (frozen : List FrozenEvidence) :
    Except String (List String) := do
  let bindings := (get document "source_bindings").object?.getD []
  let entries ← list (get bindings "selected_evidence_bindings") "plan_selected_evidence_invalid"
  let selected ← entries.foldlM (selectEvidence frozen) ⟨[], []⟩
  pure selected.refs

/-! ### The answer contract -/

/-- `_accepted_candidate_refs` -/
def acceptedCandidateRefs (ideaSet : Fields) (questionRef : String) : Except String (List String) := do
  let code := "plan_accepted_idea_set_invalid"
  require ((get ideaSet "kind").isText "IdeaSet" && (get ideaSet "question_ref").isText questionRef) code
  let candidates ← list (get ideaSet "candidates") code
  require (!candidates.isEmpty) code
  let refs ← candidates.mapM fun value => do
    let candidate ← object value code
    requireText (get candidate "candidate_key") code
  require (decide refs.Nodup) code
  pure refs

/-- The role of each idea, by its reference. -/
abbrev Roles := List (String × String)

/-- One round of the loop over the relevance of the ideas. -/
def collectRelevance (candidateRefs : List String) (roles : Roles) (value : Json) :
    Except String Roles := do
  let code := "plan_idea_matrix_invalid"
  let item ← object value code
  exactKeys item ["idea_ref", "role", "rationale"] code
  match (get item "idea_ref").text? with
  | none => .error code
  | some ideaRef => do
    require (candidateRefs.contains ideaRef && (roles.lookup ideaRef).isNone) code
    let role ← memberOf (get item "role") ideaRoles code
    let _ ← requireText (get item "rationale") code
    pure (roles ++ [(ideaRef, role)])

/-- `question_trace` of an obligation -/
def validateQuestionTrace (value : Json) : Except String Unit := do
  let code := "answer_contract_trace_invalid"
  let trace ← list value code
  checkAll requireHashable trace
  let fields := trace.filterMap Json.text?
  require (fields.length = trace.length && decide fields.Nodup &&
      fields.all (questionTraceFields.contains ·) && !trace.isEmpty) code

/-- One round of the loop over the obligations, with their roles by key. -/
def collectObligation (candidateRefs : List String) (obligations : List (String × Roles)) (value : Json) :
    Except String (List (String × Roles)) := do
  let code := "answer_contract_invalid"
  let obligation ← object value code
  exactKeys obligation ["obligation_key", "statement", "minimum_support", "question_trace",
    "idea_relevance"] code
  let key ← requireText (get obligation "obligation_key") code
  let _ ← requireText (get obligation "statement") code
  let _ ← requireText (get obligation "minimum_support") code
  require (obligations.lookup key).isNone code
  validateQuestionTrace (get obligation "question_trace")
  let relevance ← list (get obligation "idea_relevance") "plan_idea_matrix_incomplete"
  require (relevance.length ≤ candidateRefs.length) "plan_idea_matrix_incomplete"
  let roles ← relevance.foldlM (collectRelevance candidateRefs) []
  pure (obligations ++ [(key, roles)])

/-- `_validate_answer_contract` -/
def validateAnswerContract (digest : String → String) (contract : Fields)
    (questionRef ideaSetRef : String) (candidateRefs : List String) :
    Except String (List (String × Roles)) := do
  exactKeys contract ["source_question_ref", "source_idea_set_ref", "obligations",
    "answer_contract_hash"] "answer_contract_invalid"
  require ((get contract "source_question_ref").isText questionRef &&
      (get contract "source_idea_set_ref").isText ideaSetRef) "answer_contract_source_invalid"
  require ((get contract "answer_contract_hash").isText
      (digest (Json.object (Json.without contract "answer_contract_hash")).dumps))
    "answer_contract_hash_invalid"
  let obligations ← list (get contract "obligations") "answer_contract_invalid"
  require (1 ≤ obligations.length && obligations.length ≤ maxPlanObligations) "answer_contract_invalid"
  obligations.foldlM (collectObligation candidateRefs) []

/-! ### Coverage -/

/-- `_validate_idea_ref_list` -/
def validateIdeaRefList (value : Json) (candidateRefs : List String) (code : String) :
    Except String Unit := do
  let refs ← distinctTexts value code
  require (refs.all (candidateRefs.contains ·)) code

/-- `_validate_evidence_use` -/
def validateEvidenceUse (obligationKey : String) (evidenceRefs candidateRefs : List String)
    (value : Json) : Except String Unit := do
  let code := "plan_evidence_use_invalid"
  let use ← object value code
  exactKeys use ["obligation_key", "evidence_ref", "supported_claim", "support_boundary",
    "contributing_idea_refs"] code
  require ((get use "obligation_key").isText obligationKey) code
  let _ ← memberOf (get use "evidence_ref") evidenceRefs "plan_evidence_ref_unbound"
  let _ ← requireText (get use "supported_claim") code
  let _ ← requireText (get use "support_boundary") code
  validateIdeaRefList (get use "contributing_idea_refs") candidateRefs code

/-- What the loop over the coverage has collected. -/
structure Coverage where
  keys : List String
  uses : List Json
  gapKeys : List String

/-- One round of the loop. -/
def collectCoverage (obligationKeys evidenceRefs candidateRefs : List String) (coverage : Coverage)
    (value : Json) : Except String Coverage := do
  let code := "plan_coverage_invalid"
  let item ← object value code
  exactKeys item ["obligation_key", "disposition", "evidence_uses", "insufficiency"] code
  let key ← requireText (get item "obligation_key") code
  require (obligationKeys.contains key && !coverage.keys.contains key) code
  let disposition ← memberOf (get item "disposition") coverageDispositions code
  let uses ← list (get item "evidence_uses") code
  checkAll (validateEvidenceUse key evidenceRefs candidateRefs) uses
  let insufficiency := get item "insufficiency"
  if disposition = "covered" then do
    require (!uses.isEmpty && (insufficiency matches .null)) code
    pure { coverage with keys := coverage.keys ++ [key], uses := coverage.uses ++ uses }
  else do
    let _ ← requireText insufficiency code
    pure ⟨coverage.keys ++ [key], coverage.uses ++ uses, coverage.gapKeys ++ [key]⟩

/-- The coverage of the obligations and what the document repeats of it, answering the gaps. -/
def validateCoverage (document : Fields) (obligationKeys evidenceRefs candidateRefs : List String) :
    Except String (List String) := do
  let items ← list (get document "coverage") "plan_coverage_incomplete"
  require (items.length = obligationKeys.length) "plan_coverage_incomplete"
  let coverage ← items.foldlM (collectCoverage obligationKeys evidenceRefs candidateRefs) ⟨[], [], []⟩
  require (sameSet coverage.keys obligationKeys) "plan_coverage_incomplete"
  let reused ← list (get document "evidence_reuse_set") "plan_evidence_reuse_set_invalid"
  require ((Json.array reused).dumps = (Json.array coverage.uses).dumps)
    "plan_evidence_reuse_set_invalid"
  let gaps ← distinctTexts (get document "gap_set") "plan_gap_set_invalid"
  require (sameSet gaps coverage.gapKeys) "plan_gap_set_invalid"
  pure coverage.gapKeys

/-! ### Experiments -/

/-- The keys of a brief, whether or not it reuses material. -/
def briefKeys (brief : Fields) : List String :=
  ["experiment_key", "gap_obligation_keys", "goal", "characteristics", "boundary_constraints",
    "semantic_delta", "contributing_idea_refs"] ++
    if (brief.lookup "reuse_material_refs").isSome then ["reuse_material_refs"] else []

/-- `_validate_experiment_brief`, answering the key -/
def validateExperimentBrief (gapKeys candidateRefs evidenceRefs : List String) (brief : Fields) :
    Except String String := do
  let code := "plan_experiment_brief_invalid"
  exactKeys brief (briefKeys brief) code
  let key ← requireText (get brief "experiment_key") code
  checkAll (fun field => (requireText (get brief field) code).map fun _ => ())
    ["goal", "characteristics", "boundary_constraints", "semantic_delta"]
  let gaps ← distinctTexts (get brief "gap_obligation_keys") "plan_gap_brief_closure_invalid"
  require (!gaps.isEmpty && gaps.all (gapKeys.contains ·)) "plan_gap_brief_closure_invalid"
  validateIdeaRefList (get brief "contributing_idea_refs") candidateRefs code
  let reused ← distinctTexts ((brief.lookup "reuse_material_refs").getD (.array []))
    "plan_reuse_material_ref_invalid"
  require (reused.all (evidenceRefs.contains ·)) "plan_reuse_material_ref_invalid"
  pure key

/-- One round of the loop over the briefs, with the keys so far. -/
def collectBrief (gapKeys candidateRefs evidenceRefs keys : List String) (value : Json) :
    Except String (List String) := do
  let brief ← object value "plan_experiment_brief_invalid"
  let key ← validateExperimentBrief gapKeys candidateRefs evidenceRefs brief
  require (!keys.contains key) "plan_experiment_brief_invalid"
  pure (key :: keys)

/-- The briefs of the document. -/
def validateBriefs (document : Fields) (gapKeys candidateRefs evidenceRefs : List String) :
    Except String (List Json) := do
  let briefs ← list (get document "experiment_briefs") "plan_experiment_brief_invalid"
  require (briefs.length ≤ maxPlanExperimentBriefs) "plan_experiment_brief_invalid"
  let _ ← briefs.foldlM (collectBrief gapKeys candidateRefs evidenceRefs) []
  pure briefs

/-! ### The trace of the ideas -/

/-- One round of the loop over the roles of an idea. -/
def collectRole (expected : Roles) (actual : Roles) (value : Json) : Except String Roles := do
  let code := "plan_idea_trace_invalid"
  let role ← object value code
  exactKeys role ["obligation_key", "role"] code
  let key ← memberOf (get role "obligation_key") (expected.map Prod.fst) code
  require (actual.lookup key).isNone code
  let name ← memberOf (get role "role") ideaRoles code
  pure (actual ++ [(key, name)])

/-- The roles of an idea, by obligation. -/
def rolesOf (obligations : List (String × Roles)) (ideaRef : String) : Roles :=
  obligations.filterMap fun obligation => (obligation.2.lookup ideaRef).map (obligation.1, ·)

/-- One round of the loop over the ideas, with those seen so far. -/
def collectIdea (candidateRefs : List String) (obligations : List (String × Roles)) (seen : List String)
    (value : Json) : Except String (List String) := do
  let code := "plan_idea_trace_invalid"
  let item ← object value code
  exactKeys item ["idea_ref", "obligation_roles"] code
  match (get item "idea_ref").text? with
  | none => .error code
  | some ideaRef => do
    require (candidateRefs.contains ideaRef && !seen.contains ideaRef) code
    let roles ← list (get item "obligation_roles") code
    let expected := rolesOf obligations ideaRef
    let actual ← roles.foldlM (collectRole expected) []
    require (actual.length = expected.length &&
        actual.all fun entry => expected.lookup entry.1 = some entry.2) code
    pure (ideaRef :: seen)

/-- `_validate_idea_trace` -/
def validateIdeaTrace (value : Json) (candidateRefs : List String) (obligations : List (String × Roles)) :
    Except String Unit := do
  let code := "plan_idea_trace_invalid"
  let expected := (obligations.flatMap fun obligation => obligation.2.map Prod.fst).dedup
  let items ← list value code
  require (items.length = expected.length) code
  let seen ← items.foldlM (collectIdea candidateRefs obligations) []
  require (sameSet seen expected) code

/-! ### The document -/

/-- The arguments of `validate_plan_document` beside the document -/
structure PlanArguments where
  questionRef : String
  ideaSetRef : String
  contextPackRef : String
  contextPackHash : String
  acceptedIdeaSet : Fields
  evidenceByRef : List FrozenEvidence
  evidenceReferenceRevision : ℤ

/-- The keys of a document, whether or not it carries notes. -/
def documentKeys (document : Fields) : List String :=
  ["schema_ref", "kind", "question_ref", "idea_set_ref", "context_pack_ref", "answer_contract",
    "evidence_reuse_set", "coverage", "gap_set", "experiment_briefs", "idea_trace", "bundle_disposition",
    "source_bindings"] ++ if (document.lookup "notes").isSome then ["notes"] else []

/-- The source of the document is that of the invocation. -/
def validateSourceBindings (arguments : PlanArguments) (document : Fields) : Except String Unit := do
  let code := "plan_document_source_invalid"
  let bindings ← object (get document "source_bindings") code
  exactKeys bindings ["question_ref", "idea_set_ref", "context_pack_ref", "context_pack_hash",
    "evidence_reference_revision", "selected_evidence_bindings"] code
  require ((Json.object (Json.without bindings "selected_evidence_bindings")).same (.object
      [("question_ref", .text arguments.questionRef), ("idea_set_ref", .text arguments.ideaSetRef),
        ("context_pack_ref", .text arguments.contextPackRef),
        ("context_pack_hash", .text arguments.contextPackHash),
        ("evidence_reference_revision", .integer arguments.evidenceReferenceRevision)])) code

/-- `validate_plan_document`, answering the hash -/
def validatePlanDocument (digest : String → String) (arguments : PlanArguments) (document : Fields) :
    Except String String := do
  exactKeys document (documentKeys document) "plan_document_invalid"
  require ((document.lookup "notes").all (·.text?.isSome)) "plan_notes_invalid"
  require ((get document "schema_ref").isText planDocumentSchemaRef &&
      (get document "kind").isText "PlanDocument" &&
      (get document "question_ref").isText arguments.questionRef &&
      (get document "idea_set_ref").isText arguments.ideaSetRef &&
      (get document "context_pack_ref").isText arguments.contextPackRef) "plan_document_source_invalid"
  sha256 (.text arguments.contextPackHash) "plan_document_source_invalid"
  let evidenceRefs ← selectedPlanEvidenceCatalog document arguments.evidenceByRef
  let candidateRefs ← acceptedCandidateRefs arguments.acceptedIdeaSet arguments.questionRef
  let contract ← object (get document "answer_contract") "answer_contract_invalid"
  let obligations ← validateAnswerContract digest contract arguments.questionRef arguments.ideaSetRef
    candidateRefs
  let gapKeys ← validateCoverage document (obligations.map Prod.fst) evidenceRefs candidateRefs
  let briefs ← validateBriefs document gapKeys candidateRefs evidenceRefs
  validateIdeaTrace (get document "idea_trace") candidateRefs obligations
  require ((get document "bundle_disposition").isText
      (if briefs.isEmpty then "no_new_experiment_required" else "experiments_required"))
    "plan_bundle_disposition_invalid"
  validateSourceBindings arguments document
  pure (digest (Json.object document).dumps)

end MetaResearch.Plan

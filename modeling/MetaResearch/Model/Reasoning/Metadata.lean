import MetaResearch.Model.Bundle.Handoff
import MetaResearch.ToMathlib.JsonUpdate

/-! # The authoritative metadata of a reasoning outcome

The frozen research context of a request, the assembler that binds an outcome to it, and the validator
that compares an outcome with it. An error is the code of a `ReasoningContractError`, or the message of
the exception that Python itself raises.
-/

namespace MetaResearch.Reasoning

open Json (Fields get set isText requireHashable)
open MetaResearch.Bundle (sameSet isSortedSet)

def reasoningResearchContextV2 : String := "meta-research/reasoning-research-context/v2"

/-- `REASONING_AUTHORITATIVE_RESEARCH_CONTEXT_SCHEMA_REF` -/
def reasoningAuthoritativeResearchContext : String := "meta-research/reasoning-research-context/v3"

def reasoningGraphContextV1 : String := "meta-research/reasoning-graph-context/v1"
def reasoningGraphContextV2 : String := "meta-research/reasoning-graph-context/v2"
def researchHistoryPageV1 : String := "meta-research/research-history-page/v1"

/-- `SCIENTIFIC_OUTCOMES` -/
def scientificOutcomes : List String := ["affirmed", "denied", "uncertain", "insufficient_evidence"]

/-! ### Elementary checks -/

/-- `_exact_keys` -/
def exactKeys (value : Fields) (expected : List String) (code : String) : Except String Unit :=
  require (sameSet (value.map Prod.fst) expected) code

/-- `isinstance(value, dict)` -/
def object (value : Json) (code : String) : Except String Fields :=
  match value with
  | .object fields => .ok fields
  | _ => .error code

/-- `isinstance(value, list)` -/
def list (value : Json) (code : String) : Except String (List Json) :=
  match value with
  | .array items => .ok items
  | _ => .error code

/-- `_require_text` -/
def requireText (value : Json) (code : String) : Except String String :=
  match value with
  | .text text => if Text.isBlank text then .error code else .ok text
  | _ => .error code

/-- `_require_text_list` -/
def requireTextList (value : Json) (code : String) : Except String (List String) := do
  let items ← list value code
  items.mapM (requireText · code)

/-- `value not in values`, where the values are a set of texts. -/
def memberOf (value : Json) (values : List String) (code : String) : Except String Unit := do
  requireHashable value
  require (value.text?.any (values.contains ·)) code

/-! ### The frozen context -/

/-- The causal fields that the system owns. -/
def causalFields : List String :=
  ["target_commit_refs", "changed_axis_fact_refs", "held_fixed_fact_refs", "provenance_refs"]

/-- What `_validate_frozen_research_context` answers. -/
structure ExpectedContext where
  parentQuestionRefs : List String
  priorOutcomeRefs : List String
  graphRevisionRef : String
  /-- The references of each causal field, in the order of `causalFields`. -/
  causalContext : List (String × List String)

/-- The identities of an invocation, as the caller reads them from its outcome. -/
structure Identities where
  cycleRef : Json
  questionRef : Json
  questRef : Json
  goalRevisionRef : Json

/-- `0 <= shown <= min(total, 12)` and what follows from a part of the history that is shown. -/
def historyPartValid (page : Fields) (key : String) (count : ℕ) : Bool :=
  match get page (key ++ "_total"), get page (key ++ "_shown") with
  | .integer total, .integer shown =>
    0 ≤ shown && shown ≤ min total 12 && shown = count &&
      (get page (key ++ "_next_offset")).same (if shown < total then .integer shown else .null)
  | _, _ => false

/-- `validate_history_page`, of a graph binding whose lists are lists -/
def historyPageValid (graph : Fields) (active prior parents : ℕ) : Bool :=
  match get graph "history_page" with
  | .object page =>
    sameSet (page.map Prod.fst) ["schema_ref", "limit", "summary_only", "active_total", "active_shown",
      "active_next_offset", "prior_total", "prior_shown", "prior_next_offset", "parent_shown",
      "parent_has_more", "parent_next_question_ref"] &&
    (get page "schema_ref").isText researchHistoryPageV1 && (get page "limit").same (.integer 12) &&
    get page "summary_only" matches .bool true &&
    historyPartValid page "active" active && historyPartValid page "prior" prior &&
    (get page "parent_shown").same (.integer parents) && decide (parents ≤ 12) &&
    (match get page "parent_has_more" with
      | .bool hasMore => hasMore = !(get page "parent_next_question_ref" matches .null)
      | _ => false)
  | _ => false

/-- The keys of a graph binding, by its schema. -/
def graphKeys (graph : Fields) : List String :=
  ["schema_ref", "issuer", "quest_ref", "question_ref", "graph_revision_ref", "active_question_refs",
    "parent_question_bindings", "prior_current_question_outcomes", "binding_ref", "binding_hash"] ++
    if (get graph "schema_ref").isText reasoningGraphContextV2 then ["history_page"] else []

/-- One round of the loop over the parents. -/
def collectParent (graph : Fields) (active refs : List String) (value : Json) :
    Except String (List String) := do
  let code := "reasoning_research_context_invalid"
  let parent ← object value code
  exactKeys parent ["question_ref", "parent_question_ref", "question_receipt_ref"] code
  let ref ← requireText (get parent "question_ref") code
  require (match get parent "parent_question_ref" with
    | .null | .text _ => true
    | _ => false) code
  let _ ← requireText (get parent "question_receipt_ref") code
  require (!refs.contains ref &&
      !((get graph "schema_ref").isText reasoningGraphContextV1 && !active.contains ref)) code
  pure (refs ++ [ref])

/-- One round of the loop over the prior outcomes. -/
def collectPrior (refs : List String) (value : Json) : Except String (List String) := do
  let code := "reasoning_research_context_invalid"
  let accepted ← object value code
  exactKeys accepted ["cycle_ref", "request_ref", "outcome_ref", "disposition", "outcome_receipt_ref"] code
  let _ ← requireText (get accepted "cycle_ref") code
  let _ ← requireText (get accepted "request_ref") code
  let ref ← requireText (get accepted "outcome_ref") code
  let _ ← requireText (get accepted "outcome_receipt_ref") code
  memberOf (get accepted "disposition") scientificOutcomes code
  require (!refs.contains ref) code
  pure (refs ++ [ref])

/-- The references of one causal field of the context. -/
def causalOf (causal : Fields) (field : String) : Except String (String × List String) := do
  let refs ← requireTextList (get causal field) "reasoning_research_context_invalid"
  require (isSortedSet refs) "reasoning_research_context_invalid"
  pure (field, refs)

/-- The checks of the goal and of the shape of the graph binding, answering the binding. -/
def validateGraph (context : Fields) (identities : Identities) : Except String Fields := do
  let code := "reasoning_research_context_invalid"
  let goal ← object (get context "quest_goal_revision") code
  require ((get goal "kind").isText "QuestGoalRevision" &&
      (get goal "quest_ref").same identities.questRef &&
      (get goal "goal_revision_ref").same identities.goalRevisionRef) code
  let graph ← object (get context "graph_binding") code
  exactKeys graph (graphKeys graph) code
  memberOf (get graph "schema_ref") [reasoningGraphContextV1, reasoningGraphContextV2] code
  require ((get graph "issuer").isText "research_graph" &&
      (get graph "quest_ref").same identities.questRef &&
      (get graph "question_ref").same identities.questionRef) code
  pure graph

/-- `_validate_frozen_research_context` -/
def validateFrozenResearchContext (context : Fields) (identities : Identities) :
    Except String ExpectedContext := do
  let code := "reasoning_research_context_invalid"
  exactKeys context ["schema_ref", "cycle_ref", "quest_ref", "question_ref", "goal_revision_ref",
    "quest_goal_revision", "graph_binding", "causal_context", "upstream_stage_commit_refs"] code
  memberOf (get context "schema_ref")
    [reasoningResearchContextV2, reasoningAuthoritativeResearchContext] code
  require ((get context "cycle_ref").same identities.cycleRef &&
      (get context "question_ref").same identities.questionRef &&
      (get context "quest_ref").same identities.questRef &&
      (get context "goal_revision_ref").same identities.goalRevisionRef) code
  let graph ← validateGraph context identities
  let graphRevisionRef ← requireText (get graph "graph_revision_ref") code
  let _ ← requireText (get graph "binding_ref") code
  let _ ← requireText (get graph "binding_hash") code
  let active ← requireTextList (get graph "active_question_refs") code
  require (isSortedSet active && identities.questionRef.text?.any (active.contains ·)) code
  let parents ← list (get graph "parent_question_bindings") code
  let prior ← list (get graph "prior_current_question_outcomes") code
  require (!(get graph "schema_ref").isText reasoningGraphContextV2 ||
      historyPageValid graph active.length prior.length parents.length) code
  let causal ← object (get context "causal_context") code
  exactKeys causal causalFields code
  let causalContext ← causalFields.mapM (causalOf causal)
  let parentRefs ← parents.foldlM (collectParent graph active) []
  let priorRefs ← prior.foldlM collectPrior []
  let commits ← requireTextList (get context "upstream_stage_commit_refs") code
  require (commits.length = 3 && decide commits.Nodup) code
  pure ⟨parentRefs, priorRefs, graphRevisionRef, causalContext⟩

/-! ### The assembler -/

/-- `_validate_supplied_authoritative_refs` -/
def validateSuppliedAuthoritativeRefs (value : Json) (frozenRefs : List String) (conflictCode : String) :
    Except String Unit := do
  let supplied ← requireTextList value conflictCode
  let conflicts := supplied.filter fun ref => !frozenRefs.contains ref || decide (1 < supplied.count ref)
  require conflicts.isEmpty (conflictCode ++ ":" ++ ",".intercalate conflicts)

def metadataConflict (place : String) : String :=
  "scientific_outcome_authoritative_metadata_conflict:" ++ place

/-- The identity of the outcome is that of the context; how an error writes a value is a parameter. -/
def checkIdentity (shown : Json → String) (outcome context : Fields) (field : String) :
    Except String Unit :=
  require ((get outcome field).same (get context field))
    (metadataConflict ("scientific_outcome." ++ field ++ ":supplied=" ++ shown (get outcome field) ++
      ":expected=" ++ shown (get context field)))

/-- What a holder already has at a field does not conflict with the references. -/
def checkHeld (place field : String) (holder : Fields) (refs : List String) : Except String Unit :=
  match holder.lookup field with
  | some supplied => validateSuppliedAuthoritativeRefs supplied refs (metadataConflict place)
  | none => .ok ()

/-- Bind references to a field, which may hold some of them already. -/
def bindRefs (place field : String) (holder : Fields) (refs : List String) : Except String Fields := do
  checkHeld place field holder refs
  pure (set holder field (Json.texts refs))

/-- One round of the loop over the causal fields. -/
def bindCausal (causal : Fields) (entry : String × List String) : Except String Fields :=
  bindRefs ("causal_interpretation." ++ entry.1) entry.1 causal entry.2

def priorPlace : String := "research_synthesis.current_question.prior_accepted_outcome_refs"

/-- One round of the loop over the parents of the synthesis, by their references so far. -/
def collectByParentRef (parentRefs : List String) (byParentRef : List (String × Json)) (value : Json) :
    Except String (List (String × Json)) := do
  let code := "scientific_outcome_research_synthesis_invalid"
  let parent ← object value code
  let ref ← requireText (get parent "question_ref") code
  require (parentRefs.contains ref && (byParentRef.lookup ref).isNone)
    (metadataConflict ("research_synthesis.parent_questions.question_ref:" ++ ref))
  pure (byParentRef ++ [(ref, value)])

/-- The parents of the synthesis in the order of the context. -/
def orderParents (parents : List Json) (parentRefs : List String) : Except String (List Json) := do
  let byParentRef ← parents.foldlM (collectByParentRef parentRefs) []
  let missing := parentRefs.filter fun ref => (byParentRef.lookup ref).isNone
  require missing.isEmpty
    ("scientific_outcome_research_synthesis_invalid:research_synthesis.parent_questions:" ++
      "missing_impact_for:" ++ ",".intercalate missing)
  pure (parentRefs.map fun ref => (byParentRef.lookup ref).getD .null)

/-- The synthesis with the prior outcomes and the order of the parents. -/
def assembleSynthesis (synthesis : Fields) (expected : ExpectedContext) : Except String Fields := do
  let code := "scientific_outcome_research_synthesis_invalid"
  let current ← object (get synthesis "current_question") code
  let bound ← bindRefs priorPlace "prior_accepted_outcome_refs" current expected.priorOutcomeRefs
  let parents ← list (get synthesis "parent_questions") code
  let ordered ← orderParents parents expected.parentQuestionRefs
  pure (set (set synthesis "current_question" (.object bound)) "parent_questions" (.array ordered))

/-- The identities that an outcome names. -/
def identitiesOf (outcome : Fields) : Identities :=
  ⟨get outcome "cycle_ref", get outcome "question_ref", get outcome "quest_ref",
    get outcome "goal_revision_ref"⟩

/-- The outcome bound to what the context expects. -/
def assembleOutcome (outcome : Fields) (expected : ExpectedContext) : Except String Fields := do
  let causal ← object (get outcome "causal_interpretation")
    "scientific_outcome_causal_interpretation_invalid"
  let bound ← expected.causalContext.foldlM bindCausal causal
  let synthesis ← object (get outcome "research_synthesis")
    "scientific_outcome_research_synthesis_invalid"
  let assembled ← assembleSynthesis synthesis expected
  pure (set (set outcome "causal_interpretation" (.object bound)) "research_synthesis" (.object assembled))

/-- `assemble_reasoning_authoritative_metadata` -/
def assembleReasoningAuthoritativeMetadata (shown : Json → String) (output context : Fields) :
    Except String Fields :=
  if (get context "schema_ref").isText reasoningAuthoritativeResearchContext then do
    let outcome ← object (get output "scientific_outcome") "reasoning_stage_output_invalid"
    checkAll (checkIdentity shown outcome context)
      ["cycle_ref", "question_ref", "quest_ref", "goal_revision_ref"]
    let expected ← validateFrozenResearchContext context (identitiesOf outcome)
    let assembled ← assembleOutcome outcome expected
    pure (set output "scientific_outcome" (.object assembled))
  else .ok output

/-! ### The validator -/

/-- The causal fields of the outcome are those of the context. -/
def checkCausalContext (causal : Fields) (expected : ExpectedContext) : Except String Unit :=
  checkAll (fun entry : String × List String => require ((get causal entry.1).same (Json.texts entry.2))
    "scientific_outcome_causal_interpretation_invalid") expected.causalContext

/-- The prior outcomes of the outcome are those of the context. -/
def checkPriorOutcomes (current : Fields) (expected : ExpectedContext) : Except String Unit := do
  let refs ← requireTextList (get current "prior_accepted_outcome_refs")
    "scientific_outcome_research_synthesis_invalid"
  require (refs = expected.priorOutcomeRefs) "scientific_outcome_research_synthesis_invalid"

/-- The references of the parents, in their order. -/
def parentRefsOf (parents : List Json) : Except String (List String) :=
  parents.mapM fun value => do
    let parent ← object value "scientific_outcome_research_synthesis_invalid"
    requireText (get parent "question_ref") "scientific_outcome_research_synthesis_invalid"

/-- The parents of the outcome are those of the context. -/
def checkParents (parents : List Json) (expected : ExpectedContext) : Except String Unit := do
  let refs ← parentRefsOf parents
  require (refs = expected.parentQuestionRefs) "scientific_outcome_research_synthesis_invalid"

/-- A list of texts without duplicates. -/
def distinctTextList (value : Json) (code : String) : Except String (List String) := do
  let values ← requireTextList value code
  require (decide values.Nodup) code
  pure values

/-- The shape of one parent of the synthesis. -/
def validateParent (value : Json) : Except String Unit := do
  let code := "scientific_outcome_research_synthesis_invalid"
  let parent ← object value code
  exactKeys parent ["question_ref", "impact", "statement"] code
  let _ ← requireText (get parent "question_ref") code
  memberOf (get parent "impact") ["material", "no_material", "unknown"] code
  let _ ← requireText (get parent "statement") code
  pure ()

/-- The causal interpretation of the outcome. -/
def validateCausal (outcome : Fields) (citedRefs : List String) (expected : ExpectedContext) :
    Except String Unit := do
  let code := "scientific_outcome_causal_interpretation_invalid"
  let causal ← object (get outcome "causal_interpretation") code
  exactKeys causal (causalFields ++ ["attribution_basis_refs", "claim_scope", "statement",
    "sufficiency_rationale", "confounders"]) code
  checkAll (fun field => (distinctTextList (get causal field) code).map fun _ => ())
    (causalFields ++ ["attribution_basis_refs", "confounders"])
  checkAll (fun field => (requireText (get causal field) code).map fun _ => ())
    ["claim_scope", "statement", "sufficiency_rationale"]
  let attribution ← requireTextList (get causal "attribution_basis_refs") code
  require (attribution.all (citedRefs.contains ·)) code
  checkCausalContext causal expected

/-- The research synthesis of the outcome. -/
def validateSynthesis (outcome : Fields) (expected : ExpectedContext) : Except String Unit := do
  let code := "scientific_outcome_research_synthesis_invalid"
  let synthesis ← object (get outcome "research_synthesis") code
  exactKeys synthesis ["cycle", "current_question", "parent_questions", "quest"] code
  let cycle ← object (get synthesis "cycle") code
  let current ← object (get synthesis "current_question") code
  let quest ← object (get synthesis "quest") code
  let parents ← list (get synthesis "parent_questions") code
  exactKeys cycle ["cycle_ref", "impact"] code
  exactKeys current ["question_ref", "prior_accepted_outcome_refs", "progress"] code
  exactKeys quest ["quest_ref", "goal_revision_ref", "graph_revision_ref", "impact"] code
  require ((get cycle "cycle_ref").same (get outcome "cycle_ref") &&
      (get current "question_ref").same (get outcome "question_ref") &&
      (get quest "quest_ref").same (get outcome "quest_ref") &&
      (get quest "goal_revision_ref").same (get outcome "goal_revision_ref") &&
      (get quest "graph_revision_ref").isText expected.graphRevisionRef) code
  let _ ← requireText (get cycle "impact") code
  let _ ← requireText (get current "progress") code
  let _ ← requireText (get quest "impact") code
  checkPriorOutcomes current expected
  checkAll validateParent parents
  checkParents parents expected

/-- `_validate_outcome_scope_and_synthesis` -/
def validateOutcomeScopeAndSynthesis (outcome : Fields) (citedRefs : List String)
    (expected : ExpectedContext) : Except String Unit := do
  let supportScope ← requireTextList (get outcome "support_scope") "scientific_outcome_support_scope_invalid"
  let limitations ← requireTextList (get outcome "limitations") "scientific_outcome_limitations_invalid"
  require (!supportScope.isEmpty && decide supportScope.Nodup && decide limitations.Nodup)
    "scientific_outcome_support_scope_invalid"
  validateCausal outcome citedRefs expected
  validateSynthesis outcome expected

end MetaResearch.Reasoning

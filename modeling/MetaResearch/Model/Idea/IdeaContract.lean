import MetaResearch.Model.Bundle.Handoff
import MetaResearch.ToMathlib.JsonText
import MetaResearch.ToMathlib.JsonUpdate

/-! # The Idea contract

`validate_idea_outcome` and `material_outcome_hash`, over an arbitrary JSON outcome. An error is the code of an
`IdeaContractError`. The digest of a text and `material_text` are parameters.
-/

namespace MetaResearch.Idea

open Json (Fields get without)
open MetaResearch.Bundle (sameSet)

/-- `_MATERIAL_IDENTITY_FIELDS` -/
def materialIdentityFields : List String :=
  ["candidate_key", "question_ref", "context_pack_ref", "recommendation"]

/-- `MAX_IDEA_CONTEXT_EVIDENCE_REFS` -/
def maxIdeaContextEvidenceRefs : ℕ := 100

section

variable (digest materialText : String → String)

/-! ### Research meaning -/

/-- The `notes` of a dictionary are text and blank. -/
def isBlankNote : Json → Bool
  | .text value => Text.isBlank value
  | _ => false

/-- The condition of the comprehension over a dictionary -/
def isMaterial (name : String) (value : Json) : Bool :=
  !materialIdentityFields.contains name && !(name = "notes" && isBlankNote value)

/-- `{_canonical_json(item): item for item in normalized}` -/
def uniqueByText (normalized : List Json) : Fields :=
  normalized.foldl (fun unique item => Json.set unique item.dumps item) []

/-- `[unique[key] for key in sorted(unique)]` -/
def sortedUnique (normalized : List Json) : List Json :=
  (Json.sortNamed (uniqueByText normalized)).map Prod.snd

mutual

/-- `_material_value` -/
def materialValue : Json → Json
  | .object fields => .object (materialFields fields)
  | .array items => .array (sortedUnique (materialItems items))
  | .text value => .text (materialText value)
  | .null => .null
  | .bool value => .bool value
  | .integer value => .integer value
  | .number literal => .number literal
  termination_by structural value => value

def materialItems : List Json → List Json
  | [] => []
  | item :: rest => materialValue item :: materialItems rest
  termination_by structural items => items

def materialFields : Fields → Fields
  | [] => []
  | (name, value) :: rest =>
    if isMaterial name value then (name, materialValue value) :: materialFields rest
    else materialFields rest
  termination_by structural fields => fields

end

/-- `material_outcome_hash` -/
def materialOutcomeHash (outcome : Fields) : String :=
  digest (materialValue materialText (.object outcome)).dumps

/-! ### Elementary checks -/

/-- `_require_text`, answering the text -/
def requireText (value : Json) (label : String) : Except String String :=
  match value.text? with
  | some text => do
    require (!Text.isBlank text) (label ++ "_invalid")
    pure text
  | none => .error (label ++ "_invalid")

/-- `_require_text_list` -/
def requireTextList (value : Json) (label : String) : Except String Unit := do
  let items := value.array?.getD []
  require (!items.isEmpty) (label ++ "_missing")
  checkAll (fun item => (requireText item label).map fun _ => ()) items

/-- `_validate_text_object` -/
def validateTextObject (value : Json) (fields : List String) (label : String) : Except String Unit :=
  match value with
  | .object texts => do
    require (sameSet (texts.map Prod.fst) fields) (label ++ "_shape_invalid")
    checkAll (fun field => (requireText (get texts field) (label ++ "_" ++ field)).map fun _ => ()) fields
  | _ => .error (label ++ "_shape_invalid")

/-- References that are not empty and, where a set of them is accepted, in it -/
def boundRefs (value : Json) (acceptedRefs : Option (List String)) (code : String) :
    Except String (List String) :=
  match value.array?.bind (·.mapM Json.text?) with
  | some refs => do
    require (refs.all fun ref => ref ≠ "" && acceptedRefs.all (·.contains ref)) code
    pure refs
  | none => .error code

/-- `_validate_evidence_boundary` -/
def validateEvidenceBoundary (value : Json) (acceptedRefs : Option (List String)) : Except String Unit :=
  match value with
  | .object boundary => do
    require (sameSet (boundary.map Prod.fst) ["accepted_evidence_refs", "supported", "inferred", "unknown"])
      "evidence_boundary_shape_invalid"
    let _ ← boundRefs (get boundary "accepted_evidence_refs") acceptedRefs "accepted_evidence_ref_unbound"
    checkAll (fun field => (requireText (get boundary field) field).map fun _ => ())
      ["supported", "inferred", "unknown"]
  | _ => .error "evidence_boundary_shape_invalid"

/-! ### A set of ideas -/

def candidateRequired : List String := ["candidate_key", "direction", "rationale", "evidence_boundary"]
def candidateOptional : List String :=
  ["assumptions", "risks", "falsification_hint", "material_difference", "notes"]

/-- Check the value of a field that may be missing. -/
def checkPresent (candidate : Fields) (field : String) (check : Json → Except String Unit) :
    Except String Unit :=
  match candidate.lookup field with
  | some value => check value
  | none => pure ()

/-- A candidate as it is compared with its peers -/
def materialCandidate (candidate : Fields) : Fields :=
  let material := without candidate "candidate_key"
  match candidate.lookup "material_difference" with
  | some difference => Json.set material "material_difference"
      (.object (without (difference.object?.getD []) "from_peers"))
  | none => material

/-- One round of the loop over the candidates, answering the key and the hash -/
def collectCandidate (acceptedRefs : Option (List String)) (value : Json) :
    Except String (String × String) :=
  match value with
  | .object candidate => do
    require (candidateRequired.all ((candidate.map Prod.fst).contains ·) &&
        (candidate.map Prod.fst).all ((candidateRequired ++ candidateOptional).contains ·))
      "idea_candidate_shape_invalid"
    checkPresent candidate "notes" fun notes => require notes.text?.isSome "idea_notes_invalid"
    let key ← requireText (get candidate "candidate_key") "candidate_key"
    let _ ← requireText (get candidate "direction") "direction"
    let _ ← requireText (get candidate "rationale") "rationale"
    checkPresent candidate "assumptions" (requireTextList · "candidate_assumptions")
    checkPresent candidate "risks" (requireTextList · "candidate_risks")
    validateEvidenceBoundary (get candidate "evidence_boundary") acceptedRefs
    checkPresent candidate "falsification_hint"
      (validateTextObject · ["test", "would_refute"] "falsification_hint")
    checkPresent candidate "material_difference"
      (validateTextObject · ["from_history", "from_peers", "plan_commitment_change"] "material_difference")
    pure (key, digest (materialValue materialText (.object (materialCandidate candidate))).dumps)
  | _ => .error "idea_candidate_shape_invalid"

/-- The recommendation is advisory. -/
def validateRecommendation (recommendation : Json) : Except String Unit :=
  match recommendation with
  | .null => pure ()
  | .object fields => do
    require (sameSet (fields.map Prod.fst) ["note", "binding"]) "idea_recommendation_shape_invalid"
    let _ ← requireText (get fields "note") "recommendation_note"
    require (get fields "binding" matches .bool false) "idea_recommendation_must_be_advisory"
  | _ => .error "idea_recommendation_shape_invalid"

/-- The keys of an outcome, whether or not it carries notes -/
def outcomeKeys (outcome : Fields) (keys : List String) : List String :=
  keys ++ if (outcome.lookup "notes").isSome then ["notes"] else []

/-- `_validate_idea_set` -/
def validateIdeaSet (outcome : Fields) (acceptedRefs : Option (List String)) : Except String Unit := do
  require (sameSet (outcome.map Prod.fst) (outcomeKeys outcome
    ["kind", "question_ref", "context_pack_ref", "candidates", "recommendation"])) "idea_set_shape_invalid"
  let candidates := (get outcome "candidates").array?.getD []
  require (!candidates.isEmpty) "idea_set_empty"
  let collected ← candidates.mapM (collectCandidate digest materialText acceptedRefs)
  require (decide (collected.map Prod.fst).Nodup) "idea_candidate_key_duplicate"
  require (decide (collected.map Prod.snd).Nodup) "idea_candidate_material_duplicate"
  validateRecommendation (get outcome "recommendation")

/-! ### No viable candidate -/

/-- One round of the loop over the families -/
def validateFamily (acceptedRefs : Option (List String)) (value : Json) : Except String Unit :=
  match value with
  | .object family => do
    require (sameSet (family.map Prod.fst) ["family", "why_not_viable", "evidence_refs"])
      "candidate_family_shape_invalid"
    let _ ← requireText (get family "family") "candidate_family"
    let _ ← requireText (get family "why_not_viable") "why_not_viable"
    (boundRefs (get family "evidence_refs") acceptedRefs "candidate_family_evidence_unbound").map fun _ => ()
  | _ => .error "candidate_family_shape_invalid"

/-- `_validate_no_viable` -/
def validateNoViable (outcome : Fields) (acceptedRefs : Option (List String)) : Except String Unit := do
  require (sameSet (outcome.map Prod.fst) (outcomeKeys outcome
    ["kind", "question_ref", "context_pack_ref", "exploration_scope", "candidate_families_considered",
      "evidence_boundary", "overturn_conditions", "why_plan_cannot_proceed"])) "no_viable_shape_invalid"
  let _ ← requireText (get outcome "exploration_scope") "exploration_scope"
  let _ ← requireText (get outcome "why_plan_cannot_proceed") "why_plan_cannot_proceed"
  requireTextList (get outcome "overturn_conditions") "overturn_conditions"
  validateEvidenceBoundary (get outcome "evidence_boundary") acceptedRefs
  let families := (get outcome "candidate_families_considered").array?.getD []
  require (!families.isEmpty) "candidate_families_missing"
  checkAll (validateFamily acceptedRefs) families

/-! ### An outcome -/

/-- A value under a key of each dictionary of a list; what is missing is an empty list. -/
def collectionsUnder (values : List Json) (name : String) : List Json :=
  values.filterMap fun value => value.object?.map fun fields => (fields.lookup name).getD (.array [])

/-- `idea_used_evidence_refs` -/
def ideaUsedEvidenceRefs (outcome : Fields) : Except String (List String) := do
  let boundaries :=
    if (get outcome "kind").isText "IdeaSet" then
      ((get outcome "candidates").array?.getD []).filterMap fun candidate =>
        candidate.object?.map (get · "evidence_boundary")
    else [get outcome "evidence_boundary"]
  let families := (get outcome "candidate_families_considered").array?.getD []
  let refs ← (collectionsUnder boundaries "accepted_evidence_refs" ++
    collectionsUnder families "evidence_refs").mapM (boundRefs · none "accepted_evidence_ref_unbound")
  require (refs.flatten.dedup.length ≤ maxIdeaContextEvidenceRefs) "idea_selected_evidence_too_large"
  pure refs.flatten.dedup

/-- `validate_idea_outcome`, answering the hash -/
def validateIdeaOutcome (outcome : Fields) (questionRef contextPackRef : Option Json)
    (acceptedRefs : Option (List String)) : Except String String := do
  require (questionRef.all ((get outcome "question_ref").same ·)) "idea_outcome_question_mismatch"
  require (contextPackRef.all ((get outcome "context_pack_ref").same ·)) "idea_outcome_context_mismatch"
  let _ ← requireText (get outcome "question_ref") "question_ref"
  let _ ← requireText (get outcome "context_pack_ref") "context_pack_ref"
  checkPresent outcome "notes" fun notes => require notes.text?.isSome "idea_notes_invalid"
  let kind := get outcome "kind"
  if kind.isText "IdeaSet" then validateIdeaSet digest materialText outcome acceptedRefs
  else if kind.isText "NoViableCandidate" then validateNoViable outcome acceptedRefs
  else .error "idea_outcome_kind_invalid"
  let _ ← ideaUsedEvidenceRefs outcome
  pure (digest (Json.object outcome).dumps)

end

end MetaResearch.Idea

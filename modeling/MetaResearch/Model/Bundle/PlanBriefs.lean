import MetaResearch.Model.Bundle.PlanDocument
import MetaResearch.ToMathlib.JsonValue

/-! # The Plan gate of the Bundle

`_plan_briefs`, over an arbitrary JSON document.
-/

namespace MetaResearch.Bundle

open Json (Fields get isText)

/-- The budget of an accepted Plan: its texts are not short projections. -/
def Budget.planDocument (budget : Budget) : Budget := { budget with textBytes := none }

/-- `_ref` of a JSON value -/
def refOf (budget : Budget) (value : Json) (name : String) : Except String String :=
  match value with
  | .text value => do
    ref budget value name
    pure value
  | _ => .error (name ++ "_invalid")

/-- `_string_list` -/
def stringList (budget : Budget) (value : Json) (name : String) (allowEmpty : Bool) :
    Except String (List String) :=
  match value with
  | .array items => do
    let result ← items.mapM (refOf budget · name)
    require ((!result.isEmpty || allowEmpty) && decide result.Nodup) (name ++ "_invalid")
    pure result
  | _ => .error (name ++ "_invalid")

/-- `_plan_text` of a JSON value -/
def planTextOf (value : Json) (name : String) : Except String Unit :=
  match value with
  | .text value => planText value name
  | _ => .error (name ++ "_invalid")

/-- `_exact_dict` -/
def exactDict (value : Json) (fields : List String) (code : String) : Except String Fields :=
  match value with
  | .object value => do
    require (sameSet (value.map Prod.fst) fields) code
    pure value
  | _ => .error code

/-- `_PLAN_BRIEF_FIELDS` -/
def planBriefFields : List String :=
  ["experiment_key", "gap_obligation_keys", "goal", "characteristics", "boundary_constraints",
    "semantic_delta", "contributing_idea_refs"]

/-- The fields of a brief, with the material if the brief has any. -/
def planBriefKeys (value : Json) : List String :=
  match value.object?.bind (·.lookup "reuse_material_refs") with
  | some _ => planBriefFields ++ ["reuse_material_refs"]
  | none => planBriefFields

/-- The material of a brief, if it has any. -/
def readMaterial (budget : Budget) (brief : Fields) : Except String Unit :=
  match brief.lookup "reuse_material_refs" with
  | some refs => (stringList budget refs "reuse material refs" true).map fun _ => ()
  | none => .ok ()

/-- One round of the loop of `_plan_briefs`, with the briefs so far by key. -/
def readPlanBrief (budget : Budget) (gaps : List String) (result : List (String × Fields))
    (value : Json) : Except String (List (String × Fields)) := do
  let brief ← exactDict value (planBriefKeys value) "plan_brief_invalid"
  let key ← refOf budget (get brief "experiment_key") "ExperimentKey"
  require (result.lookup key).isNone "plan_brief_duplicate"
  let briefGaps ← stringList budget (get brief "gap_obligation_keys") "brief gaps" false
  require (!briefGaps.isEmpty && briefGaps.all (gaps.contains ·)) "plan_brief_gap_invalid"
  checkAll (fun field => planTextOf (get brief field) field) planProseFields
  let _ ← stringList budget (get brief "contributing_idea_refs") "contributing idea refs" true
  readMaterial budget brief
  pure (result ++ [(key, brief)])

/-- `_plan_briefs` -/
def planBriefsOf (budget : Budget) (digest : String → String) (document : Fields) :
    Except String (String × List (String × Fields)) := do
  let encoded ← validateJsonRoot budget.planDocument (.object document) "PlanDocument" false
  require ((get document "schema_ref").isText planDocumentSchemaRef &&
      (get document "kind").isText "PlanDocument" &&
      (get document "bundle_disposition").isText "experiments_required")
    "completion_contract_plan_invalid"
  let gaps ← stringList budget (get document "gap_set") "Plan gap_set" false
  match get document "experiment_briefs" with
  | .array briefs => do
    require (!gaps.isEmpty && !briefs.isEmpty) "completion_contract_plan_has_no_work"
    let result ← briefs.foldlM (readPlanBrief budget gaps) []
    pure (digest encoded, result)
  | _ => .error "completion_contract_plan_has_no_work"

end MetaResearch.Bundle

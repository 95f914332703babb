import MetaResearch.Model.Datasets.Facts
import MetaResearch.ToMathlib.Dict
import MetaResearch.ToMathlib.JsonValue

/-! # The evidence catalog of target commits

`TargetCommitEvidenceCatalog`, over the facts of its Owners. The digest of a text is a parameter. An error is the
code of an `OwnerConflict`, or the exception that Python itself raises.
-/

namespace MetaResearch.Evidence

open Datasets (AcceptanceReceipt canonicalHash)
open Json (Fields get)

/-! ### The facts of the Owners -/

structure TargetCommit where
  commitRef : String
  targetRef : String
  targetRunRef : String
  evaluationAttemptRef : Option String
  targetSpecHash : String
  closure : Fields
  closureHash : String
  resultDisposition : Option String
  receipt : AcceptanceReceipt

structure AssetRole where
  roleRef : String
  versionRef : String
  assetRef : String
  assetHash : String
  manifestHash : String
  assetReceipt : AcceptanceReceipt
  receipt : AcceptanceReceipt

structure AssetVersion where
  versionRef : String
  assetRef : String
  contentHash : String
  manifestHash : String
  mediaType : String
  provenance : Fields
  receipt : AcceptanceReceipt

/-- A row of the candidate query. The spec is the value that `spec_json` holds. -/
structure Candidate where
  targetCommitRef : String
  questionRef : String
  cycleRef : String
  spec : Json
  versionRef : String
  roleRef : String

/-- What the Owners answer for one Quest: the rows of the candidate query in its order, the commits and the assets
by their references, and the evidence roles. The query joins a role with its asset version and that with the commit
its provenance names. -/
structure Facts where
  candidates : List Candidate
  commit : String → Except String TargetCommit
  roles : List AssetRole
  verifyRole : AssetRole → Except String Unit
  asset : String → Except String (Option AssetVersion)
  materialize : String → Except String (List UInt8)
  commitRef : ∀ ref found, commit ref = .ok found → found.commitRef = ref
  roleKey : (roles.map AssetRole.roleRef).Nodup
  candidateKey : (candidates.map Candidate.roleRef).Nodup
  joined : ∀ row ∈ candidates, ∃ role ∈ roles, role.roleRef = row.roleRef ∧ role.versionRef = row.versionRef
  rooted : ∀ row ∈ candidates, ∀ found, asset row.versionRef = .ok (some found) →
    get found.provenance "target_commit_root_ref" = .text row.targetCommitRef

/-! ### The documents of a commit -/

def receiptDict (receipt : AcceptanceReceipt) : Json :=
  .object [("status", .text "accepted"), ("issuer", .text receipt.issuer), ("kind", .text receipt.kind),
    ("receipt_ref", .text receipt.receiptRef), ("subject_ref", .text receipt.subjectRef),
    ("payload_hash", .text receipt.payloadHash)]

def optionalText (value : Option String) : Json := (value.map Json.text).getD .null

/-- `target_commit_evidence_closure_refs` -/
def closureRefs (commit : TargetCommit) : List String :=
  [commit.targetRef, commit.targetRunRef] ++ commit.evaluationAttemptRef.toList

/-- `_has_measurement` -/
def hasMeasurement (commit : TargetCommit) : Bool :=
  match get commit.closure "accepted_measurement" with
  | .object terminal => !(get terminal "formal_measurement_accepted" matches .bool false)
  | _ => true

/-- `_evidence_capabilities` -/
def evidenceCapabilities (commit : TargetCommit) : List String :=
  if hasMeasurement commit then ["experiment_result", "metric_result", "query_support"]
  else ["experiment_result", "query_support"]

def disposition (commit : TargetCommit) : Fields :=
  commit.resultDisposition.toList.map fun result => ("result_disposition", .text result)

/-- `target_commit_evidence_provenance` -/
def evidenceProvenance (commit : TargetCommit) : Fields :=
  [("target_commit_root_ref", .text commit.commitRef),
    ("provenance_closure_refs", .texts (closureRefs commit)),
    ("capabilities", .texts (evidenceCapabilities commit)),
    ("target_commit_closure_hash", .text commit.closureHash)] ++ disposition commit

section

variable (digest : String → String)

/-- The metric document of a measurement that the target root reports. -/
def rootMetricDocument (commit : TargetCommit) (value : Fields) : Except String Json :=
  match get value "metric_result_ref", get value "metrics", get value "receipt" with
  | .text metricRef, .object metrics, .object receipt =>
    if metricRef ≠ "" && (get value "evaluation_attempt_ref").same (optionalText commit.evaluationAttemptRef) then
      .ok (.object [("metric_result_ref", .text metricRef),
        ("evaluation_attempt_ref", get value "evaluation_attempt_ref"),
        ("result_role_ref", .text "target-root-result-document"), ("metrics", .object metrics),
        ("metrics_hash", .text (canonicalHash digest (.object metrics))), ("receipt", .object receipt)])
    else .error "target_commit_evidence_metric_invalid"
  | _, _, _ => .error "target_commit_evidence_metric_invalid"

/-- `_target_commit_metric_document` -/
def metricDocument (commit : TargetCommit) : Except String Json :=
  if !hasMeasurement commit then .ok .null
  else match get commit.closure "metric_result", get commit.closure "formal_metric",
      get commit.closure "root_measurement" with
    | .object value, _, _ => .ok (.object value)
    | _, .object value, _ => .ok (.object value)
    | _, _, .object value => rootMetricDocument digest commit value
    | _, _, _ => .error "target_commit_evidence_metric_invalid"

/-- `target_commit_evidence_document` -/
def evidenceDocument (commit : TargetCommit) : Except String Json := do
  let metric ← metricDocument digest commit
  match commit.closure.lookup "result_content" with
  | none => .error "KeyError: 'result_content'"
  | some content =>
    .ok (.object ([("schema_ref", .text "meta-research/target-commit-evidence/v1"),
      ("target_commit_ref", .text commit.commitRef), ("target_ref", .text commit.targetRef),
      ("target_run_ref", .text commit.targetRunRef),
      ("evaluation_attempt_ref", optionalText commit.evaluationAttemptRef),
      ("target_spec_hash", .text commit.targetSpecHash),
      ("target_commit_closure_hash", .text commit.closureHash)] ++ disposition commit ++
      [("metric_result", metric), ("result_content", content),
        ("target_commit_receipt", receiptDict commit.receipt)]))

def evidenceRef (commitRef : String) : String :=
  "evidence_" ++ ((canonicalHash digest (.object [("target_commit_ref", .text commitRef)])).take 32).toString

end

/-! ### The discovery summary -/

/-- The longest beginning of a text within a number of bytes. -/
def prefixWithin : List Char → ℕ → List Char
  | [], _ => []
  | char :: rest, maxBytes =>
    if char.utf8Size ≤ maxBytes then char :: prefixWithin rest (maxBytes - char.utf8Size) else []

/-- `bounded_text` -/
def boundedText (value : Json) (maxBytes : ℕ) : Json :=
  let text := value.text?.getD value.dumps
  .object [("text", .text (String.ofList (prefixWithin text.toList maxBytes))),
    ("source_utf8_bytes", .integer text.utf8ByteSize), ("truncated", .bool (maxBytes < text.utf8ByteSize))]

/-- The truth value of a JSON value. -/
def truthy : Json → Bool
  | .null => false
  | .bool value => value
  | .integer value => value ≠ 0
  | .number literal => Json.literalValue literal ≠ 0
  | .text value => value ≠ ""
  | .array items => !items.isEmpty
  | .object fields => !fields.isEmpty

/-- `first or second` -/
def orElse (first second : Json) : Json := if truthy first then first else second

/-- The goals of the semantic inputs of a spec; iterating a text or an object gives no dictionary. -/
def purpose (spec : Json) : Except String (List Json) :=
  match spec with
  | .object fields =>
    match (fields.lookup "semantic_inputs").getD (.array []) with
    | .array items => .ok (items.filterMap fun item => item.object?.map fun input => get input "goal")
    | .text _ | .object _ => .ok []
    | _ => .error "TypeError: object is not iterable"
  | _ => .error "AttributeError: object has no attribute 'get'"

/-- The part of the result content that is summed up. -/
def summarizedResult (commit : TargetCommit) : Fields :=
  match (commit.closure.lookup "result_content").getD (.object []) with
  | .object result =>
    match get result "content" with
    | .object content => content
    | _ => result
  | _ => []

def summaryField (name : String) (value : Json) : Fields :=
  if value matches .null then [] else [(name, boundedText value 512)]

/-- `evidence_discovery_summary` -/
def evidenceDiscoverySummary (spec metricResult : Json) (result : Fields) : Except String Json := do
  let metrics := match metricResult with
    | .object fields => match get fields "metrics" with
      | .object metrics => metrics
      | _ => []
    | _ => []
  let goals ← purpose spec
  let claim := orElse (orElse (get result "claim") (get result "qualification_verdict"))
    (get result "baseline_matrix_verdict")
  let resultSummary := orElse (get result "summary") (get result "observations")
  pure (.object ([("schema_ref", .text "meta-research/evidence-discovery-summary/v1"),
    ("summary_only", .bool true), ("purpose", boundedText (.array goals) 512)] ++
    summaryField "claim" claim ++ summaryField "result_summary" resultSummary ++
    [("support_boundary", boundedText ((result.lookup "limitations").getD (.array [])) 512),
      ("metric_names", .array ((metrics.take 12).map fun field =>
        .text (String.ofList (prefixWithin field.1.toList 80)))),
      ("metric_count", .integer metrics.length)]))

/-! ### Entries of the catalog -/

/-- A role that is admitted, with its asset and its commit. -/
structure Entry where
  commit : TargetCommit
  asset : AssetVersion
  role : AssetRole

def Entry.roleRef (entry : Entry) : String := entry.role.roleRef

def Entry.commitRef (entry : Entry) : String := entry.commit.commitRef

section

variable (digest : String → String)

def Entry.ref (entry : Entry) : String := evidenceRef digest entry.commitRef

/-- The dictionary of an entry. -/
def Entry.document (entry : Entry) : Json :=
  .object [("schema_ref", .text "meta-research/evidence-ref/v1"), ("evidence_ref", .text (entry.ref digest)),
    ("asset_version_ref", .text entry.asset.versionRef), ("asset_ref", .text entry.asset.assetRef),
    ("content_hash", .text entry.asset.contentHash), ("manifest_hash", .text entry.asset.manifestHash),
    ("target_commit_root_ref", .text entry.commitRef),
    ("provenance_closure_refs", .texts (closureRefs entry.commit)),
    ("capabilities", .texts (evidenceCapabilities entry.commit)),
    ("eligibility_token_ref", .text entry.role.receipt.receiptRef),
    ("integrity_receipt_ref", .text entry.asset.receipt.receiptRef),
    ("availability_receipt_ref", .text entry.asset.receipt.receiptRef),
    ("currentness_receipt_ref", .text entry.role.receipt.receiptRef),
    ("asset_receipt", receiptDict entry.asset.receipt), ("role_ref", .text entry.roleRef),
    ("role_receipt", receiptDict entry.role.receipt)]

/-- The projection of an entry, whose role is that of the candidate. -/
def Entry.projection (entry : Entry) (source : Candidate) : Except String Json := do
  require (canonicalHash digest source.spec = entry.commit.targetSpecHash) "target_commit_evidence_spec_mismatch"
  let metric ← metricDocument digest entry.commit
  let summary ← evidenceDiscoverySummary source.spec metric (summarizedResult entry.commit)
  pure (.object ([("evidence_ref", .text (entry.ref digest)), ("question_ref", .text source.questionRef),
    ("cycle_ref", .text source.cycleRef), ("target_commit_ref", .text entry.commitRef),
    ("asset_version_ref", .text entry.asset.versionRef), ("content_hash", .text entry.asset.contentHash),
    ("target_spec_hash", .text entry.commit.targetSpecHash), ("research_summary", summary)] ++
    disposition entry.commit ++
    [("exact_content_reader", .text "research_memory.plan_evidence.read")]))

/-- The checks of `_catalog_for_candidates` on a role whose asset names a commit. -/
def admitAsset (facts : Facts) (commit : TargetCommit) (asset : AssetVersion) (role : AssetRole) :
    Except String (Option Entry) :=
  if (evidenceProvenance commit).any fun field => !(get asset.provenance field.1).same field.2 then pure none
  else if asset.mediaType ≠ "application/vnd.meta-research.target-commit-evidence+json" then pure none
  else do
    let content ← facts.materialize role.versionRef
    let expected ← evidenceDocument digest commit
    if content ≠ expected.dumps.toUTF8.toList then pure none
    else do
      require (role.assetRef = asset.assetRef && role.assetHash = asset.contentHash &&
        role.manifestHash = asset.manifestHash && role.assetReceipt = asset.receipt)
        "target_commit_evidence_binding_invalid"
      pure (some ⟨commit, asset, role⟩)

/-- One turn of the loop of `_catalog_for_candidates`, up to the comparison with the entry that is held. -/
def admitRole (facts : Facts) (commits : List TargetCommit) (role : AssetRole) : Except String (Option Entry) := do
  match ← facts.asset role.versionRef with
  | none => .error "target_commit_evidence_asset_missing"
  | some asset =>
    match (get asset.provenance "target_commit_root_ref").text?.bind fun root =>
        commits.find? fun commit => commit.commitRef = root with
    | none => pure none
    | some commit => admitAsset digest facts commit asset role

/-- The dictionaries that the loop fills: the entries by their commit, and the projections by their evidence. -/
structure Collected where
  accepted : List (String × Entry) := []
  projections : List (String × Json) := []

/-- The rest of the turn: the least role of a commit is kept, and projected where projections are asked for. -/
def keepLeast (project : Bool) (candidates : List Candidate) (held : Collected) (entry : Entry) :
    Except String Collected :=
  if (held.accepted.lookup entry.commitRef).all fun previous => entry.roleRef < previous.roleRef then do
    let accepted := Dict.set entry.commitRef entry held.accepted
    if project then
      match candidates.find? fun row => row.roleRef = entry.roleRef with
      | none => .error "StopIteration"
      | some source =>
        let projection ← entry.projection digest source
        pure ⟨accepted, Dict.set (entry.ref digest) projection held.projections⟩
    else pure { held with accepted }
  else pure held

/-- `query_target_commits_for_quest` and `query_asset_roles` for some candidates. -/
def Facts.commitsFor (facts : Facts) (candidates : List Candidate) : Except String (List TargetCommit) :=
  (candidates.map Candidate.targetCommitRef).dedup.mapM facts.commit

def Facts.rolesFor (facts : Facts) (candidates : List Candidate) : Except String (List AssetRole) := do
  let roles := facts.roles.filter fun role => (candidates.map Candidate.versionRef).contains role.versionRef
  checkAll facts.verifyRole roles
  pure roles

/-- `_catalog_for_candidates`, with the projections by their evidence. -/
def catalogForCandidates (facts : Facts) (project : Bool) (candidates : List Candidate) :
    Except String (List Entry × List (String × Json)) := do
  let commits ← facts.commitsFor candidates
  if candidates.isEmpty then pure ([], [])
  else do
    let roles ← facts.rolesFor candidates
    let selected := roles.filter fun role => (candidates.map Candidate.roleRef).contains role.roleRef
    let held ← selected.foldlM (fun held role => do
      match ← admitRole digest facts commits role with
      | none => pure held
      | some entry => keepLeast digest project candidates held entry) ({} : Collected)
    pure (sortByKey (Entry.ref digest) (held.accepted.map Prod.snd), held.projections)

/-! ### Pages -/

/-- `CATALOG_MAX_BYTES` -/
def catalogMaxBytes : ℕ := 24 * 1024

/-- `query_target_commit_evidence_candidates` -/
def Facts.queryCandidates (facts : Facts) (offset limit : ℕ) : Except String (ℕ × List Candidate) := do
  require (1 ≤ limit && limit ≤ 256) "target_commit_evidence_query_invalid"
  pure (facts.candidates.length, (facts.candidates.drop offset).take limit)

/-- What the loop of `query_plan_evidence_page` has selected. -/
structure Selection where
  selected : List Entry := []
  projections : List Json := []
  scanned : ℕ := 0

/-- The bytes of the page that is proposed. -/
def proposedSize (selected : List Entry) (projections : List Json) : ℕ :=
  (Json.object [("evidence_catalog", .array (selected.map (Entry.document digest))),
    ("projections", .array projections)]).dumps.utf8ByteSize

/-- The loop of `query_plan_evidence_page`, up to its break. -/
def selectPage (catalog : List Entry) (projections : List (String × Json)) :
    List Candidate → Selection → Except String Selection
  | [], selection => pure selection
  | candidate :: rest, selection =>
    match catalog.find? fun entry => entry.roleRef = candidate.roleRef with
    | none => selectPage catalog projections rest { selection with scanned := selection.scanned + 1 }
    | some entry =>
      match projections.lookup (entry.ref digest) with
      | none => .error "KeyError"
      | some projection =>
        if catalogMaxBytes < proposedSize digest (selection.selected ++ [entry])
            (selection.projections ++ [projection]) then
          if selection.selected.isEmpty then .error "plan_evidence_catalog_entry_too_large" else pure selection
        else selectPage catalog projections rest
          ⟨selection.selected ++ [entry], selection.projections ++ [projection], selection.scanned + 1⟩

/-- `evidence_catalog_page_metadata`, with the catalog. -/
structure Page where
  totalCandidates : ℕ
  scannedCount : ℕ
  offset : ℕ
  limit : ℕ
  nextOffset : Option ℕ
  snapshotHash : String
  catalog : List Entry
  projections : List Json

/-- `query_plan_evidence_page` -/
def queryPlanEvidencePage (facts : Facts) (offset limit : ℕ) : Except String Page := do
  let (total, candidates) ← facts.queryCandidates offset limit
  let (entries, projections) ← catalogForCandidates digest facts true candidates
  let selection ← selectPage digest entries projections candidates {}
  let catalog := sortByKey (Entry.ref digest) selection.selected
  let nextOffset := offset + selection.scanned
  pure
    { totalCandidates := total
      scannedCount := selection.scanned
      offset
      limit
      nextOffset := if nextOffset < total then some nextOffset else none
      snapshotHash := canonicalHash digest (.array (catalog.map (Entry.document digest)))
      catalog
      projections := catalog.filterMap fun entry => projections.lookup (entry.ref digest) }

/-- The pages from an offset on, along `next_offset`, with fuel for their number. -/
def pagesFrom (facts : Facts) (limit : ℕ) : ℕ → ℕ → Option (Except String (List Page))
  | 0, _ => none
  | fuel + 1, offset =>
    match queryPlanEvidencePage digest facts offset limit with
    | .error code => some (.error code)
    | .ok page =>
      match page.nextOffset with
      | none => some (.ok [page])
      | some nextOffset => (pagesFrom facts limit fuel nextOffset).map fun rest => rest.map (page :: ·)

/-- The inner loop of `_catalog_for_refs`: of two entries of one evidence the one with the lesser role is kept. -/
def mergeEntries (accepted : List (String × Entry)) (entries : List Entry) : List (String × Entry) :=
  entries.foldl (fun accepted entry =>
    if (accepted.lookup (entry.ref digest)).all fun previous => entry.roleRef < previous.roleRef then
      Dict.set (entry.ref digest) entry accepted
    else accepted) accepted

/-- The loop of `_catalog_for_refs`, with fuel for the number of slices. -/
def catalogForRefsFrom (facts : Facts) (limit : ℕ) : ℕ → ℕ → List (String × Entry) →
    Option (Except String (List (String × Entry)))
  | 0, _, _ => none
  | fuel + 1, offset, accepted =>
    match (do
      let (total, candidates) ← facts.queryCandidates offset limit
      let (entries, _) ← catalogForCandidates digest facts false candidates
      pure (total, candidates, mergeEntries digest accepted entries)) with
    | .error code => some (.error code)
    | .ok (total, candidates, accepted) =>
      if candidates.isEmpty || total ≤ offset + candidates.length then some (.ok accepted)
      else catalogForRefsFrom facts limit fuel (offset + candidates.length) accepted

/-- `_catalog_for_refs` -/
def catalogForRefs (facts : Facts) (limit fuel : ℕ) : Option (Except String (List Entry)) :=
  (catalogForRefsFrom digest facts limit fuel 0 []).map fun result => result.map fun accepted =>
    (sortByKey Prod.fst accepted).map Prod.snd

end

end MetaResearch.Evidence

import MetaResearch.Soundness.Evidence.Pages
import MetaResearch.ToMathlib.JsonSize

/-! # No commit is lost between the pages

What the pages show together, and what the catalog of exact roots holds, whatever the size of a slice. A page has no
place for an entry that is larger than its bytes: the code refuses it, as it refuses a limit outside of its range.
-/

namespace MetaResearch.Evidence

open Datasets (AcceptanceReceipt canonicalHash)

variable {digest : String → String} {facts : Facts}

/-- Two merges of all candidates are sorted to the same entries. -/
theorem IsMerged.eq {first second : List (String × Entry)}
    (merged : IsMerged digest facts facts.candidates first) (also : IsMerged digest facts facts.candidates second) :
    sortByKey Prod.fst first = sortByKey Prod.fst second := by
  refine sortByKey_eq_of_perm (merged.perm also ?_) ?_
  · rintro entry ⟨row, member, admits⟩ other ⟨source, present, again⟩ _ same
    exact admits.unique member present again same
  · intro pair member other present same
    exact List.inj_on_of_nodup_map merged.nodup member present same

theorem catalogForRefs_spec (consistent : facts.Consistent digest) (apart : facts.RefsApart digest)
    (limit : ℕ) (admitted : 1 ≤ limit ∧ limit ≤ 256) :
    ∃ fuel accepted, IsMerged digest facts facts.candidates accepted ∧
      catalogForRefs digest facts limit fuel = some (.ok ((sortByKey Prod.fst accepted).map Prod.snd)) := by
  have none : IsMerged digest facts (facts.candidates.take 0) [] := by
    have empty : facts.entriesOf digest (facts.candidates.take 0) = ∅ := by
      ext entry
      simp [Facts.entriesOf]
    rw [IsMerged, empty]
    exact IsLeastBy.empty
  obtain ⟨whole, ran, merged⟩ := catalogForRefsFrom_spec consistent apart admitted
    (facts.candidates.length + 1) 0 (Nat.zero_le _) (by omega) none
  exact ⟨_, whole, merged, by rw [catalogForRefs, ran]; rfl⟩

theorem pages_cover (consistent : facts.Consistent digest) (apart : facts.RefsApart digest)
    (fits : facts.Fits digest) {limit : ℕ} (admitted : 1 ≤ limit ∧ limit ≤ 256) :
    ∃ fuel pages, pagesFrom digest facts limit fuel 0 = some (.ok pages) ∧
      ∀ row ∈ facts.candidates, ∀ entry, facts.Admits digest row entry →
        ∃ page ∈ pages, ∃ shown ∈ page.catalog, shown.commitRef = row.targetCommitRef := by
  obtain ⟨pages, followed, covered⟩ := pagesFrom_spec consistent apart fits admitted
    (facts.candidates.length + 1) 0 (Nat.zero_le _) (by omega)
  refine ⟨_, pages, followed, fun row member entry admits => ?_⟩
  obtain ⟨least, ⟨source, present, eligible⟩, same, below⟩ := exists_least consistent apart ⟨row, member, admits⟩
  obtain ⟨page, listed, shown⟩ := covered source present least eligible below
  exact ⟨page, listed, least, shown, same.trans admits.eq.2⟩

/-- A page whose first candidate has the least entry of its commit, which is too large, is refused. -/
theorem queryPlanEvidencePage_too_large (consistent : facts.Consistent digest) (apart : facts.RefsApart digest)
    {limit : ℕ} (admitted : 1 ≤ limit ∧ limit ≤ 256) {offset : ℕ} {row : Candidate} {rest : List Candidate}
    (here : facts.candidates.drop offset = row :: rest) {entry : Entry} (admits : facts.Admits digest row entry)
    (least : ∀ other ∈ facts.entriesOf digest facts.candidates, other.commitRef = entry.commitRef →
      entry.roleRef ≤ other.roleRef) {projection : Json} (projects : entry.projection digest row = .ok projection)
    (large : catalogMaxBytes < proposedSize digest [entry] [projection]) :
    queryPlanEvidencePage digest facts offset limit = .error "plan_evidence_catalog_entry_too_large" := by
  set rows := (facts.candidates.drop offset).take limit with slicing
  have slice : rows ⊆ facts.candidates := fun row member =>
    List.mem_of_mem_drop (List.mem_of_mem_take member)
  have queried : facts.queryCandidates offset limit = .ok (facts.candidates.length, rows) :=
    check_then_eq_ok_iff.mpr ⟨require_eq_ok_iff.mpr (by simp [admitted]), rfl⟩
  obtain ⟨catalog, projections, collected, is⟩ := catalogForCandidates_spec consistent apart true slice
  obtain ⟨more, split⟩ : ∃ more, rows = row :: more := by
    obtain ⟨count, rfl⟩ := Nat.exists_eq_add_of_le' admitted.1
    exact ⟨_, by rw [slicing, here, List.take_succ_cons]⟩
  have inSlice : row ∈ rows := split ▸ List.mem_cons_self
  have found := find_least is slice inSlice admits least
  obtain ⟨source, present, again, shown, projected, there⟩ :=
    is.projected rfl entry (List.mem_of_find?_eq_some found)
  obtain rfl := candidate_unique present (slice inSlice) (again.eq.1.symm.trans admits.eq.1)
  obtain rfl := Except.ok.inj (projects.symm.trans projected)
  have refused : selectPage digest catalog projections rows {} = .error "plan_evidence_catalog_entry_too_large" := by
    rw [split, selectPage]
    simp only [found, there, List.nil_append]
    rw [if_pos large]
    rfl
  rw [queryPlanEvidencePage, queried]
  simp only [bind, Except.bind, collected, refused]

def oneReceipt : AcceptanceReceipt where
  issuer := "research_memory"
  kind := "asset"
  receiptRef := "receipt_1"
  subjectRef := "subject_1"
  payloadHash := "hash"

/-- A commit without a measurement. -/
def oneCommit (digest : String → String) : TargetCommit where
  commitRef := "commit_1"
  targetRef := "target_1"
  targetRunRef := "run_1"
  evaluationAttemptRef := none
  targetSpecHash := canonicalHash digest (.object [])
  closure := [("accepted_measurement", .object [("formal_measurement_accepted", .bool false)]),
    ("result_content", .object [])]
  closureHash := "hash"
  resultDisposition := none
  receipt := oneReceipt

def oneAsset (digest : String → String) : AssetVersion where
  versionRef := "version_1"
  assetRef := "asset_1"
  contentHash := "hash"
  manifestHash := "hash"
  mediaType := "application/vnd.meta-research.target-commit-evidence+json"
  provenance := evidenceProvenance (oneCommit digest)
  receipt := oneReceipt

def oneRole : AssetRole where
  roleRef := "role_1"
  versionRef := "version_1"
  assetRef := "asset_1"
  assetHash := "hash"
  manifestHash := "hash"
  assetReceipt := oneReceipt
  receipt := oneReceipt

def oneCandidate (questionRef : String) : Candidate where
  targetCommitRef := "commit_1"
  questionRef := questionRef
  cycleRef := "cycle_1"
  spec := .object []
  versionRef := "version_1"
  roleRef := "role_1"

def oneFacts (digest : String → String) (questionRef : String) : Facts where
  candidates := [oneCandidate questionRef]
  commit ref := if ref = "commit_1" then .ok (oneCommit digest) else .error "target_commit_missing"
  roles := [oneRole]
  verifyRole _ := .ok ()
  asset _ := .ok (some (oneAsset digest))
  materialize _ := (evidenceDocument digest (oneCommit digest)).map fun document => document.dumps.toUTF8.toList
  commitRef ref found answer := by
    split_ifs at answer with same
    rw [same, ← Except.ok.inj answer]
    rfl
  roleKey := List.nodup_singleton _
  candidateKey := List.nodup_singleton _
  joined row member := ⟨oneRole, List.mem_singleton_self _, by
    rw [List.mem_singleton.mp member]
    exact ⟨rfl, rfl⟩⟩
  rooted row member found answer := by
    rw [List.mem_singleton.mp member, ← Option.some.inj (Except.ok.inj answer)]
    rfl

def oneEntry (digest : String → String) : Entry := ⟨oneCommit digest, oneAsset digest, oneRole⟩

theorem one_admits (digest : String → String) (questionRef : String) :
    (oneFacts digest questionRef).Admits digest (oneCandidate questionRef) (oneEntry digest) := by
  have same : ((evidenceProvenance (oneCommit digest)).any fun field =>
      !(Json.get (oneAsset digest).provenance field.1).same field.2) = false := by rfl
  obtain ⟨document, written⟩ : ∃ document, evidenceDocument digest (oneCommit digest) = .ok document := ⟨_, rfl⟩
  have stored : (oneFacts digest questionRef).materialize oneRole.versionRef =
      .ok document.dumps.toUTF8.toList := by
    unfold oneFacts
    simp only [written, Except.map]
  have admitted : admitAsset digest (oneFacts digest questionRef) (oneCommit digest) (oneAsset digest) oneRole =
      .ok (some (oneEntry digest)) := by
    rw [admitAsset, same, stored, written]
    change (if document.dumps.toUTF8.toList ≠ document.dumps.toUTF8.toList then _ else _) = _
    rw [if_neg (not_not_intro rfl)]
    rfl
  exact admitted

theorem one_projection (digest : String → String) (questionRef : String) :
    ∃ projection, (oneEntry digest).projection digest (oneCandidate questionRef) = .ok (.object projection) ∧
      ("question_ref", .text questionRef) ∈ projection := by
  have spec : require (canonicalHash digest (oneCandidate questionRef).spec = (oneEntry digest).commit.targetSpecHash)
      "target_commit_evidence_spec_mismatch" = .ok () := require_eq_ok_iff.mpr (decide_eq_true rfl)
  refine ⟨_, check_then_eq_ok_iff.mpr ⟨spec, rfl⟩, ?_⟩
  exact .tail _ (.head _)

theorem one_consistent (digest : String → String) (questionRef : String) :
    (oneFacts digest questionRef).Consistent digest where
  commit row member := ⟨oneCommit digest, by rw [List.mem_singleton.mp member]; rfl⟩
  role _ _ _ _ _ := rfl
  entry row member := by
    obtain rfl := List.mem_singleton.mp member
    exact ⟨_, one_admits digest questionRef⟩
  projection row member entry admits := by
    obtain ⟨projection, projects, _⟩ := one_projection digest questionRef
    obtain rfl := List.mem_singleton.mp member
    rw [Option.some.inj (Except.ok.inj (admits.symm.trans (one_admits digest questionRef)))]
    exact ⟨_, projects⟩

theorem one_apart (digest : String → String) (questionRef : String) :
    (oneFacts digest questionRef).RefsApart digest := by
  intro row member other present _
  rw [List.mem_singleton.mp member, List.mem_singleton.mp present]

/-- The SHA-256 of an empty object, and of `{"target_commit_ref":"commit_1"}`. -/
def oneDigest (text : String) : String :=
  if text = "{}" then "44136fa355b3678a1146ad16f7e8649e94fb4fc21fe77e8310c060f61caaff8a"
  else "c82dfc9a768c9042d3c7bccb820e622af939fd3f2b9972263cf4620a43add853"

theorem one_fits : (oneFacts oneDigest "question_1").Fits oneDigest := by
  intro row member entry admits projection projects
  obtain rfl := List.mem_singleton.mp member
  obtain rfl := Option.some.inj (Except.ok.inj (admits.symm.trans (one_admits oneDigest "question_1")))
  have small : ∀ projection, (oneEntry oneDigest).projection oneDigest (oneCandidate "question_1") = .ok projection →
      (Json.object [("evidence_catalog", .array [(oneEntry oneDigest).document oneDigest]),
        ("projections", .array [projection])]).weight ≤ catalogMaxBytes := by
    intro projection projects
    obtain rfl := Except.ok.inj projects
    decide +kernel
  exact (Json.size_dumps_le _).trans (small projection projects)

def longQuestion : String := String.ofList (List.replicate 30000 'q')

theorem one_too_large : ∃ projection,
    (oneEntry oneDigest).projection oneDigest (oneCandidate longQuestion) = .ok projection ∧
      catalogMaxBytes < proposedSize oneDigest [oneEntry oneDigest] [projection] := by
  obtain ⟨projection, projects, member⟩ := one_projection oneDigest longQuestion
  refine ⟨_, projects, ?_⟩
  have question : longQuestion.length ≤ (Json.text longQuestion).dumps.utf8ByteSize :=
    Json.length_le_size_quote longQuestion
  have size : longQuestion.length = 30000 := String.length_ofList.trans List.length_replicate
  have field := Json.size_dumps_field_le member
  have item := Json.size_dumps_item_le (List.mem_singleton_self (Json.object projection))
  have whole : (Json.array [.object projection]).dumps.utf8ByteSize ≤
      proposedSize oneDigest [oneEntry oneDigest] [.object projection] :=
    Json.size_dumps_field_le (.tail _ (.head _))
  have budget : catalogMaxBytes = 24576 := rfl
  omega

end MetaResearch.Evidence

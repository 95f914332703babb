import MetaResearch.Model.Plan.ContextPack
import MetaResearch.Soundness.Plan.Agreement

/-! # The errors of the Plan contract

The validators look some values up in a set or a dictionary before they know that these are texts. An array
or an object that stands there is not hashable, and the `TypeError` is not the error of the contract. Where
no such value is come to, only the errors of the contract are raised.
-/

namespace MetaResearch.Plan

open Json (Fields get isText requireHashable)
open MetaResearch.Bundle (sameSet)

/-- The codes of `PlanContractError` -/
def planContractCodes : List String :=
  ["plan_document_invalid", "plan_notes_invalid", "plan_document_source_invalid",
    "plan_selected_evidence_invalid", "plan_evidence_ref_invalid", "plan_accepted_idea_set_invalid",
    "answer_contract_invalid", "answer_contract_source_invalid", "answer_contract_hash_invalid",
    "answer_contract_trace_invalid", "plan_idea_matrix_incomplete", "plan_idea_matrix_invalid",
    "plan_coverage_incomplete", "plan_coverage_invalid", "plan_evidence_use_invalid",
    "plan_evidence_ref_unbound", "plan_evidence_reuse_set_invalid", "plan_gap_set_invalid",
    "plan_experiment_brief_invalid", "plan_gap_brief_closure_invalid", "plan_reuse_material_ref_invalid",
    "plan_idea_trace_invalid", "plan_bundle_disposition_invalid", "plan_context_pack_invalid",
    "plan_idea_set_binding_invalid", "plan_evidence_catalog_invalid", "plan_evidence_page_invalid"]

/-- The error is one of the contract. -/
abbrev Contractual (error : String) : Prop := error ∈ planContractCodes

example : Contractual "plan_evidence_page_invalid" := by decide
example : ¬ Contractual "unhashable type: 'list'" := by decide

/-- A value that a set or the keys of a dictionary accept -/
def isHashable : Json → Bool
  | .array _ => false
  | .object _ => false
  | _ => true

theorem requireHashable_eq_ok {value : Json} (hashable : isHashable value = true) :
    requireHashable value = .ok () := by
  cases value with
  | array _ => cases hashable
  | object _ => cases hashable
  | _ => rfl

theorem raisesOnly_requireHashable {value : Json} :
    RaisesOnly Contractual (requireHashable value) ↔ isHashable value = true := by
  cases value with
  | array _ => exact iff_of_false (by rw [requireHashable, raisesOnly_error]; decide) Bool.false_ne_true
  | object _ => exact iff_of_false (by rw [requireHashable, raisesOnly_error]; decide) Bool.false_ne_true
  | _ => exact iff_of_true raisesOnly_ok rfl

/-- What holds of the value that is answered, if one is -/
def After {α : Type} (answer : Except String α) (property : α → Prop) : Prop :=
  ∀ value, answer = .ok value → property value

/-- What holds of each item of a loop and of the state in which the loop comes to it -/
def AtEach {α β : Type} (step : β → α → Except String β) (state : β) (items : List α)
    (property : β → α → Prop) : Prop :=
  ∀ front item back, items = front ++ item :: back →
    After (front.foldlM step state) fun reached => property reached item

theorem raisesOnly_bind {α β : Type} {first : Except String α} {next : α → Except String β}
    (total : RaisesOnly Contractual first) :
    RaisesOnly Contractual (first >>= next) ↔ After first fun value => RaisesOnly Contractual (next value) := by
  rw [raisesOnly_bind_iff]
  exact and_iff_right total

theorem raisesOnly_loop {α β : Type} {step : β → α → Except String β} {state : β} {items : List α} :
    RaisesOnly Contractual (items.foldlM step state) ↔
      AtEach step state items fun reached item => RaisesOnly Contractual (step reached item) := by
  induction items generalizing state with
  | nil => simp [AtEach]
  | cons first rest ih =>
    rw [List.foldlM_cons, raisesOnly_bind_iff]
    constructor
    · rintro ⟨here, later⟩ front item back split reached done
      cases front with
      | nil =>
        obtain ⟨rfl, rfl⟩ := List.cons_eq_cons.mp split
        cases done
        exact here
      | cons other front =>
        obtain ⟨rfl, rfl⟩ := List.cons_eq_cons.mp split
        obtain ⟨next, passed, done⟩ := bind_eq_ok_iff.mp done
        exact ih.mp (later next passed) front item back rfl reached done
    · intro each
      refine ⟨each [] first rest rfl state rfl, fun next passed => ih.mpr ?_⟩
      intro front item back split reached done
      exact each (first :: front) item back (by rw [split, List.cons_append]) reached
        (bind_eq_ok_iff.mpr ⟨next, passed, done⟩)

theorem After.congr {α : Type} {answer : Except String α} {first second : α → Prop}
    (same : ∀ value, first value ↔ second value) : After answer first ↔ After answer second :=
  forall_congr' fun value => imp_congr_right fun _ => same value

theorem AtEach.congr {α β : Type} {step : β → α → Except String β} {state : β} {items : List α}
    {first second : β → α → Prop} (same : ∀ state item, first state item ↔ second state item) :
    AtEach step state items first ↔ AtEach step state items second :=
  forall_congr' fun _ => forall_congr' fun _ => forall_congr' fun _ => imp_congr_right fun _ =>
    After.congr fun _ => same _ _

/-! ### Elementary checks -/

section

variable {value : Json} {code : String}

theorem total_require (own : Contractual code) {condition : Bool} :
    RaisesOnly Contractual (require condition code) := raisesOnly_require.mpr fun _ => own

theorem total_object (own : Contractual code) : RaisesOnly Contractual (object value code) := by
  unfold object
  split
  · exact raisesOnly_ok
  · exact raisesOnly_error.mpr own

theorem total_list (own : Contractual code) : RaisesOnly Contractual (list value code) := by
  unfold list
  split
  · exact raisesOnly_ok
  · exact raisesOnly_error.mpr own

theorem total_exactKeys (own : Contractual code) {fields : Fields} {expected : List String} :
    RaisesOnly Contractual (exactKeys fields expected code) := total_require own

theorem total_sha256 (own : Contractual code) : RaisesOnly Contractual (sha256 value code) :=
  total_require own

theorem total_requireText (own : Contractual code) : RaisesOnly Contractual (requireText value code) := by
  unfold requireText
  cases textOf? value with
  | none => exact raisesOnly_error.mpr own
  | some text => exact raisesOnly_ok

theorem total_distinctTexts (own : Contractual code) : RaisesOnly Contractual (distinctTexts value code) := by
  unfold distinctTexts
  split
  · exact raisesOnly_check_iff.mpr ⟨total_require own, fun _ => raisesOnly_pure⟩
  · exact raisesOnly_error.mpr own

theorem total_validateIdeaRefList (own : Contractual code) {candidateRefs : List String} :
    RaisesOnly Contractual (validateIdeaRefList value candidateRefs code) :=
  raisesOnly_bind_iff.mpr ⟨total_distinctTexts own, fun _ _ => total_require own⟩

/-- A value that is looked up in a set is hashed first. -/
theorem raisesOnly_memberOf (own : Contractual code) {values : List String} :
    RaisesOnly Contractual (memberOf value values code) ↔ isHashable value = true := by
  rw [memberOf, raisesOnly_check_iff, raisesOnly_requireHashable, and_iff_left_iff_imp]
  intro _ _
  split
  · split
    · exact raisesOnly_ok
    · exact raisesOnly_error.mpr own
  · exact raisesOnly_error.mpr own

theorem total_validateReceipt (own : Contractual code) {issuer subjectRef : String} {kind : Option String} :
    RaisesOnly Contractual (validateReceipt value issuer kind subjectRef code) := by
  simp only [validateReceipt, raisesOnly_bind_iff, raisesOnly_pure, total_object own, total_exactKeys own,
    total_require own, total_requireText own, total_sha256 own, implies_true, and_self]

theorem total_validateEvidenceRef {evidence : Fields} :
    RaisesOnly Contractual (validateEvidenceRef evidence) := by
  have own : Contractual "plan_evidence_ref_invalid" := by decide
  have texts (field : String) : RaisesOnly Contractual
      ((requireText (get evidence field) "plan_evidence_ref_invalid").map fun _ => ()) :=
    (total_requireText own).map _
  have lists (field : String) : RaisesOnly Contractual (do
      let values ← distinctTexts (get evidence field) "plan_evidence_ref_invalid"
      require (!values.isEmpty) "plan_evidence_ref_invalid") :=
    raisesOnly_bind_iff.mpr ⟨total_distinctTexts own, fun _ _ => total_require own⟩
  simp only [validateEvidenceRef, raisesOnly_bind_iff, total_exactKeys own, total_require own,
    raisesOnly_checkAll fun field _ => texts field, raisesOnly_checkAll fun field _ => total_sha256 own,
    raisesOnly_checkAll fun field _ => lists field, total_requireText own, total_validateReceipt own,
    implies_true, and_self]

end

/-! ### Selected evidence -/

/-- The kind of a source is hashable when it is come to. -/
def SourceKindHashable (entry : Fields) : Prop :=
  let code := "plan_selected_evidence_invalid"
  After (exactKeys entry ["evidence_ref", "source_kind", "source_ref", "source_binding", "reader"] code) fun _ =>
    After (requireText (get entry "evidence_ref") code) fun _ =>
      After (requireText (get entry "source_ref") code) fun _ =>
        After (object (get entry "source_binding") code) fun _ => isHashable (get entry "source_kind") = true

theorem isHashable_of_isText {value : Json} {expected : String} (named : value.isText expected = true) :
    isHashable value = true := by
  cases value with
  | text _ => rfl
  | _ => simp [isText, Json.text?] at named

theorem raisesOnly_validateSource {entry source : Fields} {evidenceRef sourceRef code : String}
    (own : Contractual code) :
    RaisesOnly Contractual (validateSource entry source evidenceRef sourceRef code) ↔
      isHashable (get entry "source_kind") = true := by
  unfold validateSource
  dsimp only
  split_ifs with commit asset
  · simp only [isHashable_of_isText commit, iff_true]
    exact raisesOnly_check_iff.mpr ⟨total_validateEvidenceRef, fun _ => total_require own⟩
  · simp only [isHashable_of_isText asset, iff_true]
    exact total_require own
  · rw [raisesOnly_bind_iff, raisesOnly_memberOf own, and_iff_left_iff_imp]
    exact fun _ _ _ => total_require own

theorem raisesOnly_validateSelectedEvidenceBinding {entry : Fields} :
    RaisesOnly Contractual (validateSelectedEvidenceBinding entry) ↔ SourceKindHashable entry := by
  have own : Contractual "plan_selected_evidence_invalid" := by decide
  unfold validateSelectedEvidenceBinding SourceKindHashable
  dsimp only
  rw [raisesOnly_bind (total_exactKeys own)]
  refine After.congr fun _ => ?_
  rw [raisesOnly_bind (total_requireText own)]
  refine After.congr fun _ => ?_
  rw [raisesOnly_bind (total_requireText own)]
  refine After.congr fun _ => ?_
  rw [raisesOnly_bind (total_object own)]
  refine After.congr fun _ => ?_
  rw [raisesOnly_check_iff, raisesOnly_validateSource own, and_iff_left_iff_imp]
  intro _ _
  simp only [raisesOnly_bind_iff, total_object own, total_exactKeys own, total_requireText own,
    total_require own, raisesOnly_pure, implies_true, and_self]

/-- What the loop over the selected evidence hashes of an entry: the kind of its source, and the version. -/
def EntryHashable (frozen : List FrozenEvidence) (selected : Selected) (value : Json) : Prop :=
  let code := "plan_selected_evidence_invalid"
  After (object value code) fun entry =>
    SourceKindHashable entry ∧
      After (validateSelectedEvidenceBinding entry) fun (ref, source, sourceRef) =>
        After (require (!selected.refs.contains ref && (frozen.reverse.find? (·.evidenceRef = ref)).all
          fun item => (Json.object item.fields).same (.object source)) code) fun _ =>
          isHashable ((source.lookup "asset_version_ref").getD (.text sourceRef)) = true

theorem raisesOnly_selectEvidence {frozen : List FrozenEvidence} {selected : Selected} {value : Json} :
    RaisesOnly Contractual (selectEvidence frozen selected value) ↔ EntryHashable frozen selected value := by
  have own : Contractual "plan_selected_evidence_invalid" := by decide
  unfold selectEvidence EntryHashable
  dsimp only
  rw [raisesOnly_bind (total_object own)]
  refine After.congr fun entry => ?_
  rw [raisesOnly_bind_iff, raisesOnly_validateSelectedEvidenceBinding]
  refine and_congr_right fun _ => After.congr fun ⟨ref, source, sourceRef⟩ => ?_
  dsimp only
  rw [raisesOnly_bind (total_require own)]
  refine After.congr fun _ => ?_
  rw [raisesOnly_check_iff, raisesOnly_requireHashable, and_iff_left_iff_imp]
  intro _ _
  exact raisesOnly_check_iff.mpr ⟨total_require own, fun _ => raisesOnly_pure⟩

/-- What the selected evidence of a document hashes -/
def SelectionHashable (document : Fields) (frozen : List FrozenEvidence) : Prop :=
  After (list (get ((get document "source_bindings").object?.getD []) "selected_evidence_bindings")
    "plan_selected_evidence_invalid") fun entries =>
    AtEach (selectEvidence frozen) ⟨[], []⟩ entries (EntryHashable frozen)

theorem raisesOnly_selectedPlanEvidenceCatalog {document : Fields} {frozen : List FrozenEvidence} :
    RaisesOnly Contractual (selectedPlanEvidenceCatalog document frozen) ↔
      SelectionHashable document frozen := by
  have own : Contractual "plan_selected_evidence_invalid" := by decide
  unfold selectedPlanEvidenceCatalog SelectionHashable
  dsimp only
  rw [raisesOnly_bind (total_list own)]
  refine After.congr fun entries => ?_
  rw [raisesOnly_bind_iff, raisesOnly_loop, AtEach.congr fun _ _ => raisesOnly_selectEvidence,
    and_iff_left_iff_imp]
  exact fun _ _ _ => raisesOnly_pure

/-! ### The answer contract -/

/-- The items of a question trace are hashable. -/
def TraceHashable (value : Json) : Prop :=
  After (list value "answer_contract_trace_invalid") fun items => ∀ item ∈ items, isHashable item = true

theorem raisesOnly_checkHashable {items : List Json} :
    RaisesOnly Contractual (checkAll requireHashable items) ↔ ∀ item ∈ items, isHashable item = true := by
  induction items with
  | nil => simp [checkAll]
  | cons item rest ih =>
    rw [checkAll, raisesOnly_check_iff, raisesOnly_requireHashable, ih, List.forall_mem_cons]
    refine and_congr_right fun hashable => ?_
    exact imp_iff_right (requireHashable_eq_ok hashable)

theorem raisesOnly_validateQuestionTrace {value : Json} :
    RaisesOnly Contractual (validateQuestionTrace value) ↔ TraceHashable value := by
  have own : Contractual "answer_contract_trace_invalid" := by decide
  unfold validateQuestionTrace TraceHashable
  dsimp only
  rw [raisesOnly_bind (total_list own)]
  refine After.congr fun items => ?_
  rw [raisesOnly_check_iff, raisesOnly_checkHashable, and_iff_left_iff_imp]
  exact fun _ _ => total_require own

/-- The role of an idea is hashable when it is come to. -/
def RelevanceHashable (candidateRefs : List String) (roles : Roles) (value : Json) : Prop :=
  let code := "plan_idea_matrix_invalid"
  After (object value code) fun item =>
    After (exactKeys item ["idea_ref", "role", "rationale"] code) fun _ =>
      ∀ ideaRef, (get item "idea_ref").text? = some ideaRef →
        After (require (candidateRefs.contains ideaRef && (roles.lookup ideaRef).isNone) code) fun _ =>
          isHashable (get item "role") = true

theorem raisesOnly_collectRelevance {candidateRefs : List String} {roles : Roles} {value : Json} :
    RaisesOnly Contractual (collectRelevance candidateRefs roles value) ↔
      RelevanceHashable candidateRefs roles value := by
  have own : Contractual "plan_idea_matrix_invalid" := by decide
  unfold collectRelevance RelevanceHashable
  dsimp only
  rw [raisesOnly_bind (total_object own)]
  refine After.congr fun item => ?_
  rw [raisesOnly_bind (total_exactKeys own)]
  refine After.congr fun _ => ?_
  cases (get item "idea_ref").text? with
  | none => simpa using own
  | some ideaRef =>
    simp only [Option.some.injEq, forall_eq']
    rw [raisesOnly_bind (total_require own)]
    refine After.congr fun _ => ?_
    rw [raisesOnly_bind_iff, raisesOnly_memberOf own, and_iff_left_iff_imp]
    intro _ _ _
    exact raisesOnly_bind_iff.mpr ⟨total_requireText own, fun _ _ => raisesOnly_pure⟩

/-- What the loop over the obligations hashes of one: the items of its trace, and the roles of its ideas. -/
def ObligationHashable (candidateRefs : List String) (obligations : List (String × Roles)) (value : Json) :
    Prop :=
  let code := "answer_contract_invalid"
  After (object value code) fun obligation =>
    After (exactKeys obligation ["obligation_key", "statement", "minimum_support", "question_trace",
      "idea_relevance"] code) fun _ =>
      After (requireText (get obligation "obligation_key") code) fun key =>
        After (requireText (get obligation "statement") code) fun _ =>
          After (requireText (get obligation "minimum_support") code) fun _ =>
            After (require (obligations.lookup key).isNone code) fun _ =>
              TraceHashable (get obligation "question_trace") ∧
                After (validateQuestionTrace (get obligation "question_trace")) fun _ =>
                  After (list (get obligation "idea_relevance") "plan_idea_matrix_incomplete") fun relevance =>
                    After (require (relevance.length ≤ candidateRefs.length) "plan_idea_matrix_incomplete") fun _ =>
                      AtEach (collectRelevance candidateRefs) [] relevance (RelevanceHashable candidateRefs)

theorem raisesOnly_collectObligation {candidateRefs : List String} {obligations : List (String × Roles)}
    {value : Json} :
    RaisesOnly Contractual (collectObligation candidateRefs obligations value) ↔
      ObligationHashable candidateRefs obligations value := by
  have own : Contractual "answer_contract_invalid" := by decide
  have matrix : Contractual "plan_idea_matrix_incomplete" := by decide
  unfold collectObligation ObligationHashable
  dsimp only
  rw [raisesOnly_bind (total_object own)]
  refine After.congr fun obligation => ?_
  rw [raisesOnly_bind (total_exactKeys own)]
  refine After.congr fun _ => ?_
  rw [raisesOnly_bind (total_requireText own)]
  refine After.congr fun key => ?_
  rw [raisesOnly_bind (total_requireText own)]
  refine After.congr fun _ => ?_
  rw [raisesOnly_bind (total_requireText own)]
  refine After.congr fun _ => ?_
  rw [raisesOnly_bind (total_require own)]
  refine After.congr fun _ => ?_
  rw [raisesOnly_bind_iff, raisesOnly_validateQuestionTrace]
  refine and_congr_right fun _ => After.congr fun _ => ?_
  rw [raisesOnly_bind (total_list matrix)]
  refine After.congr fun relevance => ?_
  rw [raisesOnly_bind (total_require matrix)]
  refine After.congr fun _ => ?_
  rw [raisesOnly_bind_iff, raisesOnly_loop, AtEach.congr fun _ _ => raisesOnly_collectRelevance,
    and_iff_left_iff_imp]
  exact fun _ _ _ => raisesOnly_pure

/-- What an answer contract hashes -/
def ContractHashable (digest : String → String) (contract : Fields) (questionRef ideaSetRef : String)
    (candidateRefs : List String) : Prop :=
  After (exactKeys contract ["source_question_ref", "source_idea_set_ref", "obligations",
    "answer_contract_hash"] "answer_contract_invalid") fun _ =>
    After (require ((get contract "source_question_ref").isText questionRef &&
      (get contract "source_idea_set_ref").isText ideaSetRef) "answer_contract_source_invalid") fun _ =>
      After (require ((get contract "answer_contract_hash").isText
        (digest (Json.object (Json.without contract "answer_contract_hash")).dumps))
        "answer_contract_hash_invalid") fun _ =>
        After (list (get contract "obligations") "answer_contract_invalid") fun obligations =>
          After (require (1 ≤ obligations.length && obligations.length ≤ maxPlanObligations)
            "answer_contract_invalid") fun _ =>
            AtEach (collectObligation candidateRefs) [] obligations (ObligationHashable candidateRefs)

theorem raisesOnly_validateAnswerContract {digest : String → String} {contract : Fields}
    {questionRef ideaSetRef : String} {candidateRefs : List String} :
    RaisesOnly Contractual (validateAnswerContract digest contract questionRef ideaSetRef candidateRefs) ↔
      ContractHashable digest contract questionRef ideaSetRef candidateRefs := by
  have own : Contractual "answer_contract_invalid" := by decide
  unfold validateAnswerContract ContractHashable
  rw [raisesOnly_bind (total_exactKeys own)]
  refine After.congr fun _ => ?_
  rw [raisesOnly_bind (total_require (by decide))]
  refine After.congr fun _ => ?_
  rw [raisesOnly_bind (total_require (by decide))]
  refine After.congr fun _ => ?_
  rw [raisesOnly_bind (total_list own)]
  refine After.congr fun obligations => ?_
  rw [raisesOnly_bind (total_require own)]
  refine After.congr fun _ => ?_
  rw [raisesOnly_loop, AtEach.congr fun _ _ => raisesOnly_collectObligation]

/-! ### Coverage -/

/-- The reference of an evidence use is hashable when it is come to. -/
def UseHashable (obligationKey : String) (value : Json) : Prop :=
  let code := "plan_evidence_use_invalid"
  After (object value code) fun use =>
    After (exactKeys use ["obligation_key", "evidence_ref", "supported_claim", "support_boundary",
      "contributing_idea_refs"] code) fun _ =>
      After (require ((get use "obligation_key").isText obligationKey) code) fun _ =>
        isHashable (get use "evidence_ref") = true

theorem raisesOnly_validateEvidenceUse {obligationKey : String} {evidenceRefs candidateRefs : List String}
    {value : Json} :
    RaisesOnly Contractual (validateEvidenceUse obligationKey evidenceRefs candidateRefs value) ↔
      UseHashable obligationKey value := by
  have own : Contractual "plan_evidence_use_invalid" := by decide
  unfold validateEvidenceUse UseHashable
  dsimp only
  rw [raisesOnly_bind (total_object own)]
  refine After.congr fun use => ?_
  rw [raisesOnly_bind (total_exactKeys own)]
  refine After.congr fun _ => ?_
  rw [raisesOnly_bind (total_require own)]
  refine After.congr fun _ => ?_
  rw [raisesOnly_bind_iff, raisesOnly_memberOf (by decide), and_iff_left_iff_imp]
  intro _ _ _
  simp only [raisesOnly_bind_iff, total_requireText own, total_validateIdeaRefList own, implies_true,
    and_self]

/-- What holds of each item of a check and after the check of the items before it -/
def AtEachChecked {α : Type} (check : α → Except String Unit) (items : List α) (property : α → Prop) : Prop :=
  ∀ front item back, items = front ++ item :: back → After (checkAll check front) fun _ => property item

theorem raisesOnly_checkEach {α : Type} {check : α → Except String Unit} {items : List α} :
    RaisesOnly Contractual (checkAll check items) ↔
      AtEachChecked check items fun item => RaisesOnly Contractual (check item) := by
  have loop : ∀ items : List α, checkAll check items = items.foldlM (fun _ item => check item) () := by
    intro items
    induction items with
    | nil => rfl
    | cons item rest ih =>
      rw [checkAll, List.foldlM_cons, ih]
  rw [loop, raisesOnly_loop]
  unfold AtEach AtEachChecked
  simp only [loop]

theorem AtEachChecked.congr {α : Type} {check : α → Except String Unit} {items : List α}
    {first second : α → Prop} (same : ∀ item, first item ↔ second item) :
    AtEachChecked check items first ↔ AtEachChecked check items second :=
  forall_congr' fun _ => forall_congr' fun _ => forall_congr' fun _ => imp_congr_right fun _ =>
    After.congr fun _ => same _

/-- What the loop over the coverage hashes of an entry: its disposition, and what its uses refer to. -/
def CoverageHashable (obligationKeys evidenceRefs candidateRefs : List String) (coverage : Coverage)
    (value : Json) : Prop :=
  let code := "plan_coverage_invalid"
  After (object value code) fun item =>
    After (exactKeys item ["obligation_key", "disposition", "evidence_uses", "insufficiency"] code) fun _ =>
      After (requireText (get item "obligation_key") code) fun key =>
        After (require (obligationKeys.contains key && !coverage.keys.contains key) code) fun _ =>
          isHashable (get item "disposition") = true ∧
            After (memberOf (get item "disposition") coverageDispositions code) fun _ =>
              After (list (get item "evidence_uses") code) fun uses =>
                AtEachChecked (validateEvidenceUse key evidenceRefs candidateRefs) uses (UseHashable key)

theorem raisesOnly_collectCoverage {obligationKeys evidenceRefs candidateRefs : List String}
    {coverage : Coverage} {value : Json} :
    RaisesOnly Contractual (collectCoverage obligationKeys evidenceRefs candidateRefs coverage value) ↔
      CoverageHashable obligationKeys evidenceRefs candidateRefs coverage value := by
  have own : Contractual "plan_coverage_invalid" := by decide
  unfold collectCoverage CoverageHashable
  dsimp only
  rw [raisesOnly_bind (total_object own)]
  refine After.congr fun item => ?_
  rw [raisesOnly_bind (total_exactKeys own)]
  refine After.congr fun _ => ?_
  rw [raisesOnly_bind (total_requireText own)]
  refine After.congr fun key => ?_
  rw [raisesOnly_bind (total_require own)]
  refine After.congr fun _ => ?_
  rw [raisesOnly_bind_iff, raisesOnly_memberOf own]
  refine and_congr_right fun _ => After.congr fun disposition => ?_
  rw [raisesOnly_bind (total_list own)]
  refine After.congr fun uses => ?_
  rw [raisesOnly_check_iff, raisesOnly_checkEach,
    AtEachChecked.congr fun _ => raisesOnly_validateEvidenceUse, and_iff_left_iff_imp]
  intro _ _
  split_ifs
  · exact raisesOnly_check_iff.mpr ⟨total_require own, fun _ => raisesOnly_pure⟩
  · exact raisesOnly_bind_iff.mpr ⟨total_requireText own, fun _ _ => raisesOnly_pure⟩

/-- What the coverage of a document hashes -/
def CoveragesHashable (document : Fields) (obligationKeys evidenceRefs candidateRefs : List String) : Prop :=
  After (list (get document "coverage") "plan_coverage_incomplete") fun items =>
    After (require (items.length = obligationKeys.length) "plan_coverage_incomplete") fun _ =>
      AtEach (collectCoverage obligationKeys evidenceRefs candidateRefs) ⟨[], [], []⟩ items
        (CoverageHashable obligationKeys evidenceRefs candidateRefs)

theorem raisesOnly_validateCoverage {document : Fields}
    {obligationKeys evidenceRefs candidateRefs : List String} :
    RaisesOnly Contractual (validateCoverage document obligationKeys evidenceRefs candidateRefs) ↔
      CoveragesHashable document obligationKeys evidenceRefs candidateRefs := by
  have own : Contractual "plan_coverage_incomplete" := by decide
  have reuse : Contractual "plan_evidence_reuse_set_invalid" := by decide
  have gap : Contractual "plan_gap_set_invalid" := by decide
  unfold validateCoverage CoveragesHashable
  rw [raisesOnly_bind (total_list own)]
  refine After.congr fun items => ?_
  rw [raisesOnly_bind (total_require own)]
  refine After.congr fun _ => ?_
  rw [raisesOnly_bind_iff, raisesOnly_loop, AtEach.congr fun _ _ => raisesOnly_collectCoverage,
    and_iff_left_iff_imp]
  intro _ coverage _
  simp only [raisesOnly_bind_iff, total_require own, total_list reuse, total_require reuse,
    total_distinctTexts gap, total_require gap, raisesOnly_pure, implies_true, and_self]

/-! ### The trace of the ideas -/

/-- The obligation and the role that an idea is traced by are hashable when they are come to. -/
def RoleHashable (expected actual : Roles) (value : Json) : Prop :=
  let code := "plan_idea_trace_invalid"
  After (object value code) fun role =>
    After (exactKeys role ["obligation_key", "role"] code) fun _ =>
      isHashable (get role "obligation_key") = true ∧
        After (memberOf (get role "obligation_key") (expected.map Prod.fst) code) fun key =>
          After (require (actual.lookup key).isNone code) fun _ => isHashable (get role "role") = true

theorem raisesOnly_collectRole {expected actual : Roles} {value : Json} :
    RaisesOnly Contractual (collectRole expected actual value) ↔ RoleHashable expected actual value := by
  have own : Contractual "plan_idea_trace_invalid" := by decide
  unfold collectRole RoleHashable
  dsimp only
  rw [raisesOnly_bind (total_object own)]
  refine After.congr fun role => ?_
  rw [raisesOnly_bind (total_exactKeys own)]
  refine After.congr fun _ => ?_
  rw [raisesOnly_bind_iff, raisesOnly_memberOf own]
  refine and_congr_right fun _ => After.congr fun key => ?_
  rw [raisesOnly_bind (total_require own)]
  refine After.congr fun _ => ?_
  rw [raisesOnly_bind_iff, raisesOnly_memberOf own, and_iff_left_iff_imp]
  exact fun _ _ _ => raisesOnly_pure

/-- What the loop over the ideas hashes of one -/
def IdeaHashable (candidateRefs : List String) (obligations : List (String × Roles)) (seen : List String)
    (value : Json) : Prop :=
  let code := "plan_idea_trace_invalid"
  After (object value code) fun item =>
    After (exactKeys item ["idea_ref", "obligation_roles"] code) fun _ =>
      ∀ ideaRef, (get item "idea_ref").text? = some ideaRef →
        After (require (candidateRefs.contains ideaRef && !seen.contains ideaRef) code) fun _ =>
          After (list (get item "obligation_roles") code) fun roles =>
            AtEach (collectRole (rolesOf obligations ideaRef)) [] roles
              (RoleHashable (rolesOf obligations ideaRef))

theorem raisesOnly_collectIdea {candidateRefs : List String} {obligations : List (String × Roles)}
    {seen : List String} {value : Json} :
    RaisesOnly Contractual (collectIdea candidateRefs obligations seen value) ↔
      IdeaHashable candidateRefs obligations seen value := by
  have own : Contractual "plan_idea_trace_invalid" := by decide
  unfold collectIdea IdeaHashable
  dsimp only
  rw [raisesOnly_bind (total_object own)]
  refine After.congr fun item => ?_
  rw [raisesOnly_bind (total_exactKeys own)]
  refine After.congr fun _ => ?_
  cases (get item "idea_ref").text? with
  | none => simpa using own
  | some ideaRef =>
    simp only [Option.some.injEq, forall_eq']
    rw [raisesOnly_bind (total_require own)]
    refine After.congr fun _ => ?_
    rw [raisesOnly_bind (total_list own)]
    refine After.congr fun roles => ?_
    rw [raisesOnly_bind_iff, raisesOnly_loop, AtEach.congr fun _ _ => raisesOnly_collectRole,
      and_iff_left_iff_imp]
    intro _ _ _
    exact raisesOnly_check_iff.mpr ⟨total_require own, fun _ => raisesOnly_pure⟩

/-- What the trace of the ideas hashes -/
def IdeaTraceHashable (value : Json) (candidateRefs : List String) (obligations : List (String × Roles)) :
    Prop :=
  let code := "plan_idea_trace_invalid"
  After (list value code) fun items =>
    After (require (items.length =
      (obligations.flatMap fun obligation => obligation.2.map Prod.fst).dedup.length) code) fun _ =>
      AtEach (collectIdea candidateRefs obligations) [] items (IdeaHashable candidateRefs obligations)

theorem raisesOnly_validateIdeaTrace {value : Json} {candidateRefs : List String}
    {obligations : List (String × Roles)} :
    RaisesOnly Contractual (validateIdeaTrace value candidateRefs obligations) ↔
      IdeaTraceHashable value candidateRefs obligations := by
  have own : Contractual "plan_idea_trace_invalid" := by decide
  unfold validateIdeaTrace IdeaTraceHashable
  dsimp only
  rw [raisesOnly_bind (total_list own)]
  refine After.congr fun items => ?_
  rw [raisesOnly_bind (total_require own)]
  refine After.congr fun _ => ?_
  rw [raisesOnly_bind_iff, raisesOnly_loop, AtEach.congr fun _ _ => raisesOnly_collectIdea,
    and_iff_left_iff_imp]
  exact fun _ _ _ => total_require own

/-! ### The document -/

theorem total_acceptedCandidateRefs {ideaSet : Fields} {questionRef : String} :
    RaisesOnly Contractual (acceptedCandidateRefs ideaSet questionRef) := by
  have own : Contractual "plan_accepted_idea_set_invalid" := by decide
  have each (value : Json) : RaisesOnly Contractual (do
      let candidate ← object value "plan_accepted_idea_set_invalid"
      requireText (get candidate "candidate_key") "plan_accepted_idea_set_invalid") :=
    raisesOnly_bind_iff.mpr ⟨total_object own, fun _ _ => total_requireText own⟩
  simp only [acceptedCandidateRefs, raisesOnly_bind_iff, total_require own, total_list own,
    raisesOnly_mapM fun value _ => each value, raisesOnly_pure, implies_true, and_self]

theorem total_validateExperimentBrief {gapKeys candidateRefs evidenceRefs : List String} {brief : Fields} :
    RaisesOnly Contractual (validateExperimentBrief gapKeys candidateRefs evidenceRefs brief) := by
  have own : Contractual "plan_experiment_brief_invalid" := by decide
  have gap : Contractual "plan_gap_brief_closure_invalid" := by decide
  have reuse : Contractual "plan_reuse_material_ref_invalid" := by decide
  have texts (field : String) : RaisesOnly Contractual
      ((requireText (get brief field) "plan_experiment_brief_invalid").map fun _ => ()) :=
    (total_requireText own).map _
  simp only [validateExperimentBrief, raisesOnly_bind_iff, total_exactKeys own, total_requireText own,
    raisesOnly_checkAll fun field _ => texts field, total_distinctTexts gap, total_require gap,
    total_validateIdeaRefList own, total_distinctTexts reuse, total_require reuse, raisesOnly_pure,
    implies_true, and_self]

theorem total_validateBriefs {document : Fields} {gapKeys candidateRefs evidenceRefs : List String} :
    RaisesOnly Contractual (validateBriefs document gapKeys candidateRefs evidenceRefs) := by
  have own : Contractual "plan_experiment_brief_invalid" := by decide
  have each (keys : List String) (value : Json) :
      RaisesOnly Contractual (collectBrief gapKeys candidateRefs evidenceRefs keys value) := by
    simp only [collectBrief, raisesOnly_bind_iff, total_object own, total_validateExperimentBrief,
      total_require own, raisesOnly_pure, implies_true, and_self]
  simp only [validateBriefs, raisesOnly_bind_iff, total_list own, total_require own,
    raisesOnly_foldlM fun keys value _ => each keys value, raisesOnly_pure, implies_true, and_self]

/-- No array or object is hashed on the way through a document. -/
def DocumentHashable (digest : String → String) (arguments : PlanArguments) (document : Fields) : Prop :=
  let code := "plan_document_source_invalid"
  After (exactKeys document (documentKeys document) "plan_document_invalid") fun _ =>
    After (require ((document.lookup "notes").all (·.text?.isSome)) "plan_notes_invalid") fun _ =>
      After (require ((get document "schema_ref").isText planDocumentSchemaRef &&
        (get document "kind").isText "PlanDocument" &&
        (get document "question_ref").isText arguments.questionRef &&
        (get document "idea_set_ref").isText arguments.ideaSetRef &&
        (get document "context_pack_ref").isText arguments.contextPackRef) code) fun _ =>
        After (sha256 (.text arguments.contextPackHash) code) fun _ =>
          SelectionHashable document arguments.evidenceByRef ∧
            After (selectedPlanEvidenceCatalog document arguments.evidenceByRef) fun evidenceRefs =>
              After (acceptedCandidateRefs arguments.acceptedIdeaSet arguments.questionRef) fun candidateRefs =>
                After (object (get document "answer_contract") "answer_contract_invalid") fun contract =>
                  ContractHashable digest contract arguments.questionRef arguments.ideaSetRef candidateRefs ∧
                    After (validateAnswerContract digest contract arguments.questionRef arguments.ideaSetRef
                      candidateRefs) fun obligations =>
                      CoveragesHashable document (obligations.map Prod.fst) evidenceRefs candidateRefs ∧
                        After (validateCoverage document (obligations.map Prod.fst) evidenceRefs
                          candidateRefs) fun gapKeys =>
                          After (validateBriefs document gapKeys candidateRefs evidenceRefs) fun _ =>
                            IdeaTraceHashable (get document "idea_trace") candidateRefs obligations

theorem total_validateSourceBindings {arguments : PlanArguments} {document : Fields} :
    RaisesOnly Contractual (validateSourceBindings arguments document) := by
  have source : Contractual "plan_document_source_invalid" := by decide
  simp only [validateSourceBindings, raisesOnly_bind_iff, total_object source, total_exactKeys source,
    total_require source, implies_true, and_self]

theorem raisesOnly_validatePlanDocument {digest : String → String} {arguments : PlanArguments}
    {document : Fields} :
    RaisesOnly Contractual (validatePlanDocument digest arguments document) ↔
      DocumentHashable digest arguments document := by
  have source : Contractual "plan_document_source_invalid" := by decide
  unfold validatePlanDocument DocumentHashable
  dsimp only
  rw [raisesOnly_bind (total_exactKeys (by decide))]
  refine After.congr fun _ => ?_
  rw [raisesOnly_bind (total_require (by decide))]
  refine After.congr fun _ => ?_
  rw [raisesOnly_bind (total_require source)]
  refine After.congr fun _ => ?_
  rw [raisesOnly_bind (total_sha256 source)]
  refine After.congr fun _ => ?_
  rw [raisesOnly_bind_iff, raisesOnly_selectedPlanEvidenceCatalog]
  refine and_congr_right fun _ => After.congr fun evidenceRefs => ?_
  rw [raisesOnly_bind total_acceptedCandidateRefs]
  refine After.congr fun candidateRefs => ?_
  rw [raisesOnly_bind (total_object (by decide))]
  refine After.congr fun contract => ?_
  rw [raisesOnly_bind_iff, raisesOnly_validateAnswerContract]
  refine and_congr_right fun _ => After.congr fun obligations => ?_
  rw [raisesOnly_bind_iff, raisesOnly_validateCoverage]
  refine and_congr_right fun _ => After.congr fun gapKeys => ?_
  rw [raisesOnly_bind total_validateBriefs]
  refine After.congr fun briefs => ?_
  rw [raisesOnly_bind_iff, raisesOnly_validateIdeaTrace, and_iff_left_iff_imp]
  intro _ _ _
  simp only [raisesOnly_bind_iff, total_require (by decide : Contractual "plan_bundle_disposition_invalid"),
    total_validateSourceBindings, raisesOnly_pure, implies_true, and_self]

/-! ### The context pack -/

theorem total_mapError {α : Type} {answer : Except String α} {code : String} (own : Contractual code) :
    RaisesOnly Contractual (answer.mapError fun _ => code) := by
  cases answer with
  | error _ => exact raisesOnly_error.mpr own
  | ok _ => exact raisesOnly_ok

theorem total_validateIdeaSetBinding {digest materialText : String → String} {binding : Fields}
    {questionRef : String} :
    RaisesOnly Contractual (validateIdeaSetBinding digest materialText binding questionRef) := by
  have own : Contractual "plan_idea_set_binding_invalid" := by decide
  have receipt {value : Json} {issuer subjectRef : String} {kind : Option String} : RaisesOnly Contractual
      ((validateReceipt value issuer kind subjectRef "plan_idea_set_binding_invalid").map fun _ => ()) :=
    (total_validateReceipt own).map _
  simp only [validateIdeaSetBinding, raisesOnly_bind_iff, total_exactKeys own, total_requireText own,
    raisesOnly_checkAll fun field _ => total_sha256 own, total_require own, total_object own,
    total_mapError own, total_validateReceipt own, receipt, implies_true, and_self]

theorem total_pageNumber {page : Fields} {name code : String} (own : Contractual code) :
    RaisesOnly Contractual (pageNumber page name code) := by
  unfold pageNumber
  split
  · split_ifs
    · exact raisesOnly_ok
    · exact raisesOnly_error.mpr own
  · exact raisesOnly_error.mpr own

theorem total_validateCatalogPage {digest : String → String} {page : Fields} {catalog : List Json}
    {questionRef : String} : RaisesOnly Contractual (validateCatalogPage digest page catalog questionRef) := by
  have own : Contractual "plan_evidence_page_invalid" := by decide
  simp only [validateCatalogPage, raisesOnly_bind_iff, total_exactKeys own, total_pageNumber own,
    total_require own, total_list own, raisesOnly_pure, implies_true, and_self]

theorem total_pageProjections {digest : String → String} {pack : Fields} {catalog : List Json}
    {questionRef : String} : RaisesOnly Contractual (pageProjections digest pack catalog questionRef) := by
  unfold pageProjections
  split
  · exact raisesOnly_pure
  · exact total_validateCatalogPage
  · exact raisesOnly_error.mpr (by decide)

theorem total_collectCatalog {catalog : Catalog} {value : Json} :
    RaisesOnly Contractual (collectCatalog catalog value) := by
  have own : Contractual "plan_evidence_ref_invalid" := by decide
  simp only [collectCatalog, raisesOnly_bind_iff, total_object own, total_validateEvidenceRef,
    total_requireText own, total_require (by decide : Contractual "plan_evidence_catalog_invalid"),
    raisesOnly_pure, implies_true, and_self]

theorem total_validateProjection {digest : String → String} {evidence : Fields} {value : Json} :
    RaisesOnly Contractual (validateProjection digest evidence value) := by
  have own : Contractual "plan_evidence_page_invalid" := by decide
  simp only [validateProjection, raisesOnly_bind_iff, total_object own, total_require own, implies_true,
    and_self]

theorem total_validatePlanContextPack {digest materialText : String → String} {pack : Fields}
    {cycleRef : String} {acceptedQuestionBinding : Fields} :
    RaisesOnly Contractual
      (validatePlanContextPack digest materialText pack cycleRef acceptedQuestionBinding) := by
  have own : Contractual "plan_context_pack_invalid" := by decide
  have catalog : Contractual "plan_evidence_catalog_invalid" := by decide
  have page : Contractual "plan_evidence_page_invalid" := by decide
  have position : RaisesOnly Contractual (Idea.checkPresent pack "cycle_position" fun position =>
      (validateCyclePosition position cycleRef).mapError fun _ => "plan_context_pack_invalid") := by
    unfold Idea.checkPresent
    split
    · exact total_mapError own
    · exact raisesOnly_pure
  have revision : RaisesOnly Contractual (validateRevision pack) := by
    simp only [validateRevision, raisesOnly_bind_iff, total_list catalog, total_require catalog,
      raisesOnly_pure, implies_true, and_self]
  simp only [validatePlanContextPack, raisesOnly_bind_iff, total_exactKeys own, total_require own, position,
    total_requireText own, total_object (by decide : Contractual "plan_idea_set_binding_invalid"),
    total_validateIdeaSetBinding, revision, total_pageProjections,
    raisesOnly_foldlM fun _ _ _ => total_collectCatalog, total_require page,
    raisesOnly_checkAll fun _ _ => total_validateProjection, raisesOnly_pure, implies_true, and_self]

/-! ### Any value -/

/-- The value is a dictionary, or the comparison of its items with the expected keys fails. -/
def comparesKeys (value : Json) (expected : (String → Bool) → List String) : Bool :=
  match value with
  | .object _ => true
  | .text _ => true
  | .array items =>
    let texts := items.filterMap Json.text?
    items.all isHashable && !(texts.length = items.length && sameSet texts (expected (texts.contains ·)))
  | _ => false

theorem fieldsOf_eq_ok_iff {value : Json} {expected : (String → Bool) → List String} {code look : String}
    {fields : Fields} : fieldsOf value expected code look = .ok fields ↔ value = .object fields := by
  cases value with
  | array items =>
    simp only [fieldsOf, check_then_eq_ok_iff, reduceCtorEq, and_false]
  | _ => simp [fieldsOf]

theorem raisesOnly_fieldsOf {value : Json} {expected : (String → Bool) → List String} {code look : String}
    (own : Contractual code) (foreign : ¬ Contractual look) :
    RaisesOnly Contractual (fieldsOf value expected code look) ↔ comparesKeys value expected = true := by
  cases value with
  | object fields => simp [fieldsOf, comparesKeys]
  | text value => simpa [fieldsOf, comparesKeys] using own
  | array items =>
    simp only [fieldsOf, comparesKeys, Bool.and_eq_true, List.all_eq_true]
    rw [raisesOnly_check_iff, raisesOnly_checkHashable]
    refine and_congr_right fun hashable => ?_
    have passed : checkAll requireHashable items = .ok () := by
      rw [checkAll_eq_ok_iff]
      exact fun item member => requireHashable_eq_ok (hashable item member)
    rw [imp_iff_right passed, raisesOnly_check_iff, and_iff_right (total_require own), require_eq_ok_iff,
      raisesOnly_error, imp_iff_not_or, or_iff_left foreign, Bool.not_eq_true', Bool.not_eq_true]
  | null => simpa [fieldsOf, comparesKeys] using (by decide : ¬ Contractual (notIterable "NoneType"))
  | bool _ => simpa [fieldsOf, comparesKeys] using (by decide : ¬ Contractual (notIterable "bool"))
  | integer _ => simpa [fieldsOf, comparesKeys] using (by decide : ¬ Contractual (notIterable "int"))
  | number _ => simpa [fieldsOf, comparesKeys] using (by decide : ¬ Contractual (notIterable "float"))

/-- A document whose selected evidence has a list for the kind of its source -/
def listedKindDocument : Fields :=
  [("schema_ref", .text planDocumentSchemaRef), ("kind", .text "PlanDocument"),
    ("question_ref", .text "question"), ("idea_set_ref", .text "ideas"), ("context_pack_ref", .text "pack"),
    ("answer_contract", .null), ("evidence_reuse_set", .array []), ("coverage", .array []),
    ("gap_set", .array []), ("experiment_briefs", .array []), ("idea_trace", .array []),
    ("bundle_disposition", .null), ("source_bindings", .object [("selected_evidence_bindings", .array
      [.object [("evidence_ref", .text "evidence"), ("source_kind", .array []), ("source_ref", .text "source"),
        ("source_binding", .object []), ("reader", .null)]])])]

end MetaResearch.Plan

import MetaResearch.Model.Bundle.PlanBriefs
import MetaResearch.Model.Plan.PlanContract
import MetaResearch.Soundness.Bundle.Candidates

/-! # The Plan gate and the Bundle gate

Both gates read the same document. The Plan gate asks of an identifier that it is text, the Bundle gate
that it is a reference; for everything else an accepted Plan passes the Bundle gate within the root
budget.
-/

namespace MetaResearch.Plan

open Json (Fields get isText)
open MetaResearch.Bundle (Budget IsRef refOf stringList readMaterial readPlanBrief planBriefKeys planBriefsOf planTextOf exactDict
  planProseFields planBriefFields sameSet sameSet_eq_true_iff ref_eq_ok_iff validateJsonRoot planText)

variable {budget : Budget} {digest : String → String} {arguments : PlanArguments} {document brief : Fields}
  {value : Json} {texts : List String} {code name : String}

/-! ### Identifiers -/

/-- The texts of a list. -/
def textsIn (value : Json) : List String := (value.array?.getD []).filterMap Json.text?

/-- What a brief names: its experiment, the ideas it draws on and the material it reuses. -/
def briefIdentifiers (brief : Fields) : List String :=
  (get brief "experiment_key").text?.toList ++ textsIn (get brief "contributing_idea_refs") ++
    textsIn (get brief "reuse_material_refs")

/-- What a document names: its gaps and what its briefs name. -/
def planIdentifiers (document : Fields) : List String :=
  textsIn (get document "gap_set") ++ (((get document "experiment_briefs").array?.getD []).filterMap
    Json.object?).flatMap briefIdentifiers

/-! ### Texts -/

theorem textOf?_eq_some_iff {plain : String} :
    textOf? value = some plain ↔ value = .text plain ∧ text plain = true := by
  cases value <;> simp [textOf?, Json.text?, Option.filter]
  constructor
  · rintro ⟨accepted, rfl⟩
    exact ⟨rfl, accepted⟩
  · rintro ⟨rfl, accepted⟩
    exact ⟨accepted, rfl⟩

theorem requireText_eq_ok_iff {plain : String} :
    requireText value code = .ok plain ↔ value = .text plain ∧ text plain = true := by
  rw [← textOf?_eq_some_iff, requireText]
  split <;> simp_all

private theorem mapM_textOf?_eq_some_iff {items : List Json} :
    items.mapM textOf? = some texts ↔
      items = texts.map .text ∧ ∀ item ∈ texts, text item = true := by
  induction items generalizing texts with
  | nil => cases texts <;> simp
  | cons item rest ih =>
    rw [List.mapM_cons]
    cases texts with
    | nil => simp [Option.bind_eq_some_iff]
    | cons first others =>
      simp only [Option.bind_eq_bind, Option.bind_eq_some_iff, Option.pure_def, Option.some.injEq,
        List.cons.injEq, textOf?_eq_some_iff, ih, List.map_cons, List.forall_mem_cons]
      constructor
      · rintro ⟨_, ⟨rfl, accepted⟩, _, ⟨rfl, each⟩, rfl, rfl⟩
        exact ⟨⟨rfl, rfl⟩, accepted, each⟩
      · rintro ⟨⟨rfl, rfl⟩, accepted, each⟩
        exact ⟨_, ⟨rfl, accepted⟩, _, ⟨rfl, each⟩, rfl, rfl⟩

theorem distinctTexts_eq_ok_iff :
    distinctTexts value code = .ok texts ↔
      value = .array (texts.map .text) ∧ (∀ item ∈ texts, text item = true) ∧ texts.Nodup := by
  cases value with
  | array items =>
    rw [Json.array.injEq, ← and_assoc, ← mapM_textOf?_eq_some_iff, distinctTexts]
    cases mapped : items.mapM textOf? with
    | none => simp [Json.array?, mapped]
    | some found =>
      simp only [Json.array?, Option.bind_some, mapped, check_then_eq_ok_iff, require_eq_ok_iff,
        decide_eq_true_eq, pure, Except.pure, Except.ok.injEq, Option.some.injEq]
      constructor
      · rintro ⟨distinct, rfl⟩
        exact ⟨rfl, distinct⟩
      · rintro ⟨rfl, distinct⟩
        exact ⟨distinct, rfl⟩
  | _ => simp [distinctTexts, Json.array?]

theorem textsIn_texts : textsIn (.array (texts.map .text)) = texts := by
  simp [textsIn, Json.array?, List.filterMap_map, Function.comp_def, Json.text?]

theorem refOf_eq_ok_iff {plain : String} :
    refOf budget value name = .ok plain ↔ value = .text plain ∧ IsRef budget plain := by
  cases value with
  | text found =>
    simp only [refOf, check_then_eq_ok_iff, ref_eq_ok_iff, pure, Except.pure, Except.ok.injEq,
      Json.text.injEq]
    constructor
    · rintro ⟨reference, rfl⟩
      exact ⟨rfl, reference⟩
    · rintro ⟨rfl, reference⟩
      exact ⟨reference, rfl⟩
  | _ => simp [refOf]

private theorem mapM_refOf_eq_ok_iff {result : List String} :
    (texts.map Json.text).mapM (refOf budget · name) = .ok result ↔
      (∀ item ∈ texts, IsRef budget item) ∧ result = texts := by
  induction texts generalizing result with
  | nil => simp [pure, Except.pure, eq_comm]
  | cons first rest ih =>
    simp only [List.map_cons, List.mapM_cons, bind_eq_ok_iff, refOf_eq_ok_iff, Json.text.injEq, pure,
      Except.pure, Except.ok.injEq, ih, List.forall_mem_cons]
    constructor
    · rintro ⟨_, ⟨rfl, here⟩, _, ⟨each, rfl⟩, rfl⟩
      exact ⟨⟨here, each⟩, rfl⟩
    · rintro ⟨⟨here, each⟩, rfl⟩
      exact ⟨_, ⟨rfl, here⟩, _, ⟨each, rfl⟩, rfl⟩

/-- Of a list of distinct texts the Bundle asks that they are references. -/
theorem stringList_of_distinctTexts {allowEmpty : Bool} {result : List String}
    (accepted : distinctTexts value code = .ok texts) (some' : texts ≠ [] ∨ allowEmpty = true) :
    stringList budget value name allowEmpty = .ok result ↔
      (∀ item ∈ texts, IsRef budget item) ∧ result = texts := by
  obtain ⟨rfl, _, distinct⟩ := distinctTexts_eq_ok_iff.mp accepted
  simp only [stringList, bind_eq_ok_iff (α := List String), mapM_refOf_eq_ok_iff, check_then_eq_ok_iff,
    require_eq_ok_iff, pure, Except.pure, Except.ok.injEq]
  constructor
  · rintro ⟨_, ⟨refs, rfl⟩, _, rfl⟩
    exact ⟨refs, rfl⟩
  · rintro ⟨refs, rfl⟩
    exact ⟨_, ⟨refs, rfl⟩, by simpa [distinct] using some', rfl⟩

/-! ### Briefs -/

/-- What the Plan gate found of a brief. -/
structure AcceptedBrief (gapKeys : List String) (brief : Fields) (key : String) : Prop where
  keys : sameSet (brief.map Prod.fst) (briefKeys brief) = true
  named : get brief "experiment_key" = .text key
  prose : ∀ field ∈ planProseFields, ∃ prose, get brief field = .text prose ∧ text prose = true
  gaps : ∃ gaps, distinctTexts (get brief "gap_obligation_keys") "plan_gap_brief_closure_invalid" = .ok gaps ∧
    gaps ≠ [] ∧ ∀ gap ∈ gaps, gap ∈ gapKeys
  ideas : ∃ ideas, distinctTexts (get brief "contributing_idea_refs") "plan_experiment_brief_invalid" =
    .ok ideas
  reused : ∃ reused, distinctTexts ((brief.lookup "reuse_material_refs").getD (.array []))
    "plan_reuse_material_ref_invalid" = .ok reused

theorem acceptedBrief_of_validated {gapKeys candidateRefs evidenceRefs : List String} {key : String}
    (validated : validateExperimentBrief gapKeys candidateRefs evidenceRefs brief = .ok key) :
    AcceptedBrief gapKeys brief key := by
  simp only [validateExperimentBrief, exactKeys, validateIdeaRefList, check_then_eq_ok_iff,
    bind_eq_ok_iff (α := String), bind_eq_ok_iff (α := List String), require_eq_ok_iff,
    checkAll_eq_ok_iff, Bool.and_eq_true, List.all_eq_true, List.contains_iff_mem, Bool.not_eq_true',
    List.isEmpty_eq_false_iff, requireText_eq_ok_iff, pure, Except.pure, Except.ok.injEq] at validated
  obtain ⟨keys, key, ⟨named, _⟩, prose, gaps, found, ⟨some', within⟩, ⟨ideas, listed, _⟩, reused, again, _,
    rfl⟩ := validated
  refine ⟨keys, named, fun field member => ?_, ⟨gaps, found, some', within⟩, ⟨ideas, listed⟩,
    ⟨reused, again⟩⟩
  have done := prose field member
  cases checked : requireText (get brief field) "plan_experiment_brief_invalid" with
  | error => simp [checked, Except.map] at done
  | ok prose => exact ⟨prose, requireText_eq_ok_iff.mp checked⟩

namespace AcceptedBrief

variable {gapKeys gaps : List String} {key : String}

theorem exactDict (accepted : AcceptedBrief gapKeys brief key) {fields : Fields} :
    exactDict (.object brief) (planBriefKeys (.object brief)) code = .ok fields ↔ brief = fields := by
  have keys : sameSet (brief.map Prod.fst) (planBriefKeys (.object brief)) = true := by
    have keys := accepted.keys
    unfold briefKeys at keys
    unfold planBriefKeys
    cases reuse : brief.lookup "reuse_material_refs" with
    | none => simpa [Json.object?, reuse, planBriefFields] using keys
    | some refs => simpa [Json.object?, reuse, planBriefFields] using keys
  rw [Bundle.exactDict, check_then_eq_ok_iff, require_eq_ok_iff]
  exact ⟨fun done => Except.ok.inj done.2, fun same => ⟨keys, congrArg _ same⟩⟩

theorem planTexts (accepted : AcceptedBrief gapKeys brief key) :
    checkAll (fun field => planTextOf (get brief field) field) planProseFields = .ok () := by
  rw [checkAll_eq_ok_iff]
  intro field member
  obtain ⟨prose, same, accepted⟩ := accepted.prose field member
  rw [same]
  exact require_eq_ok_iff.mpr accepted

/-- The material of an accepted brief is asked to be references. -/
theorem readMaterial_iff (accepted : AcceptedBrief gapKeys brief key) :
    readMaterial budget brief = .ok () ↔
      ∀ ref ∈ textsIn (get brief "reuse_material_refs"), IsRef budget ref := by
  obtain ⟨reused, again⟩ := accepted.reused
  cases reuse : brief.lookup "reuse_material_refs" with
  | none => simp [readMaterial, Json.get, reuse, textsIn, Json.array?]
  | some refs =>
    rw [reuse, Option.getD_some] at again
    have texts : textsIn refs = reused := by
      rw [(distinctTexts_eq_ok_iff.mp again).1, textsIn_texts]
    simp only [readMaterial, reuse, Json.get, Option.getD_some, texts, discard_eq_ok_iff,
      stringList_of_distinctTexts again (.inr rfl), exists_eq_right]

theorem briefIdentifiers_iff (accepted : AcceptedBrief gapKeys brief key) {ideas : List String}
    (listed : distinctTexts (get brief "contributing_idea_refs") code = .ok ideas) :
    (∀ identifier ∈ briefIdentifiers brief, IsRef budget identifier) ↔
      IsRef budget key ∧ (∀ idea ∈ ideas, IsRef budget idea) ∧
        ∀ ref ∈ textsIn (get brief "reuse_material_refs"), IsRef budget ref := by
  have ideaTexts : textsIn (get brief "contributing_idea_refs") = ideas := by
    rw [(distinctTexts_eq_ok_iff.mp listed).1, textsIn_texts]
  have keyTexts : (get brief "experiment_key").text?.toList = [key] := by
    rw [accepted.named]
    rfl
  simp only [briefIdentifiers, keyTexts, ideaTexts, List.forall_mem_append, List.forall_mem_singleton,
    and_assoc]

/-- Of an accepted brief the Bundle gate asks that it is new and that its identifiers are references. -/
theorem readPlanBrief_iff {result after : List (String × Fields)}
    (accepted : AcceptedBrief gapKeys brief key) (covered : ∀ gap ∈ gapKeys, gap ∈ gaps)
    (refs : ∀ gap ∈ gaps, IsRef budget gap) :
    readPlanBrief budget gaps result (.object brief) = .ok after ↔
      result.lookup key = none ∧ (∀ identifier ∈ briefIdentifiers brief, IsRef budget identifier) ∧
        result ++ [(key, brief)] = after := by
  obtain ⟨own, found, some', within⟩ := accepted.gaps
  obtain ⟨ideas, listed⟩ := accepted.ideas
  have ownRefs : ∀ gap ∈ own, IsRef budget gap :=
    fun gap member => refs gap (covered gap (within gap member))
  have closed : (!own.isEmpty && own.all (gaps.contains ·)) = true := by
    simp only [Bool.and_eq_true, Bool.not_eq_true', List.isEmpty_eq_false_iff, List.all_eq_true,
      List.contains_iff_mem]
    exact ⟨some', fun gap member => covered gap (within gap member)⟩
  rw [accepted.briefIdentifiers_iff listed, readPlanBrief, bind_eq_ok_iff]
  simp only [accepted.exactDict, exists_eq_left', bind_eq_ok_iff (α := String),
    bind_eq_ok_iff (α := List String), check_then_eq_ok_iff, refOf_eq_ok_iff, accepted.named,
    Json.text.injEq, and_assoc, require_eq_ok_iff, Option.isNone_iff_eq_none,
    stringList_of_distinctTexts found (.inl some'), stringList_of_distinctTexts listed (.inr rfl),
    accepted.planTexts, accepted.readMaterial_iff, pure, Except.pure, Except.ok.injEq]
  constructor
  · rintro ⟨named, fresh, _, _, _, _, _, _, ideas, _, material, same⟩
    exact ⟨fresh, named, ideas, material, same⟩
  · rintro ⟨fresh, named, ideas, material, same⟩
    exact ⟨named, fresh, own, ownRefs, rfl, closed, trivial, _, ideas, rfl, material, same⟩

end AcceptedBrief

theorem collectBrief_eq_ok {gapKeys candidateRefs evidenceRefs keys after : List String}
    (collected : collectBrief gapKeys candidateRefs evidenceRefs keys value = .ok after) :
    ∃ brief key, value = .object brief ∧ AcceptedBrief gapKeys brief key ∧ key ∉ keys ∧
      after = key :: keys := by
  cases value with
  | object brief =>
    simp only [collectBrief, object, bind_eq_ok_iff (α := Fields), bind_eq_ok_iff (α := String),
      check_then_eq_ok_iff, require_eq_ok_iff, Bool.not_eq_true', List.contains_eq_mem,
      decide_eq_false_iff_not, pure, Except.pure, Except.ok.injEq] at collected
    obtain ⟨_, rfl, key, validated, fresh, rfl⟩ := collected
    exact ⟨brief, key, rfl, acceptedBrief_of_validated validated, fresh, rfl⟩
  | _ => simp [collectBrief, object, bind, Except.bind] at collected

/-- Of the accepted briefs the Bundle gate asks that their identifiers are references. -/
theorem foldlM_readPlanBrief_iff {gapKeys gaps candidateRefs evidenceRefs keys after : List String}
    {briefs : List Json} {result : List (String × Fields)}
    (collected : briefs.foldlM (collectBrief gapKeys candidateRefs evidenceRefs) keys = .ok after)
    (same : ∀ key, result.lookup key = none ↔ key ∉ keys) (covered : ∀ gap ∈ gapKeys, gap ∈ gaps)
    (refs : ∀ gap ∈ gaps, IsRef budget gap) :
    (∃ entries, briefs.foldlM (readPlanBrief budget gaps) result = .ok entries) ↔
      ∀ identifier ∈ (briefs.filterMap Json.object?).flatMap briefIdentifiers,
        IsRef budget identifier := by
  induction briefs generalizing keys result with
  | nil => simp [pure, Except.pure]
  | cons value rest ih =>
    rw [List.foldlM_cons, bind_eq_ok_iff] at collected
    obtain ⟨_, first, others⟩ := collected
    obtain ⟨brief, key, rfl, accepted, fresh, rfl⟩ := collectBrief_eq_ok first
    have extended : ∀ other, (result ++ [(key, brief)]).lookup other = none ↔ other ∉ key :: keys := by
      intro other
      have single : [(key, brief)].lookup other = none ↔ other ≠ key := by
        rw [List.lookup_eq_none_iff]
        simp
      rw [List.lookup_append, Option.or_eq_none_iff, same other, single, List.mem_cons, not_or, and_comm]
    simp only [List.foldlM_cons, bind_eq_ok_iff, accepted.readPlanBrief_iff covered refs,
      (same key).mpr fresh, true_and, List.filterMap_cons, Json.object?, List.flatMap_cons,
      List.forall_mem_append, ← ih others extended]
    constructor
    · rintro ⟨entries, _, ⟨named, rfl⟩, done⟩
      exact ⟨named, entries, done⟩
    · rintro ⟨named, entries, done⟩
      exact ⟨entries, _, ⟨named, rfl⟩, done⟩

/-! ### The document -/

theorem gapSet_of_validateCoverage {obligationKeys evidenceRefs candidateRefs gapKeys : List String}
    (validated : validateCoverage document obligationKeys evidenceRefs candidateRefs = .ok gapKeys) :
    ∃ gaps, distinctTexts (get document "gap_set") "plan_gap_set_invalid" = .ok gaps ∧
      ∀ gap, gap ∈ gaps ↔ gap ∈ gapKeys := by
  simp only [validateCoverage, bind_eq_ok_iff (α := List Json), bind_eq_ok_iff (α := Coverage),
    bind_eq_ok_iff (α := List String), check_then_eq_ok_iff, require_eq_ok_iff, pure, Except.pure,
    Except.ok.injEq] at validated
  obtain ⟨_, _, _, _, _, _, _, _, _, gaps, listed, same, rfl⟩ := validated
  exact ⟨gaps, listed, sameSet_eq_true_iff.mp same⟩

/-- What the Plan gate found of a document. -/
structure AcceptedPlan (document : Fields) (gaps : List String) (briefs : List Json) : Prop where
  kind : (get document "schema_ref").isText planDocumentSchemaRef = true ∧
    (get document "kind").isText "PlanDocument" = true
  gapSet : distinctTexts (get document "gap_set") "plan_gap_set_invalid" = .ok gaps
  listed : get document "experiment_briefs" = .array briefs
  collected : ∃ gapKeys candidateRefs evidenceRefs keys,
    briefs.foldlM (collectBrief gapKeys candidateRefs evidenceRefs) [] = .ok keys ∧
      ∀ gap, gap ∈ gaps ↔ gap ∈ gapKeys
  disposition : (get document "bundle_disposition").isText
    (if briefs.isEmpty then "no_new_experiment_required" else "experiments_required") = true

theorem acceptedPlan_of_validated {hash : String}
    (accepted : validatePlanDocument digest arguments document = .ok hash) :
    ∃ gaps briefs, AcceptedPlan document gaps briefs := by
  simp only [validatePlanDocument, check_then_eq_ok_iff, require_eq_ok_iff, Bool.and_eq_true,
    bind_eq_ok_iff (α := List Json), bind_eq_ok_iff (α := List String), bind_eq_ok_iff (α := Fields),
    bind_eq_ok_iff (α := List (String × Roles))] at accepted
  obtain ⟨_, _, ⟨⟨⟨⟨schema, kind⟩, _⟩, _⟩, _⟩, _, evidenceRefs, _, candidateRefs, _, _, _, _, _, gapKeys,
    coverage, briefs, validated, _, disposition, _⟩ := accepted
  obtain ⟨gaps, gapSet, same⟩ := gapSet_of_validateCoverage coverage
  simp only [validateBriefs, bind_eq_ok_iff (α := List Json), bind_eq_ok_iff (α := List String),
    check_then_eq_ok_iff, pure, Except.pure, Except.ok.injEq] at validated
  obtain ⟨items, found, _, keys, collected, rfl⟩ := validated
  refine ⟨gaps, items, ⟨schema, kind⟩, gapSet, ?_, ⟨gapKeys, candidateRefs, evidenceRefs, keys, collected,
    same⟩, disposition⟩
  cases listed : get document "experiment_briefs" with
  | array others => rw [listed, list, Except.ok.injEq] at found; rw [found]
  | _ => simp [list, listed] at found

/-- An accepted Plan with work has gaps. -/
theorem AcceptedPlan.gaps_ne_nil {gaps : List String} {briefs : List Json}
    (accepted : AcceptedPlan document gaps briefs) (work : briefs ≠ []) : gaps ≠ [] := by
  obtain ⟨gapKeys, candidateRefs, evidenceRefs, keys, collected, same⟩ := accepted.collected
  obtain ⟨value, rest, rfl⟩ := List.exists_cons_of_ne_nil work
  rw [List.foldlM_cons, bind_eq_ok_iff] at collected
  obtain ⟨_, first, _⟩ := collected
  obtain ⟨brief, key, rfl, brief', _⟩ := collectBrief_eq_ok first
  obtain ⟨own, _, some', within⟩ := brief'.gaps
  obtain ⟨gap, others, rfl⟩ := List.exists_cons_of_ne_nil some'
  exact List.ne_nil_of_mem ((same gap).mpr (within gap List.mem_cons_self))

theorem AcceptedPlan.planIdentifiers_iff {gaps : List String} {briefs : List Json}
    (accepted : AcceptedPlan document gaps briefs) :
    (∀ identifier ∈ planIdentifiers document, IsRef budget identifier) ↔
      (∀ gap ∈ gaps, IsRef budget gap) ∧
        ∀ identifier ∈ (briefs.filterMap Json.object?).flatMap briefIdentifiers,
          IsRef budget identifier := by
  have gapTexts : textsIn (get document "gap_set") = gaps := by
    rw [(distinctTexts_eq_ok_iff.mp accepted.gapSet).1, textsIn_texts]
  simp only [planIdentifiers, gapTexts, accepted.listed, Json.array?, Option.getD_some,
    List.forall_mem_append]

/-- A Plan that the Plan gate accepts and that requires experiments is accepted by the Bundle gate exactly
when it is within the root budget and each of its identifiers is a reference. -/
theorem plan_briefs_iff (budget : Budget) (digest : String → String) (arguments : PlanArguments)
    (document : Fields) (hash : String)
    (accepted : validatePlanDocument digest arguments document = .ok hash)
    (required : get document "bundle_disposition" = .text "experiments_required") :
    (∃ briefs, planBriefsOf budget digest document = .ok briefs) ↔
      (∃ encoded, validateJsonRoot budget.planDocument (.object document) "PlanDocument" false =
        .ok encoded) ∧
      ∀ identifier ∈ planIdentifiers document, IsRef budget identifier := by
  obtain ⟨gaps, briefs, accepted⟩ := acceptedPlan_of_validated accepted
  have work : briefs ≠ [] := by
    rintro rfl
    have disposition := accepted.disposition
    rw [required] at disposition
    revert disposition
    decide +kernel
  obtain ⟨gapKeys, candidateRefs, evidenceRefs, keys, collected, same⟩ := accepted.collected
  have kind : ((get document "schema_ref").isText Bundle.planDocumentSchemaRef &&
      (get document "kind").isText "PlanDocument" &&
      (get document "bundle_disposition").isText "experiments_required") = true := by
    rw [required, Bool.and_eq_true, Bool.and_eq_true]
    exact ⟨accepted.kind, by decide +kernel⟩
  have gapped := accepted.gaps_ne_nil work
  have busy : (!gaps.isEmpty && !briefs.isEmpty) = true := by simp [gapped, work]
  rw [accepted.planIdentifiers_iff]
  simp only [planBriefsOf, bind_eq_ok_iff (α := String), bind_eq_ok_iff (α := List String),
    check_then_eq_ok_iff, require_eq_ok_iff, kind, true_and, accepted.listed,
    stringList_of_distinctTexts accepted.gapSet (.inl gapped)]
  have fold (refs : ∀ gap ∈ gaps, IsRef budget gap) :
      (∃ entries, briefs.foldlM (readPlanBrief budget gaps) [] = .ok entries) ↔
        ∀ identifier ∈ (briefs.filterMap Json.object?).flatMap briefIdentifiers,
          IsRef budget identifier :=
    foldlM_readPlanBrief_iff collected (by simp) (fun gap => (same gap).mpr) refs
  constructor
  · rintro ⟨_, encoded, root, _, ⟨refs, rfl⟩, _, rest⟩
    obtain ⟨entries, read, _⟩ := bind_eq_ok_iff.mp rest
    exact ⟨⟨encoded, root⟩, refs, (fold refs).mp ⟨entries, read⟩⟩
  · rintro ⟨⟨encoded, root⟩, refs, identifiers⟩
    obtain ⟨entries, read⟩ := (fold refs).mpr identifiers
    exact ⟨_, encoded, root, gaps, ⟨refs, rfl⟩, busy, bind_eq_ok_iff.mpr ⟨entries, read, rfl⟩⟩

/-! ### A padded experiment key -/

/-- One obligation, which is a gap. -/
def paddedContract : Fields :=
  [("source_question_ref", .text "question"), ("source_idea_set_ref", .text "ideas"),
    ("obligations", .array [.object [("obligation_key", .text "gap"), ("statement", .text "statement"),
      ("minimum_support", .text "support"), ("question_trace", .array [.text "answer_shape"]),
      ("idea_relevance", .array [])]])]

/-- The only brief has an experiment key with a space in front. -/
def paddedBriefs : List Json :=
  [.object [("experiment_key", .text " key"), ("gap_obligation_keys", .array [.text "gap"]),
    ("goal", .text "goal"), ("characteristics", .text "characteristics"),
    ("boundary_constraints", .text "constraints"), ("semantic_delta", .text "delta"),
    ("contributing_idea_refs", .array [])]]

/-- The document without its answer contract. -/
def paddedRest : Fields :=
  [("schema_ref", .text planDocumentSchemaRef), ("kind", .text "PlanDocument"),
    ("question_ref", .text "question"), ("idea_set_ref", .text "ideas"), ("context_pack_ref", .text "pack"),
    ("evidence_reuse_set", .array []),
    ("coverage", .array [.object [("obligation_key", .text "gap"), ("disposition", .text "gap"),
      ("evidence_uses", .array []), ("insufficiency", .text "open")]]),
    ("gap_set", .array [.text "gap"]),
    ("experiment_briefs", .array paddedBriefs), ("idea_trace", .array []), ("bundle_disposition", .text "experiments_required"),
    ("source_bindings", .object [("question_ref", .text "question"), ("idea_set_ref", .text "ideas"),
      ("context_pack_ref", .text "pack"),
      ("context_pack_hash", .text (String.ofList (List.replicate 64 '0'))),
      ("evidence_reference_revision", .integer 0), ("selected_evidence_bindings", .array [])])]

/-- The document, with the hash of its answer contract. -/
def paddedDocument (hash : String) : Fields :=
  paddedRest ++ [("answer_contract",
    .object (paddedContract ++ [("answer_contract_hash", .text hash)]))]

def paddedArguments : PlanArguments where
  questionRef := "question"
  ideaSetRef := "ideas"
  contextPackRef := "pack"
  contextPackHash := String.ofList (List.replicate 64 '0')
  acceptedIdeaSet := [("kind", .text "IdeaSet"), ("question_ref", .text "question"),
    ("candidates", .array [.object [("candidate_key", .text "idea")]])]
  evidenceByRef := []
  evidenceReferenceRevision := 0

private theorem get_append {fields more : Fields} (present : (fields.lookup name).isSome = true) :
    get (fields ++ more) name = get fields name := by
  obtain ⟨value, found⟩ := Option.isSome_iff_exists.mp present
  rw [Json.get, Json.get, List.lookup_append, found, Option.some_or]

private theorem paddedContract_valid (digest : String → String) :
    validateAnswerContract digest (paddedContract ++ [("answer_contract_hash",
      .text (digest (Json.object paddedContract).dumps))]) "question" "ideas" ["idea"] =
        .ok [("gap", [])] := by
  have without (hash : String) : Json.without (paddedContract ++ [("answer_contract_hash", .text hash)])
      "answer_contract_hash" = paddedContract := by
    rw [Json.without, List.filter_append]
    simp [paddedContract]
  have keys : sameSet (paddedContract.map Prod.fst ++ ["answer_contract_hash"]) ["source_question_ref",
      "source_idea_set_ref", "obligations", "answer_contract_hash"] = true := by decide +kernel
  have source : ((get paddedContract "source_question_ref").isText "question" &&
      (get paddedContract "source_idea_set_ref").isText "ideas") = true := by decide +kernel
  have hash (hash : String) : get (paddedContract ++ [("answer_contract_hash", .text hash)])
      "answer_contract_hash" = .text hash := by
    rw [Json.get, List.lookup_append, show paddedContract.lookup "answer_contract_hash" = none by decide +kernel]
    simp
  have obligations : (list (get paddedContract "obligations") "answer_contract_invalid" >>= fun obligations =>
      require (1 ≤ obligations.length && obligations.length ≤ maxPlanObligations)
        "answer_contract_invalid" >>= fun _ => obligations.foldlM (collectObligation ["idea"]) []) =
      .ok [("gap", [])] := by decide +kernel
  refine check_then_eq_ok_iff.mpr ⟨?_, check_then_eq_ok_iff.mpr ⟨?_, check_then_eq_ok_iff.mpr ⟨?_, ?_⟩⟩⟩
  · rw [exactKeys, List.map_append, require_eq_ok_iff]
    exact keys
  · rw [get_append (by decide +kernel), get_append (by decide +kernel), require_eq_ok_iff]
    exact source
  · rw [hash, without, require_eq_ok_iff]
    simp [Json.isText, Json.text?]
  · rw [get_append (by decide +kernel)]
    exact obligations

/-- The Plan gate accepts the document, whatever the digest function. -/
theorem paddedDocument_accepted (digest : String → String) :
    ∃ hash, validatePlanDocument digest paddedArguments
      (paddedDocument (digest (Json.object paddedContract).dumps)) = .ok hash := by
  have contract : get (paddedDocument (digest (Json.object paddedContract).dumps)) "answer_contract" =
      .object (paddedContract ++ [("answer_contract_hash",
        .text (digest (Json.object paddedContract).dumps))]) := by
    rw [paddedDocument, Json.get, List.lookup_append,
      show paddedRest.lookup "answer_contract" = none by decide +kernel]
    simp
  have valid := paddedContract_valid digest
  generalize digest (Json.object paddedContract).dumps = hash at contract valid ⊢
  -- The other fields do not depend on the digest.
  have gets {name : String} (present : (paddedRest.lookup name).isSome = true) :
      get (paddedDocument hash) name = get paddedRest name := get_append present
  have notes : (paddedDocument hash).lookup "notes" = none := by
    rw [paddedDocument, List.lookup_append, show paddedRest.lookup "notes" = none by decide +kernel]
    simp
  have keys : exactKeys (paddedDocument hash) (documentKeys (paddedDocument hash))
      "plan_document_invalid" = .ok () := by
    rw [exactKeys, documentKeys, notes, paddedDocument, List.map_append, require_eq_ok_iff]
    exact (by decide +kernel : sameSet (paddedRest.map Prod.fst ++ ["answer_contract"])
      (documentKeys (paddedRest ++ [("answer_contract", .null)])) = true)
  have source : ((get (paddedDocument hash) "schema_ref").isText planDocumentSchemaRef &&
      (get (paddedDocument hash) "kind").isText "PlanDocument" &&
      (get (paddedDocument hash) "question_ref").isText paddedArguments.questionRef &&
      (get (paddedDocument hash) "idea_set_ref").isText paddedArguments.ideaSetRef &&
      (get (paddedDocument hash) "context_pack_ref").isText paddedArguments.contextPackRef) = true := by
    iterate 5 rw [gets (by decide +kernel)]
    decide +kernel
  have evidence : selectedPlanEvidenceCatalog (paddedDocument hash) paddedArguments.evidenceByRef =
      .ok [] := by
    rw [selectedPlanEvidenceCatalog, gets (by decide +kernel)]
    decide +kernel
  have coverage : validateCoverage (paddedDocument hash) ["gap"] [] ["idea"] = .ok ["gap"] := by
    rw [validateCoverage]
    iterate 3 rw [gets (by decide +kernel)]
    decide +kernel
  have briefs : validateBriefs (paddedDocument hash) ["gap"] ["idea"] [] = .ok paddedBriefs := by
    have listed : list (get paddedRest "experiment_briefs") "plan_experiment_brief_invalid" =
        .ok paddedBriefs := by
      rw [Json.get, show paddedRest.lookup "experiment_briefs" = some (.array paddedBriefs) from by
        simp [paddedRest, List.lookup_cons]]
      rfl
    have collected : paddedBriefs.foldlM (collectBrief ["gap"] ["idea"] []) [] = .ok [" key"] := by
      decide +kernel
    rw [validateBriefs, gets (by decide +kernel), listed]
    refine bind_eq_ok_iff.mpr ⟨paddedBriefs, rfl, check_then_eq_ok_iff.mpr ⟨?_, bind_eq_ok_iff.mpr
      ⟨_, collected, rfl⟩⟩⟩
    decide +kernel
  have trace : validateIdeaTrace (get (paddedDocument hash) "idea_trace") ["idea"] [("gap", [])] =
      .ok () := by
    rw [gets (by decide +kernel)]
    decide +kernel
  have disposition : (get (paddedDocument hash) "bundle_disposition").isText (if paddedBriefs.isEmpty then
      "no_new_experiment_required" else "experiments_required") = true := by
    rw [gets (by decide +kernel)]
    decide +kernel
  have bindings : validateSourceBindings paddedArguments (paddedDocument hash) = .ok () := by
    rw [validateSourceBindings, gets (by decide +kernel)]
    decide +kernel
  refine ⟨digest (Json.object (paddedDocument hash)).dumps, ?_⟩
  simp only [validatePlanDocument, check_then_eq_ok_iff, bind_eq_ok_iff (α := List Json),
    bind_eq_ok_iff (α := List String), bind_eq_ok_iff (α := Fields),
    bind_eq_ok_iff (α := List (String × Roles))]
  exact ⟨keys, require_eq_ok_iff.mpr (by rw [notes]; rfl), require_eq_ok_iff.mpr source,
    by decide +kernel, [], evidence, ["idea"], by decide +kernel, _, by rw [contract]; rfl, [("gap", [])],
    valid, ["gap"], coverage, paddedBriefs, briefs, trace, require_eq_ok_iff.mpr disposition, bindings, rfl⟩

/-- The Bundle gate refuses the key. -/
theorem paddedDocument_refused (digest : String → String) (hash : String) :
    ¬ ∃ briefs, planBriefsOf .standard digest (paddedDocument hash) = .ok briefs := by
  rintro ⟨_, read⟩
  have listed : get (paddedDocument hash) "experiment_briefs" = .array paddedBriefs := by
    rw [paddedDocument, get_append (by decide +kernel), Json.get]
    simp [paddedRest, List.lookup_cons]
  simp only [planBriefsOf, bind_eq_ok_iff (α := String), bind_eq_ok_iff (α := List String),
    check_then_eq_ok_iff, listed] at read
  obtain ⟨_, _, _, gaps, _, _, read⟩ := read
  rw [paddedBriefs, List.foldlM_cons] at read
  obtain ⟨_, read, _⟩ := bind_eq_ok_iff.mp read
  obtain ⟨_, first, _⟩ := bind_eq_ok_iff.mp read
  obtain ⟨brief, dict, first⟩ := bind_eq_ok_iff.mp first
  obtain ⟨key, reference, _⟩ := bind_eq_ok_iff.mp first
  rw [exactDict, check_then_eq_ok_iff] at dict
  obtain rfl := Except.ok.inj dict.2
  obtain ⟨named, _, _, padded, _⟩ := refOf_eq_ok_iff.mp reference
  simp only [Json.get, List.lookup_cons, beq_self_eq_true, Option.getD_some, Json.text.injEq] at named
  subst named
  revert padded
  decide +kernel

private theorem paddedDocument_requires (hash : String) :
    get (paddedDocument hash) "bundle_disposition" = .text "experiments_required" := by
  rw [paddedDocument, get_append (by decide +kernel), Json.get]
  simp [paddedRest, List.lookup_cons]

/-- An experiment key with a space in front passes the Plan gate and strands the Plan. -/
theorem plan_briefs_padded :
    text " key" = true ∧
      ∀ digest : String → String,
        let document := paddedDocument (digest (Json.object paddedContract).dumps)
        get document "bundle_disposition" = .text "experiments_required" ∧
          (∃ hash, validatePlanDocument digest paddedArguments document = .ok hash) ∧
          ¬ ∃ briefs, planBriefsOf .standard digest document = .ok briefs := by
  refine ⟨by decide +kernel, fun digest => ⟨paddedDocument_requires _, paddedDocument_accepted digest,
    paddedDocument_refused digest _⟩⟩

/-- The padded Plan is accepted, and it is outside what the Bundle gate asks. -/
theorem plan_briefs_outside :
    ¬ ((∃ encoded, validateJsonRoot Budget.standard.planDocument
        (.object (paddedDocument (Json.object paddedContract).dumps)) "PlanDocument" false = .ok encoded) ∧
      ∀ identifier ∈ planIdentifiers (paddedDocument (Json.object paddedContract).dumps),
        IsRef .standard identifier) := by
  obtain ⟨hash, accepted⟩ := paddedDocument_accepted id
  intro within
  exact paddedDocument_refused id _ ((plan_briefs_iff .standard id paddedArguments _ hash accepted
    (paddedDocument_requires _)).mpr within)

end MetaResearch.Plan

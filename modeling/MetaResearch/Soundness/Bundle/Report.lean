import MetaResearch.Soundness.Bundle.Partition
import MetaResearch.ToMathlib.SortByKey

/-! # The order of the accepted closures

The report sorts what it collects from the accepted closures. Every key but one tells the collected
items apart; result reviews are sorted by their reference alone, and two reviews may share one.
-/

namespace MetaResearch.Bundle

namespace Completion

variable {budget : Budget} {digest : String → String} {briefs : List (String × ExperimentBrief)}
  {plan : FormalPlan}

/-- The arguments differ at most in the order of the accepted mapping and of the references that the
function sorts or only tests for being there. -/
structure Permuted (first second : ReportArguments) : Prop where
  disposition : first.disposition = second.disposition
  request : first.request = second.request
  plan : first.plan = second.plan
  accepted : first.accepted.Perm second.accepted
  blockerRefs : first.blockerRefs = second.blockerRefs
  semanticChangeRequired : first.semanticChangeRequired = second.semanticChangeRequired
  evidenceRefs : first.evidenceRefs = second.evidenceRefs
  routeDispositionRefs : first.routeDispositionRefs = second.routeDispositionRefs
  reconciliationReceiptRefs : first.reconciliationReceiptRefs = second.reconciliationReceiptRefs
  additionalOwnerReceiptRefs : first.additionalOwnerReceiptRefs.Perm second.additionalOwnerReceiptRefs
  stopDecisionRefs : first.stopDecisionRefs.Perm second.stopDecisionRefs
  recoveryEvidenceRefs : first.recoveryEvidenceRefs.Perm second.recoveryEvidenceRefs
  codeReviewPreflights : first.codeReviewPreflights = second.codeReviewPreflights
  activeTargetRefs : first.activeTargetRefs.Perm second.activeTargetRefs
  pendingSubmissionRefs : first.pendingSubmissionRefs.Perm second.pendingSubmissionRefs
  outcomeUnknownRefs : first.outcomeUnknownRefs.Perm second.outcomeUnknownRefs

/-- The result reviews of the accepted closures, in the order of the mapping. -/
def resultReviewsOf (accepted : List (String × AcceptedMeasurementClosure)) : List ResultReviewRecord :=
  (accepted.map Prod.snd).filterMap (·.resultReview)

/-! ### Acceptance -/

theorem buildReport_eq_ok_iff {arguments : ReportArguments} {report : BundleReport} :
    buildReport budget digest arguments = .ok report ↔
      validateProjection budget "BundleStageRunRequest" arguments.request.value = .ok () ∧
      ∃ briefs, briefsByKey budget arguments.plan = .ok briefs ∧
      verifyRequest arguments.request arguments.plan = .ok () ∧
      freezeArguments budget arguments = .ok () ∧
      ∃ sets, resultSets budget digest arguments.plan arguments.accepted = .ok sets ∧
      verifyReportGate arguments.disposition sets.1 sets.2 (briefs.map Prod.fst) arguments.blockerRefs
        arguments.semanticChangeRequired arguments.activeTargetRefs arguments.pendingSubmissionRefs
        arguments.outcomeUnknownRefs = .ok () ∧
      report = reportOf arguments sets.1 sets.2 ∧
      ∃ hash, validateBundleReport budget digest report = .ok hash := by
  simp only [buildReport, check_then_eq_ok_iff, bind_eq_ok_iff (α := List (String × ExperimentBrief)),
    bind_eq_ok_iff (α := List String × List String), bind_eq_ok_iff (α := String), pure, Except.pure,
    Except.ok.injEq]
  constructor
  · rintro ⟨request, briefs, parsed, bound, frozen, sets, found, gate, hash, valid, rfl⟩
    exact ⟨request, briefs, parsed, bound, frozen, sets, found, gate, rfl, hash, valid⟩
  · rintro ⟨request, briefs, parsed, bound, frozen, sets, found, gate, rfl, hash, valid⟩
    exact ⟨request, briefs, parsed, bound, frozen, sets, found, gate, hash, valid, rfl⟩

private theorem freezeRefs_perm {first second : List String} (permuted : first.Perm second)
    {name : String} (frozen : freezeRefs first name = .ok ()) : freezeRefs second name = .ok () := by
  simp only [freezeRefs, check_then_eq_ok_iff, checkAll_eq_ok_iff, require_eq_ok_iff,
    decide_eq_true_eq] at frozen ⊢
  exact ⟨fun value member => frozen.1 value (permuted.mem_iff.mpr member),
    permuted.nodup_iff.mp frozen.2⟩

private theorem freezeArguments_permuted {first second : ReportArguments}
    (permuted : Permuted first second) (frozen : freezeArguments budget first = .ok ()) :
    freezeArguments budget second = .ok () := by
  simp only [freezeArguments, check_then_eq_ok_iff] at frozen ⊢
  obtain ⟨blockers, changes, evidence, routes, reconciliations, owners, stops, recovery, preflights,
    active, pending, unknown⟩ := frozen
  exact ⟨permuted.blockerRefs ▸ blockers, permuted.semanticChangeRequired ▸ changes,
    permuted.evidenceRefs ▸ evidence, permuted.routeDispositionRefs ▸ routes,
    permuted.reconciliationReceiptRefs ▸ reconciliations,
    freezeRefs_perm permuted.additionalOwnerReceiptRefs owners,
    freezeRefs_perm permuted.stopDecisionRefs stops,
    freezeRefs_perm permuted.recoveryEvidenceRefs recovery, permuted.codeReviewPreflights ▸ preflights,
    freezeRefs_perm permuted.activeTargetRefs active, freezeRefs_perm permuted.pendingSubmissionRefs pending,
    freezeRefs_perm permuted.outcomeUnknownRefs unknown⟩

/-! ### The result sets -/

private theorem setsOf_perm {first second : List (String × AcceptedMeasurementClosure)}
    (permuted : first.Perm second) :
    setsOf plan (acceptedCells first) = setsOf plan (acceptedCells second) := by
  have cells : (acceptedCells first).Perm (acceptedCells second) := permuted.flatMap_right _
  have realized : isRealized (acceptedCells first) = isRealized (acceptedCells second) := by
    funext brief
    rw [isRealized, isRealized, Bool.eq_iff_iff, sameSet_eq_true_iff, sameSet_eq_true_iff]
    simp only [List.mem_map, List.mem_filter, cells.mem_iff]
  rw [setsOf, setsOf, realized]

private theorem resultSets_perm {first second : List (String × AcceptedMeasurementClosure)}
    {sets : List String × List String} (permuted : first.Perm second)
    (found : resultSets budget digest plan first = .ok sets) :
    resultSets budget digest plan second = .ok sets := by
  obtain ⟨briefs, parsed, valid, once, rfl⟩ := resultSets_eq_ok_iff.mp found
  have cells : (acceptedCells first).Perm (acceptedCells second) := permuted.flatMap_right _
  exact resultSets_eq_ok_iff.mpr ⟨briefs, parsed, valid.perm permuted, cells.nodup_iff.mp once,
    setsOf_perm permuted⟩

/-! ### The report -/

private theorem sortedRefs_perm {first second : List String} (permuted : first.Perm second) :
    sortedRefs first = sortedRefs second :=
  @sortByKey_eq_of_perm _ _ _ id _ _ permuted fun _ _ _ _ same => same

private theorem sortedSet_perm {first second : List String} (permuted : first.Perm second) :
    sortedSet first = sortedSet second :=
  sortedSet_congr fun _ => permuted.mem_iff

private theorem isEmpty_perm {first second : List String} (permuted : first.Perm second) :
    first.isEmpty = second.isEmpty := by
  rw [Bool.eq_iff_iff, List.isEmpty_iff, List.isEmpty_iff]
  exact ⟨fun empty => List.perm_nil.mp (empty ▸ permuted.symm),
    fun empty => List.perm_nil.mp (empty ▸ permuted)⟩

private theorem reportOf_permuted {first second : ReportArguments} {realized remaining : List String}
    (permuted : Permuted first second)
    (distinct : ((resultReviewsOf first.accepted).map (·.reviewRef)).Nodup) :
    reportOf first realized remaining = reportOf second realized remaining := by
  have closures := permuted.accepted.map Prod.snd
  have reviews : (resultReviewsOf first.accepted).Perm (resultReviewsOf second.accepted) :=
    closures.filterMap _
  have sortedReviews : (resultReviewsOf first.accepted).insertionSort
        (fun first second => first.reviewRef ≤ second.reviewRef) =
      (resultReviewsOf second.accepted).insertionSort
        fun first second => first.reviewRef ≤ second.reviewRef :=
    sortByKey_eq_of_perm reviews fun item member other present same =>
      List.inj_on_of_nodup_map distinct member present same
  have provenance : ((first.accepted.map Prod.snd).map provenanceOf).insertionSort
        (fun first second => toLex first ≤ toLex second) =
      ((second.accepted.map Prod.snd).map provenanceOf).insertionSort
        fun first second => toLex first ≤ toLex second :=
    sortByKey_eq_of_perm (closures.map _) fun _ _ _ _ same => same
  have owners : sortedSet (first.additionalOwnerReceiptRefs ++ second.plan.acceptanceReceipt.receiptRef ::
        (first.accepted.map Prod.snd).flatMap ownerReceiptsOf) =
      sortedSet (second.additionalOwnerReceiptRefs ++ second.plan.acceptanceReceipt.receiptRef ::
        (second.accepted.map Prod.snd).flatMap ownerReceiptsOf) :=
    sortedSet_perm (permuted.additionalOwnerReceiptRefs.append ((closures.flatMap_right _).cons _))
  simp only [resultReviewsOf] at sortedReviews reviews
  simp only [reportOf, permuted.disposition, permuted.request, permuted.plan, permuted.blockerRefs,
    permuted.semanticChangeRequired, permuted.evidenceRefs, permuted.routeDispositionRefs,
    permuted.reconciliationReceiptRefs, permuted.codeReviewPreflights, sortedReviews, provenance, owners,
    sortedRefs_perm (closures.map _), sortedRefs_perm (closures.filterMap _),
    sortedRefs_perm (closures.flatMap_right _), sortedRefs_perm permuted.stopDecisionRefs,
    sortedRefs_perm permuted.recoveryEvidenceRefs, sortedRefs_perm (reviews.map _),
    sortedSet_perm ((reviews.map _).append_left _)]

/-- With distinct review references the report does not depend on the order. -/
theorem buildReport_permuted {first second : ReportArguments} {report : BundleReport}
    (permuted : Permuted first second)
    (distinct : ((resultReviewsOf first.accepted).map (·.reviewRef)).Nodup)
    (accepted : buildReport budget digest first = .ok report) :
    buildReport budget digest second = .ok report := by
  obtain ⟨request, briefs, parsed, bound, frozen, sets, found, gate, rfl, valid⟩ :=
    buildReport_eq_ok_iff.mp accepted
  refine buildReport_eq_ok_iff.mpr ⟨permuted.request ▸ request, briefs, permuted.plan ▸ parsed,
    permuted.request ▸ permuted.plan ▸ bound, freezeArguments_permuted permuted frozen, sets, ?_, ?_,
    reportOf_permuted permuted distinct, valid⟩
  · exact resultSets_perm permuted.accepted (permuted.plan ▸ found)
  · rw [← gate, permuted.disposition, permuted.blockerRefs, permuted.semanticChangeRequired]
    simp only [verifyReportGate, isEmpty_perm permuted.activeTargetRefs,
      isEmpty_perm permuted.pendingSubmissionRefs, isEmpty_perm permuted.outcomeUnknownRefs]

/-! ### Shared review references -/

private theorem reviewed_of_verified {closure : AcceptedMeasurementClosure} {review : ResultReviewRecord}
    (verified : verifyAcceptedClosure budget digest closure briefs = .ok ())
    (reviewed : closure.resultReview = some review) :
    closure.evaluationAttemptRef = some review.reviewedEvaluationAttemptRef := by
  simp only [verifyAcceptedClosure, check_then_eq_ok_iff] at verified
  obtain ⟨_, _, _, _, _, _, _, _, _, _, _, results, _⟩ := verified
  rw [reviewed] at results
  simp only [Option.toList_some, checkAll_eq_ok_iff, List.mem_singleton, forall_eq, verifyResultReview,
    check_then_eq_ok_iff, require_eq_ok_iff, Bool.and_eq_true, decide_eq_true_eq] at results
  exact results.1.1.1.1

/-- No two result reviews are equal: they review different attempts. -/
private theorem resultReviews_nodup {accepted : List (String × AcceptedMeasurementClosure)}
    (valid : ClosuresValid budget digest briefs accepted) : (resultReviewsOf accepted).Nodup := by
  have attempts : ((resultReviewsOf accepted).map (·.reviewedEvaluationAttemptRef)).Sublist
      (accepted.filterMap (·.2.evaluationAttemptRef)) := by
    have verified := valid.verified
    clear valid
    have attempts (entry : String × AcceptedMeasurementClosure) (rest) (attempt)
        (found : entry.2.evaluationAttemptRef = some attempt) :
        (entry :: rest).filterMap (·.2.evaluationAttemptRef) =
          attempt :: rest.filterMap (·.2.evaluationAttemptRef) := List.filterMap_cons_some found
    induction accepted with
    | nil => exact List.Sublist.slnil
    | cons entry rest ih =>
      obtain ⟨first, others⟩ := List.forall_mem_cons.mp verified
      have inner := ih others
      cases reviewed : entry.2.resultReview with
      | none =>
        rw [resultReviewsOf, List.map_cons, List.filterMap_cons_none reviewed, List.filterMap_cons]
        split
        · exact inner
        · exact inner.cons _
      | some review =>
        rw [resultReviewsOf, List.map_cons, List.filterMap_cons_some reviewed, List.map_cons,
          attempts entry rest _ (reviewed_of_verified first.2 reviewed)]
        exact inner.cons_cons _
  exact List.Nodup.of_map _ (valid.evaluationAttempts.sublist attempts)

/-- An accepted report is the same for every order of the accepted mapping, and of whatever else is only
a set, exactly when the result reviews have distinct references. -/
theorem build_report_order_iff (budget : Budget) (digest : String → String) (arguments : ReportArguments)
    (report : BundleReport) (accepted : buildReport budget digest arguments = .ok report) :
    (∀ other, Permuted arguments other → buildReport budget digest other = .ok report) ↔
      ((resultReviewsOf arguments.accepted).map (·.reviewRef)).Nodup := by
  constructor
  · intro same
    obtain ⟨_, _, _, _, _, sets, found, _, rfl, _⟩ := buildReport_eq_ok_iff.mp accepted
    obtain ⟨briefs, _, valid, _⟩ := resultSets_eq_ok_iff.mp found
    have reversed := same { arguments with accepted := arguments.accepted.reverse }
      ⟨rfl, rfl, rfl, (List.reverse_perm _).symm, rfl, rfl, rfl, rfl, rfl, .refl _, .refl _, .refl _, rfl,
        .refl _, .refl _, .refl _⟩
    obtain ⟨_, _, _, _, _, otherSets, _, _, equal, _⟩ := buildReport_eq_ok_iff.mp reversed
    have reviews := congrArg BundleReport.resultReviews equal
    refine nodup_keys_of_sortByKey_reverse (resultReviews_nodup valid) ?_
    have backward : resultReviewsOf arguments.accepted.reverse =
        (resultReviewsOf arguments.accepted).reverse := by
      rw [resultReviewsOf, resultReviewsOf, List.map_reverse, List.filterMap_reverse]
    rw [← backward]
    exact reviews
  · exact fun distinct other permuted => buildReport_permuted permuted distinct accepted

/-- The realized report of two closures in some order. -/
def pairedArguments (units : List String) : ReportArguments where
  disposition := "realized"
  request := ⟨"request", "plan", "hash", true, true, true, true⟩
  plan := pairedPlan
  accepted := units.map pairedEntry

private theorem pairedArguments_valid (digest : String → String) {units : List String}
    (permuted : ["first", "second"].Perm units) :
    ClosuresValid .standard digest pairedBriefs (units.map pairedEntry) := by
  refine ClosuresValid.perm (permuted.map pairedEntry) ⟨?_, by decide, by decide,
    by decide, ?_⟩
  · intro entry member
    obtain ⟨unit, known, rfl⟩ := List.mem_map.mp member
    exact ⟨rfl, pairedClosure_verified digest unit known⟩
  · intro entry member other present key _ _ slot _
    obtain ⟨_, _, rfl⟩ := List.mem_map.mp member
    obtain ⟨_, _, rfl⟩ := List.mem_map.mp present
    rfl

private theorem pairedArguments_sets (digest : String → String) {units : List String}
    (permuted : ["first", "second"].Perm units) :
    resultSets .standard digest pairedPlan (units.map pairedEntry) = .ok (["experiment"], []) := by
  refine resultSets_perm (permuted.map pairedEntry) (resultSets_eq_ok_iff.mpr
    ⟨pairedBriefs, pairedPlan_briefs, pairedArguments_valid digest (.refl _), by decide,
      by decide⟩)

/-- Both orders of the two closures give a report. -/
theorem pairedArguments_accepted (digest : String → String) :
    ∀ units ∈ [["first", "second"], ["second", "first"]],
      buildReport .standard digest (pairedArguments units) =
        .ok (reportOf (pairedArguments units) ["experiment"] []) := by
  intro units member
  have permuted : ["first", "second"].Perm units := by
    revert units
    decide
  have light : ∀ units ∈ [["first", "second"], ["second", "first"]],
      ((reportOf (pairedArguments units) ["experiment"] []).value.visit Budget.standard.unrooted
          "BundleReport" {} ⟨0, 0⟩).isOk = true ∧
        (reportOf (pairedArguments units) ["experiment"] []).value.plainValue?.isSome = true ∧
        (reportOf (pairedArguments units) ["experiment"] []).value.weight ≤ 8 * 1024 * 1024 := by
    decide +kernel
  obtain ⟨visited, plain, small⟩ := light units member
  obtain ⟨serialized, closed⟩ := Value.validateClosed_of_light visited plain small
  -- Nothing but the mapping depends on the order, so the other checks are those of no closure.
  have request : validateProjection .standard "BundleStageRunRequest" (pairedArguments []).request.value =
      .ok () := by decide +kernel
  have bound : verifyRequest (pairedArguments []).request pairedPlan = .ok () := by decide
  have frozen : freezeArguments .standard (pairedArguments []) = .ok () := by decide
  have gate : verifyReportGate "realized" ["experiment"] [] (pairedBriefs.map Prod.fst) [] [] [] [] [] =
      .ok () := by decide
  refine buildReport_eq_ok_iff.mpr ⟨request, pairedBriefs, pairedPlan_briefs, bound, frozen,
    (["experiment"], []), pairedArguments_sets digest permuted, gate, rfl, digest serialized, ?_⟩
  rw [validateBundleReport, bind_eq_ok_iff]
  exact ⟨serialized, closed, rfl⟩

/-- The order of two closures whose reviews share a reference shows in the report. -/
theorem build_report_order_leaks :
    Permuted (pairedArguments ["first", "second"]) (pairedArguments ["second", "first"]) ∧
      ∀ digest, ∃ report other, report ≠ other ∧
        buildReport .standard digest (pairedArguments ["first", "second"]) = .ok report ∧
        buildReport .standard digest (pairedArguments ["second", "first"]) = .ok other := by
  refine ⟨⟨rfl, rfl, rfl, .swap _ _ _, rfl, rfl, rfl, rfl, rfl, .refl _, .refl _, .refl _, rfl, .refl _,
    .refl _, .refl _⟩, fun digest => ⟨_, _, ?_, pairedArguments_accepted digest _ (by simp),
      pairedArguments_accepted digest _ (by simp)⟩⟩
  intro same
  have first := congrArg (fun report => report.resultReviews.map (·.reviewedEvaluationAttemptRef)) same
  revert first
  decide

/-- The report of the two closures depends on their order. -/
theorem build_report_order_paired :
    ∃ report, buildReport .standard id (pairedArguments ["first", "second"]) = .ok report ∧
      ¬ ∀ other, Permuted (pairedArguments ["first", "second"]) other →
        buildReport .standard id other = .ok report := by
  have accepted := pairedArguments_accepted id ["first", "second"] (by simp)
  refine ⟨_, accepted, fun same => ?_⟩
  have distinct := (build_report_order_iff .standard id _ _ accepted).mp same
  revert distinct
  decide

end Completion

end MetaResearch.Bundle

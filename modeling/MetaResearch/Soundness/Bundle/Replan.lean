import Mathlib.Data.List.Nodup
import Mathlib.Data.List.ProdSigma
import MetaResearch.Soundness.Bundle.Report

/-! # From a closed replan to its report

The payload of the replan gate collects the dispositions of the routes that remain. The report gate
freezes the payload and recomputes what remains; the report is refused only where no route remains or where
the whole does not fit the budget of a projection.
-/

namespace MetaResearch.Bundle

namespace Completion

variable {budget : Budget} {digest : String → String} {plan : FormalPlan}

/-! ### What a barrier says of its dispositions -/

/-- What an accepted barrier says of each of its dispositions. -/
structure DispositionChecked (disposition : RouteDisposition) : Prop where
  named : Text.isBlank disposition.dispositionRef = false
  changing : disposition.requiredChanges ≠ []
  changes : ∀ change ∈ disposition.requiredChanges, Text.isBlank change = false
  evidence : ∀ ref ∈ disposition.evidenceRefs, Text.isBlank ref = false
  receipts : ∀ item ∈ disposition.externalReconciliations, Text.isBlank item.receipt.receiptRef = false

private theorem present_of_requireRef {value name : String}
    (required : TargetRun.requireRef value name = .ok ()) : Text.isBlank value = false := by
  simp only [TargetRun.requireRef, check_then_eq_ok_iff, require_eq_ok_iff, Bool.and_eq_true,
    decide_eq_true_eq] at required
  obtain ⟨⟨given, stripped⟩, _⟩ := required
  exact Bool.eq_false_iff.mpr fun blank => given (stripped.trans (Text.strip_of_isBlank blank))

private theorem present_of_frozen {change : String}
    (frozen : TargetRun.frozenSemanticFields.contains change = true) : Text.isBlank change = false := by
  rw [List.contains_eq_mem, decide_eq_true_eq] at frozen
  revert change
  decide

private theorem present_of_receipt {receipt : ReceiptProof} {subjectRef name : String}
    (valid : TargetRun.validateReceipt budget receipt subjectRef name = .ok ()) :
    Text.isBlank receipt.receiptRef = false := by
  unfold TargetRun.validateReceipt at valid
  split at valid
  · rename_i passed
    simp only [validateReceiptProof, check_then_eq_ok_iff, require_eq_ok_iff, Bool.and_eq_true,
      Bool.not_eq_true'] at passed
    exact passed.2.1.1.1.1
  · cases valid

theorem checked_of_validateDisposition {candidate : TargetCandidate} {expected : List (String × RouteSpec)}
    {seen after : List String} {disposition : RouteDisposition}
    (valid : TargetRun.validateDisposition budget candidate expected seen disposition = .ok after) :
    DispositionChecked disposition := by
  simp only [TargetRun.validateDisposition, check_then_eq_ok_iff, require_eq_ok_iff, checkAll_eq_ok_iff,
    Bool.and_eq_true, Bool.not_eq_true', List.isEmpty_eq_false_iff, List.all_eq_true] at valid
  obtain ⟨named, _, _, _, ⟨⟨changing, _⟩, frozen⟩, _, evidence, _, _, reconciled, _⟩ := valid
  refine ⟨present_of_requireRef named, changing, fun change member => present_of_frozen (frozen change member),
    fun ref member => present_of_requireRef (evidence ref member), fun item member => ?_⟩
  have reconciled := reconciled item member
  simp only [TargetRun.validateReconciliation, check_then_eq_ok_iff] at reconciled
  exact present_of_receipt reconciled.2.2

theorem checked_of_validateSemanticBarrier {barrier : SemanticBarrier} {candidate : TargetCandidate}
    {handle : TargetWorkHandle}
    (valid : TargetRun.validateSemanticBarrier budget barrier candidate handle = .ok ()) :
    ∀ disposition ∈ barrier.routeDispositions, DispositionChecked disposition := by
  simp only [TargetRun.validateSemanticBarrier, check_then_eq_ok_iff,
    bind_eq_ok_iff (α := List (String × RouteSpec)), bind_eq_ok_iff (α := List String)] at valid
  obtain ⟨_, _, _, _, expected, _, _, seen, walked, _⟩ := valid
  refine foldlM_ok_induction (motive := fun done _ => ∀ disposition ∈ done, DispositionChecked disposition)
    (by simp) ?_ walked
  intro done seen disposition after checked round other member
  rcases List.mem_append.mp member with earlier | here
  · exact checked other earlier
  · rw [List.mem_singleton.mp here]
    exact checked_of_validateDisposition round

/-! ### What the gate collects -/

/-- What the loop has collected from these routes and dispositions. -/
structure Collected (routes : List RouteSpec) (dispositions : List RouteDisposition) (replan : Replan) :
    Prop where
  expected : replan.expectedRouteRefs = (routes.map RouteSpec.routeRef).reverse
  actual : replan.actualRouteRefs = (dispositions.map (·.routeRef)).reverse
  refs : replan.dispositionRefs = (dispositions.map (·.dispositionRef)).reverse
  changes : ∀ change, change ∈ replan.requiredChanges ↔
    ∃ disposition ∈ dispositions, change ∈ disposition.requiredChanges
  evidence : ∀ ref, ref ∈ replan.evidenceRefs ↔ ∃ disposition ∈ dispositions, ref ∈ disposition.evidenceRefs
  receipts : ∀ ref, ref ∈ replan.reconciliationReceiptRefs ↔ ∃ disposition ∈ dispositions,
    ∃ item ∈ disposition.externalReconciliations, item.receipt.receiptRef = ref
  routesOnce : (routes.map RouteSpec.routeRef).Nodup
  disposedOnce : (dispositions.map (·.routeRef)).Nodup
  refsOnce : (dispositions.map (·.dispositionRef)).Nodup

namespace Collected

variable {routes : List RouteSpec} {dispositions : List RouteDisposition} {replan after : Replan}

theorem empty : Collected [] [] Replan.empty :=
  ⟨rfl, rfl, rfl, by simp [Replan.empty], by simp [Replan.empty], by simp [Replan.empty], .nil, .nil, .nil⟩

theorem route {route : RouteSpec} (collected : Collected routes dispositions replan)
    (round : collectRoute replan route = .ok after) :
    Collected (routes ++ [route]) dispositions after := by
  obtain ⟨fresh, ⟨⟩⟩ := check_then_eq_ok_iff.mp round
  simp only [require_eq_ok_iff, Bool.not_eq_true', List.contains_eq_mem, decide_eq_false_iff_not,
    collected.expected, List.mem_reverse] at fresh
  refine { collected with expected := ?_, routesOnce := ?_ }
  · rw [collected.expected, List.map_append, List.reverse_append]
    rfl
  · rw [List.map_append]
    exact collected.routesOnce.append (List.nodup_singleton _) (List.disjoint_singleton.mpr fresh)

/-- A reconciliation adds its receipt and touches nothing that is disposed. -/
private theorem reconciliations {items : List ExternalOperationReconciliation}
    (walked : items.foldlM collectReconciliation replan = .ok after) :
    after.expectedRouteRefs = replan.expectedRouteRefs ∧ after.actualRouteRefs = replan.actualRouteRefs ∧
      after.dispositionRefs = replan.dispositionRefs ∧ after.requiredChanges = replan.requiredChanges ∧
      after.evidenceRefs = replan.evidenceRefs ∧
      ∀ ref, ref ∈ after.reconciliationReceiptRefs ↔
        ref ∈ replan.reconciliationReceiptRefs ∨ ∃ item ∈ items, item.receipt.receiptRef = ref := by
  refine foldlM_ok_induction (motive := fun items after => after.expectedRouteRefs = replan.expectedRouteRefs ∧
    after.actualRouteRefs = replan.actualRouteRefs ∧ after.dispositionRefs = replan.dispositionRefs ∧
    after.requiredChanges = replan.requiredChanges ∧ after.evidenceRefs = replan.evidenceRefs ∧
    ∀ ref, ref ∈ after.reconciliationReceiptRefs ↔
      ref ∈ replan.reconciliationReceiptRefs ∨ ∃ item ∈ items, item.receipt.receiptRef = ref)
    (by simp) ?_ walked
  rintro done state item next ⟨expected, actual, refs, changes, evidence, receipts⟩ round
  obtain ⟨_, round⟩ := check_then_eq_ok_iff.mp round
  obtain ⟨_, ⟨⟩⟩ := check_then_eq_ok_iff.mp round
  refine ⟨expected, actual, refs, changes, evidence, fun ref => ?_⟩
  simp only [List.mem_cons, receipts ref, List.mem_append, List.not_mem_nil, or_false]
  constructor
  · rintro (rfl | earlier | ⟨other, member, same⟩)
    · exact .inr ⟨item, .inr rfl, rfl⟩
    · exact .inl earlier
    · exact .inr ⟨other, .inl member, same⟩
  · rintro (earlier | ⟨other, member | rfl, same⟩)
    · exact .inr (.inl earlier)
    · exact .inr (.inr ⟨other, member, same⟩)
    · exact .inl same.symm

theorem disposition {disposition : RouteDisposition} (collected : Collected routes dispositions replan)
    (round : collectDisposition replan disposition = .ok after) :
    Collected routes (dispositions ++ [disposition]) after := by
  obtain ⟨undisposed, round⟩ := check_then_eq_ok_iff.mp round
  obtain ⟨unnamed, walked⟩ := check_then_eq_ok_iff.mp round
  simp only [require_eq_ok_iff, Bool.not_eq_true', List.contains_eq_mem, decide_eq_false_iff_not,
    collected.actual, collected.refs, List.mem_reverse] at undisposed unnamed
  obtain ⟨expected, actual, refs, changes, evidence, receipts⟩ := reconciliations walked
  have either {property : RouteDisposition → Prop} : (∃ other ∈ dispositions ++ [disposition], property other) ↔
      property disposition ∨ ∃ other ∈ dispositions, property other := by
    simp [or_and_right, exists_or, or_comm]
  refine ⟨expected.trans collected.expected, ?_, ?_, fun change => ?_, fun ref => ?_, fun ref => ?_,
    collected.routesOnce, ?_, ?_⟩
  · rw [actual, collected.actual, List.map_append, List.reverse_append]
    rfl
  · rw [refs, collected.refs, List.map_append, List.reverse_append]
    rfl
  · rw [changes, List.mem_append, collected.changes, either]
  · rw [evidence, List.mem_append, collected.evidence, either]
  · rw [receipts, collected.receipts, either, or_comm]
  · rw [List.map_append]
    exact collected.disposedOnce.append (List.nodup_singleton _) (List.disjoint_singleton.mpr undisposed)
  · rw [List.map_append]
    exact collected.refsOnce.append (List.nodup_singleton _) (List.disjoint_singleton.mpr unnamed)

/-- One candidate with its barrier. -/
theorem barrier {candidate : TargetCandidate} {targetRef : String} {barrier : SemanticBarrier}
    (collected : Collected routes dispositions replan)
    (round : collectBarrier replan candidate targetRef barrier = .ok after) :
    Collected (routes ++ candidate.routes) (dispositions ++ barrier.routeDispositions) after := by
  obtain ⟨_, round⟩ := check_then_eq_ok_iff.mp round
  obtain ⟨_, round⟩ := check_then_eq_ok_iff.mp round
  obtain ⟨middle, routed, disposed⟩ := bind_eq_ok_iff.mp round
  have passed : Collected (routes ++ candidate.routes) dispositions middle :=
    foldlM_ok_induction (motive := fun done state => Collected (routes ++ done) dispositions state)
      (by simpa using collected)
      (fun done state item next held round => by simpa using held.route round) routed
  exact foldlM_ok_induction
    (motive := fun done state => Collected (routes ++ candidate.routes) (dispositions ++ done) state)
    (by simpa using passed) (fun done state item next held round => by simpa using held.disposition round)
    disposed

end Collected

/-! ### The unresolved labels -/

section

variable (candidates : List (String × TargetCandidate)) (targetByLabel : List (String × String))
  (acceptedLabels : List String) (semanticBarriers : List (String × SemanticBarrier))

/-- The routes of the candidate of a label. -/
def routesAt (label : String) : List RouteSpec := (candidates.lookup label).elim [] (·.routes)

/-- The barrier of the Target of a label. -/
def barrierAt (label : String) : Option SemanticBarrier :=
  (targetByLabel.lookup label).bind fun targetRef => semanticBarriers.lookup targetRef

def dispositionsAt (label : String) : List RouteDisposition :=
  (barrierAt targetByLabel semanticBarriers label).elim [] (·.routeDispositions)

/-- The routes of the candidates that are not accepted. -/
def remainingRoutes : List RouteSpec :=
  (unresolvedLabels candidates acceptedLabels).flatMap (routesAt candidates)

/-- The barrier of an unresolved Target disposes of the route under this reference. -/
def Disposes (routeRef ref : String) : Prop :=
  ∃ label ∈ unresolvedLabels candidates acceptedLabels,
    ∃ disposition ∈ dispositionsAt targetByLabel semanticBarriers label,
      disposition.routeRef = routeRef ∧ disposition.dispositionRef = ref

/-- Each remaining route is disposed of by one of the references, and each reference disposes of one route. -/
structure DisposesEachOnce (refs : List String) : Prop where
  distinct : refs.Nodup
  once : ∀ route ∈ remainingRoutes candidates acceptedLabels, ∃! ref, ref ∈ refs ∧
    Disposes candidates targetByLabel acceptedLabels semanticBarriers route.routeRef ref
  only : ∀ ref ∈ refs, ∃! routeRef,
    routeRef ∈ (remainingRoutes candidates acceptedLabels).map RouteSpec.routeRef ∧
      Disposes candidates targetByLabel acceptedLabels semanticBarriers routeRef ref

end

variable {candidates : List (String × TargetCandidate)} {targetByLabel : List (String × String)}
  {acceptedLabels : List String} {semanticBarriers : List (String × SemanticBarrier)}
  {accepted : List (String × AcceptedMeasurementClosure)} {payload : ReplanPayload}

/-- Each unresolved label has a candidate and a barrier, once the mappings agree. -/
theorem known_of_targets (labelled : verifyLabels candidates targetByLabel acceptedLabels = .ok ())
    (targets : sameSet (semanticBarriers.map Prod.fst)
      (expectedBarrierTargets candidates targetByLabel acceptedLabels) = true) :
    ∀ label ∈ unresolvedLabels candidates acceptedLabels, ∃ candidate targetRef barrier,
      candidates.lookup label = some candidate ∧ targetByLabel.lookup label = some targetRef ∧
        semanticBarriers.lookup targetRef = some barrier := by
  intro label member
  simp only [verifyLabels, check_then_eq_ok_iff, require_eq_ok_iff, sameSet_eq_true_iff] at labelled
  rw [sameSet_eq_true_iff] at targets
  have known : label ∈ candidates.map Prod.fst := List.mem_of_mem_filter member
  obtain ⟨candidate, here⟩ := exists_lookup known
  obtain ⟨targetRef, target⟩ := exists_lookup ((labelled.2.1 label).mpr known)
  have expected : targetRef ∈ expectedBarrierTargets candidates targetByLabel acceptedLabels :=
    List.mem_filterMap.mpr ⟨label, member, target⟩
  obtain ⟨barrier, there⟩ := exists_lookup ((targets targetRef).mpr expected)
  exact ⟨candidate, targetRef, barrier, here, target, there⟩

/-- The loop over labels that are known. -/
theorem Collected.walk {labels : List String} {routes : List RouteSpec}
    {dispositions : List RouteDisposition} {replan after : Replan}
    (collected : Collected routes dispositions replan)
    (known : ∀ label ∈ labels, ∃ candidate targetRef barrier, candidates.lookup label = some candidate ∧
      targetByLabel.lookup label = some targetRef ∧ semanticBarriers.lookup targetRef = some barrier)
    (walked : labels.foldlM (collectLabel candidates targetByLabel semanticBarriers) replan = .ok after) :
    Collected (routes ++ labels.flatMap (routesAt candidates))
      (dispositions ++ labels.flatMap (dispositionsAt targetByLabel semanticBarriers)) after := by
  induction labels generalizing routes dispositions replan with
  | nil =>
    obtain rfl := Except.ok.inj walked
    simpa using collected
  | cons label labels ih =>
    obtain ⟨middle, round, later⟩ := bind_eq_ok_iff.mp walked
    obtain ⟨⟨candidate, targetRef, barrier, here, target, there⟩, others⟩ := List.forall_mem_cons.mp known
    simp only [collectLabel, here, target, there] at round
    have rest := ih (collected.barrier round) others later
    have routed : routesAt candidates label = candidate.routes := by rw [routesAt, here]; rfl
    have disposed : dispositionsAt targetByLabel semanticBarriers label = barrier.routeDispositions := by
      simp only [dispositionsAt, barrierAt, target, Option.bind_some, there, Option.elim_some]
    rw [List.flatMap_cons, List.flatMap_cons, routed, disposed, ← List.append_assoc, ← List.append_assoc]
    exact rest

/-- Every disposition of an unresolved label is one of the given barriers. -/
theorem checked_of_mem {label : String} {disposition : RouteDisposition}
    (valid : ∀ entry ∈ semanticBarriers, ∃ candidate handle,
      TargetRun.validateSemanticBarrier budget entry.2 candidate handle = .ok ())
    (member : disposition ∈ dispositionsAt targetByLabel semanticBarriers label) :
    DispositionChecked disposition := by
  unfold dispositionsAt at member
  cases found : barrierAt targetByLabel semanticBarriers label with
  | none => simp [found] at member
  | some barrier =>
    rw [found, Option.elim_some] at member
    obtain ⟨targetRef, _, there⟩ := Option.bind_eq_some_iff.mp found
    obtain ⟨candidate, handle, passed⟩ := valid _ (mem_of_lookup there)
    exact checked_of_validateSemanticBarrier passed disposition member

/-! ### The payload -/

/-- The payload is what the loop has collected, and something remains. -/
theorem closed_of_payload {strategyComplete : Bool} {requested blocked pending : List String}
    (closed : closedSemanticReplanPayload budget digest plan candidates targetByLabel accepted acceptedLabels
      semanticBarriers strategyComplete requested blocked pending = .ok (some payload)) :
    ∃ sets replan, resultSets budget digest plan accepted = .ok sets ∧ sets.2 ≠ [] ∧
      Collected ((sortedSet (unresolvedLabels candidates acceptedLabels)).flatMap (routesAt candidates))
        ((sortedSet (unresolvedLabels candidates acceptedLabels)).flatMap
          (dispositionsAt targetByLabel semanticBarriers)) replan ∧
      (∀ ref, ref ∈ replan.actualRouteRefs ↔ ref ∈ replan.expectedRouteRefs) ∧
      payload = (sortedSet replan.requiredChanges, sortedSet replan.evidenceRefs,
        sortedSet replan.dispositionRefs, sortedSet replan.reconciliationReceiptRefs) := by
  unfold closedSemanticReplanPayload at closed
  split at closed
  · cases closed
  obtain ⟨labelled, closed⟩ := check_then_eq_ok_iff.mp closed
  split_ifs at closed with targets
  · have answered : closedReplan budget digest plan candidates targetByLabel accepted acceptedLabels
        semanticBarriers = .ok payload := by
      cases result : closedReplan budget digest plan candidates targetByLabel accepted acceptedLabels
          semanticBarriers with
      | error error => simp [result, Functor.map, Except.map] at closed
      | ok other => simpa [result, Functor.map, Except.map] using closed
    obtain ⟨sets, found, answered⟩ := bind_eq_ok_iff.mp answered
    obtain ⟨covered, answered⟩ := check_then_eq_ok_iff.mp answered
    obtain ⟨replan, walked, answered⟩ := bind_eq_ok_iff.mp answered
    obtain ⟨same, ⟨⟩⟩ := check_then_eq_ok_iff.mp answered
    simp only [require_eq_ok_iff, Bool.and_eq_true, Bool.not_eq_true', List.isEmpty_eq_false_iff] at covered
    rw [require_eq_ok_iff, sameSet_eq_true_iff] at same
    have known := known_of_targets labelled targets
    refine ⟨sets, replan, found, covered.1, ?_, same, rfl⟩
    simpa using Collected.empty.walk (fun label member => known label (mem_sortedSet.mp member)) walked
  · cases closed

/-- What is collected disposes of each remaining route once. -/
theorem Collected.disposesEachOnce {replan : Replan}
    (collected : Collected
      ((sortedSet (unresolvedLabels candidates acceptedLabels)).flatMap (routesAt candidates))
      ((sortedSet (unresolvedLabels candidates acceptedLabels)).flatMap
        (dispositionsAt targetByLabel semanticBarriers)) replan)
    (same : ∀ ref, ref ∈ replan.actualRouteRefs ↔ ref ∈ replan.expectedRouteRefs) :
    DisposesEachOnce candidates targetByLabel acceptedLabels semanticBarriers
      (sortedSet replan.dispositionRefs) := by
  set routes := (sortedSet (unresolvedLabels candidates acceptedLabels)).flatMap (routesAt candidates)
  set dispositions := (sortedSet (unresolvedLabels candidates acceptedLabels)).flatMap
    (dispositionsAt targetByLabel semanticBarriers) with all
  have remaining (route : RouteSpec) : route ∈ remainingRoutes candidates acceptedLabels ↔ route ∈ routes := by
    simp only [routes, remainingRoutes, List.mem_flatMap, mem_sortedSet]
  have disposes (routeRef ref : String) :
      Disposes candidates targetByLabel acceptedLabels semanticBarriers routeRef ref ↔
        ∃ disposition ∈ dispositions, disposition.routeRef = routeRef ∧ disposition.dispositionRef = ref := by
    simp only [Disposes, all, List.mem_flatMap, mem_sortedSet]
    constructor
    · rintro ⟨label, unresolved, disposition, member, said⟩
      exact ⟨disposition, ⟨label, unresolved, member⟩, said⟩
    · rintro ⟨disposition, ⟨label, unresolved, member⟩, said⟩
      exact ⟨label, unresolved, disposition, member, said⟩
  have named (ref : String) : ref ∈ sortedSet replan.dispositionRefs ↔
      ref ∈ dispositions.map (·.dispositionRef) := by
    rw [mem_sortedSet, collected.refs, List.mem_reverse]
  have routed (routeRef : String) : routeRef ∈ dispositions.map (·.routeRef) ↔
      routeRef ∈ routes.map RouteSpec.routeRef := by
    simpa only [collected.actual, collected.expected, List.mem_reverse] using same routeRef
  refine ⟨(List.perm_insertionSort _ _).nodup_iff.mpr (List.nodup_dedup _), fun route member => ?_,
    fun ref member => ?_⟩
  · obtain ⟨disposition, present, said⟩ := List.mem_map.mp
      ((routed route.routeRef).mpr (List.mem_map_of_mem ((remaining route).mp member)))
    refine ⟨disposition.dispositionRef, ⟨(named _).mpr (List.mem_map_of_mem present),
      (disposes _ _).mpr ⟨disposition, present, said, rfl⟩⟩, ?_⟩
    rintro other ⟨_, disposed⟩
    obtain ⟨second, also, about, rfl⟩ := (disposes _ _).mp disposed
    rw [List.inj_on_of_nodup_map collected.disposedOnce present also (said.trans about.symm)]
  · obtain ⟨disposition, present, rfl⟩ := List.mem_map.mp ((named ref).mp member)
    have known := (routed disposition.routeRef).mp (List.mem_map_of_mem present)
    refine ⟨disposition.routeRef, ⟨?_, (disposes _ _).mpr ⟨disposition, present, rfl, rfl⟩⟩, ?_⟩
    · obtain ⟨route, there, said⟩ := List.mem_map.mp known
      exact List.mem_map.mpr ⟨route, (remaining route).mpr there, said⟩
    · rintro other ⟨_, disposed⟩
      obtain ⟨second, also, rfl, about⟩ := (disposes _ _).mp disposed
      rw [List.inj_on_of_nodup_map collected.refsOnce also present about]

/-! ### The report -/

/-- The arguments ask for a report of the payload, with no blocker and nothing active. -/
structure IsReplan (plan : FormalPlan) (accepted : List (String × AcceptedMeasurementClosure))
    (payload : ReplanPayload) (arguments : ReportArguments) : Prop where
  disposition : arguments.disposition = "replan_required"
  plan : arguments.plan = plan
  accepted : arguments.accepted = accepted
  changes : arguments.semanticChangeRequired = payload.1
  evidence : arguments.evidenceRefs = payload.2.1
  routes : arguments.routeDispositionRefs = payload.2.2.1
  reconciliations : arguments.reconciliationReceiptRefs = payload.2.2.2
  blockers : arguments.blockerRefs = []
  active : arguments.activeTargetRefs = []
  pending : arguments.pendingSubmissionRefs = []
  unknown : arguments.outcomeUnknownRefs = []

/-- What is neither of the payload nor of the Plan passes: the request, and the references and preflights
beside the payload. -/
structure IsRequested (budget : Budget) (arguments : ReportArguments) : Prop where
  request : validateProjection budget "BundleStageRunRequest" arguments.request.value = .ok ()
  bound : verifyRequest arguments.request arguments.plan = .ok ()
  owners : freezeRefs arguments.additionalOwnerReceiptRefs "Owner receipt ref" = .ok ()
  stops : freezeRefs arguments.stopDecisionRefs "StopDecisionRef" = .ok ()
  recoveries : freezeRefs arguments.recoveryEvidenceRefs "recovery evidence ref" = .ok ()
  preflights : ∀ preflight ∈ arguments.codeReviewPreflights,
    validateProjection budget "TargetExecutionPreflight" preflight.value = .ok ()

theorem freezeRefs_nil (name : String) : freezeRefs [] name = .ok () := rfl

theorem freezeRefs_sortedSet {values : List String} (name : String)
    (present : ∀ value ∈ values, Text.isBlank value = false) :
    freezeRefs (sortedSet values) name = .ok () := by
  refine check_then_eq_ok_iff.mpr ⟨checkAll_eq_ok_iff.mpr fun value member => ?_, ?_⟩
  · rw [requireRef, require_eq_ok_iff, present value (mem_sortedSet.mp member)]
    rfl
  · rw [require_eq_ok_iff, decide_eq_true_eq]
    exact (List.perm_insertionSort _ _).nodup_iff.mpr (List.nodup_dedup _)

/-- No experiment is both realized and remaining. -/
theorem disjoint_of_resultSets {sets : List String × List String}
    (found : resultSets budget digest plan accepted = .ok sets) :
    (!sets.1.any (sets.2.contains ·)) = true := by
  obtain ⟨briefs, parsed, _, _, rfl⟩ := resultSets_eq_ok_iff.mp found
  have keys := (briefsChecked_of_briefsByKey parsed).keys
  rw [Bool.not_eq_true', List.any_eq_false]
  intro key realized remaining
  rw [List.contains_eq_mem, decide_eq_true_eq] at remaining
  obtain ⟨first, here, rfl⟩ := List.mem_map.mp (mem_sortedSet.mp realized)
  obtain ⟨second, there, same⟩ := List.mem_map.mp (mem_sortedSet.mp remaining)
  obtain ⟨present, covered⟩ := List.mem_filter.mp here
  obtain ⟨also, uncovered⟩ := List.mem_filter.mp there
  obtain rfl := List.inj_on_of_nodup_map keys also present same
  simp [covered] at uncovered

theorem verifyReportGate_replan_iff {realized remaining keys changes : List String} :
    verifyReportGate "replan_required" realized remaining keys [] changes [] [] [] = .ok () ↔
      remaining ≠ [] ∧ changes ≠ [] := by
  have apart : ("replan_required" = "blocked") = False ∧ ("replan_required" = "realized") = False := by
    decide
  simp [verifyReportGate, check_then_eq_ok_iff, apart.1, apart.2]

/-- Something has to change exactly when a route remains. -/
theorem Collected.changes_ne_nil_iff {replan : Replan}
    (collected : Collected
      ((sortedSet (unresolvedLabels candidates acceptedLabels)).flatMap (routesAt candidates))
      ((sortedSet (unresolvedLabels candidates acceptedLabels)).flatMap
        (dispositionsAt targetByLabel semanticBarriers)) replan)
    (same : ∀ ref, ref ∈ replan.actualRouteRefs ↔ ref ∈ replan.expectedRouteRefs)
    (checked : ∀ label, ∀ disposition ∈ dispositionsAt targetByLabel semanticBarriers label,
      DispositionChecked disposition) :
    sortedSet replan.requiredChanges ≠ [] ↔ remainingRoutes candidates acceptedLabels ≠ [] := by
  constructor
  · intro changing
    obtain ⟨change, member⟩ := List.exists_mem_of_ne_nil _ changing
    obtain ⟨disposition, present, _⟩ := (collected.changes change).mp (mem_sortedSet.mp member)
    have disposed : disposition.routeRef ∈ replan.actualRouteRefs := by
      rw [collected.actual, List.mem_reverse]
      exact List.mem_map_of_mem present
    rw [same, collected.expected, List.mem_reverse] at disposed
    obtain ⟨route, there, _⟩ := List.mem_map.mp disposed
    obtain ⟨label, unresolved, routed⟩ := List.mem_flatMap.mp there
    exact List.ne_nil_of_mem (List.mem_flatMap.mpr ⟨label, mem_sortedSet.mp unresolved, routed⟩)
  · intro routed
    obtain ⟨route, member⟩ := List.exists_mem_of_ne_nil _ routed
    obtain ⟨label, unresolved, there⟩ := List.mem_flatMap.mp member
    have expected : route.routeRef ∈ replan.expectedRouteRefs := by
      rw [collected.expected, List.mem_reverse]
      exact List.mem_map_of_mem (List.mem_flatMap.mpr ⟨label, mem_sortedSet.mpr unresolved, there⟩)
    rw [← same, collected.actual, List.mem_reverse] at expected
    obtain ⟨disposition, present, _⟩ := List.mem_map.mp expected
    obtain ⟨other, _, disposed⟩ := List.mem_flatMap.mp present
    obtain ⟨change, required⟩ := List.exists_mem_of_ne_nil _ (checked other disposition disposed).changing
    exact List.ne_nil_of_mem (mem_sortedSet.mpr ((collected.changes change).mpr
      ⟨disposition, present, required⟩))

/-- The references of a collected payload are frozen, beside what is requested. -/
theorem freezeArguments_of_collected {replan : Replan} {routes : List RouteSpec}
    {dispositions : List RouteDisposition} {arguments : ReportArguments}
    (collected : Collected routes dispositions replan)
    (checked : ∀ disposition ∈ dispositions, DispositionChecked disposition)
    (asked : IsReplan plan accepted (sortedSet replan.requiredChanges, sortedSet replan.evidenceRefs,
      sortedSet replan.dispositionRefs, sortedSet replan.reconciliationReceiptRefs) arguments)
    (requested : IsRequested budget arguments) : freezeArguments budget arguments = .ok () := by
  have changes : freezeRefs arguments.semanticChangeRequired "semantic change ref" = .ok () := by
    rw [asked.changes]
    refine freezeRefs_sortedSet _ fun change member => ?_
    obtain ⟨disposition, present, required⟩ := (collected.changes change).mp member
    exact (checked disposition present).changes change required
  have evidence : freezeRefs arguments.evidenceRefs "evidence ref" = .ok () := by
    rw [asked.evidence]
    refine freezeRefs_sortedSet _ fun ref member => ?_
    obtain ⟨disposition, present, proved⟩ := (collected.evidence ref).mp member
    exact (checked disposition present).evidence ref proved
  have named : freezeRefs arguments.routeDispositionRefs "route disposition ref" = .ok () := by
    rw [asked.routes]
    refine freezeRefs_sortedSet _ fun ref member => ?_
    rw [collected.refs, List.mem_reverse] at member
    obtain ⟨disposition, present, rfl⟩ := List.mem_map.mp member
    exact (checked disposition present).named
  have reconciled : freezeRefs arguments.reconciliationReceiptRefs "reconciliation receipt ref" = .ok () := by
    rw [asked.reconciliations]
    refine freezeRefs_sortedSet _ fun ref member => ?_
    obtain ⟨disposition, present, item, listed, rfl⟩ := (collected.receipts ref).mp member
    exact (checked disposition present).receipts item listed
  simp only [freezeArguments, check_then_eq_ok_iff, asked.blockers, asked.active, asked.pending, asked.unknown,
    freezeRefs_nil, changes, evidence, named, reconciled, requested.owners, requested.stops,
    requested.recoveries, checkAll_eq_ok_iff, true_and, and_true]
  exact requested.preflights

/-- A closed replan is reported exactly when a route remains and the report fits the budget of a projection,
and the report disposes of each remaining route once. -/
theorem closed_replan_reported (budget : Budget) (digest : String → String) (plan : FormalPlan)
    (candidates : List (String × TargetCandidate)) (targetByLabel : List (String × String))
    (accepted : List (String × AcceptedMeasurementClosure)) (acceptedLabels : List String)
    (semanticBarriers : List (String × SemanticBarrier)) (strategyComplete : Bool)
    (requestedTargetRefs blockedTargetRefs pendingNoticeRefs : List String) (payload : ReplanPayload)
    (arguments : ReportArguments)
    (valid : ∀ entry ∈ semanticBarriers, ∃ candidate handle,
      TargetRun.validateSemanticBarrier budget entry.2 candidate handle = .ok ())
    (closed : closedSemanticReplanPayload budget digest plan candidates targetByLabel accepted acceptedLabels
      semanticBarriers strategyComplete requestedTargetRefs blockedTargetRefs pendingNoticeRefs =
        .ok (some payload))
    (replan : IsReplan plan accepted payload arguments) (requested : IsRequested budget arguments) :
    ∃ realized remaining, resultSets budget digest plan accepted = .ok (realized, remaining) ∧
      (∀ report, buildReport budget digest arguments = .ok report ↔
        report = reportOf arguments realized remaining ∧ remainingRoutes candidates acceptedLabels ≠ [] ∧
          ∃ text, report.value.validateClosed budget "BundleReport" = .ok text) ∧
      DisposesEachOnce candidates targetByLabel acceptedLabels semanticBarriers
        (reportOf arguments realized remaining).routeDispositionRefs := by
  obtain ⟨⟨realized, remaining⟩, collectedState, found, left, collected, same, rfl⟩ := closed_of_payload closed
  have checked (label : String) : ∀ disposition ∈ dispositionsAt targetByLabel semanticBarriers label,
      DispositionChecked disposition := fun disposition member => checked_of_mem valid member
  have changing := collected.changes_ne_nil_iff same checked
  refine ⟨realized, remaining, found, fun report => ?_, ?_⟩
  · rw [buildReport_eq_ok_iff, replan.plan, replan.accepted, replan.disposition, replan.blockers, replan.active,
      replan.pending, replan.unknown, replan.changes]
    constructor
    · rintro ⟨_, briefs, _, _, _, sets, again, gate, same, hash, passed⟩
      obtain ⟨⟩ := Except.ok.inj (found.symm.trans again)
      obtain ⟨text, passed, _⟩ := bind_eq_ok_iff.mp passed
      exact ⟨same, changing.mp (verifyReportGate_replan_iff.mp gate).2, text, passed⟩
    · rintro ⟨rfl, routed, text, passed⟩
      obtain ⟨briefs, parsed, _⟩ := resultSets_eq_ok_iff.mp found
      have bound := requested.bound
      rw [replan.plan] at bound
      have frozen := freezeArguments_of_collected collected (fun disposition member => by
        obtain ⟨label, _, present⟩ := List.mem_flatMap.mp member
        exact checked label disposition present) replan requested
      refine ⟨requested.request, briefs, parsed, bound, frozen, (realized, remaining), found,
        verifyReportGate_replan_iff.mpr ⟨left, changing.mpr routed⟩, rfl, digest text,
        bind_eq_ok_iff.mpr ⟨text, passed, ?_⟩⟩
      have disposition : (reportOf arguments realized remaining).disposition = "replan_required" :=
        replan.disposition
      refine check_then_eq_ok_iff.mpr ⟨require_eq_ok_iff.mpr (by rw [disposition]; decide), ?_⟩
      refine check_then_eq_ok_iff.mpr ⟨require_eq_ok_iff.mpr (disjoint_of_resultSets found), ?_⟩
      exact check_then_eq_ok_iff.mpr ⟨require_eq_ok_iff.mpr (by simp [disposition]), rfl⟩
  · have routes : arguments.routeDispositionRefs = sortedSet collectedState.dispositionRefs := replan.routes
    rw [reportOf, routes]
    exact collected.disposesEachOnce same

/-! ### Two Targets with many references -/

/-- The disposition of the one route of a candidate of the Plan of two cells. -/
def pairedDisposition (unit : String) (refs : List String) : RouteDisposition where
  dispositionRef := "disposition-" ++ unit
  routeRef := "route-" ++ unit
  experimentKeys := ["experiment"]
  outcome := "requires_frozen_change"
  requiredChanges := ["Goal"]
  evidenceRefs := refs

def pairedBarrier (unit : String) (refs : List String) : SemanticBarrier where
  targetRef := "target-" ++ unit
  targetRunRef := "run"
  executionAttemptRef := "attempt"
  executionFenceRef := "fence"
  experimentKeys := ["experiment"]
  reason := "reason"
  routeDispositions := [pairedDisposition unit refs]

def pairedHandle (unit : String) : TargetWorkHandle where
  targetRef := "target-" ++ unit
  targetRunRef := "run"
  rootSessionRef := "session"
  executionAttemptRef := "attempt"
  executionFenceRef := "fence"
  executionInputBindingRef := "input"
  executionInputBindingReceipt := receiptOf "input"
  acceptedInputTargetCommitRefs := []
  acceptedInputAssetProofs := []
  recoverable := true

def pairedTargets : List (String × String) :=
  ["first", "second"].map fun unit => (unit, "target-" ++ unit)

/-- A short reference. -/
structure IsShortRef (ref : String) : Prop where
  required : ∀ name, TargetRun.requireRef ref name = .ok ()
  short : ref.utf8ByteSize ≤ 2

private theorem matches_texts (values : List String) :
    Value.matchesAnnotation Annotation.texts (Value.texts values) = true := by
  simp [ Annotation.texts, Value.texts, Value.matchesAnnotation]

private theorem pairedBarrier_projection {refs : List String} (few : refs.length ≤ 1024)
    (short : ∀ ref ∈ refs, ref.utf8ByteSize ≤ 2) : ∀ unit ∈ ["first", "second"],
    validateProjection .standard "SemanticBarrier" (pairedBarrier unit refs).value = .ok () := by
  intro unit member
  have small : ∀ unit ∈ ["first", "second"], ("target-" ++ unit).utf8ByteSize ≤ 4096 ∧
      ("route-" ++ unit).utf8ByteSize ≤ 4096 ∧ ("disposition-" ++ unit).utf8ByteSize ≤ 4096 := by decide
  obtain ⟨target, route, named⟩ := small unit member
  have lone : ["experiment"].length = 1 ∧ ["Goal"].length = 1 := ⟨rfl, rfl⟩
  have text {type : RecordType} {field text : String} {nodes : ℕ} {declared : List (String × Annotation)}
      {rest : List Value} {hint : Annotation} (plain : (Value.isMetricValues type field ||
        Value.inheritsPlanText type field) = false)
      (typed : Value.matchesAnnotation hint (.text text) = true) (few : nodes < 65536)
      (short : text.utf8ByteSize ≤ 4096)
      (others : FieldsPass "SemanticBarrier" type declared rest (nodes + 1)) :
      FieldsPass "SemanticBarrier" type ((field, hint) :: declared) (.text text :: rest) nodes :=
    .cons plain typed (FieldsPass.text few short) others
  have disposition : FieldsPass "SemanticBarrier" .routeDisposition RecordType.routeDisposition.fields
      [.text ("disposition-" ++ unit), .text ("route-" ++ unit), .texts ["experiment"],
        .text "requires_frozen_change", .texts ["Goal"], .texts refs, .tuple []] 10 := by
    refine text rfl rfl (by omega) named <| text rfl rfl (by omega) route ?_
    refine .cons rfl rfl (FieldsPass.texts (by omega) (by omega) (by decide)) ?_
    refine text rfl rfl (by omega) (by decide) ?_
    refine .cons rfl rfl (FieldsPass.texts (by omega) (by omega) (by decide)) ?_
    refine .cons rfl (matches_texts refs)
      (FieldsPass.texts few (by omega) fun ref member => Nat.le_trans (short ref member) (by decide)) ?_
    refine .last rfl rfl fun bytes => ?_
    obtain ⟨total, visited⟩ := @FieldsPass.texts "SemanticBarrier"
      (10 + 1 + 1 + (1 + ["experiment"].length) + 1 + (1 + ["Goal"].length) + (1 + refs.length)) []
      (by decide) (by rw [List.length_nil]; omega) (by simp) bytes
    have empty : Value.tuple [] = Value.texts [] := rfl
    rw [empty, visited]
    rfl
  have fields : FieldsPass "SemanticBarrier" .semanticBarrier RecordType.semanticBarrier.fields
      [.text ("target-" ++ unit), .text "run", .text "attempt", .text "fence", .texts ["experiment"],
        .text "reason", .tuple [(pairedDisposition unit refs).value]] 1 := by
    refine text rfl rfl (by omega) target ?_
    iterate 3 refine text rfl rfl (by omega) (by decide) ?_
    refine .cons rfl rfl (FieldsPass.texts (by omega) (by omega) (by decide)) ?_
    refine text rfl rfl (by omega) (by decide) (.last rfl rfl (FieldsPass.lone (by omega) rfl ?_))
    exact disposition
  refine validateProjection_of_light fields.record ?_ ?_
  · have plain := Value.plainValue_texts
    simp [pairedBarrier, pairedDisposition, SemanticBarrier.value, RouteDisposition.value, Value.plainValue?,
      Value.plainFields?, Value.plainItems?, RecordType.fields, Value.isMetricValues, plain]
  · have held := Value.weight_texts_le short
    have others : (Value.texts ["experiment"]).weight ≤ 100 ∧ (Value.texts ["Goal"]).weight ≤ 100 ∧
        ("run").utf8ByteSize ≤ 100 ∧ ("attempt").utf8ByteSize ≤ 100 ∧ ("fence").utf8ByteSize ≤ 100 ∧
        ("reason").utf8ByteSize ≤ 100 ∧ ("requires_frozen_change").utf8ByteSize ≤ 100 := by decide
    simp only [pairedBarrier, pairedDisposition, SemanticBarrier.value, RouteDisposition.value, Value.weight,
      Value.itemsWeight, List.map_cons, List.map_nil, List.length_cons, List.length_nil, fieldWeight]
    omega

private theorem pairedRoute_named : ∀ unit ∈ ["first", "second"],
    TargetRun.requireRef ("route-" ++ unit) "semantic route" = .ok () ∧
      TargetRun.requireRef ("disposition-" ++ unit) "RouteDisposition" = .ok () := by
  decide

private theorem pairedBarrier_valid {refs : List String} (given : refs ≠ []) (few : refs.length ≤ 1024)
    (distinct : refs.Nodup) (short : ∀ ref ∈ refs, IsShortRef ref) : ∀ unit ∈ ["first", "second"],
    TargetRun.validateSemanticBarrier .standard (pairedBarrier unit refs) (pairedCandidate unit)
      (pairedHandle unit) = .ok () := by
  intro unit member
  obtain ⟨route, named⟩ := pairedRoute_named unit member
  have projection := pairedBarrier_projection few (fun ref member => (short ref member).short) unit member
  have stale : TargetRun.isStale (pairedHandle unit) (pairedBarrier unit refs).targetRef
      (pairedBarrier unit refs).targetRunRef (pairedBarrier unit refs).executionAttemptRef
      (pairedBarrier unit refs).executionFenceRef = false := by
    simp [TargetRun.isStale, pairedHandle, pairedBarrier]
  have reason : TargetRun.requireRef "reason" "SemanticBarrier reason" = .ok () := by decide
  have routes : TargetRun.expectedRoutes (pairedCandidate unit).routes [] =
      .ok [("route-" ++ unit, ⟨"route-" ++ unit, []⟩)] := by
    simp [TargetRun.expectedRoutes, pairedCandidate, route, checkAll, require, bind, Except.bind]
  have disposed : TargetRun.validateDisposition .standard (pairedCandidate unit)
      [("route-" ++ unit, ⟨"route-" ++ unit, []⟩)] [] (pairedDisposition unit refs) =
        .ok ["disposition-" ++ unit] := by
    have evidence : checkAll (TargetRun.requireRef · "SemanticBarrier evidence") refs = .ok () :=
      checkAll_eq_ok_iff.mpr fun ref member => (short ref member).required _
    have frozen : "Goal" ∈ TargetRun.frozenSemanticFields := by decide
    simp [TargetRun.validateDisposition, pairedDisposition, pairedCandidate, named, evidence, given, distinct,
      frozen, checkAll, require, bind, Except.bind, pure, Except.pure, sameSet]
  simp only [TargetRun.validateSemanticBarrier, check_then_eq_ok_iff, require_eq_ok_iff, projection, stale,
    routes, bind_eq_ok_iff (α := List (String × RouteSpec)), bind_eq_ok_iff (α := List String)]
  refine ⟨trivial, by simp, by simp [pairedBarrier, pairedCandidate], reason, _, rfl, ?_, ["disposition-" ++ unit], ?_,
    rfl⟩
  · simp [pairedBarrier, pairedDisposition, sameSet]
  · rw [pairedBarrier, List.foldlM_cons, disposed]
    rfl

/-! ### More references than a tuple holds -/

def evidenceLetters : List Char := "ABCDEFGHIJKLMNOPQRSTUVWXYZabcdef".toList

/-- As many references as a tuple holds. -/
def manyRefs : List String :=
  (evidenceLetters ×ˢ evidenceLetters).map fun pair => String.ofList [pair.1, pair.2]

theorem manyRefs_length : manyRefs.length = 1024 := by
  have letters : evidenceLetters.length = 32 := by decide
  rw [manyRefs, List.length_map, List.length_product, letters]

private theorem manyRefs_nodup : manyRefs.Nodup := by
  have letters : evidenceLetters.Nodup := by decide
  refine (letters.product letters).map fun first second same => ?_
  have chars := congrArg String.toList same
  simp only [String.toList_ofList, List.cons.injEq, and_true] at chars
  exact Prod.ext chars.1 chars.2

private theorem isShortRef_of_plain {ref : String} (given : ref ≠ "") (stripped : ref = Text.strip ref)
    (clean : (ref.toList.all fun char => char ≠ Char.ofNat 0 ∧ char ≠ '\r' ∧ char ≠ '\n') = true)
    (short : ref.utf8ByteSize ≤ 2) : IsShortRef ref := by
  refine ⟨fun name => check_then_eq_ok_iff.mpr ⟨require_eq_ok_iff.mpr ?_, require_eq_ok_iff.mpr ?_⟩, short⟩
  · rw [Bool.and_eq_true, decide_eq_true_eq, decide_eq_true_eq]
    exact ⟨given, stripped⟩
  · simpa [and_assoc] using clean

private theorem isShortRef_of_letters {first second : Char} (here : first ∈ evidenceLetters)
    (there : second ∈ evidenceLetters) : IsShortRef (String.ofList [first, second]) := by
  have plain : (evidenceLetters.all fun char => Text.isSpace char = false ∧ char ≠ Char.ofNat 0 ∧
      char ≠ '\r' ∧ char ≠ '\n' ∧ (String.ofList [char]).utf8ByteSize = 1) = true := by decide
  rw [List.all_eq_true] at plain
  obtain ⟨space, zero, carriage, line, size⟩ := of_decide_eq_true (plain first here)
  obtain ⟨otherSpace, otherZero, otherCarriage, otherLine, otherSize⟩ := of_decide_eq_true (plain second there)
  have stripped : Text.strip (String.ofList [first, second]) = String.ofList [first, second] :=
    Text.strip_of_no_space (by simp [space, otherSpace])
  have given : String.ofList [first, second] ≠ "" := by
    intro empty
    have chars := congrArg String.toList empty
    simp at chars
  refine isShortRef_of_plain given stripped.symm ?_ ?_
  · simp [zero, carriage, line, otherZero, otherCarriage, otherLine]
  · have joined : String.ofList [first, second] = String.ofList [first] ++ String.ofList [second] := by
      rw [← String.ofList_append]
      rfl
    rw [joined, String.utf8ByteSize_append]
    omega

private theorem manyRefs_short : ∀ ref ∈ manyRefs, IsShortRef ref := by
  intro ref member
  obtain ⟨pair, listed, rfl⟩ := List.mem_map.mp member
  obtain ⟨here, there⟩ := List.pair_mem_product.mp listed
  exact isShortRef_of_letters here there

/-- One reference more. -/
private theorem lastRef_short : ∀ ref ∈ ["x"], IsShortRef ref := by
  intro ref member
  rw [List.mem_singleton.mp member]
  exact isShortRef_of_plain (by decide) (by decide) (by decide) (by decide)

def pairedBarriers (first second : List String) : List (String × SemanticBarrier) :=
  [("target-first", pairedBarrier "first" first), ("target-second", pairedBarrier "second" second)]

/-- The payload of the two Targets. -/
def pairedPayload (first second : List String) : ReplanPayload :=
  (["Goal"], sortedSet (second ++ (first ++ [])), ["disposition-first", "disposition-second"], [])

/-- What the loop has collected after the first of the two Targets. -/
def firstReplan (first : List String) : Replan :=
  { Replan.empty with
    expectedRouteRefs := ["route-first"]
    actualRouteRefs := ["route-first"]
    requiredChanges := ["Goal"]
    evidenceRefs := first ++ []
    dispositionRefs := ["disposition-first"] }

def secondReplan (first second : List String) : Replan :=
  { Replan.empty with
    expectedRouteRefs := ["route-second", "route-first"]
    actualRouteRefs := ["route-second", "route-first"]
    requiredChanges := ["Goal", "Goal"]
    evidenceRefs := second ++ (first ++ [])
    dispositionRefs := ["disposition-second", "disposition-first"] }

private theorem paired_closed (digest : String → String) (first second : List String) :
    closedSemanticReplanPayload .standard digest pairedPlan pairedCandidates pairedTargets [] []
      (pairedBarriers first second) true [] [] [] = .ok (some (pairedPayload first second)) := by
  have sets : resultSets .standard digest pairedPlan [] = .ok ([], ["experiment"]) :=
    resultSets_eq_ok_iff.mpr ⟨pairedBriefs, pairedPlan_briefs, ClosuresValid.nil, by decide, by decide⟩
  have labelled : verifyLabels pairedCandidates pairedTargets [] = .ok () := by decide
  have targets : sameSet ((pairedBarriers first second).map Prod.fst)
      (expectedBarrierTargets pairedCandidates pairedTargets []) = true := by
    have same : sameSet ["target-first", "target-second"]
        (expectedBarrierTargets pairedCandidates pairedTargets []) = true := by decide
    exact same
  have labels : sortedSet (unresolvedLabels pairedCandidates []) = ["first", "second"] := by decide
  have closed : closedReplan .standard digest pairedPlan pairedCandidates pairedTargets [] []
      (pairedBarriers first second) = .ok (pairedPayload first second) := by
    refine bind_eq_ok_iff.mpr ⟨_, sets, check_then_eq_ok_iff.mpr ⟨?_, ?_⟩⟩
    · have covered : (!(["experiment"] : List String).isEmpty &&
          sameSet (["experiment"] ++ (["experiment"] ++ [])) ["experiment"]) = true := by decide
      exact require_eq_ok_iff.mpr covered
    · rw [labels]
      have here : collectLabel pairedCandidates pairedTargets (pairedBarriers first second) Replan.empty
          "first" = .ok (firstReplan first) := by rfl
      have there : collectLabel pairedCandidates pairedTargets (pairedBarriers first second) (firstReplan first)
          "second" = .ok (secondReplan first second) := by rfl
      have same : sameSet (secondReplan first second).actualRouteRefs
          (secondReplan first second).expectedRouteRefs = true := by
        have routes : sameSet ["route-second", "route-first"] ["route-second", "route-first"] = true := by decide
        exact routes
      have changes : sortedSet ["Goal", "Goal"] = ["Goal"] ∧ sortedSet ["disposition-second",
          "disposition-first"] = ["disposition-first", "disposition-second"] := by decide
      rw [List.foldlM_cons, here]
      refine bind_eq_ok_iff.mpr ⟨secondReplan first second,
        bind_eq_ok_iff.mpr ⟨_, rfl, bind_eq_ok_iff.mpr ⟨_, there, rfl⟩⟩,
        check_then_eq_ok_iff.mpr ⟨require_eq_ok_iff.mpr same, congrArg Except.ok ?_⟩⟩
      exact Prod.ext changes.1 (Prod.ext rfl (Prod.ext changes.2 rfl))
  simp only [closedSemanticReplanPayload, labelled, targets, closed]
  rfl

private theorem pairedBarriers_valid {first second : List String} (short : ∀ ref ∈ first ++ second, IsShortRef ref)
    (given : first ≠ [] ∧ second ≠ []) (few : first.length ≤ 1024 ∧ second.length ≤ 1024)
    (distinct : (first ++ second).Nodup) : ∀ entry ∈ pairedBarriers first second, ∃ candidate handle,
      TargetRun.validateSemanticBarrier .standard entry.2 candidate handle = .ok () := by
  obtain ⟨here, there, _⟩ := List.nodup_append.mp distinct
  obtain ⟨shortHere, shortThere⟩ := List.forall_mem_append.mp short
  refine List.forall_mem_cons.mpr ⟨⟨pairedCandidate "first", pairedHandle "first", ?_⟩,
    List.forall_mem_cons.mpr ⟨⟨pairedCandidate "second", pairedHandle "second", ?_⟩, by simp⟩⟩
  · exact pairedBarrier_valid given.1 few.1 here shortHere "first" (by simp)
  · exact pairedBarrier_valid given.2 few.2 there shortThere "second" (by simp)

/-- The arguments of the report of a payload. -/
def replanArguments (payload : ReplanPayload) : ReportArguments where
  disposition := "replan_required"
  request := ⟨"request", "plan", "hash", true, true, true, true⟩
  plan := pairedPlan
  accepted := []
  semanticChangeRequired := payload.1
  evidenceRefs := payload.2.1
  routeDispositionRefs := payload.2.2.1
  reconciliationReceiptRefs := payload.2.2.2

private theorem replanArguments_request (payload : ReplanPayload) :
    validateProjection .standard "BundleStageRunRequest" (replanArguments payload).request.value = .ok () ∧
      verifyRequest (replanArguments payload).request (replanArguments payload).plan = .ok () := by
  refine ⟨?_, ?_⟩
  · have request : validateProjection .standard "BundleStageRunRequest"
        (StageRunRequest.value ⟨"request", "plan", "hash", true, true, true, true⟩) = .ok () := by decide +kernel
    exact request
  · have bound : verifyRequest ⟨"request", "plan", "hash", true, true, true, true⟩ pairedPlan = .ok () := by decide
    exact bound

private theorem replanArguments_requested (payload : ReplanPayload) :
    IsReplan pairedPlan [] payload (replanArguments payload) ∧
      IsRequested .standard (replanArguments payload) := by
  obtain ⟨request, bound⟩ := replanArguments_request payload
  refine ⟨⟨rfl, rfl, rfl, rfl, rfl, rfl, rfl, rfl, rfl, rfl, rfl⟩, ⟨request, bound, ?_, ?_, ?_, ?_⟩⟩
  · exact freezeRefs_nil _
  · exact freezeRefs_nil _
  · exact freezeRefs_nil _
  · exact fun preflight member => absurd member List.not_mem_nil

/-- A tuple of an accepted record holds no more than the budget allows. -/
private theorem tuple_of_visitFields {budget : Budget} {name : String} {type : RecordType}
    {declared : List (String × Annotation)} {fields items : List Value} {usage after : Projection.Usage}
    (visited : Value.visitFields budget name type declared fields usage = .ok after)
    (member : Value.tuple items ∈ fields) : exceeds budget.tupleItems items.length = false := by
  induction fields generalizing declared usage with
  | nil => cases member
  | cons value rest ih =>
    cases declared with
    | nil => cases visited
    | cons field declared =>
      obtain ⟨_, visited⟩ := check_then_eq_ok_iff.mp visited
      obtain ⟨middle, here, later⟩ := bind_eq_ok_iff.mp visited
      rcases List.mem_cons.mp member with rfl | elsewhere
      · obtain ⟨_, _, here⟩ := bind_eq_ok_iff.mp here
        simpa using (check_then_eq_ok_iff.mp here).1
      · exact ih later elsewhere

theorem evidenceRefs_length_le {report : BundleReport} {text : String}
    (closed : report.value.validateClosed .standard "BundleReport" = .ok text) :
    report.evidenceRefs.length ≤ 1024 := by
  obtain ⟨_, visited, _⟩ := bind_eq_ok_iff.mp closed
  obtain ⟨_, _, visited⟩ := bind_eq_ok_iff.mp visited
  have fits := @tuple_of_visitFields _ _ _ _ _ (report.evidenceRefs.map .text) _ _ visited
    (by simp [Value.texts])
  simpa [exceeds, Budget.standard] using fits

/-- Two Targets of a sealed strategy, whose barriers name more evidence between them than a tuple of the report
may hold: the payload is returned, and no report is built of it. -/
theorem many_refs_unreported :
    verifyCompletionCells .standard pairedPlan pairedCandidates = .ok () ∧
      (∀ entry ∈ pairedBarriers manyRefs ["x"], ∃ candidate handle,
        TargetRun.validateSemanticBarrier .standard entry.2 candidate handle = .ok ()) ∧
      ∀ digest : String → String,
        closedSemanticReplanPayload .standard digest pairedPlan pairedCandidates pairedTargets [] []
          (pairedBarriers manyRefs ["x"]) true [] [] [] = .ok (some (pairedPayload manyRefs ["x"])) ∧
        ∀ report, buildReport .standard digest (replanArguments (pairedPayload manyRefs ["x"])) ≠ .ok report := by
  have distinct : (manyRefs ++ ["x"]).Nodup := by
    refine manyRefs_nodup.append (List.nodup_singleton _) (List.disjoint_singleton.mpr fun member => ?_)
    obtain ⟨pair, _, same⟩ := List.mem_map.mp member
    have chars := congrArg String.toList same
    simp at chars
  refine ⟨pairedCandidates_covered, pairedBarriers_valid ?_ ⟨?_, by simp⟩ ⟨?_, by simp⟩ distinct, fun digest =>
    ⟨paired_closed digest manyRefs ["x"], fun report built => ?_⟩⟩
  · exact List.forall_mem_append.mpr ⟨manyRefs_short, lastRef_short⟩
  · exact List.ne_nil_of_length_pos (by rw [manyRefs_length]; decide)
  · exact manyRefs_length.le
  · obtain ⟨_, _, _, _, _, sets, _, _, rfl, hash, valid⟩ := buildReport_eq_ok_iff.mp built
    obtain ⟨text, closed, _⟩ := bind_eq_ok_iff.mp valid
    have few := evidenceRefs_length_le closed
    have length : (sortedSet (["x"] ++ (manyRefs ++ []))).length = 1025 := by
      have turned : (["x"] ++ manyRefs).Nodup := (List.perm_append_comm.nodup_iff).mpr distinct
      rw [List.append_nil, sortedSet, List.length_insertionSort, turned.dedup, List.length_append, manyRefs_length]
      rfl
    have held : ∀ first second, (reportOf (replanArguments (pairedPayload first second)) sets.1
        sets.2).evidenceRefs = sortedSet (second ++ (first ++ [])) := fun _ _ => rfl
    rw [held, length] at few
    omega

/-- The two Targets with one reference each. -/
theorem closed_replan_reported_paired :
    ∃ realized remaining, resultSets .standard id pairedPlan [] = .ok (realized, remaining) ∧
      DisposesEachOnce pairedCandidates pairedTargets [] (pairedBarriers ["x"] ["AA"])
        (reportOf (replanArguments (pairedPayload ["x"] ["AA"])) realized remaining).routeDispositionRefs := by
  have short : ∀ ref ∈ ["x"] ++ ["AA"], IsShortRef ref := by
    refine List.forall_mem_append.mpr ⟨lastRef_short, fun ref member => ?_⟩
    rw [List.mem_singleton.mp member]
    exact isShortRef_of_plain (by decide) (by decide) (by decide) (by decide)
  obtain ⟨replan, requested⟩ := replanArguments_requested (pairedPayload ["x"] ["AA"])
  obtain ⟨realized, remaining, found, _, once⟩ := closed_replan_reported .standard id pairedPlan pairedCandidates
    pairedTargets [] [] (pairedBarriers ["x"] ["AA"]) true [] [] [] (pairedPayload ["x"] ["AA"])
    (replanArguments (pairedPayload ["x"] ["AA"]))
    (pairedBarriers_valid short ⟨by simp, by simp⟩ ⟨by simp, by simp⟩ (by decide))
    (paired_closed id ["x"] ["AA"]) replan requested
  exact ⟨realized, remaining, found, once⟩

end Completion

end MetaResearch.Bundle

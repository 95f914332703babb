import MetaResearch.Soundness.HumanRequests.Writing

/-! # HumanRequest commands keep the invariant

Evaluating, validating and consuming keep the invariant, and so does every command, whatever it meets
on its way: its transaction runs what its arguments were checked for.
-/

namespace MetaResearch.HumanRequests

open Datasets (Uuid newRef optionalText)

variable {setting : Setting} {tables after : Tables}

/-! ### Evaluating -/

section

variable {requestRef : String} {responseRefs evidenceRefs : List String} {decision : Evaluation}
  {reasonCode : String}

theorem Evaluation.evaluation?_of_disposition? {disposition : Disposition}
    (closes : decision.disposition? = some disposition) : disposition.evaluation? = some decision := by
  cases decision <;> simp [Evaluation.disposition?] at closes <;> subst closes <;> rfl

/-- The evaluation shows no secret. -/
def EvaluationPlain (setting : Setting) (responseRefs evidenceRefs : List String) (reasonCode : String) :
    Prop :=
  containsSecret setting.secrets (.object [("reason_code", .text reasonCode),
    ("response_refs", Json.texts responseRefs), ("accepted_evidence_refs", Json.texts evidenceRefs)]) =
      false

/-- The responses bear out an evaluation that closes its request. -/
def EvaluationBacked (setting : Setting) (tables : Tables) (requestRef : String)
    (responseRefs : List String) (decision : Evaluation) : Prop :=
  decision.disposition?.isSome → setting.hasVerifier = true ∧
    ∃ responses, responseRefs.mapM (tables.verifyHumanResponse requestRef) = .ok responses ∧
      decision.supportedBy responses = true

theorem publicEvaluation_row {stamp : Stamp} {sequence : ℕ}
    (plain : EvaluationPlain setting responseRefs evidenceRefs reasonCode) :
    publicEvaluation setting (evaluationRow setting stamp requestRef sequence decision responseRefs
      evidenceRefs reasonCode) = .ok () := by
  unfold publicEvaluation evaluationRow
  rw [check_then_eq_ok_iff, require_eq_ok_iff, require_eq_ok_iff, Bool.not_eq_true']
  refine ⟨by simp, ?_⟩
  unfold EvaluationPlain at plain
  simp only [containsSecret, anySecretField_eq_false_iff, List.forall_mem_cons, List.not_mem_nil,
    false_imp_iff, implies_true, and_true] at plain ⊢
  exact ⟨plain.2.1, plain.2.2, plain.1⟩

/-- The new evaluation of a request is its latest one. -/
theorem latestEvaluation_insert {evaluation : EvaluationRow}
    {evaluations : Table EvaluationRow.evaluationRef} (ref : evaluation.requestRef = requestRef)
    (sequence : evaluation.sequence = (tables.latestEvaluation requestRef).elim 0 (·.sequence) + 1)
    (inserted : insertRow tables.evaluations evaluation = .ok evaluations) :
    ({ tables with evaluations } : Tables).latestEvaluation requestRef = some evaluation := by
  unfold Tables.latestEvaluation at sequence ⊢
  rw [select_insertRow inserted, decide_eq_true ref, if_pos rfl, List.argmax_concat]
  cases found : (tables.evaluations.select (·.requestRef = requestRef)).argmax (·.sequence) with
  | none => rfl
  | some earlier =>
    rw [found, Option.elim_some] at sequence
    exact if_pos (by omega)

/-- The latest evaluation of another request stays. -/
theorem latestEvaluation_insert_of_ne {evaluation : EvaluationRow}
    {evaluations : Table EvaluationRow.evaluationRef} (apart : evaluation.requestRef ≠ requestRef)
    (inserted : insertRow tables.evaluations evaluation = .ok evaluations) :
    ({ tables with evaluations } : Tables).latestEvaluation requestRef =
      tables.latestEvaluation requestRef := by
  unfold Tables.latestEvaluation
  rw [select_insertRow inserted, decide_eq_false apart]
  simp

/-- An evaluation of an open request leaves the dispositions of the others. -/
theorem keep_evaluation (kept : Kept setting tables) {row : RequestRow} (member : row ∈ tables.requests)
    (opened : row.status = .opened) {evaluation : EvaluationRow}
    {evaluations : Table EvaluationRow.evaluationRef} (ref : evaluation.requestRef = row.requestRef)
    (shown : publicEvaluation setting evaluation = .ok ())
    (inserted : insertRow tables.evaluations evaluation = .ok evaluations) :
    Kept setting { tables with evaluations } := by
  refine ⟨kept.lineage, kept.columns, kept.closings, fun disposition present => ?_, ?_, kept.waiting,
    kept.validated, kept.consuming, kept.effects⟩
  · have apart : evaluation.requestRef ≠ disposition.requestRef := by
      intro same
      have absent := (kept.closings.opened_iff member).mp opened
      rw [Table.find?_eq_none_iff] at absent
      exact absent disposition present (same.symm.trans ref)
    exact verifyDispositionIntegrity_mono (fun _ _ found => find?_insertRow_of_some inserted found)
      (latestEvaluation_insert_of_ne apart inserted) (fun _ _ found => found)
      (kept.verified disposition present)
  · intro other present
    rcases (mem_insertRow inserted).mp present with present | rfl
    · exact kept.evaluated other present
    · exact shown

/-- The disposition that an evaluation makes passes. -/
theorem verifyDispositionIntegrity_evaluated {stamp : Stamp} {sequence : ℕ} {disposition : Disposition}
    {evaluations : Table EvaluationRow.evaluationRef}
    (backed : EvaluationBacked setting tables requestRef responseRefs decision)
    (closes : decision.disposition? = some disposition)
    (last : sequence = (tables.latestEvaluation requestRef).elim 0 (·.sequence) + 1)
    (inserted : insertRow tables.evaluations (evaluationRow setting stamp requestRef sequence decision
      responseRefs evidenceRefs reasonCode) = .ok evaluations) :
    verifyDispositionIntegrity setting { tables with evaluations } (dispositionRow setting stamp requestRef
      disposition (some (newRef "human_evaluation" stamp.draws.evaluation))) = .ok () := by
  obtain ⟨verifier, responses, verified, supported⟩ := backed (by simp [closes])
  have latest : ({ tables with evaluations } : Tables).latestEvaluation requestRef = some
      (evaluationRow setting stamp requestRef sequence decision responseRefs evidenceRefs reasonCode) :=
    latestEvaluation_insert rfl last inserted
  have found : evaluations.find? (newRef "human_evaluation" stamp.draws.evaluation) = some
      (evaluationRow setting stamp requestRef sequence decision responseRefs evidenceRefs reasonCode) := by
    rw [find?_insertRow inserted]
    exact if_pos rfl
  unfold verifyDispositionIntegrity dispositionRow
  rw [check_then_eq_ok_iff]
  refine ⟨by simp, ?_⟩
  simp only [Evaluation.evaluation?_of_disposition? closes, found]
  unfold verifyDispositionEvaluation
  simp only [check_then_eq_ok_iff, require_eq_ok_iff, latest]
  have again : responseRefs.mapM (({ tables with evaluations } : Tables).verifyHumanResponse requestRef) =
      .ok responses := verified
  refine ⟨by simp [evaluationRow], by simp [evaluationRow], by simp [requireResponseVerifier, verifier], ?_⟩
  simp only [evaluationRow, again]
  simpa using supported

/-- An open request is evaluated, and closed when the evaluation closes it. -/
theorem of_evaluateFresh {inside : Inside} {ref : String}
    (success : evaluateFresh setting inside requestRef responseRefs decision reasonCode evidenceRefs
      tables = .ok (ref, after)) :
    ref = requestRef ∧ ∃ row ∈ tables.requests, row.requestRef = requestRef ∧
      (row.isCurrent = true ∧ row.status = .opened) ∧
      ∃ evaluations, insertRow tables.evaluations (evaluationRow setting inside.stamp requestRef
          ((tables.latestEvaluation requestRef).elim 0 (·.sequence) + 1) decision responseRefs
          evidenceRefs reasonCode) = .ok evaluations ∧
        ((decision.disposition? = none ∧ after = { tables with evaluations }) ∨
          ∃ disposition dispositions, decision.disposition? = some disposition ∧
            insertRow tables.dispositions (dispositionRow setting inside.stamp requestRef disposition
              (some (newRef "human_evaluation" inside.stamp.draws.evaluation))) = .ok dispositions ∧
            after = { tables with
              evaluations
              dispositions
              requests := tables.requests.update (·.requestRef = requestRef)
                (setStatus (.closed disposition)) }) := by
  unfold evaluateFresh at success
  cases found : tables.requests.find? requestRef with
  | none => simp [found] at success
  | some row =>
    simp only [found, check_then_eq_ok_iff, require_eq_ok_iff, Bool.and_eq_true, decide_eq_true_iff,
      bind_eq_ok_iff (α := Table EvaluationRow.evaluationRef)] at success
    obtain ⟨-, ⟨current, opened⟩, evaluations, inserted, rest⟩ := success
    obtain ⟨member, named⟩ := Table.find?_eq_some_iff.mp found
    cases closes : decision.disposition? with
    | none =>
      rw [closes] at rest
      cases rest
      exact ⟨rfl, row, member, named, ⟨current, opened⟩, evaluations, inserted, .inl ⟨rfl, rfl⟩⟩
    | some disposition =>
      simp only [closes, bind_eq_ok_iff (α := Tables)] at rest
      obtain ⟨closed, disposed, written⟩ := rest
      cases written
      obtain ⟨dispositions, filed, rfl⟩ := of_insertDisposition disposed
      exact ⟨rfl, row, member, named, ⟨current, opened⟩, evaluations, inserted,
        .inr ⟨disposition, dispositions, rfl, filed, rfl⟩⟩

theorem keep_evaluateFresh (kept : Kept setting tables) {inside : Inside} {ref : String}
    (plain : EvaluationPlain setting responseRefs evidenceRefs reasonCode)
    (backed : EvaluationBacked setting tables requestRef responseRefs decision)
    (success : evaluateFresh setting inside requestRef responseRefs decision reasonCode evidenceRefs
      tables = .ok (ref, after)) :
    Kept setting after ∧ Grows tables after ∧ ∃ row ∈ after.requests, row.requestRef = ref := by
  obtain ⟨rfl, row, member, rfl, ⟨-, opened⟩, evaluations, inserted, written⟩ := of_evaluateFresh success
  have keptEvaluation := keep_evaluation kept member opened rfl (publicEvaluation_row plain) inserted
  have grows : Grows tables { tables with evaluations } :=
    { Grows.refl tables with evaluations := .insert inserted }
  rcases written with ⟨-, rfl⟩ | ⟨disposition, dispositions, closes, filed, rfl⟩
  · exact ⟨keptEvaluation, grows, row, member, rfl⟩
  · have passes := verifyDispositionIntegrity_evaluated backed closes rfl inserted
    have closedGrow : RequestsGrow tables.requests (tables.requests.update
        (·.requestRef = row.requestRef) (setStatus (.closed disposition))) := by
      refine .update (keepsCore_setStatus _) (fun other there same notOpened => ?_) fun _ kept => kept
      rw [Table.eq_of_key there member (of_decide_eq_true same)] at notOpened
      exact (notOpened opened).elim
    obtain ⟨later, there, core, -, -⟩ := closedGrow row member
    refine ⟨⟨?_, ?_, kept.closings.close member rfl (fun _ => rfl) filed,
      verified_insert keptEvaluation passes filed, keptEvaluation.evaluated,
      kept.waiting.grow closedGrow, kept.validated, kept.consuming,
      kept.effects.grow closedGrow (.refl _)⟩, ?_, later, there, RequestRow.requestRef_of_core core⟩
    · refine kept.lineage.update (keepsCore_setStatus _) (fun _ => rfl) fun other here same => ?_
      rw [Table.eq_of_key here member same]
      by_contra retired
      rcases kept.lineage.past row member (by simpa using retired) with status | ⟨-, status⟩ <;>
        simp [status] at opened
    · exact columns_update (keepsCore_setStatus _) kept.columns
    · exact grows.trans { Grows.refl _ with
        requests := closedGrow
        dispositions := .insert filed }

end

/-! ### Validating -/

section

variable {inside : Inside} {request : RequestRow} {waiter : WaiterRow} {generation : ℤ}
  {targetAssertion : Dict} {blockers : List String} {authorizationReceiptRef : Option String}

/-- A waiter is released for a current request that was satisfied or left unsatisfied. -/
theorem status_of_not_blocked {disposition : Option DispositionRow}
    (free : blockedReason setting inside request disposition waiter generation targetAssertion blockers
      authorizationReceiptRef = none) :
    request.status = .closed .satisfied ∨ request.status = .closed .unsatisfied := by
  unfold blockedReason at free
  split at free
  · cases free
  · rename_i released
    rw [Bool.not_eq_true, Bool.or_eq_false_iff, Bool.not_eq_false', Option.any_eq_true] at released
    obtain ⟨⟨disposition, -, closed⟩, -⟩ := released
    rw [Bool.and_eq_true, Bool.or_eq_true] at closed
    simp only [decide_eq_true_iff] at closed
    rcases closed with ⟨decision | decision, status⟩
    · exact .inl (decision ▸ status)
    · exact .inr (decision ▸ status)

/-- The parts of a validation. -/
structure Validates (setting : Setting) (inside : Inside) (requestRef waiterRef : String)
    (generation : ℤ) (targetAssertion : Dict) (blockers : List String)
    (authorizationReceiptRef : Option String) (tables : Tables) (ref : String) (after : Tables) where
  request : RequestRow
  filed : request ∈ tables.requests
  request_ref : request.requestRef = requestRef
  waiter : WaiterRow
  waiting : waiter ∈ tables.waiters
  key : waiter.key = (requestRef, waiterRef)
  validations : Table ValidationRow.validationRef
  reason : Option String
  reason_eq : reason = blockedReason setting inside request (tables.dispositions.find? requestRef) waiter
    generation targetAssertion blockers authorizationReceiptRef
  inserted : insertRow tables.validations (validationRow setting inside.stamp requestRef waiterRef
    generation targetAssertion blockers authorizationReceiptRef reason) = .ok validations
  ref_eq : ref = newRef "resume_validation" inside.stamp.draws.validation
  after_eq : after = { tables with
    validations
    waiters := resumeWaiter (validationRow setting inside.stamp requestRef waiterRef generation
      targetAssertion blockers authorizationReceiptRef reason) waiter tables.waiters }

theorem of_validateFresh {requestRef waiterRef ref : String}
    (success : validateFresh setting inside requestRef waiterRef generation targetAssertion blockers
      authorizationReceiptRef tables = .ok (ref, after)) :
    Nonempty (Validates setting inside requestRef waiterRef generation targetAssertion blockers
      authorizationReceiptRef tables ref after) := by
  unfold validateFresh at success
  cases found : tables.requests.find? requestRef with
  | none => simp [found] at success
  | some request =>
    cases present : tables.waiters.find? (requestRef, waiterRef) with
    | none => simp [found, present, check_then_eq_ok_iff] at success
    | some waiter =>
      simp only [found, present, check_then_eq_ok_iff,
        bind_eq_ok_iff (α := Table ValidationRow.validationRef)] at success
      obtain ⟨-, -, -, validations, inserted, written⟩ := success
      cases written
      obtain ⟨filed, requestNamed⟩ := Table.find?_eq_some_iff.mp found
      obtain ⟨waiting, key⟩ := Table.find?_eq_some_iff.mp present
      exact ⟨⟨request, filed, requestNamed, waiter, waiting, key, validations, _, rfl, inserted, rfl,
        rfl⟩⟩

/-- A validation leaves the waiters or settles the one it is about, which was blocked. -/
theorem resumeWaiter_cases (validation : ValidationRow) (waiter : WaiterRow)
    (waiters : Table WaiterRow.key) :
    resumeWaiter validation waiter waiters = waiters ∨
      waiter.status = .blocked ∧ ∃ status,
        (status = .released ∧ validation.released = true ∨ status = .blocked) ∧
          resumeWaiter validation waiter waiters =
            waiters.update (·.key = waiter.key) (setResumed status validation.otherBlockers) := by
  unfold resumeWaiter
  split
  · rename_i resumed
    simp only [Bool.and_eq_true, decide_eq_true_iff] at resumed
    refine .inr ⟨resumed.1.1, _, ?_, rfl⟩
    cases released : validation.released <;> simp
  · exact .inl rfl

theorem keep_validate (kept : Kept setting tables) {requestRef waiterRef ref : String}
    (plain : Plain setting (Json.texts blockers))
    (validates : Validates setting inside requestRef waiterRef generation targetAssertion blockers
      authorizationReceiptRef tables ref after) :
    Kept setting after ∧ Grows tables after := by
  obtain ⟨request, filed, rfl, waiter, waiting, key, validations, reason, reason_eq, inserted, rfl, rfl⟩ :=
    validates
  have validated : ∀ validation ∈ validations, publicValidation setting validation = .ok () := by
    intro validation present
    rcases (mem_insertRow inserted).mp present with present | rfl
    · exact kept.validated validation present
    · unfold publicValidation
      rw [require_eq_ok_iff]
      exact intact_sealed_texts blockers
  have grows : Grows tables { tables with validations } :=
    { Grows.refl tables with validations := .insert inserted }
  rcases resumeWaiter_cases (validationRow setting inside.stamp request.requestRef waiterRef generation
      targetAssertion blockers authorizationReceiptRef reason) waiter tables.waiters with
    same | ⟨blocked, status, resumed, same⟩
  · rw [same]
    exact ⟨⟨kept.lineage, kept.columns, kept.closings, kept.verified, kept.evaluated, kept.waiting,
      validated, kept.consuming, kept.effects⟩, grows⟩
  · rw [same]
    have chosen : ∀ other ∈ tables.waiters, decide (other.key = waiter.key) = true → other = waiter :=
      fun other there same => Table.eq_of_key there waiting (of_decide_eq_true same)
    have waitersGrow : WaitersGrow tables.waiters (tables.waiters.update (·.key = waiter.key)
        (setResumed status (setting.sealed (Json.texts blockers)))) := .update fun _ => rfl
    refine ⟨⟨kept.lineage, kept.columns, kept.closings, kept.verified, kept.evaluated, ?_, validated, ?_,
      kept.effects.grow (.refl _) waitersGrow⟩, grows.trans { Grows.refl _ with waiters := waitersGrow }⟩
    · refine kept.waiting.update (fun other there _ => ?_) fun other there same moved => ?_
      · have columns := (kept.waiting.columns other there).1
        simp only [Bool.and_eq_true] at columns
        exact ⟨by simp [setResumed, validationRow, columns.1.1, isArray_sealed_texts,
          intact_sealed_texts], plain_sealed plain⟩
      · intro row member ref
        rw [chosen other there same] at ref
        have requestRef : waiter.requestRef = request.requestRef := congrArg Prod.fst key
        obtain rfl : row = request := Table.eq_of_key member filed (ref.trans requestRef)
        refine status_of_not_blocked (reason_eq.symm.trans ?_)
        rcases resumed with ⟨-, released⟩ | rfl
        · simpa [validationRow] using released
        · rcases moved with moved | moved <;> simp [setResumed] at moved
    · refine kept.consuming.update (fun other there same consumed => ?_) fun other consumed => ?_
      · rw [chosen other there same, blocked] at consumed
        cases consumed
      · rcases resumed with ⟨rfl, -⟩ | rfl <;> simp [setResumed] at consumed

end

/-! ### Consuming -/

/-- The parts of a consumption. -/
structure Consumes (setting : Setting) (stamp : Stamp) (requestRef waiterRef : String) (generation : ℤ)
    (workRef workHash : String) (tables after : Tables) where
  request : RequestRow
  filed : request ∈ tables.requests
  request_ref : request.requestRef = requestRef
  disposition : DispositionRow
  waiter : WaiterRow
  waiting : waiter ∈ tables.waiters
  key : waiter.key = (requestRef, waiterRef)
  validation : ValidationRow
  latest : tables.latestValidation requestRef waiterRef = some validation
  released : isReleased request disposition waiter validation generation = true
  consumptions : Table ConsumptionRow.key
  inserted : insertRow tables.consumptions (consumptionRow setting stamp validation workRef workHash) =
    .ok consumptions
  after_eq : after = { tables with
    consumptions
    waiters := tables.waiters.update (·.key = waiter.key) (setWaiterStatus .consumed) }

theorem of_consumeReleasedWaiter {stamp : Stamp} {requestRef waiterRef : String} {generation : ℤ}
    {workRef workHash : String}
    (success : consumeReleasedWaiter setting stamp requestRef waiterRef generation workRef workHash
      tables = .ok after) :
    after = tables ∨ ∃ stripped work, Nonempty (Consumes setting stamp requestRef stripped generation work
      workHash tables after) := by
  unfold consumeReleasedWaiter at success
  simp only [bind_eq_ok_iff (α := String), check_then_eq_ok_iff] at success
  obtain ⟨stripped, -, work, -, -, rest⟩ := success
  split at rest
  · simp only [check_then_eq_ok_iff] at rest
    cases rest.2.2
    exact .inl rfl
  · refine .inr ⟨stripped, work, ?_⟩
    unfold consumeFresh at rest
    split at rest
    · rename_i request disposition found stored
      simp only [check_then_eq_ok_iff] at rest
      obtain ⟨-, -, rest⟩ := rest
      split at rest
      · rename_i waiter validation present latest
        simp only [check_then_eq_ok_iff, require_eq_ok_iff,
          bind_eq_ok_iff (α := Table ConsumptionRow.key)] at rest
        obtain ⟨released, -, consumptions, inserted, written⟩ := rest
        cases written
        obtain ⟨filed, requestNamed⟩ := Table.find?_eq_some_iff.mp found
        obtain ⟨waiting, key⟩ := Table.find?_eq_some_iff.mp present
        exact ⟨⟨request, filed, requestNamed, disposition, waiter, waiting, key, validation, latest,
          released, consumptions, inserted, rfl⟩⟩
      · cases rest
    · cases rest

theorem keep_consume (kept : Kept setting tables) {stamp : Stamp} {requestRef waiterRef : String}
    {generation : ℤ} {workRef workHash : String}
    (consumes : Consumes setting stamp requestRef waiterRef generation workRef workHash tables after) :
    Kept setting after ∧ Grows tables after := by
  obtain ⟨request, filed, rfl, disposition, waiter, waiting, key, validation, latest, released,
    consumptions, inserted, rfl⟩ := consumes
  simp only [isReleased, Bool.and_eq_true, Bool.or_eq_true, decide_eq_true_iff] at released
  obtain ⟨⟨⟨⟨⟨⟨⟨status, -⟩, -⟩, waiterStatus⟩, waiterGeneration⟩, -⟩, validationGeneration⟩, -⟩ := released
  obtain ⟨-, validationRequest, validationWaiter⟩ := latestValidation_eq_some latest
  obtain ⟨waiterRequest, waiterNamed⟩ := Prod.ext_iff.mp key
  have chosen : ∀ other ∈ tables.waiters, decide (other.key = waiter.key) = true → other = waiter :=
    fun other there same => Table.eq_of_key there waiting (of_decide_eq_true same)
  have waitersGrow : WaitersGrow tables.waiters
      (tables.waiters.update (·.key = waiter.key) (setWaiterStatus .consumed)) := .update fun _ => rfl
  -- A waiter that was consumed before is another one.
  have spared : ∀ other ∈ tables.waiters, other.status = .consumed →
      other ∈ tables.waiters.update (·.key = waiter.key) (setWaiterStatus .consumed) := by
    intro other there consumed
    refine mem_update_iff.mpr ⟨other, there, ?_⟩
    rw [if_neg fun same => ?_]
    rw [chosen other there same, waiterStatus] at consumed
    cases consumed
  refine ⟨⟨kept.lineage, kept.columns, kept.closings, kept.verified, kept.evaluated, ?_, kept.validated,
    ⟨?_, ?_, ?_⟩, kept.effects.grow (.refl _) waitersGrow⟩, { Grows.refl tables with
      waiters := waitersGrow
      consumptions := .insert inserted }⟩
  · refine kept.waiting.update (fun other there _ => kept.waiting.columns other there)
      fun other there same _ row member ref => ?_
    rw [chosen other there same] at ref
    rw [Table.eq_of_key member filed (ref.trans waiterRequest)]
    exact status
  · intro consumption present
    rcases (mem_insertRow inserted).mp present with present | rfl
    · exact kept.consuming.shown consumption present
    · unfold publicConsumption consumptionRow
      rw [require_eq_ok_iff]
      simp
  · intro other present consumed
    obtain ⟨old, there, rfl⟩ := mem_update_iff.mp present
    by_cases same : old.key = waiter.key
    · refine ⟨_, (mem_insertRow inserted).mpr (.inr rfl), ?_⟩
      rw [if_pos (by simpa using same), chosen old there (by simpa using same)]
      simp only [ConsumptionRow.key, consumptionRow, setWaiterStatus, validationRequest, validationWaiter,
        validationGeneration, waiterGeneration]
      exact Prod.ext waiterRequest.symm (Prod.ext waiterNamed.symm rfl)
    · rw [if_neg (by simpa using same)] at consumed ⊢
      obtain ⟨consumption, listed, named⟩ := kept.consuming.consumed old there consumed
      exact ⟨consumption, (mem_insertRow inserted).mpr (.inl listed), named⟩
  · intro consumption present
    rcases (mem_insertRow inserted).mp present with present | rfl
    · obtain ⟨other, there, named, generation, consumed⟩ := kept.consuming.waiter consumption present
      exact ⟨other, spared other there consumed, named, generation, consumed⟩
    · refine ⟨_, mem_update_iff.mpr ⟨waiter, waiting, rfl⟩, ?_⟩
      rw [if_pos (by simp)]
      refine ⟨?_, ?_, rfl⟩
      · rw [(setWaiterStatus .consumed).keeps, key]
        exact Prod.ext validationRequest.symm validationWaiter.symm
      · exact waiterGeneration.trans validationGeneration.symm

end MetaResearch.HumanRequests

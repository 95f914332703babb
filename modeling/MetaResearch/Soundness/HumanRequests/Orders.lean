import MetaResearch.Soundness.HumanRequests.Transactions

/-! # HumanRequest orders keep the invariant

What the checks of the arguments leave for the transaction of an order, and what the transaction keeps.
-/

namespace MetaResearch.HumanRequests

open Datasets (Uuid newRef optionalText)

variable {setting : Setting} {tables after : Tables}

/-! ### Checked commands -/

/-- What the checks of a command leave for its transaction. -/
def Body.Sound (setting : Setting) (tables : Tables) : Body → Prop
  | openRequest _ waiter => Plain setting (Json.texts waiter.otherBlockers)
  | openEffect _ binding _ _ waiter _ =>
    Plain setting (Json.texts waiter.otherBlockers) ∧ BindingFits setting binding waiter
  | revise _ _ _ waiters => ∀ waiter ∈ waiters, Plain setting (Json.texts waiter.otherBlockers)
  | evaluate requestRef responseRefs decision reasonCode evidenceRefs =>
    EvaluationPlain setting responseRefs evidenceRefs reasonCode ∧
      EvaluationBacked setting tables requestRef responseRefs decision
  | validate _ _ _ _ blockers _ => Plain setting (Json.texts blockers)

/-- What was checked stays so while responses come in. -/
theorem Body.Sound.mono {body : Body} (sound : body.Sound setting tables) (grows : Grows tables after) :
    body.Sound setting after := by
  cases body with
  | evaluate requestRef responseRefs decision reasonCode evidenceRefs =>
    refine ⟨sound.1, fun closes => ?_⟩
    obtain ⟨verifier, responses, verified, supported⟩ := sound.2 closes
    exact ⟨verifier, responses, mapM_verifyHumanResponse_mono grows.responses verified, supported⟩
  | openRequest | openEffect | revise | validate => exact sound

theorem validateWaiter_sound {value waiter : Waiter} (success : validateWaiter setting value = .ok waiter) :
    Plain setting (Json.texts waiter.otherBlockers) ∧ setting.secrets.text waiter.waiterRef = false ∧
      waiter.generation = value.generation := by
  unfold validateWaiter at success
  simp only [bind_eq_ok_iff (α := String), check_then_eq_ok_iff, bind_eq_ok_iff (α := Dict),
    bind_eq_ok_iff (α := List String), require_eq_ok_iff, Bool.not_eq_true', pure, Except.pure,
    Except.ok.injEq] at success
  obtain ⟨waiterRef, -, -, targetAssertion, -, -, otherBlockers, -, plain, rfl⟩ := success
  simp only [containsSecret, anySecretField, Bool.or_eq_false_iff] at plain
  simp only [Plain, containsSecret, anySecretField, Bool.or_eq_false_iff]
  exact ⟨plain.2, plain.1.2, trivial⟩

theorem validateOperationBinding_sound {value binding : Dict} {generation : ℤ}
    {questRef : Option String}
    (success : validateOperationBinding setting value generation questRef = .ok binding) :
    (binding.get "request_owner").isText setting.issuer = true ∧
      (binding.get "generation").isInteger generation = true ∧
        containsSecret setting.secrets binding.json = false := by
  unfold validateOperationBinding at success
  simp only [check_then_eq_ok_iff, require_eq_ok_iff, Bool.and_eq_true, Bool.not_eq_true'] at success
  obtain ⟨-, -, ⟨⟨⟨generation, owner⟩, -⟩, plain⟩, same⟩ := success
  cases same
  exact ⟨owner, generation, plain⟩

theorem supportedBy_nil {decision : Evaluation} (closes : decision.disposition?.isSome) :
    decision.supportedBy [] = false := by
  cases decision <;> first | rfl | cases closes

theorem mapM_validateWaiter_sound {values waiters : List Waiter}
    (success : values.mapM (validateWaiter setting) = .ok waiters) :
    ∀ waiter ∈ waiters, Plain setting (Json.texts waiter.otherBlockers) := by
  intro waiter member
  obtain ⟨value, -, validated⟩ := exists_item_of_mapM success waiter member
  exact (validateWaiter_sound validated).1

/-- The checks of a command leave what its transaction needs. -/
theorem Command.prepare_sound {command : Command} {now : ℚ} {order : Order}
    (success : command.prepare setting now tables = .ok order) :
    order.body.Sound setting tables := by
  cases command with
  | openRequest arguments directWaiter key =>
    simp only [prepare, bind_eq_ok_iff (α := Contract), bind_eq_ok_iff (α := Waiter),
      check_then_eq_ok_iff] at success
    obtain ⟨contract, -, waiter, waiting, -, same⟩ := success
    cases same
    exact (validateWaiter_sound waiting).1
  | openEffect key effectId operationBinding predecessorRequestRef arguments directWaiter =>
    simp only [prepare, bind_eq_ok_iff (α := Contract), bind_eq_ok_iff (α := Waiter),
      bind_eq_ok_iff (α := String), bind_eq_ok_iff (α := Option String), bind_eq_ok_iff (α := Dict),
      check_then_eq_ok_iff] at success
    obtain ⟨-, effectId, -, predecessor, -, contract, -, waiter, waiting, binding, bound, same⟩ := success
    cases same
    obtain ⟨plain, waiterRef, -⟩ := validateWaiter_sound waiting
    obtain ⟨owner, generation, secret⟩ := validateOperationBinding_sound bound
    exact ⟨plain, owner, generation, secret, waiterRef⟩
  | revise requestRef expectedRevision obligation targetAssertion acceptanceConditions directWaiters key
      requiredAuthorization expiresAt =>
    simp only [prepare] at success
    split at success
    · cases success
    · simp only [bind_eq_ok_iff (α := Contract), bind_eq_ok_iff (α := List Waiter),
        check_then_eq_ok_iff] at success
      obtain ⟨contract, -, waiters, waiting, -, -, same⟩ := success
      cases same
      exact mapM_validateWaiter_sound waiting
  | evaluate requestRef responseRefs decision reasonCode acceptedEvidenceRefs key =>
    simp only [prepare] at success
    split at success
    · cases success
    · rename_i decision _
      simp only [bind_eq_ok_iff (α := String), bind_eq_ok_iff (α := List String),
        bind_eq_ok_iff (α := List Response), check_then_eq_ok_iff, require_eq_ok_iff,
        Bool.not_eq_true'] at success
      obtain ⟨reasonCode, -, responseRefs, -, evidenceRefs, -, plain, responses, verified, supported,
        same⟩ := success
      cases same
      refine ⟨plain, fun closes => ?_⟩
      unfold verifyResponses at verified
      split_ifs at verified with empty
      · cases verified
        rw [supportedBy_nil closes] at supported
        cases supported
      · rw [check_then_eq_ok_iff] at verified
        exact ⟨require_eq_ok_iff.mp verified.1, responses, verified.2, supported⟩
  | validate requestRef waiterRef generation targetAssertion otherBlockers key authorizationReceiptRef =>
    simp only [prepare, bind_eq_ok_iff (α := String), bind_eq_ok_iff (α := List String),
      bind_eq_ok_iff (α := Dict), check_then_eq_ok_iff, require_eq_ok_iff, Bool.not_eq_true'] at success
    obtain ⟨waiterRef, -, -, targetAssertion, -, blockers, -, plain, same⟩ := success
    cases same
    simp only [containsSecret, anySecretField, Bool.or_eq_false_iff] at plain
    simp only [Body.Sound, Plain, containsSecret, anySecretField, Bool.or_eq_false_iff]
    exact ⟨plain.1, trivial⟩

/-! ### Transactions -/

/-- The reference of a result is that of a request, or of a validation. -/
def Body.Refers (tables : Tables) (ref : String) : Body → Prop
  | validate .. => ∃ row ∈ tables.validations, row.validationRef = ref
  | openRequest .. | openEffect .. | revise .. | evaluate .. =>
    ∃ row ∈ tables.requests, row.requestRef = ref

theorem keep_fresh (kept : Kept setting tables) {order : Order} {inside : Inside} {ref : String}
    (sound : order.body.Sound setting tables)
    (success : order.fresh setting inside tables = .ok (ref, after)) :
    Kept setting after ∧ Grows tables after ∧ order.body.Refers after ref := by
  obtain ⟨key, body⟩ := order
  cases body with
  | openRequest contract waiter => exact keep_openFresh kept sound success
  | openEffect effectId binding predecessorRequestRef contract waiter questRef =>
    obtain ⟨opens⟩ := of_openEffectFresh success
    exact keep_openEffect kept sound.1 sound.2 opens
  | revise requestRef expectedRevision contract waiters => exact keep_reviseFresh kept sound success
  | evaluate requestRef responseRefs decision reasonCode evidenceRefs =>
    exact keep_evaluateFresh kept sound.1 sound.2 success
  | validate requestRef waiterRef generation targetAssertion blockers authorizationReceiptRef =>
    obtain ⟨validates⟩ := of_validateFresh success
    obtain ⟨keptAfter, grows⟩ := keep_validate kept sound validates
    refine ⟨keptAfter, grows, ?_⟩
    obtain ⟨_, _, _, _, _, _, validations, _, _, inserted, rfl, rfl⟩ := validates
    exact ⟨_, (mem_insertRow inserted).mpr (.inr rfl), rfl⟩

/-- A transaction replays the command under its key, or runs it and records it. -/
theorem of_transact {order : Order} {inside : Inside} {ref : String}
    (success : order.transact setting inside tables = .ok (ref, after)) :
    (after = tables ∧ verifyReplayedEffect tables order ref = .ok () ∧
        ∃ row, tables.commands.find? order.idempotencyKey = some row ∧
          row.commandKind = order.body.kind ∧ row.requestHash = setting.hash order.body.json ∧
            row.resultRef = ref) ∨
      tables.commands.find? order.idempotencyKey = none ∧
        ∃ between commands, order.fresh setting inside tables = .ok (ref, between) ∧
          insertRow between.commands ⟨order.idempotencyKey, order.body.kind,
            setting.hash order.body.json, ref, inside.recordedAt⟩ = .ok commands ∧
          after = { between with commands } := by
  unfold Order.transact at success
  rw [bind_eq_ok_iff] at success
  obtain ⟨replay, looked, rest⟩ := success
  unfold commandReplay at looked
  cases found : tables.commands.find? order.idempotencyKey with
  | none =>
    rw [found] at looked
    cases looked
    simp only [bind_eq_ok_iff (α := String × Tables), bind_eq_ok_iff (α := Tables)] at rest
    obtain ⟨⟨result, between⟩, fresh, recorded, record, written⟩ := rest
    cases written
    unfold recordCommand at record
    rw [bind_eq_ok_iff] at record
    obtain ⟨commands, inserted, same⟩ := record
    cases same
    exact .inr ⟨rfl, between, commands, fresh, inserted, rfl⟩
  | some row =>
    simp only [found, check_then_eq_ok_iff, require_eq_ok_iff, Bool.and_eq_true,
      decide_eq_true_iff] at looked
    obtain ⟨⟨kind, hash⟩, same⟩ := looked
    cases same
    simp only [check_then_eq_ok_iff] at rest
    obtain ⟨verified, written⟩ := rest
    cases written
    exact .inl ⟨rfl, verified, row, rfl, kind, hash, rfl⟩

theorem keep_commands (kept : Kept setting tables) (commands : Table CommandRow.idempotencyKey) :
    Kept setting { tables with commands } :=
  ⟨kept.lineage, kept.columns, kept.closings, kept.verified, kept.evaluated, kept.waiting, kept.validated,
    kept.consuming, kept.effects⟩

theorem keep_transact (kept : Kept setting tables) {order : Order} {inside : Inside} {ref : String}
    (sound : order.body.Sound setting tables)
    (success : order.transact setting inside tables = .ok (ref, after)) :
    Kept setting after ∧ Grows tables after := by
  rcases of_transact success with ⟨rfl, -⟩ | ⟨-, between, commands, fresh, inserted, rfl⟩
  · exact ⟨kept, .refl _⟩
  · obtain ⟨keptBetween, grows, -⟩ := keep_fresh kept sound fresh
    exact ⟨keep_commands keptBetween commands,
      grows.trans { Grows.refl _ with commands := .insert inserted }⟩

end MetaResearch.HumanRequests

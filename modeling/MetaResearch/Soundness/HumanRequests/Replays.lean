import MetaResearch.Soundness.HumanRequests.Storage

/-! # Commands that are issued again

A recorded command is replayed under its key when its arguments pass again and nothing expires on the
way. The checks of the arguments come before the replay, so a deadline that has passed stops it.
-/

namespace MetaResearch.HumanRequests

open Datasets (Uuid newRef optionalText)

variable {setting : Setting} {tables after : Tables}

/-! ### Arguments that pass again -/

/-- The deadline is ahead, if there is one. -/
def isAhead (setting : Setting) (now : ℚ) (expiresAt : Option Number) : Bool :=
  expiresAt.all fun number => now < (number.float setting.float).value

theorem isAhead_of_validateContract {now : ℚ} {arguments : ContractArguments} {contract : Contract}
    (success : validateContract setting now arguments = .ok contract) :
    isAhead setting now arguments.expiresAt = true := by
  unfold validateContract at success
  split at success
  · cases success
  · simp only [check_then_eq_ok_iff, bind_eq_ok_iff (α := Dict), bind_eq_ok_iff (α := List String),
      bind_eq_ok_iff (α := Option String), bind_eq_ok_iff (α := Option Dict), require_eq_ok_iff] at success
    obtain ⟨-, -, _, -, _, -, -, _, -, _, -, ahead, -⟩ := success
    exact ahead

/-- A contract passes at another clock reading when its deadline is ahead. -/
theorem validateContract_again {now later : ℚ} {arguments : ContractArguments} {contract : Contract}
    (success : validateContract setting now arguments = .ok contract)
    (ahead : isAhead setting later arguments.expiresAt = true) :
    validateContract setting later arguments = .ok contract := by
  unfold validateContract at success ⊢
  split at success
  · cases success
  · simp only [check_then_eq_ok_iff, bind_eq_ok_iff (α := Dict), bind_eq_ok_iff (α := List String),
      bind_eq_ok_iff (α := Option String), bind_eq_ok_iff (α := Option Dict)] at success ⊢
    obtain ⟨obligation, purpose, target, checked, conditions, listed, some, quest, named, authorization,
      authorized, -, made⟩ := success
    exact ⟨obligation, purpose, target, checked, conditions, listed, some, quest, named, authorization,
      authorized, require_eq_ok_iff.mpr ahead, made⟩

theorem Command.isAhead_of_prepare {command : Command} {now : ℚ} {order : Order}
    (success : command.prepare setting now tables = .ok order) :
    isAhead setting now command.expiresAt = true := by
  cases command with
  | openRequest arguments directWaiter key =>
    simp only [prepare, bind_eq_ok_iff (α := Contract)] at success
    obtain ⟨contract, accepted, -⟩ := success
    exact isAhead_of_validateContract accepted
  | openEffect key effectId operationBinding predecessorRequestRef arguments directWaiter =>
    simp only [prepare, bind_eq_ok_iff (α := Contract), bind_eq_ok_iff (α := String),
      bind_eq_ok_iff (α := Option String), check_then_eq_ok_iff] at success
    obtain ⟨-, _, -, _, -, contract, accepted, -⟩ := success
    exact isAhead_of_validateContract accepted
  | revise requestRef expectedRevision obligation targetAssertion acceptanceConditions directWaiters key
      requiredAuthorization expiresAt =>
    simp only [prepare] at success
    split at success
    · cases success
    · rw [bind_eq_ok_iff (α := Contract)] at success
      obtain ⟨contract, accepted, -⟩ := success
      exact isAhead_of_validateContract accepted
  | evaluate | validate => rfl

theorem verifyResponses_mono {requestRef : String} {responseRefs : List String}
    {responses : List Response} (grows : Grows tables after)
    (success : Command.verifyResponses setting tables requestRef responseRefs = .ok responses) :
    Command.verifyResponses setting after requestRef responseRefs = .ok responses := by
  unfold Command.verifyResponses at success ⊢
  split_ifs at success ⊢
  · exact success
  · rw [check_then_eq_ok_iff] at success ⊢
    exact ⟨success.1, mapM_verifyHumanResponse_mono grows.responses success.2⟩

/-- A command that passed passes later as the same order, when its deadline is ahead. -/
theorem Command.prepare_again {command : Command} {now later : ℚ} {order : Order}
    (grows : Grows tables after) (success : command.prepare setting now tables = .ok order)
    (ahead : isAhead setting later command.expiresAt = true) :
    command.prepare setting later after = .ok order := by
  cases command with
  | openRequest arguments directWaiter key =>
    simp only [prepare, bind_eq_ok_iff (α := Contract)] at success ⊢
    obtain ⟨contract, accepted, rest⟩ := success
    exact ⟨contract, validateContract_again accepted ahead, rest⟩
  | openEffect key effectId operationBinding predecessorRequestRef arguments directWaiter =>
    simp only [prepare, bind_eq_ok_iff (α := Contract), bind_eq_ok_iff (α := String),
      bind_eq_ok_iff (α := Option String), check_then_eq_ok_iff] at success ⊢
    obtain ⟨valid, effectId, bounded, predecessor, named, contract, accepted, rest⟩ := success
    exact ⟨valid, effectId, bounded, predecessor, named, contract,
      validateContract_again accepted ahead, rest⟩
  | revise requestRef expectedRevision obligation targetAssertion acceptanceConditions directWaiters key
      requiredAuthorization expiresAt =>
    simp only [prepare] at success ⊢
    cases found : tables.requests.find? requestRef with
    | none => simp [found] at success
    | some current =>
      obtain ⟨member, named⟩ := Table.find?_eq_some_iff.mp found
      obtain ⟨row, there, ref, core⟩ := grows.find?_request member
      simp only [found, bind_eq_ok_iff (α := Contract)] at success
      obtain ⟨contract, accepted, rest⟩ := success
      have stored : after.requests.find? requestRef = some row :=
        Table.find?_eq_some_iff.mpr ⟨there, ref.trans named⟩
      have purpose : row.businessPurpose = current.businessPurpose :=
        (congrArg RequestRow.businessPurpose core :)
      have quest : row.questRef = current.questRef := (congrArg RequestRow.questRef core :)
      simp only [stored, bind_eq_ok_iff (α := Contract), RequestRow.kind_of_core core, purpose, quest]
      exact ⟨contract, validateContract_again accepted ahead, rest⟩
  | evaluate requestRef responseRefs decision reasonCode acceptedEvidenceRefs key =>
    simp only [prepare] at success ⊢
    cases found : Evaluation.all.find? (·.text = decision) with
    | none => simp [found] at success
    | some evaluation =>
      simp only [found, bind_eq_ok_iff (α := String), bind_eq_ok_iff (α := List String),
        bind_eq_ok_iff (α := List Response), check_then_eq_ok_iff] at success ⊢
      obtain ⟨reason, bounded, refs, unique, evidence, uniqueToo, plain, responses, verified, rest⟩ :=
        success
      exact ⟨reason, bounded, refs, unique, evidence, uniqueToo, plain, responses,
        verifyResponses_mono grows verified, rest⟩
  | validate => exact success

/-! ### Recorded orders -/

/-- The order is recorded with this result. -/
structure Order.Recorded (setting : Setting) (tables : Tables) (order : Order) (ref : String) : Prop where
  command : ∃ row, tables.commands.find? order.idempotencyKey = some row ∧
    row.commandKind = order.body.kind ∧ row.requestHash = setting.hash order.body.json ∧
      row.resultRef = ref
  effect : verifyReplayedEffect tables order ref = .ok ()

theorem Order.Recorded.mono {order : Order} {ref : String} (recorded : order.Recorded setting tables ref)
    (grows : Grows tables after) : order.Recorded setting after ref := by
  obtain ⟨⟨row, found, same⟩, effect⟩ := recorded
  refine ⟨⟨row, grows.commands _ _ found, same⟩, ?_⟩
  unfold verifyReplayedEffect at effect ⊢
  split at effect
  · rw [require_eq_ok_iff, Option.any_eq_true] at effect ⊢
    obtain ⟨opened, stored, fits⟩ := effect
    exact ⟨opened, grows.effects _ _ stored, fits⟩
  all_goals rfl

theorem commands_insertRequest {contract : Contract} {requestId : String} {revision : ℕ}
    {predecessor : Option String} {now : ℚ}
    (success : insertRequest setting contract requestId revision predecessor now tables = .ok after) :
    after.commands = tables.commands := by
  obtain ⟨-, _, -, rfl⟩ := of_insertRequest success
  rfl

/-- The work of an order leaves the record of commands. -/
theorem commands_fresh {order : Order} {inside : Inside} {ref : String}
    (success : order.fresh setting inside tables = .ok (ref, after)) : after.commands = tables.commands := by
  obtain ⟨key, body⟩ := order
  cases body with
  | openRequest contract waiter =>
    rcases of_openFresh success with ⟨_, -, -, rfl, _, inserted⟩ | ⟨_, _, _, -, opened, inserted, rfl⟩
    · obtain ⟨_, rfl⟩ := frame_insertWaiter inserted
      rfl
    · obtain ⟨_, rfl⟩ := frame_insertWaiter inserted
      exact (commands_insertRequest opened :)
  | openEffect effectId binding predecessorRequestRef contract waiter questRef =>
    obtain ⟨_, -, _, _, placed, place, _, request, _, -, _, -, -, -, rfl⟩ := of_openEffectFresh success
    have same : placed.commands = tables.commands := by
      rcases of_placeEffect place with ⟨_, -, -, -, -, -, rfl⟩ | ⟨-, -, -, rfl⟩ <;> rfl
    exact (commands_insertRequest request).trans same
  | revise requestRef expectedRevision contract waiters =>
    obtain ⟨_, -, -, -, -, _, _, disposed, request, waiting⟩ := of_reviseFresh success
    obtain ⟨_, rfl⟩ := frame_insertWaiters waiting
    obtain ⟨_, -, rfl⟩ := of_insertDisposition disposed
    exact (commands_insertRequest request :)
  | evaluate requestRef responseRefs decision reasonCode evidenceRefs =>
    obtain ⟨-, _, -, -, -, _, -, written⟩ := of_evaluateFresh success
    rcases written with ⟨-, rfl⟩ | ⟨_, _, -, -, rfl⟩ <;> rfl
  | validate requestRef waiterRef generation targetAssertion blockers authorizationReceiptRef =>
    obtain ⟨_, _, _, _, _, _, _, _, _, _, -, rfl⟩ := of_validateFresh success
    rfl

/-- A transaction that goes through leaves its order recorded. -/
theorem recorded_of_transact {order : Order} {inside : Inside} {ref : String}
    (success : order.transact setting inside tables = .ok (ref, after)) :
    order.Recorded setting after ref := by
  rcases of_transact success with ⟨rfl, effect, known⟩ | ⟨-, between, commands, fresh, inserted, rfl⟩
  · exact ⟨known, effect⟩
  · refine ⟨⟨_, (find?_insertRow inserted order.idempotencyKey).trans (if_pos rfl), rfl, rfl, rfl⟩, ?_⟩
    obtain ⟨key, body⟩ := order
    cases body with
    | openEffect effectId binding predecessorRequestRef contract waiter questRef =>
      obtain ⟨_, -, _, _, _, -, _, -, _, -, effects, -, opened, rfl, rfl⟩ := of_openEffectFresh fresh
      have stored : effects.find? key = some _ := (find?_insertRow opened key).trans (if_pos rfl)
      simp [verifyReplayedEffect, stored, effectRow]
    | openRequest | revise | evaluate | validate => rfl

/-- A recorded order is replayed. -/
theorem transact_of_recorded {order : Order} {ref : String} (recorded : order.Recorded setting tables ref)
    (inside : Inside) : order.transact setting inside tables = .ok (ref, tables) := by
  obtain ⟨⟨row, found, kind, hash, rfl⟩, effect⟩ := recorded
  simp [Order.transact, commandReplay, found, kind, hash, effect, require, bind, Except.bind, pure,
    Except.pure]

/-- Two orders under one key, of which the record takes at most one. -/
def Order.Differs (order other : Order) : Prop :=
  other.body.kind ≠ order.body.kind ∨ other.body.json.dumps ≠ order.body.json.dumps

/-- Another order under the key of a recorded one is a conflict. -/
theorem transact_of_differs (injective : Function.Injective setting.digest) {order other : Order}
    {ref : String} (recorded : order.Recorded setting tables ref)
    (key : other.idempotencyKey = order.idempotencyKey) (differs : order.Differs other) (inside : Inside) :
    other.transact setting inside tables = .error "idempotency_conflict" := by
  obtain ⟨⟨row, found, kind, hash, rfl⟩, -⟩ := recorded
  have apart : (decide (row.commandKind = other.body.kind) &&
      decide (row.requestHash = setting.hash other.body.json)) = false := by
    rw [Bool.and_eq_false_iff, decide_eq_false_iff_not, decide_eq_false_iff_not, kind, hash]
    exact differs.imp (fun kinds same => kinds same.symm) fun texts same => texts (injective same).symm
  simp [Order.transact, commandReplay, key, found, apart, require, bind, Except.bind]

/-! ### Errors of the arguments -/

section

private abbrev Silent {α : Type} (answer : Except String α) : Prop :=
  answer ≠ .error "idempotency_conflict"

private theorem silent_pure {α : Type} (value : α) : Silent (pure value) := by
  simp [Silent, pure, Except.pure]

private theorem silent_require {condition : Bool} {code : String}
    (apart : code ≠ "idempotency_conflict") : Silent (require condition code) :=
  require_ne_error apart

private theorem silent_bind {α β : Type} {first : Except String α} {next : α → Except String β}
    (here : Silent first) (later : ∀ value, Silent (next value)) : Silent (first >>= next) :=
  bind_ne_error here fun value _ => later value

private theorem silent_boundedText {value code : String} {maximum : ℕ}
    (apart : code ≠ "idempotency_conflict") : Silent (boundedText value code maximum) :=
  silent_bind (silent_require apart) fun _ => silent_pure _

private theorem silent_object {value : Dict} {code : String} (apart : code ≠ "idempotency_conflict") :
    Silent (object value code) :=
  silent_bind (silent_require apart) fun _ => silent_bind (silent_require apart) fun _ =>
    silent_bind (silent_require apart) fun _ => silent_pure _

private theorem silent_uniqueTexts {values : List String} {code : String} {items length : ℕ}
    (apart : code ≠ "idempotency_conflict") : Silent (uniqueTexts values code items length) :=
  silent_bind (silent_require apart) fun _ =>
    silent_bind (mapM_ne_error fun _ => silent_boundedText apart) fun _ =>
      silent_bind (silent_require apart) fun _ => silent_pure _

private theorem silent_checkOptional {α β : Type} {check : α → Except String β}
    (each : ∀ value, Silent (check value)) (value : Option α) : Silent (checkOptional check value) := by
  cases value with
  | none => exact silent_pure _
  | some value => exact silent_bind (each value) fun _ => silent_pure _

private theorem silent_validateContract (now : ℚ) (arguments : ContractArguments) :
    Silent (validateContract setting now arguments) := by
  unfold validateContract
  split
  · simp [Silent]
  · refine silent_bind (silent_require (by decide)) fun _ => silent_bind (silent_require (by decide))
      fun _ => silent_bind (silent_object (by decide)) fun _ =>
      silent_bind (silent_uniqueTexts (by decide)) fun _ => silent_bind (silent_require (by decide))
      fun _ => silent_bind (silent_checkOptional (fun _ => silent_boundedText (by decide)) _) fun _ =>
      silent_bind (silent_checkOptional (fun _ => silent_object (by decide)) _) fun _ =>
      silent_bind (silent_require (by decide)) fun _ => silent_pure _

private theorem silent_validateWaiter (value : Waiter) : Silent (validateWaiter setting value) :=
  silent_bind (silent_boundedText (by decide)) fun _ => silent_bind (silent_require (by decide)) fun _ =>
    silent_bind (silent_object (by decide)) fun _ => silent_bind (silent_require (by decide)) fun _ =>
    silent_bind (silent_uniqueTexts (by decide)) fun _ => silent_bind (silent_require (by decide))
    fun _ => silent_pure _

private theorem silent_verifyResponses (requestRef : String) (responseRefs : List String) :
    Silent (Command.verifyResponses setting tables requestRef responseRefs) := by
  unfold Command.verifyResponses
  split_ifs
  · exact silent_pure _
  · refine silent_bind (silent_require (by decide)) fun _ => mapM_ne_error fun ref => ?_
    unfold Tables.verifyHumanResponse
    split
    · exact silent_bind (silent_require (by decide)) fun _ => silent_pure _
    · simp

/-- The checks of the arguments never tell of a conflict. -/
theorem Command.prepare_ne_conflict (command : Command) (now : ℚ) :
    command.prepare setting now tables ≠ .error "idempotency_conflict" := by
  cases command with
  | openRequest arguments directWaiter key =>
    exact silent_bind (silent_validateContract _ _) fun _ => silent_bind (silent_validateWaiter _) fun _ =>
      silent_bind (silent_require (by decide)) fun _ => silent_pure _
  | openEffect key effectId operationBinding predecessorRequestRef arguments directWaiter =>
    refine silent_bind (silent_require (by decide)) fun _ => silent_bind (silent_boundedText (by decide))
      fun _ => silent_bind (silent_checkOptional (fun _ => silent_boundedText (by decide)) _) fun _ =>
      silent_bind (silent_validateContract _ _) fun _ => silent_bind (silent_validateWaiter _) fun _ =>
      silent_bind ?_ fun _ => silent_pure _
    exact silent_bind (silent_require (by decide)) fun _ => silent_bind (silent_require (by decide))
      fun _ => silent_bind (silent_require (by decide)) fun _ => silent_pure _
  | revise requestRef expectedRevision obligation targetAssertion acceptanceConditions directWaiters key
      requiredAuthorization expiresAt =>
    simp only [prepare]
    split
    · simp
    · exact silent_bind (silent_validateContract _ _) fun _ =>
        silent_bind (mapM_ne_error silent_validateWaiter) fun _ =>
        silent_bind (silent_require (by decide)) fun _ => silent_bind (silent_require (by decide))
        fun _ => silent_pure _
  | evaluate requestRef responseRefs decision reasonCode acceptedEvidenceRefs key =>
    simp only [prepare]
    split
    · simp
    · rename_i evaluation _
      have unsupported : unsupported evaluation ≠ "idempotency_conflict" := by
        cases evaluation <;> decide
      exact silent_bind (silent_boundedText (by decide)) fun _ =>
        silent_bind (silent_uniqueTexts (by decide)) fun _ =>
        silent_bind (silent_uniqueTexts (by decide)) fun _ =>
        silent_bind (silent_require (by decide)) fun _ => silent_bind (silent_verifyResponses _ _) fun _ =>
        silent_bind (silent_require unsupported) fun _ => silent_pure _
  | validate requestRef waiterRef generation targetAssertion otherBlockers key authorizationReceiptRef =>
    exact silent_bind (silent_boundedText (by decide)) fun _ => silent_bind (silent_require (by decide))
      fun _ => silent_bind (silent_object (by decide)) fun _ =>
      silent_bind (silent_uniqueTexts (by decide)) fun _ => silent_bind (silent_require (by decide))
      fun _ => silent_pure _

end

/-! ### Nothing expires -/

/-- Nothing is made up for: the request is not due when it is looked at, or no more when it is written. -/
def Tables.Quiet (tables : Tables) (moment : Moment) (requestRef : String) : Prop :=
  tables.isDue requestRef moment.read = true → tables.isDue requestRef moment.write.now = false

theorem Tables.Quiet.lands {moment : Moment} {requestRef : String}
    (quiet : tables.Quiet moment requestRef) : tables.Lands moment requestRef := by
  intro due again
  rw [quiet due] at again
  cases again

theorem materialize_of_quiet {moment : Moment} {requestRef : String}
    (quiet : tables.Quiet moment requestRef) :
    materializeExpirationIfDue setting moment requestRef tables = (.ok (), tables) := by
  unfold materializeExpirationIfDue
  split_ifs with due
  · simp [expire, quiet due, committing, Except.map, pure, Except.pure]
  · rfl

/-- Every row of these tables was there before. -/
structure Tables.AddsNone (before after : Tables) : Prop where
  requests : ∀ row ∈ after.requests, ∃ old ∈ before.requests, old.requestRef = row.requestRef
  waiters : ∀ row ∈ after.waiters, ∃ old ∈ before.waiters, old.key = row.key
  evaluations : ∀ row ∈ after.evaluations, ∃ old ∈ before.evaluations,
    old.evaluationRef = row.evaluationRef
  dispositions : ∀ row ∈ after.dispositions, ∃ old ∈ before.dispositions,
    old.requestRef = row.requestRef
  validations : ∀ row ∈ after.validations, ∃ old ∈ before.validations,
    old.validationRef = row.validationRef

theorem Tables.AddsNone.refl (tables : Tables) : tables.AddsNone tables :=
  ⟨fun row member => ⟨row, member, rfl⟩, fun row member => ⟨row, member, rfl⟩,
    fun row member => ⟨row, member, rfl⟩, fun row member => ⟨row, member, rfl⟩,
    fun row member => ⟨row, member, rfl⟩⟩

/-- Whoever adds no row has made up for nothing. -/
theorem quiet_of_addsNone (kept : Kept setting tables) {between : Tables} {moment : Moment}
    {requestRef : String}
    (done : materializeExpirationIfDue setting moment requestRef tables = (.ok (), between))
    (grows : Grows between after) (adds : tables.AddsNone after) : tables.Quiet moment requestRef := by
  intro due
  by_contra again
  rw [Bool.not_eq_false] at again
  unfold materializeExpirationIfDue at done
  rw [if_pos due] at done
  cases expired : expire setting moment.write requestRef tables with
  | error _ => simp [expired, committing, Except.map] at done
  | ok written =>
    obtain rfl : written = between := by simpa [expired, committing, Except.map] using done
    rcases of_expire expired with ⟨early, -⟩ | ⟨-, dispositions, inserted, rfl⟩
    · rw [early] at again
      cases again
    · obtain ⟨row, member, ref, -, opened, -⟩ := find?_of_isDue due
      have stored := grows.dispositions requestRef _
        ((find?_insertRow inserted requestRef).trans (if_pos rfl))
      obtain ⟨old, present, same⟩ := adds.dispositions _ (Table.mem_of_find? stored)
      have absent := (kept.closings.opened_iff member).mp opened
      rw [ref, Table.find?_eq_none_iff] at absent
      exact absent old present same

/-! ### Commands that are issued again -/

/-- A recorded validation has its row. -/
def Tables.Validated (tables : Tables) : Prop :=
  ∀ row ∈ tables.commands, row.commandKind = "resume_validate" →
    ∃ validation, tables.validations.find? row.resultRef = some validation

theorem Tables.Validated.grow (validated : tables.Validated) (grows : Grows tables after)
    (same : after.commands = tables.commands) : after.Validated := by
  intro row member kind
  rw [same] at member
  obtain ⟨validation, found⟩ := validated row member kind
  exact ⟨validation, grows.validations _ _ found⟩

theorem commands_consume {stamp : Stamp} {requestRef waiterRef workRef workHash : String} {generation : ℤ}
    (success : consumeReleasedWaiter setting stamp requestRef waiterRef generation workRef workHash
      tables = .ok after) : after.commands = tables.commands := by
  rcases of_consumeReleasedWaiter success with rfl | ⟨_, _, ⟨consumes⟩⟩
  · rfl
  · obtain ⟨_, _, _, _, _, _, _, _, _, _, _, _, rfl⟩ := consumes
    rfl

/-- Every step keeps that recorded validations have their rows. -/
theorem validated_step {allowed : Tables → Order → Prop} (kept : Kept setting tables)
    (step : Step setting allowed tables after) (validated : tables.Validated) : after.Validated := by
  obtain ⟨-, grows⟩ := keep_step kept step
  cases step with
  | expire success =>
    refine validated.grow grows ?_
    rcases of_expire success with ⟨-, rfl⟩ | ⟨-, _, -, rfl⟩ <;> rfl
  | @transact order inside ref checked _ success =>
    rcases of_transact success with ⟨rfl, -⟩ | ⟨-, between, commands, fresh, inserted, rfl⟩
    · exact validated
    · intro row member kind
      rcases (mem_insertRow inserted).mp member with known | rfl
      · rw [commands_fresh fresh] at known
        obtain ⟨validation, found⟩ := validated row known kind
        exact ⟨validation, grows.validations _ _ found⟩
      · obtain ⟨-, -, refers⟩ := keep_fresh kept checked.sound fresh
        obtain ⟨key, body⟩ := order
        cases body with
        | validate =>
          obtain ⟨validation, present, rfl⟩ := refers
          exact ⟨validation, Table.find?_of_mem present⟩
        | openRequest | openEffect | revise | evaluate => simp [Body.kind] at kind
  | consume success => exact validated.grow grows (commands_consume success)
  | respond success =>
    refine validated.grow grows ?_
    obtain ⟨_, -, rfl⟩ := of_recordResponse success
    rfl

theorem Reaches.validated {allowed : Tables → Order → Prop} (kept : Kept setting tables)
    (validated : tables.Validated) (reaches : Reaches setting allowed tables after) : after.Validated :=
  Reaches.invariant (fun _ _ kept step => validated_step kept step) kept validated reaches

/-- The transaction of the command goes through and records its order. -/
structure Command.Accepted (setting : Setting) (here : Surroundings) (tables : Tables)
    (command : Command) (order : Order) (ref : String) (written : Tables) : Prop where
  key : command.checkKey setting = .ok ()
  materialized : (command.materialize setting here tables).1 = .ok ()
  prepared : command.prepare setting here.checkedAt (command.materialize setting here tables).2 =
    .ok order
  transacted : order.transact setting here.inside (command.materialize setting here tables).2 =
    .ok (ref, written)

/-- When a command that was accepted can be issued again. -/
structure Command.Replayable (setting : Setting) (again : Surroundings) (tables : Tables) (ref : String)
    (command : Command) : Prop where
  ahead : isAhead setting again.checkedAt command.expiresAt = true
  quiet : ∀ subject, command.subject? = some subject → tables.Quiet again.opening subject
  readable : command.answersRequest = true → tables.Quiet again.closing ref ∧ tables.Settled ref ∧
    ∃ row ∈ tables.requests, row.requestRef = ref ∧ row.Intact setting

section

variable {again here : Surroundings} {command : Command} {order : Order} {ref : String}

theorem Command.materialize_of_quiet
    (quiet : ∀ subject, command.subject? = some subject → tables.Quiet again.opening subject) :
    command.materialize setting again tables = (.ok (), tables) := by
  unfold Command.materialize
  cases named : command.subject? with
  | none => rfl
  | some subject => exact HumanRequests.materialize_of_quiet (quiet subject named)

/-- A command that makes up for nothing before its arguments leaves its subject alone. -/
theorem Command.quiet_of_addsNone (kept : Kept setting tables) {between : Tables}
    (done : command.materialize setting again tables = (.ok (), between)) (grows : Grows between after)
    (adds : tables.AddsNone after) :
    ∀ subject, command.subject? = some subject → tables.Quiet again.opening subject := by
  intro subject named
  unfold Command.materialize at done
  rw [named] at done
  exact HumanRequests.quiet_of_addsNone kept done grows adds

theorem query_of_quiet {moment : Moment} (quiet : tables.Quiet moment ref) :
    queryHumanRequest setting moment ref tables = (readHumanRequest setting tables ref, tables) := by
  unfold queryHumanRequest
  rw [HumanRequests.materialize_of_quiet quiet]
  rfl

/-- A query that shows a request and adds no row has made up for nothing. -/
theorem quiet_of_query (kept : Kept setting tables) {moment : Moment} {shown? : Option PublicRequest}
    (found : (queryHumanRequest setting moment ref tables).1 = .ok shown?)
    (adds : tables.AddsNone (tables.madeUp setting moment ref)) : tables.Quiet moment ref := by
  have done : materializeExpirationIfDue setting moment ref tables =
      (.ok (), tables.madeUp setting moment ref) := by
    unfold queryHumanRequest at found
    unfold Tables.madeUp
    generalize materializeExpirationIfDue setting moment ref tables = result at found ⊢
    obtain ⟨answer, written⟩ := result
    cases answer with
    | ok => rfl
    | error => simp [chain] at found
  exact HumanRequests.quiet_of_addsNone kept done (.refl _) adds

theorem exists_of_read {shown : PublicRequest}
    (found : readHumanRequest setting tables ref = .ok (some shown)) :
    ∃ row ∈ tables.requests, row.requestRef = ref := by
  unfold readHumanRequest at found
  split at found
  · cases found
  · rename_i row stored
    obtain ⟨member, named⟩ := Table.find?_eq_some_iff.mp stored
    exact ⟨row, member, named⟩

/-- The effect of a recorded opening is that of its request. -/
theorem effectOf_of_recorded (kept : Kept setting tables) (recorded : order.Recorded setting tables ref)
    (shapes : command.Shapes order.body) (opens : command.opensEffect = true) :
    (tables.effectOf ref).isSome = true := by
  have effect := recorded.effect
  obtain ⟨key, body⟩ := order
  cases command <;> cases opens
  cases body <;> first | exact shapes.elim | skip
  unfold verifyReplayedEffect at effect
  rw [require_eq_ok_iff, Option.any_eq_true] at effect
  obtain ⟨opened, stored, named⟩ := effect
  exact Option.isSome_iff_exists.mpr ⟨opened, (effectOf_eq_some_iff kept).mpr
    ⟨Table.mem_of_find? stored, of_decide_eq_true named⟩⟩

/-- A recorded validation is answered again. -/
theorem queryValidation_of_recorded (kept : Kept setting tables) (validated : tables.Validated)
    (recorded : order.Recorded setting tables ref) (kind : order.body.kind = "resume_validate") :
    ∃ row, queryValidation setting tables ref = .ok row ∧ row.validationRef = ref := by
  obtain ⟨⟨stored, found, sameKind, -, rfl⟩, -⟩ := recorded
  obtain ⟨row, present⟩ := validated stored (Table.mem_of_find? found) (sameKind.trans kind)
  obtain ⟨member, named⟩ := Table.find?_eq_some_iff.mp present
  refine ⟨row, ?_, named⟩
  unfold queryValidation
  simp only [present, check_then_eq_ok_iff]
  exact ⟨kept.validated row member, rfl⟩

theorem kind_of_shapes (shapes : command.Shapes order.body) (plain : command.answersRequest = false) :
    order.body.kind = "resume_validate" := by
  obtain ⟨key, body⟩ := order
  cases command <;> cases plain
  cases body <;> first | exact shapes.elim | rfl

/-- A replayable command answers as recorded and leaves the tables. -/
theorem run_of_replayable (kept : Kept setting tables) (validated : tables.Validated)
    (recorded : order.Recorded setting tables ref) (key : command.checkKey setting = .ok ())
    (prepared : command.prepare setting again.checkedAt tables = .ok order)
    (replayable : command.Replayable setting again tables ref) :
    ∃ result, command.run setting again tables = (.ok result, tables) ∧ result.ref = ref := by
  rw [Command.run_of_transact key (Command.materialize_of_quiet replayable.quiet) prepared
    (transact_of_recorded recorded again.inside)]
  obtain ⟨-, shapes⟩ := Command.prepare_shapes prepared
  cases request : command.answersRequest with
  | true =>
    obtain ⟨quiet, settled, row, member, rfl, intact⟩ := replayable.readable request
    obtain ⟨shown, found, -, core, opened⟩ := query_ok kept member quiet.lands intact settled
    refine ⟨.request shown, Prod.ext ?_ ?_, RequestRow.requestRef_of_core core⟩
    · refine (answer_eq_ok_iff request).mpr ⟨shown, found, fun opens => ?_, rfl⟩
      rw [opened]
      exact effectOf_of_recorded kept recorded shapes opens
    · rw [answer_snd request, Tables.madeUp, HumanRequests.materialize_of_quiet quiet]
  | false =>
    obtain ⟨row, found, named⟩ :=
      queryValidation_of_recorded kept validated recorded (kind_of_shapes shapes request)
    refine ⟨.validation row, ?_, named⟩
    cases command with
    | validate => simp [Command.answer, found, reading, Except.map]
    | openRequest | openEffect | revise | evaluate => cases request

/-- A command that answers as recorded and adds no row is replayable. -/
theorem replayable_of_run (kept : Kept setting tables)
    (recorded : order.Recorded setting tables ref)
    (prepared : isAhead setting again.checkedAt command.expiresAt = true →
      command.prepare setting again.checkedAt tables = .ok order)
    {result : Outcome} (answered : (command.run setting again tables).1 = .ok result)
    (adds : tables.AddsNone (command.run setting again tables).2) :
    command.Replayable setting again tables ref := by
  obtain ⟨between, asked, answerRef, written, -, materialized, checked, transacted, answer⟩ :=
    Command.run_ok (Prod.ext answered rfl)
  have sound := (Command.prepare_checked checked).sound
  have reached := @reach_materializeSubject setting tables anyOrder again command
  rw [materialized] at reached
  obtain ⟨keptBetween, -⟩ := reached.keep kept
  obtain ⟨keptWritten, growsWritten⟩ := keep_transact keptBetween sound transacted
  have closing := @reach_answer setting written anyOrder again.closing answerRef command
  rw [answer] at closing
  have quiet := Command.quiet_of_addsNone kept materialized
    (growsWritten.trans (closing.keep keptWritten).2) adds
  obtain rfl : tables = between := by
    rw [Command.materialize_of_quiet quiet] at materialized
    exact congrArg Prod.snd materialized
  have ahead := Command.isAhead_of_prepare checked
  obtain rfl : order = asked := Except.ok.inj ((prepared ahead).symm.trans checked)
  obtain ⟨rfl, rfl⟩ : ref = answerRef ∧ tables = written :=
    Prod.ext_iff.mp (Except.ok.inj ((transact_of_recorded recorded again.inside).symm.trans transacted))
  refine ⟨ahead, quiet, fun request => ?_⟩
  obtain ⟨shown, found, -, -⟩ := (answer_eq_ok_iff request).mp (congrArg Prod.fst answer)
  have same : (command.run setting again tables).2 = tables.madeUp setting again.closing ref := by
    rw [← answer_snd request, answer]
  rw [same] at adds
  have still := quiet_of_query kept found adds
  have read := found
  rw [query_of_quiet still] at read
  obtain ⟨row, member, rfl⟩ := exists_of_read read
  obtain ⟨⟨-, intact, settled⟩, -⟩ := of_query_ok kept member found
  exact ⟨still, settled, row, member, rfl, intact⟩

/-- The key of an accepted command is valid. -/
theorem Command.Accepted.valid {written : Tables}
    (accepted : command.Accepted setting here tables order ref written) :
    validateIdempotencyKey setting command.idempotencyKey = .ok () := by
  have key := accepted.key
  have prepared := accepted.prepared
  cases command with
  | openRequest arguments directWaiter key =>
    simp only [Command.prepare, bind_eq_ok_iff (α := Contract), bind_eq_ok_iff (α := Waiter),
      check_then_eq_ok_iff] at prepared
    obtain ⟨_, -, _, -, valid, -⟩ := prepared
    exact valid
  | openEffect =>
    simp only [Command.prepare, check_then_eq_ok_iff] at prepared
    exact prepared.1
  | revise | evaluate | validate => exact key

theorem checkKey_of_valid (valid : validateIdempotencyKey setting command.idempotencyKey = .ok ()) :
    command.checkKey setting = .ok () := by
  unfold Command.checkKey
  split
  · exact valid
  · rfl

/-- What a command does after it has made up for an expiration. -/
theorem reach_run_of_materialize (valid : command.checkKey setting = .ok ()) {between : Tables}
    (done : command.materialize setting again tables = (.ok (), between)) :
    Reaches setting anyOrder between (command.run setting again tables).2 := by
  rw [Command.run_eq]
  simp only [valid, done, chain, reading]
  refine reach_chain .refl fun order prepared => ?_
  refine reach_chain (reach_committing fun ref written success => ?_) fun ref _ =>
    reach_answer again.closing ref command
  exact .transact (Command.prepare_checked prepared) trivial success

theorem run_of_refused (valid : command.checkKey setting = .ok ()) {between : Tables} {error : String}
    (raised : command.materialize setting again tables = (.error error, between)) :
    (command.run setting again tables).1 = .error error ∧ error = "IntegrityError" := by
  refine ⟨by simp only [Command.run_eq, valid, raised, chain, reading], ?_⟩
  unfold Command.materialize at raised
  cases named : command.subject? with
  | none => simp [named] at raised
  | some subject =>
    rw [named] at raised
    exact materialize_error (congrArg Prod.fst raised)

/-- A command whose arguments do not pass. -/
theorem run_of_prepare_error (valid : command.checkKey setting = .ok ()) {between : Tables}
    {error : String} (done : command.materialize setting again tables = (.ok (), between))
    (refused : command.prepare setting again.checkedAt between = .error error) :
    command.run setting again tables = (.error error, between) := by
  simp only [Command.run_eq, valid, done, refused, chain, reading]

/-- Another order under the key of a recorded one is a conflict, and leaves the tables, exactly when its
arguments pass and nothing expires on the way. -/
theorem run_conflict_iff (injective : Function.Injective setting.digest) (kept : Kept setting tables)
    (recorded : order.Recorded setting tables ref) {other : Command}
    (key : other.idempotencyKey = order.idempotencyKey)
    (valid : validateIdempotencyKey setting other.idempotencyKey = .ok ())
    (differs : ∀ asked, other.prepare setting again.checkedAt tables = .ok asked → order.Differs asked) :
    other.run setting again tables = (.error "idempotency_conflict", tables) ↔
      (∀ subject, other.subject? = some subject → tables.Quiet again.opening subject) ∧
        ∃ asked, other.prepare setting again.checkedAt tables = .ok asked := by
  have checked := checkKey_of_valid valid
  constructor
  · intro conflict
    have quiet : ∀ subject, other.subject? = some subject → tables.Quiet again.opening subject := by
      have reached := @reach_materializeSubject setting tables anyOrder again other
      generalize materialized : other.materialize setting again tables = result at reached
      obtain ⟨answer, between⟩ := result
      obtain ⟨keptBetween, -⟩ := reached.keep kept
      cases answer with
      | error error =>
        obtain ⟨raised, rfl⟩ := run_of_refused checked materialized
        rw [conflict] at raised
        simp at raised
      | ok =>
        have later := reach_run_of_materialize checked materialized
        rw [conflict] at later
        exact Command.quiet_of_addsNone kept materialized (later.keep keptBetween).2 (.refl _)
    refine ⟨quiet, ?_⟩
    cases prepared : other.prepare setting again.checkedAt tables with
    | ok asked => exact ⟨asked, rfl⟩
    | error error =>
      rw [run_of_prepare_error checked (Command.materialize_of_quiet quiet) prepared] at conflict
      rw [Except.error.inj (congrArg Prod.fst conflict)] at prepared
      exact (other.prepare_ne_conflict again.checkedAt prepared).elim
  · rintro ⟨quiet, asked, prepared⟩
    have sameKey := (Command.prepare_shapes prepared).1.trans key
    have refused := transact_of_differs injective recorded sameKey (differs asked prepared) again.inside
    rw [Command.run_eq]
    simp only [chain, reading, checked, Command.materialize_of_quiet quiet, prepared, refused, committing]

end

/-- Of a command that was accepted under its key, in any later state and at any later time: it answers
with the same reference and adds no row exactly when its deadline is ahead, neither its subject nor its
result expires on the way and the result can be read; then it leaves the tables. Another command under
that key is a conflict and leaves the tables exactly when its arguments pass and its subject does not
expire on the way. -/
theorem reissued_iff (injective : Function.Injective setting.digest) {earlier later : List Call}
    {here : Surroundings} {command : Command} {order : Order} {ref : String} {written : Tables}
    (accepted : command.Accepted setting here (afterCalls setting earlier) order ref written)
    (again : Surroundings) :
    let tables := afterCalls setting (earlier ++ .command command here :: later)
    ((∃ result, (command.run setting again tables).1 = .ok result ∧ result.ref = ref ∧
        tables.AddsNone (command.run setting again tables).2) ↔
      command.Replayable setting again tables ref) ∧
    (command.Replayable setting again tables ref → (command.run setting again tables).2 = tables) ∧
    ∀ other : Command, other.idempotencyKey = command.idempotencyKey →
      (∀ asked, other.prepare setting again.checkedAt tables = .ok asked → order.Differs asked) →
      (other.run setting again tables = (.error "idempotency_conflict", tables) ↔
        (∀ subject, other.subject? = some subject → tables.Quiet again.opening subject) ∧
          ∃ asked, other.prepare setting again.checkedAt tables = .ok asked) := by
  intro tables
  have keptEarlier := kept_afterCalls setting earlier
  have opening := @reach_materializeSubject setting (afterCalls setting earlier) anyOrder here command
  obtain ⟨keptBetween, -⟩ := opening.keep keptEarlier
  obtain ⟨keptWritten, growsWritten⟩ :=
    keep_transact keptBetween (Command.prepare_checked accepted.prepared).sound accepted.transacted
  -- The steps from the transaction to the later state.
  have steps : Reaches setting anyOrder written tables := by
    have answered : (command.run setting here (afterCalls setting earlier)).2 =
        (command.answer setting here.closing ref written).2 := by
      rw [Command.run_of_transact accepted.key (Prod.ext accepted.materialized rfl) accepted.prepared
        accepted.transacted]
    have same : tables = runInputs (Call.apply setting)
        (command.run setting here (afterCalls setting earlier)).2 later := by
      simp only [tables, afterCalls, runInputs_append, runInputs_cons, apply_command]
    rw [same, answered]
    exact (reach_answer here.closing ref command).trans (reach_anyCalls later)
  obtain ⟨kept, growsLater⟩ := steps.keep keptWritten
  have recorded := (recorded_of_transact accepted.transacted).mono growsLater
  have validated : tables.Validated :=
    Reaches.validated kept_empty (fun row member => (Table.not_mem_empty row member).elim)
      (reach_anyCalls (earlier ++ .command command here :: later))
  have prepared := fun ahead : isAhead setting again.checkedAt command.expiresAt = true =>
    Command.prepare_again (growsWritten.trans growsLater) accepted.prepared ahead
  have replays := fun replayable => run_of_replayable kept validated recorded accepted.key
    (prepared replayable.ahead) replayable
  refine ⟨⟨?_, ?_⟩, ?_, fun other key differs => ?_⟩
  · rintro ⟨result, answered, -, adds⟩
    exact replayable_of_run kept recorded prepared answered adds
  · intro replayable
    obtain ⟨result, answered, named⟩ := replays replayable
    rw [answered]
    exact ⟨result, rfl, named, .refl _⟩
  · intro replayable
    obtain ⟨result, answered, -⟩ := replays replayable
    rw [answered]
  · have sameKey := key.trans (Command.prepare_shapes accepted.prepared).1.symm
    exact run_conflict_iff injective kept recorded sameKey (key ▸ accepted.valid) differs

/-- A command that answers was accepted. -/
private theorem exists_accepted_of_run {command : Command} {here : Surroundings} {outcome : Outcome}
    (answered : (command.run setting here tables).1 = .ok outcome) :
    ∃ order ref written, command.Accepted setting here tables order ref written := by
  obtain ⟨prepared, order, ref, written, key, materialized, checked, transacted, -⟩ :=
    Command.run_ok (Prod.ext answered rfl)
  have same : (command.materialize setting here tables).2 = prepared := congrArg Prod.snd materialized
  exact ⟨order, ref, written, key, congrArg Prod.fst materialized, by rw [same, checked],
    by rw [same, transacted]⟩

/-- The sample opens a request. -/
private theorem answered_sampleOpen :
    ∃ outcome, ((sampleOpen (.real ten)).run sampleSetting (sampleAt 1) {}).1 = .ok outcome := by
  have opens : ((sampleOpen (.real ten)).run sampleSetting (sampleAt 1) {}).1.isOk = true := by
    decide +kernel
  cases answered : ((sampleOpen (.real ten)).run sampleSetting (sampleAt 1) {}).1 with
  | ok outcome => exact ⟨outcome, rfl⟩
  | error _ => simp [answered, Except.isOk, Except.toBool] at opens

theorem reissued_iff_sample :
    ∃ order ref written,
      (sampleOpen (.real ten)).Accepted sampleSetting (sampleAt 1) (afterCalls sampleSetting []) order ref
        written ∧
      let tables := afterCalls sampleSetting ([] ++ .command (sampleOpen (.real ten)) (sampleAt 1) :: [])
      ((sampleOpen (.real ten)).Replayable sampleSetting (sampleAt 2) tables ref →
        ((sampleOpen (.real ten)).run sampleSetting (sampleAt 2) tables).2 = tables) := by
  obtain ⟨outcome, answered⟩ := answered_sampleOpen
  obtain ⟨order, ref, written, accepted⟩ := exists_accepted_of_run answered
  exact ⟨order, ref, written, accepted,
    (@reissued_iff sampleSetting (fun _ _ same => same) [] [] (sampleAt 1) _ order ref written accepted
      (sampleAt 2)).2.1⟩

/-- A command that opened a request at one does not find its result at eleven, after the deadline. -/
theorem reissued_after_deadline :
    (∃ outcome, ((sampleOpen (.real ten)).run sampleSetting (sampleAt 1) {}).1 = .ok outcome) ∧
    ((sampleOpen (.real ten)).run sampleSetting (sampleAt 11)
      (afterCalls sampleSetting [.command (sampleOpen (.real ten)) (sampleAt 1)])).1 =
        .error "human_request_expiry_invalid" := by
  refine ⟨answered_sampleOpen, ?_⟩
  have refused : (sampleOpen (.real ten)).prepare sampleSetting (sampleAt 11).checkedAt
      (afterCalls sampleSetting [.command (sampleOpen (.real ten)) (sampleAt 1)]) =
        .error "human_request_expiry_invalid" := isError_iff.mp (by decide +kernel)
  rw [run_of_prepare_error (by rfl) (by rfl) refused]

end MetaResearch.HumanRequests

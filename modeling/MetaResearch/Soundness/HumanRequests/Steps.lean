import MetaResearch.Soundness.HumanRequests.Orders
import Mathlib.Logic.Relation

/-! # The steps of HumanRequest runs

Whatever a call does to the tables, it does in steps: expirations, transactions of checked orders,
consumptions and responses. An invariant that every step keeps is kept by every run.
-/

namespace MetaResearch.HumanRequests

open Datasets (Uuid newRef optionalText)

variable {setting : Setting} {tables after : Tables}

/-! ### Checked orders -/

/-- The contract that an order asks for. -/
def Body.contract? : Body → Option Contract
  | openRequest contract _ | openEffect _ _ _ contract _ _ | revise _ _ contract _ => some contract
  | evaluate .. | validate .. => none

/-- The contract passed its check at some clock reading. -/
def Contract.Accepted (setting : Setting) (contract : Contract) : Prop :=
  ∃ now arguments, validateContract setting now arguments = .ok contract

/-- A revision stays with the kind of the request. -/
def Body.KeepsKind (tables : Tables) : Body → Prop
  | revise requestRef _ contract _ =>
    ∃ row ∈ tables.requests, row.requestRef = requestRef ∧ row.kind = contract.kind
  | openRequest .. | openEffect .. | evaluate .. | validate .. => True

/-- What the checks of the arguments leave of an order. -/
structure Order.Checked (setting : Setting) (tables : Tables) (order : Order) : Prop where
  sound : order.body.Sound setting tables
  accepted : ∀ contract, order.body.contract? = some contract → contract.Accepted setting
  kind : order.body.KeepsKind tables

theorem Order.Checked.mono {order : Order} (checked : order.Checked setting tables)
    (grows : Grows tables after) : order.Checked setting after := by
  refine ⟨checked.sound.mono grows, checked.accepted, ?_⟩
  obtain ⟨-, -, kind⟩ := checked
  obtain ⟨key, body⟩ := order
  cases body with
  | revise requestRef expectedRevision contract waiters =>
    obtain ⟨row, member, ref, sameKind⟩ := kind
    obtain ⟨later, there, sameRef, core⟩ := grows.find?_request member
    exact ⟨later, there, sameRef.trans ref, (RequestRow.kind_of_core core).trans sameKind⟩
  | openRequest | openEffect | evaluate | validate => trivial

theorem kind_of_validateContract {now : ℚ} {arguments : ContractArguments} {contract : Contract}
    (success : validateContract setting now arguments = .ok contract) :
    contract.kind.text = arguments.requestKind := by
  unfold validateContract at success
  split at success
  · cases success
  · rename_i kind found
    simp only [check_then_eq_ok_iff, bind_eq_ok_iff (α := Dict), bind_eq_ok_iff (α := List String),
      bind_eq_ok_iff (α := Option String), bind_eq_ok_iff (α := Option Dict)] at success
    obtain ⟨-, -, _, -, _, -, -, _, -, _, -, -, same⟩ := success
    cases same
    simpa using List.find?_some found

theorem Kind.eq_of_text {first second : Kind} (same : first.text = second.text) : first = second := by
  cases first <;> cases second <;> first | rfl | simp [Kind.text] at same

theorem Command.prepare_checked {command : Command} {now : ℚ} {order : Order}
    (success : command.prepare setting now tables = .ok order) : order.Checked setting tables := by
  have sound := prepare_sound success
  cases command with
  | openRequest arguments directWaiter key =>
    simp only [prepare, bind_eq_ok_iff (α := Contract), bind_eq_ok_iff (α := Waiter),
      check_then_eq_ok_iff] at success
    obtain ⟨contract, accepted, waiter, -, -, same⟩ := success
    cases same
    exact ⟨sound, fun _ same => by cases same; exact ⟨now, arguments, accepted⟩, trivial⟩
  | openEffect key effectId operationBinding predecessorRequestRef arguments directWaiter =>
    simp only [prepare, bind_eq_ok_iff (α := Contract), bind_eq_ok_iff (α := Waiter),
      bind_eq_ok_iff (α := String), bind_eq_ok_iff (α := Option String), bind_eq_ok_iff (α := Dict),
      check_then_eq_ok_iff] at success
    obtain ⟨-, effectId, -, predecessor, -, contract, accepted, waiter, -, binding, -, same⟩ := success
    cases same
    exact ⟨sound, fun _ same => by cases same; exact ⟨now, arguments, accepted⟩, trivial⟩
  | revise requestRef expectedRevision obligation targetAssertion acceptanceConditions directWaiters key
      requiredAuthorization expiresAt =>
    simp only [prepare] at success
    split at success
    · cases success
    · rename_i current found
      simp only [bind_eq_ok_iff (α := Contract), bind_eq_ok_iff (α := List Waiter),
        check_then_eq_ok_iff] at success
      obtain ⟨contract, accepted, waiters, -, -, -, same⟩ := success
      cases same
      obtain ⟨member, ref⟩ := Table.find?_eq_some_iff.mp found
      refine ⟨sound, fun _ same => by cases same; exact ⟨now, _, accepted⟩, current, member, ref, ?_⟩
      exact (Kind.eq_of_text (kind_of_validateContract accepted)).symm
  | evaluate requestRef responseRefs decision reasonCode acceptedEvidenceRefs key =>
    simp only [prepare] at success
    split at success
    · cases success
    · simp only [bind_eq_ok_iff (α := String), bind_eq_ok_iff (α := List String),
        bind_eq_ok_iff (α := List Response), check_then_eq_ok_iff] at success
      obtain ⟨_, -, _, -, _, -, -, _, -, -, same⟩ := success
      cases same
      exact ⟨sound, fun _ none => (Option.some_ne_none _ none.symm).elim, trivial⟩
  | validate requestRef waiterRef generation targetAssertion otherBlockers key authorizationReceiptRef =>
    simp only [prepare, bind_eq_ok_iff (α := String), bind_eq_ok_iff (α := List String),
      bind_eq_ok_iff (α := Dict), check_then_eq_ok_iff] at success
    obtain ⟨_, -, -, _, -, _, -, -, same⟩ := success
    cases same
    exact ⟨sound, fun _ none => (Option.some_ne_none _ none.symm).elim, trivial⟩

/-- The order is of the kind of the command. -/
def Command.Shapes : Command → Body → Prop
  | .openRequest .., .openRequest .. | .openEffect .., .openEffect .. | .revise .., .revise ..
  | .evaluate .., .evaluate .. | .validate .., .validate .. => True
  | _, _ => False

theorem Command.prepare_shapes {command : Command} {now : ℚ} {order : Order}
    (success : command.prepare setting now tables = .ok order) :
    order.idempotencyKey = command.idempotencyKey ∧ command.Shapes order.body := by
  cases command with
  | openRequest arguments directWaiter key =>
    simp only [prepare, bind_eq_ok_iff (α := Contract), bind_eq_ok_iff (α := Waiter),
      check_then_eq_ok_iff] at success
    obtain ⟨_, -, _, -, -, same⟩ := success
    cases same
    exact ⟨rfl, trivial⟩
  | openEffect key effectId operationBinding predecessorRequestRef arguments directWaiter =>
    simp only [prepare, bind_eq_ok_iff (α := Contract), bind_eq_ok_iff (α := Waiter),
      bind_eq_ok_iff (α := String), bind_eq_ok_iff (α := Option String), bind_eq_ok_iff (α := Dict),
      check_then_eq_ok_iff] at success
    obtain ⟨-, _, -, _, -, _, -, _, -, _, -, same⟩ := success
    cases same
    exact ⟨rfl, trivial⟩
  | revise requestRef expectedRevision obligation targetAssertion acceptanceConditions directWaiters key
      requiredAuthorization expiresAt =>
    simp only [prepare] at success
    split at success
    · cases success
    · simp only [bind_eq_ok_iff (α := Contract), bind_eq_ok_iff (α := List Waiter),
        check_then_eq_ok_iff] at success
      obtain ⟨_, -, _, -, -, -, same⟩ := success
      cases same
      exact ⟨rfl, trivial⟩
  | evaluate requestRef responseRefs decision reasonCode acceptedEvidenceRefs key =>
    simp only [prepare] at success
    split at success
    · cases success
    · simp only [bind_eq_ok_iff (α := String), bind_eq_ok_iff (α := List String),
        bind_eq_ok_iff (α := List Response), check_then_eq_ok_iff] at success
      obtain ⟨_, -, _, -, _, -, -, _, -, -, same⟩ := success
      cases same
      exact ⟨rfl, trivial⟩
  | validate requestRef waiterRef generation targetAssertion otherBlockers key authorizationReceiptRef =>
    simp only [prepare, bind_eq_ok_iff (α := String), bind_eq_ok_iff (α := List String),
      bind_eq_ok_iff (α := Dict), check_then_eq_ok_iff] at success
    obtain ⟨_, -, -, _, -, _, -, -, same⟩ := success
    cases same
    exact ⟨rfl, trivial⟩

/-! ### Steps -/

/-- A transaction of the owner or of those that use it; orders may be restricted. -/
inductive Step (setting : Setting) (allowed : Tables → Order → Prop) : Tables → Tables → Prop
  | expire {tables after : Tables} {stamp : Stamp} {requestRef : String}
    (success : expire setting stamp requestRef tables = .ok after) : Step setting allowed tables after
  | transact {tables after : Tables} {order : Order} {inside : Inside} {ref : String}
    (checked : order.Checked setting tables) (permitted : allowed tables order)
    (success : order.transact setting inside tables = .ok (ref, after)) :
    Step setting allowed tables after
  | consume {tables after : Tables} {stamp : Stamp} {requestRef waiterRef : String} {generation : ℤ}
    {workRef workHash : String}
    (success : consumeReleasedWaiter setting stamp requestRef waiterRef generation workRef workHash
      tables = .ok after) : Step setting allowed tables after
  | respond {tables after : Tables} {response : Response} {requestId : String} {revision : ℕ} {now : ℚ}
    (success : recordResponse setting response requestId revision now tables = .ok after) :
    Step setting allowed tables after

theorem of_recordResponse {response : Response} {requestId : String} {revision : ℕ} {now : ℚ}
    (success : recordResponse setting response requestId revision now tables = .ok after) :
    ∃ responses, insertRow tables.responses response = .ok responses ∧
      after = { tables with responses } := by
  unfold recordResponse at success
  rw [check_then_eq_ok_iff, bind_eq_ok_iff] at success
  obtain ⟨-, responses, inserted, same⟩ := success
  cases same
  exact ⟨responses, inserted, rfl⟩

theorem keep_recordResponse (kept : Kept setting tables) {response : Response} {requestId : String}
    {revision : ℕ} {now : ℚ}
    (success : recordResponse setting response requestId revision now tables = .ok after) :
    Kept setting after ∧ Grows tables after := by
  obtain ⟨responses, inserted, rfl⟩ := of_recordResponse success
  refine ⟨⟨kept.lineage, kept.columns, kept.closings, fun disposition member => ?_, kept.evaluated,
    kept.waiting, kept.validated, kept.consuming, kept.effects⟩,
    { Grows.refl tables with responses := .insert inserted }⟩
  refine verifyDispositionIntegrity_mono ?_ ?_ ?_ (kept.verified disposition member)
  · exact fun _ _ found => found
  · rfl
  · exact fun _ _ found => find?_insertRow_of_some inserted found

variable {allowed : Tables → Order → Prop}

/-- Every step keeps the invariant and takes no row away. -/
theorem keep_step (kept : Kept setting tables) (step : Step setting allowed tables after) :
    Kept setting after ∧ Grows tables after := by
  cases step with
  | expire success => exact keep_expire kept success
  | transact checked _ success => exact keep_transact kept checked.sound success
  | consume success =>
    rcases of_consumeReleasedWaiter success with rfl | ⟨_, _, ⟨consumes⟩⟩
    · exact ⟨kept, .refl _⟩
    · exact keep_consume kept consumes
  | respond success => exact keep_recordResponse kept success

/-- The tables after any number of steps. -/
abbrev Reaches (setting : Setting) (allowed : Tables → Order → Prop) : Tables → Tables → Prop :=
  Relation.ReflTransGen (Step setting allowed)

namespace Reaches

theorem keep (kept : Kept setting tables) (reaches : Reaches setting allowed tables after) :
    Kept setting after ∧ Grows tables after := by
  induction reaches with
  | refl => exact ⟨kept, .refl _⟩
  | tail _ step ih =>
    obtain ⟨keptAfter, grows⟩ := keep_step ih.1 step
    exact ⟨keptAfter, ih.2.trans grows⟩

/-- An invariant that every step keeps, given the general one. -/
theorem invariant {fact : Tables → Prop}
    (keeps : ∀ before later, Kept setting before → Step setting allowed before later → fact before →
      fact later)
    (kept : Kept setting tables) (initial : fact tables)
    (reaches : Reaches setting allowed tables after) : fact after := by
  induction reaches with
  | refl => exact initial
  | tail earlier step ih => exact keeps _ _ (keep kept earlier).1 step ih

end Reaches

/-! ### What a call does -/

section

variable {α β : Type} {first : Except String α × Tables} {next : α → Tables → Except String β × Tables}

theorem chain_eq_ok_iff {value : β} {written : Tables} :
    chain first next = (.ok value, written) ↔
      ∃ middle between, first = (.ok middle, between) ∧ next middle between = (.ok value, written) := by
  obtain ⟨result, state⟩ := first
  cases result <;> simp [chain]

theorem reach_chain (here : Reaches setting allowed tables first.2)
    (later : ∀ value, first.1 = .ok value →
      Reaches setting allowed first.2 (next value first.2).2) :
    Reaches setting allowed tables (chain first next).2 := by
  obtain ⟨result, state⟩ := first
  cases result with
  | error _ => exact here
  | ok value => exact here.trans (later value rfl)

theorem reach_committing {transaction : Except String (α × Tables)}
    (reaches : ∀ value written, transaction = .ok (value, written) → Step setting allowed tables written) :
    Reaches setting allowed tables (committing transaction tables).2 := by
  cases transaction with
  | error _ => exact .refl
  | ok written => exact .single (reaches written.1 written.2 rfl)

/-- A transaction that may raise. -/
theorem reach_toOption {transaction : Except String Tables}
    (reaches : ∀ written, transaction = .ok written → Step setting allowed tables written) :
    Reaches setting allowed tables (transaction.toOption.getD tables) := by
  cases transaction with
  | error _ => exact .refl
  | ok written => exact .single (reaches written rfl)

end

theorem reach_materialize (moment : Moment) (requestRef : String) :
    Reaches setting allowed tables (materializeExpirationIfDue setting moment requestRef tables).2 := by
  unfold materializeExpirationIfDue
  split
  · refine reach_committing fun value written success => ?_
    cases expired : expire setting moment.write requestRef tables with
    | error _ => simp [expired, Except.map] at success
    | ok expiredTables =>
      rw [expired] at success
      cases success
      exact .expire expired
  · exact .refl

theorem reach_query (moment : Moment) (requestRef : String) :
    Reaches setting allowed tables (queryHumanRequest setting moment requestRef tables).2 :=
  reach_chain (reach_materialize moment requestRef) fun _ _ => .refl

theorem reach_answer (moment : Moment) (ref : String) (command : Command) :
    Reaches setting allowed tables (command.answer setting moment ref tables).2 := by
  cases command with
  | validate => exact .refl
  | openRequest | openEffect | revise | evaluate =>
    exact reach_chain (reach_query moment ref) fun _ _ => .refl

/-- The part of a command before its argument checks. -/
def Command.materialize (setting : Setting) (here : Surroundings) (tables : Tables)
    (command : Command) : Except String Unit × Tables :=
  command.subject?.elim (.ok (), tables) fun ref =>
    materializeExpirationIfDue setting here.opening ref tables

theorem reach_materializeSubject (here : Surroundings) (command : Command) :
    Reaches setting allowed tables (command.materialize setting here tables).2 := by
  unfold Command.materialize
  cases command.subject? with
  | none => exact .refl
  | some ref => exact reach_materialize here.opening ref

theorem Command.run_eq (here : Surroundings) (command : Command) :
    command.run setting here tables =
      chain (reading (command.checkKey setting) tables) fun _ tables =>
      chain (command.materialize setting here tables) fun _ tables =>
      chain (reading (command.prepare setting here.checkedAt tables) tables) fun order tables =>
      chain (committing (order.transact setting here.inside tables) tables) fun ref tables =>
      command.answer setting here.closing ref tables := rfl

/-- The order that a command makes is allowed in the tables that its transaction meets. -/
def Command.Allows (setting : Setting) (allowed : Tables → Order → Prop) (here : Surroundings)
    (tables : Tables) (command : Command) : Prop :=
  ∀ order, command.prepare setting here.checkedAt (command.materialize setting here tables).2 =
    .ok order → allowed (command.materialize setting here tables).2 order

theorem reach_run {here : Surroundings} {command : Command}
    (allows : command.Allows setting allowed here tables) :
    Reaches setting allowed tables (command.run setting here tables).2 := by
  rw [Command.run_eq]
  refine reach_chain .refl fun _ _ => ?_
  refine reach_chain (reach_materializeSubject here command) fun _ _ => ?_
  refine reach_chain .refl fun order prepared => ?_
  refine reach_chain (reach_committing fun ref written success => ?_) fun ref _ =>
    reach_answer here.closing ref command
  exact .transact (Command.prepare_checked prepared) (allows order prepared) success

theorem reach_reconcile (first second : Moment) (effectKey : String) :
    Reaches setting allowed tables
      (reconcileHumanRequestEffect setting first second effectKey tables).2 := by
  unfold reconcileHumanRequestEffect
  refine reach_chain .refl fun _ _ => ?_
  simp only [reading]
  split
  · exact .refl
  · rename_i row _
    refine reach_chain (reach_query first row.requestRef) fun shown? _ => ?_
    split
    · exact .refl
    · split_ifs
      · exact .refl
      · split
        · exact .refl
        · rename_i current _
          exact reach_chain (reach_query second current.requestRef) fun _ _ => .refl
      · exact .refl

/-! ### Runs of calls -/

theorem apply_command (here : Surroundings) (command : Command) :
    Call.apply setting tables (.command command here) = (command.run setting here tables).2 := rfl

theorem afterCalls_singleton (call : Call) : afterCalls setting [call] = call.apply setting {} := rfl

theorem afterCalls_pair (first second : Call) :
    afterCalls setting [first, second] = second.apply setting (first.apply setting {}) := rfl

/-- The order of a command is allowed; the other calls are free. -/
def Call.Allows (setting : Setting) (allowed : Tables → Order → Prop) (tables : Tables) : Call → Prop
  | command issued here => issued.Allows setting allowed here tables
  | query .. | reconcile .. | consume .. | respond .. => True

theorem reach_apply {call : Call} (allows : call.Allows setting allowed tables) :
    Reaches setting allowed tables (call.apply setting tables) := by
  cases call with
  | command issued here => exact reach_run allows
  | query requestRef moment => exact reach_query moment requestRef
  | reconcile effectKey first second => exact reach_reconcile first second effectKey
  | consume => exact reach_toOption fun _ success => .consume success
  | respond => exact reach_toOption fun _ success => .respond success

/-- The calls of a run whose orders are all allowed. -/
theorem reach_calls {calls : List Call}
    (run : Admissible (Call.apply setting) (Call.Allows setting allowed) tables calls) :
    Reaches setting allowed tables (runInputs (Call.apply setting) tables calls) := by
  induction calls generalizing tables with
  | nil => exact .refl
  | cons call rest ih => exact (reach_apply run.1).trans (ih run.2)

/-- Every order. -/
def anyOrder : Tables → Order → Prop := fun _ _ => True

theorem admissible_anyOrder (calls : List Call) :
    Admissible (Call.apply setting) (Call.Allows setting anyOrder) tables calls := by
  induction calls generalizing tables with
  | nil => trivial
  | cons call rest ih =>
    refine ⟨?_, ih⟩
    cases call with
    | command => exact fun _ _ => trivial
    | query | reconcile | consume | respond => trivial

theorem reach_anyCalls (calls : List Call) :
    Reaches setting anyOrder tables (runInputs (Call.apply setting) tables calls) :=
  reach_calls (admissible_anyOrder calls)

/-- Every run of calls keeps the invariant and takes no row away. -/
theorem keep_calls (kept : Kept setting tables) (calls : List Call) :
    Kept setting (runInputs (Call.apply setting) tables calls) ∧
      Grows tables (runInputs (Call.apply setting) tables calls) :=
  Reaches.keep kept (reach_anyCalls calls)

theorem kept_afterCalls (setting : Setting) (calls : List Call) :
    Kept setting (afterCalls setting calls) := (keep_calls kept_empty calls).1

end MetaResearch.HumanRequests

import MetaResearch.Soundness.HumanRequests.Steps

/-! # HumanRequest queries as a whole

A query first makes up for an expiration. That raises only when an identifier that it draws is taken;
then the request is shown when it is intact and settled.
-/

namespace MetaResearch.HumanRequests

open Datasets (Uuid newRef)

variable {setting : Setting} {tables after : Tables} {row : RequestRow}

/-! ### Earlier rows -/

/-- The row is one from before, and current only if that was. -/
def RequestRow.From (row : RequestRow) (requests : Table RequestRow.requestRef) : Prop :=
  ∃ old ∈ requests, row.core = old.core ∧ (row.isCurrent = true → old.isCurrent = true)

theorem from_update {requests : Table RequestRow.requestRef} {ref : String}
    {rewrite : Rewrite RequestRow.requestRef} (core : Rewrite.KeepsCore rewrite)
    (current : ∀ row, (rewrite.apply row).isCurrent = true → row.isCurrent = true) :
    ∀ row ∈ requests.update (·.requestRef = ref) rewrite, row.From requests := by
  intro row member
  obtain ⟨old, there, rfl⟩ := mem_update_iff.mp member
  refine ⟨old, there, ?_⟩
  split
  · exact ⟨core old, current old⟩
  · exact ⟨rfl, id⟩

theorem from_self {requests : Table RequestRow.requestRef} {row : RequestRow}
    (member : row ∈ requests) : row.From requests := ⟨row, member, rfl, id⟩

/-! ### Expirations -/

theorem exists_insertRow_iff {κ ρ : Type} [DecidableEq κ] {key : ρ → κ} {table : Table key} {new : ρ} :
    (∃ inserted, insertRow table new = .ok inserted) ↔ ∀ other ∈ table, key other ≠ key new := by
  constructor
  · rintro ⟨inserted, success⟩ other member
    exact key_ne_of_insertRow success member
  · intro fresh
    unfold insertRow
    cases inserted : table.insert? new with
    | some after => exact ⟨after, rfl⟩
    | none =>
      unfold Table.insert? at inserted
      split at inserted
      · rename_i present
        obtain ⟨other, member, same⟩ := List.mem_map.mp present
        exact (fresh other member same).elim
      · cases inserted

/-- The identifiers that an expiration would draw are not taken, if the request is due. -/
def Tables.Lands (tables : Tables) (moment : Moment) (requestRef : String) : Prop :=
  tables.isDue requestRef moment.read = true → tables.isDue requestRef moment.write.now = true →
    ∀ other ∈ tables.dispositions,
      other.dispositionRef ≠ newRef "human_disposition" moment.write.draws.disposition ∧
        other.receiptRef ≠ newRef "owner_receipt" moment.write.draws.receipt

theorem Tables.Lands.of_not_due {moment : Moment} {requestRef : String}
    (early : tables.isDue requestRef moment.read = false) : tables.Lands moment requestRef := by
  intro due
  rw [early] at due
  cases due

theorem exists_expire_iff (kept : Kept setting tables) {stamp : Stamp} {requestRef : String} :
    (∃ written, expire setting stamp requestRef tables = .ok written) ↔
      (tables.isDue requestRef stamp.now = true → ∀ other ∈ tables.dispositions,
        other.dispositionRef ≠ newRef "human_disposition" stamp.draws.disposition ∧
          other.receiptRef ≠ newRef "owner_receipt" stamp.draws.receipt) := by
  unfold expire
  split_ifs with due
  · obtain ⟨row, member, ref, -, opened, -⟩ := find?_of_isDue due
    have absent := (kept.closings.opened_iff member).mp opened
    rw [ref, Table.find?_eq_none_iff] at absent
    have room := exists_insertRow_iff.mpr fun other present => show other.requestRef ≠
      (dispositionRow setting stamp requestRef .expired none).requestRef from absent other present
    obtain ⟨dispositions, inserted⟩ := room
    unfold insertDisposition
    simp only [check_then_eq_ok_iff, bind_eq_ok_iff (α := Table DispositionRow.requestRef),
      require_eq_ok_iff, List.all_eq_true, Bool.and_eq_true, decide_eq_true_iff]
    constructor
    · rintro ⟨_, fresh, -⟩ -
      exact fresh
    · intro fresh
      exact ⟨_, fresh due, dispositions, inserted, rfl⟩
  · exact ⟨fun _ absurd => (due absurd).elim, fun _ => ⟨tables, rfl⟩⟩

theorem insertDisposition_error {stamp : Stamp} {requestRef : String} {decision : Disposition}
    {evaluationRef : Option String} {error : String}
    (raised : insertDisposition setting stamp requestRef decision evaluationRef tables = .error error) :
    error = "IntegrityError" := by
  unfold insertDisposition require insertRow at raised
  simp only at raised
  split_ifs at raised
  · split at raised
    · cases raised
    · cases raised
      rfl
  · cases raised
    rfl

theorem expire_error {stamp : Stamp} {requestRef error : String}
    (raised : expire setting stamp requestRef tables = .error error) : error = "IntegrityError" := by
  unfold expire at raised
  split_ifs at raised
  · exact insertDisposition_error raised
  · cases raised

section

variable {moment : Moment} {requestRef : String}

/-- What is made up for touches requests, waiters and dispositions only. -/
theorem materialize_frame : ∃ requests waiters dispositions,
    (materializeExpirationIfDue setting moment requestRef tables).2 =
      { tables with requests, waiters, dispositions } := by
  unfold materializeExpirationIfDue
  split_ifs
  · cases expired : expire setting moment.write requestRef tables with
    | error _ => exact ⟨_, _, _, rfl⟩
    | ok written =>
      rcases of_expire expired with ⟨-, rfl⟩ | ⟨-, dispositions, -, rfl⟩
      · exact ⟨_, _, _, rfl⟩
      · exact ⟨_, _, _, rfl⟩
  · exact ⟨_, _, _, rfl⟩

theorem settled_materialize {ref : String} :
    (materializeExpirationIfDue setting moment requestRef tables).2.Settled ref ↔ tables.Settled ref := by
  obtain ⟨requests, waiters, dispositions, same⟩ := @materialize_frame setting tables moment requestRef
  rw [same]
  exact Iff.rfl

theorem materialize_of_not_due (early : tables.isDue requestRef moment.read = false) :
    materializeExpirationIfDue setting moment requestRef tables = (.ok (), tables) := by
  unfold materializeExpirationIfDue
  simp [early]

theorem materialize_eq_ok_iff (kept : Kept setting tables) :
    (materializeExpirationIfDue setting moment requestRef tables).1 = .ok () ↔
      tables.Lands moment requestRef := by
  unfold materializeExpirationIfDue Tables.Lands
  split_ifs with due
  · rw [forall_prop_of_true due, ← exists_expire_iff kept]
    cases expire setting moment.write requestRef tables <;> simp [committing, Except.map]
  · exact iff_of_true rfl fun absurd => (due absurd).elim

theorem materialize_error {error : String}
    (raised : (materializeExpirationIfDue setting moment requestRef tables).1 = .error error) :
    error = "IntegrityError" := by
  unfold materializeExpirationIfDue at raised
  split_ifs at raised
  cases expired : expire setting moment.write requestRef tables with
  | ok written => simp [expired, committing, Except.map] at raised
  | error other =>
    simp only [expired, committing, Except.map, Except.error.injEq] at raised
    rw [← raised]
    exact expire_error expired

/-! ### Queries -/

/-- The tables that a query reads. -/
def Tables.madeUp (tables : Tables) (setting : Setting) (moment : Moment) (requestRef : String) : Tables :=
  (materializeExpirationIfDue setting moment requestRef tables).2

theorem query_of_lands (kept : Kept setting tables) (lands : tables.Lands moment requestRef) :
    queryHumanRequest setting moment requestRef tables =
      (readHumanRequest setting (tables.madeUp setting moment requestRef) requestRef,
        tables.madeUp setting moment requestRef) := by
  have answer := (materialize_eq_ok_iff kept).mpr lands
  unfold queryHumanRequest Tables.madeUp
  generalize materializeExpirationIfDue setting moment requestRef tables = result at answer
  obtain ⟨raised, written⟩ := result
  cases answer
  rfl

theorem query_of_not_lands (kept : Kept setting tables) (taken : ¬ tables.Lands moment requestRef) :
    (queryHumanRequest setting moment requestRef tables).1 = .error "IntegrityError" := by
  rw [← materialize_eq_ok_iff kept] at taken
  unfold queryHumanRequest
  cases answer : (materializeExpirationIfDue setting moment requestRef tables).1 with
  | ok value => exact (taken answer).elim
  | error error =>
    have raised := materialize_error answer
    generalize materializeExpirationIfDue setting moment requestRef tables = result at answer
    obtain ⟨first, written⟩ := result
    cases answer
    simp [chain, raised]

theorem from_madeUp : ∀ row ∈ (tables.madeUp setting moment requestRef).requests,
    row.From tables.requests := by
  unfold Tables.madeUp materializeExpirationIfDue
  split_ifs
  · cases expired : expire setting moment.write requestRef tables with
    | error _ => exact fun row => from_self
    | ok written =>
      rcases of_expire expired with ⟨-, rfl⟩ | ⟨-, dispositions, -, rfl⟩
      · exact fun row => from_self
      · exact from_update (keepsCore_setStatus _) fun _ current => current
  · exact fun row => from_self

/-- A request is still there when the query reads it. -/
theorem exists_madeUp (kept : Kept setting tables) (member : row ∈ tables.requests) :
    Kept setting (tables.madeUp setting moment requestRef) ∧
      ∃ later ∈ (tables.madeUp setting moment requestRef).requests,
        later.requestRef = row.requestRef ∧ later.core = row.core := by
  have reached := @reach_materialize setting tables anyOrder moment requestRef
  obtain ⟨keptAfter, grows⟩ := reached.keep kept
  exact ⟨keptAfter, grows.find?_request member⟩

theorem effectOf_madeUp (ref : String) :
    (tables.madeUp setting moment requestRef).effectOf ref = tables.effectOf ref := by
  obtain ⟨requests, waiters, dispositions, frame⟩ := @materialize_frame setting tables moment requestRef
  rw [Tables.madeUp, frame]
  rfl

/-- A request is shown when what is made up for lands and the request is intact and settled. -/
theorem query_ok (kept : Kept setting tables) (member : row ∈ tables.requests)
    (lands : tables.Lands moment row.requestRef) (intact : row.Intact setting)
    (settled : tables.Settled row.requestRef) :
    ∃ shown, (queryHumanRequest setting moment row.requestRef tables).1 = .ok (some shown) ∧
      shown.request ∈ (tables.madeUp setting moment row.requestRef).requests ∧
      shown.request.core = row.core ∧ shown.openEffect = tables.effectOf row.requestRef := by
  obtain ⟨keptAfter, later, there, ref, core⟩ :=
    @exists_madeUp setting tables row moment row.requestRef kept member
  have read := readHumanRequest_ok keptAfter there ((RequestRow.intact_of_core core).mpr intact)
    (ref.symm ▸ settled_materialize.mpr settled)
  rw [query_of_lands kept lands]
  refine ⟨(tables.madeUp setting moment row.requestRef).shown setting later, ref ▸ read, there, core, ?_⟩
  rw [Tables.shown, ref]
  exact effectOf_madeUp row.requestRef

/-- What is known of a request that a query shows. -/
theorem of_query_ok (kept : Kept setting tables) (member : row ∈ tables.requests) {shown : PublicRequest}
    (found : (queryHumanRequest setting moment row.requestRef tables).1 = .ok (some shown)) :
    (tables.Lands moment row.requestRef ∧ row.Intact setting ∧ tables.Settled row.requestRef) ∧
      shown.request ∈ (tables.madeUp setting moment row.requestRef).requests ∧
      shown.request.core = row.core ∧ shown.openEffect = tables.effectOf row.requestRef := by
  have facts : tables.Lands moment row.requestRef ∧ row.Intact setting ∧
      tables.Settled row.requestRef := by
    by_cases lands : tables.Lands moment row.requestRef
    · obtain ⟨keptAfter, later, there, ref, core⟩ :=
        @exists_madeUp setting tables row moment row.requestRef kept member
      have read : readHumanRequest setting (tables.madeUp setting moment row.requestRef)
          later.requestRef = .ok (some shown) := by
        rw [query_of_lands kept lands] at found
        rw [ref]
        exact found
      refine ⟨lands, ?_, ?_⟩
      · by_contra changed
        rw [readHumanRequest_of_not_intact keptAfter there
          fun intact => changed ((RequestRow.intact_of_core core).mp intact)] at read
        cases read
      · have settled := settled_of_readHumanRequest keptAfter there read
        rw [ref] at settled
        exact settled_materialize.mp settled
    · rw [query_of_not_lands kept lands] at found
      cases found
  obtain ⟨again, foundAgain, rest⟩ := query_ok kept member facts.1 facts.2.1 facts.2.2
  rw [found] at foundAgain
  cases foundAgain
  exact ⟨facts, rest⟩

theorem query_ok_iff (kept : Kept setting tables) (member : row ∈ tables.requests) :
    (∃ shown, (queryHumanRequest setting moment row.requestRef tables).1 = .ok (some shown) ∧
        shown.request.requestRef = row.requestRef) ↔
      tables.Lands moment row.requestRef ∧ row.Intact setting ∧ tables.Settled row.requestRef := by
  constructor
  · rintro ⟨shown, found, -⟩
    exact (of_query_ok kept member found).1
  · rintro ⟨lands, intact, settled⟩
    obtain ⟨shown, found, -, core, -⟩ := query_ok kept member lands intact settled
    exact ⟨shown, found, RequestRow.requestRef_of_core core⟩

/-- A query refuses a request for its identity when that has changed. -/
theorem query_artifact_invalid_iff (kept : Kept setting tables) (member : row ∈ tables.requests) :
    (queryHumanRequest setting moment row.requestRef tables).1 = .error "human_request_artifact_invalid" ↔
      tables.Lands moment row.requestRef ∧ ¬ row.Intact setting := by
  by_cases lands : tables.Lands moment row.requestRef
  · obtain ⟨keptAfter, later, there, ref, core⟩ :=
      @exists_madeUp setting tables row moment row.requestRef kept member
    have read : readHumanRequest setting (tables.madeUp setting moment row.requestRef) row.requestRef =
        readHumanRequest setting (tables.madeUp setting moment row.requestRef) later.requestRef := by
      rw [ref]
    rw [query_of_lands kept lands, ← RequestRow.intact_of_core core]
    simp only [read]
    constructor
    · intro refused
      exact ⟨lands, fun intact =>
        readHumanRequest_ne_artifact_invalid keptAfter there intact refused⟩
    · rintro ⟨-, changed⟩
      exact readHumanRequest_of_not_intact keptAfter there changed
  · rw [query_of_not_lands kept lands]
    exact iff_of_false (by simp) fun both => lands both.1

theorem query_snd : (queryHumanRequest setting moment requestRef tables).2 =
    tables.madeUp setting moment requestRef := by
  unfold queryHumanRequest Tables.madeUp
  generalize materializeExpirationIfDue setting moment requestRef tables = result
  obtain ⟨answer, written⟩ := result
  cases answer <;> rfl

/-! ### Answers -/

/-- The command opens an effect. -/
def Command.opensEffect : Command → Bool
  | .openEffect .. => true
  | .openRequest .. | .revise .. | .evaluate .. | .validate .. => false

/-- The command answers with a request. -/
def Command.answersRequest : Command → Bool
  | .validate .. => false
  | .openRequest .. | .openEffect .. | .revise .. | .evaluate .. => true

theorem answer_snd {command : Command} (request : command.answersRequest = true) {ref : String} :
    (command.answer setting moment ref tables).2 = tables.madeUp setting moment ref := by
  rw [← query_snd]
  cases command with
  | validate => cases request
  | openRequest | openEffect | revise | evaluate =>
    unfold Command.answer
    generalize queryHumanRequest setting moment ref tables = result
    obtain ⟨answer, written⟩ := result
    cases answer <;> rfl

/-- A command answers with the request that its final query shows. -/
theorem answer_eq_ok_iff {command : Command} (request : command.answersRequest = true) {ref : String}
    {outcome : Outcome} :
    (command.answer setting moment ref tables).1 = .ok outcome ↔
      ∃ shown, (queryHumanRequest setting moment ref tables).1 = .ok (some shown) ∧
        (command.opensEffect = true → shown.openEffect.isSome = true) ∧ outcome = .request shown := by
  cases command with
  | validate => cases request
  | openEffect =>
    simp only [Command.answer, Command.opensEffect, forall_const]
    generalize queryHumanRequest setting moment ref tables = result
    obtain ⟨answer, written⟩ := result
    cases answer with
    | error _ => simp [chain]
    | ok shown? =>
      cases shown? with
      | none => simp [chain, reading]
      | some shown =>
        simp only [chain, reading, check_then_eq_ok_iff, require_eq_ok_iff, pure, Except.pure,
          Except.ok.injEq, Option.some.injEq, exists_eq_left']
        exact and_congr_right fun _ => eq_comm
  | openRequest | revise | evaluate =>
    simp only [Command.answer, Command.opensEffect, Bool.false_eq_true, false_imp_iff, true_and]
    generalize queryHumanRequest setting moment ref tables = result
    obtain ⟨answer, written⟩ := result
    cases answer with
    | error _ => simp [chain]
    | ok shown? =>
      cases shown? with
      | none => simp [chain, reading]
      | some shown =>
        simp only [chain, reading, pure, Except.pure, Except.ok.injEq, Option.some.injEq,
          exists_eq_left']
        exact eq_comm

end

/-- A command whose transaction goes through answers. -/
theorem Command.run_of_transact {command : Command} {here : Surroundings} {prepared written : Tables}
    {order : Order} {ref : String} (key : command.checkKey setting = .ok ())
    (materialized : command.materialize setting here tables = (.ok (), prepared))
    (checked : command.prepare setting here.checkedAt prepared = .ok order)
    (transacted : order.transact setting here.inside prepared = .ok (ref, written)) :
    command.run setting here tables = command.answer setting here.closing ref written := by
  simp only [Command.run_eq, chain, reading, committing, key, materialized, checked, transacted]

/-- The parts of a command that returns. -/
theorem Command.run_ok {command : Command} {here : Surroundings} {outcome : Outcome}
    (answered : command.run setting here tables = (.ok outcome, after)) :
    ∃ prepared order ref written, command.checkKey setting = .ok () ∧
      command.materialize setting here tables = (.ok (), prepared) ∧
      command.prepare setting here.checkedAt prepared = .ok order ∧
      order.transact setting here.inside prepared = .ok (ref, written) ∧
      command.answer setting here.closing ref written = (.ok outcome, after) := by
  rw [Command.run_eq, chain_eq_ok_iff] at answered
  obtain ⟨_, _, key, answered⟩ := answered
  rw [chain_eq_ok_iff] at answered
  obtain ⟨_, prepared, materialized, answered⟩ := answered
  rw [chain_eq_ok_iff] at answered
  obtain ⟨order, _, checked, answered⟩ := answered
  rw [chain_eq_ok_iff] at answered
  obtain ⟨ref, written, transacted, answered⟩ := answered
  obtain ⟨keyValid, rfl⟩ := Prod.ext_iff.mp key
  obtain ⟨orderIs, rfl⟩ := Prod.ext_iff.mp checked
  refine ⟨_, order, ref, written, keyValid, materialized, orderIs, ?_, answered⟩
  unfold committing at transacted
  split at transacted
  · rename_i same
    cases transacted
    exact same
  · cases transacted

end MetaResearch.HumanRequests

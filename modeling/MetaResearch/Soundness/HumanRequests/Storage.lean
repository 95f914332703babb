import MetaResearch.Soundness.HumanRequests.Queries

/-! # What the storage of a HumanRequest keeps of its contract

The identity of a request is the hash of its contract in memory. It is checked against the contract that
the columns give back. The column of deadlines holds floats, so a contract comes back as it went in
unless its deadline is an integer.
-/

namespace MetaResearch.HumanRequests

open Datasets (Uuid newRef optionalText canonicalHash)

variable {setting : Setting} {tables after : Tables} {contract : Contract}

/-- The contract expires at an integer. -/
def Contract.hasWholeDeadline (contract : Contract) : Bool := contract.expiresAt.any Number.isWhole

/-! ### The text of a contract -/

/-- The contract with another deadline. -/
def Contract.withDeadline (contract : Contract) (expiresAt : Option Json) : Json :=
  contractJson contract.questRef contract.kind contract.obligation contract.businessPurpose
    contract.targetAssertion.json (Json.texts contract.acceptanceConditions)
    (contract.requiredAuthorization.map Dict.json) expiresAt

/-- The deadline of a contract can be told from its text. -/
theorem expiresAt_of_same {first second : Contract} {deadline other : Option Json}
    (distinct : (deadline.getD .null).distinct = true) (distinctToo : (other.getD .null).distinct = true)
    (same : (first.withDeadline deadline).Same (second.withDeadline other)) :
    (deadline.getD .null).Same (other.getD .null) := by
  have fields (contract : Contract) {deadline : Option Json}
      (distinct : (deadline.getD .null).distinct = true) :
      (contract.withDeadline deadline).distinct = true := by
    have quest : (optionalText contract.questRef).distinct = true := by cases contract.questRef <;> rfl
    have authorized : ((contract.requiredAuthorization.map Dict.json).getD .null).distinct = true := by
      cases contract.requiredAuthorization with
      | none => rfl
      | some dict => exact dict.distinct
    rw [Contract.withDeadline, contractJson, Json.distinct_object_iff]
    refine ⟨by simp, fun field member => ?_⟩
    simp only [List.mem_cons, List.not_mem_nil, or_false] at member
    rcases member with rfl | rfl | rfl | rfl | rfl | rfl | rfl | rfl
    · exact quest
    · rfl
    · rfl
    · rfl
    · exact contract.targetAssertion.distinct
    · exact Json.distinct_texts _
    · exact authorized
    · exact distinct
  have shown := @Dict.same_get ⟨_, fields first distinct⟩ ⟨_, fields second distinctToo⟩ same
    "expires_at"
  simpa [Dict.get, Json.get, List.lookup_cons] using shown

theorem wellFormed_texts (values : List String) : (Json.texts values).wellFormed = true := by
  rw [Json.texts, Json.wellFormed, Json.itemsWellFormed_eq_all, List.all_map]
  exact List.all_eq_true.mpr fun _ _ => rfl

theorem wellFormed_of_object {value checked : Dict} {code : String}
    (success : object value code = .ok checked) : checked.json.wellFormed = true := by
  unfold object at success
  simp only [check_then_eq_ok_iff, require_eq_ok_iff] at success
  obtain ⟨-, formed, -, same⟩ := success
  cases same
  rw [Dict.json_reload, Json.wellFormed_canonical, formed]

/-- The dictionaries of an accepted contract are well formed. -/
theorem wellFormed_of_accepted (accepted : contract.Accepted setting) :
    contract.targetAssertion.json.wellFormed = true ∧
      ((contract.requiredAuthorization.map Dict.json).getD .null).wellFormed = true := by
  obtain ⟨now, arguments, success⟩ := accepted
  unfold validateContract at success
  split at success
  · cases success
  · simp only [check_then_eq_ok_iff, bind_eq_ok_iff (α := Dict), bind_eq_ok_iff (α := List String),
      bind_eq_ok_iff (α := Option String), bind_eq_ok_iff (α := Option Dict)] at success
    obtain ⟨-, -, target, checked, _, -, -, _, -, authorization, authorized, -, same⟩ := success
    cases same
    refine ⟨wellFormed_of_object checked, ?_⟩
    cases given : arguments.requiredAuthorization with
    | none =>
      rw [given] at authorized
      cases authorized
      rfl
    | some value =>
      rw [given, checkOptional, bind_eq_ok_iff] at authorized
      obtain ⟨dict, passed, same⟩ := authorized
      cases same
      exact wellFormed_of_object passed

private theorem wellFormed_number (number : Number) : number.json.wellFormed = true := by
  cases number with
  | whole => rfl
  | real double => exact double.fractional

theorem Contract.wellFormed_withDeadline (accepted : contract.Accepted setting) {deadline : Option Json}
    (formed : (deadline.getD .null).wellFormed = true) :
    (contract.withDeadline deadline).wellFormed = true := by
  obtain ⟨target, authorized⟩ := wellFormed_of_accepted accepted
  have quest : (optionalText contract.questRef).wellFormed = true := by cases contract.questRef <;> rfl
  rw [withDeadline, contractJson, Json.wellFormed, Json.fieldsWellFormed_eq_all]
  simp [quest, target, authorized, formed, wellFormed_texts, Json.wellFormed]

theorem Contract.wellFormed_json (accepted : contract.Accepted setting) :
    contract.json.wellFormed = true := by
  refine wellFormed_withDeadline accepted ?_
  cases contract.expiresAt with
  | none => rfl
  | some number => exact wellFormed_number number

/-! ### A contract and its columns -/

section

variable (contract) (requestId : String) (revision : ℕ) (predecessor : Option String) (now : ℚ)

/-- The deadline as the column gives it back. -/
def Contract.storedDeadline (setting : Setting) (contract : Contract) : Option Json :=
  contract.expiresAt.map fun number => .number (number.float setting.float).literal

/-- A row is read back as its contract, but for the deadline. -/
theorem same_contract_row :
    (contract.row setting requestId revision predecessor now).contract.Same
      (contract.withDeadline (contract.storedDeadline setting)) := by
  have authorized : ((contract.requiredAuthorization.map fun dict : Dict =>
      dict.json.canonical).getD .null).canonical =
        ((contract.requiredAuthorization.map Dict.json).getD .null).canonical := by
    cases contract.requiredAuthorization with
    | none => rfl
    | some dict => exact Json.canonical_canonical _ dict.distinct
  have target : contract.targetAssertion.json.canonical.canonical =
      contract.targetAssertion.json.canonical :=
    Json.canonical_canonical _ contract.targetAssertion.distinct
  have conditions := Json.canonical_canonical _ (Json.distinct_texts contract.acceptanceConditions)
  simp only [RequestRow.contract, Contract.row, Setting.sealed, Option.map_map, Function.comp_def,
    Contract.withDeadline, Contract.storedDeadline, Json.Same, contractJson, Json.canonical,
    Json.canonicalFields, authorized]
  rw [target, conditions]

theorem storedDeadline_of_not_whole (real : contract.hasWholeDeadline = false) :
    contract.storedDeadline setting = contract.expiresAt.map Number.json := by
  unfold Contract.hasWholeDeadline at real
  unfold Contract.storedDeadline
  cases found : contract.expiresAt with
  | none => rfl
  | some number =>
    cases number with
    | whole value => simp [found, Number.isWhole] at real
    | real double => rfl

/-- A contract without an integer deadline comes back with its identity. -/
theorem intact_row (real : contract.hasWholeDeadline = false) :
    (contract.row setting requestId revision predecessor now).Intact setting := by
  have same := @same_contract_row setting contract requestId revision predecessor now
  rw [storedDeadline_of_not_whole contract real] at same
  unfold RequestRow.Intact
  rw [Setting.hash, canonicalHash, Json.dumps_eq_of_same same]
  rfl

end

private theorem wellFormed_storedDeadline (setting : Setting) (contract : Contract) :
    ((contract.storedDeadline setting).getD .null).wellFormed = true := by
  unfold Contract.storedDeadline
  cases contract.expiresAt with
  | none => rfl
  | some number => exact (number.float setting.float).fractional

private theorem distinct_storedDeadline :
    ((contract.storedDeadline setting).getD .null).distinct = true := by
  unfold Contract.storedDeadline
  cases contract.expiresAt <;> rfl

private theorem distinct_deadline (contract : Contract) :
    ((contract.expiresAt.map Number.json).getD .null).distinct = true := by
  cases contract.expiresAt with
  | none => rfl
  | some number => cases number <;> rfl

/-- Contracts of one identity agree on whether they expire at an integer. -/
theorem hasWholeDeadline_of_hash (injective : Function.Injective setting.digest) {other : Contract}
    (accepted : contract.Accepted setting) (acceptedToo : other.Accepted setting)
    (same : setting.hash contract.json = setting.hash other.json) :
    contract.hasWholeDeadline = other.hasWholeDeadline := by
  have texts := Json.same_of_dumps_eq (Contract.wellFormed_json accepted)
    (Contract.wellFormed_json acceptedToo) (injective same)
  have deadlines := expiresAt_of_same (distinct_deadline contract) (distinct_deadline other) texts
  unfold Contract.hasWholeDeadline
  cases here : contract.expiresAt with
  | none =>
    cases there : other.expiresAt with
    | none => rfl
    | some number => cases number <;> simp [here, there, Json.Same, Number.json, Json.canonical] at deadlines
  | some number =>
    cases there : other.expiresAt with
    | none => cases number <;> simp [here, there, Json.Same, Number.json, Json.canonical] at deadlines
    | some number' =>
      cases number <;> cases number' <;>
        simp [here, there, Json.Same, Number.json, Json.canonical, Number.isWhole] at deadlines ⊢

/-- The row of an accepted contract comes back with its identity exactly when the deadline is no
integer. -/
theorem intact_row_iff (injective : Function.Injective setting.digest)
    (accepted : contract.Accepted setting) (requestId : String) (revision : ℕ)
    (predecessor : Option String) (now : ℚ) :
    (contract.row setting requestId revision predecessor now).Intact setting ↔
      contract.hasWholeDeadline = false := by
  constructor
  · intro intact
    have readBack := @same_contract_row setting contract requestId revision predecessor now
    have formed := Contract.wellFormed_withDeadline accepted
      (wellFormed_storedDeadline setting contract)
    have text : (contract.withDeadline (contract.storedDeadline setting)).dumps = contract.json.dumps := by
      rw [← Json.dumps_eq_of_same readBack]
      exact injective intact
    have texts : (contract.withDeadline (contract.storedDeadline setting)).Same contract.json :=
      Json.same_of_dumps_eq formed (Contract.wellFormed_json accepted) text
    have deadlines := expiresAt_of_same distinct_storedDeadline (distinct_deadline contract) texts
    unfold Contract.storedDeadline at deadlines
    unfold Contract.hasWholeDeadline
    cases here : contract.expiresAt with
    | none => rfl
    | some number =>
      cases number with
      | whole value => simp [here, Json.Same, Number.json, Json.canonical] at deadlines
      | real double => rfl
  · exact intact_row contract requestId revision predecessor now

/-! ### Filed contracts -/

/-- The row is that of an accepted contract. -/
def RequestRow.Filed (setting : Setting) (row : RequestRow) : Prop :=
  ∃ contract : Contract, contract.Accepted setting ∧ row.core =
    contract.row setting row.requestId row.revision row.predecessorRequestRef row.createdAt

theorem filed_row (accepted : contract.Accepted setting) (requestId : String) (revision : ℕ)
    (predecessor : Option String) (now : ℚ) :
    (contract.row setting requestId revision predecessor now).Filed setting := ⟨contract, accepted, rfl⟩

theorem RequestRow.filed_of_core {row other : RequestRow} (same : row.core = other.core)
    (filed : other.Filed setting) : row.Filed setting := by
  obtain ⟨contract, accepted, written⟩ := filed
  have id := RequestRow.requestId_of_core same
  have revision := RequestRow.revision_of_core same
  have predecessor := RequestRow.predecessor_of_core same
  have created : row.createdAt = other.createdAt := (congrArg RequestRow.createdAt same :)
  exact ⟨contract, accepted, by rw [same, written, id, revision, predecessor, created]⟩

/-- A filed request is intact exactly when the contracts of its identity expire at no integer. -/
theorem RequestRow.Filed.intact_iff {row : RequestRow} (filed : row.Filed setting)
    (injective : Function.Injective setting.digest) (accepted : contract.Accepted setting)
    (identity : row.identityHash = setting.hash contract.json) :
    row.Intact setting ↔ contract.hasWholeDeadline = false := by
  obtain ⟨own, ownAccepted, written⟩ := filed
  have same : setting.hash own.json = setting.hash contract.json := by
    rw [← identity]
    exact (congrArg RequestRow.identityHash written).symm
  rw [← hasWholeDeadline_of_hash injective ownAccepted accepted same,
    ← intact_row_iff injective ownAccepted row.requestId row.revision row.predecessorRequestRef
      row.createdAt]
  exact RequestRow.intact_of_core written

section

variable {requestRef : String} {now : ℚ}

/-- The waiters are all that changes. -/
theorem frame_insertWaiter {waiter : Waiter} {new : Bool}
    (success : insertWaiter setting requestRef now waiter tables = .ok (new, after)) :
    ∃ waiters, after = { tables with waiters } := by
  rcases of_insertWaiter success with ⟨-, rfl, -⟩ | ⟨waiters, -, -, rfl⟩
  · exact ⟨_, rfl⟩
  · exact ⟨waiters, rfl⟩

theorem frame_insertWaiters {waiters : List Waiter}
    (success : insertWaiters setting requestRef now waiters tables = .ok after) :
    ∃ waiters, after = { tables with waiters } := by
  induction waiters generalizing tables with
  | nil =>
    cases success
    exact ⟨_, rfl⟩
  | cons waiter rest ih =>
    simp only [insertWaiters, List.foldlM_cons, bind_eq_ok_iff (α := Tables),
      bind_eq_ok_iff (α := Bool × Tables)] at success
    obtain ⟨between, ⟨⟨new, written⟩, inserted, same⟩, later⟩ := success
    cases same
    obtain ⟨waiters, rfl⟩ := frame_insertWaiter inserted
    obtain ⟨others, rfl⟩ := ih later
    exact ⟨others, rfl⟩

end

/-- Updates that keep the core of a row keep whether it is filed. -/
private theorem filed_update {requests : Table RequestRow.requestRef} {ref : String}
    {rewrite : Rewrite RequestRow.requestRef} (core : Rewrite.KeepsCore rewrite)
    (filed : ∀ row ∈ requests, row.Filed setting) :
    ∀ row ∈ requests.update (·.requestRef = ref) rewrite, row.Filed setting := by
  intro row member
  obtain ⟨old, there, rfl⟩ := mem_update_iff.mp member
  split
  · exact RequestRow.filed_of_core (core old) (filed old there)
  · exact filed old there

private theorem filed_insertRequest {requestId : String} {revision : ℕ} {predecessor : Option String}
    {now : ℚ} (accepted : contract.Accepted setting) (filed : ∀ row ∈ tables.requests, row.Filed setting)
    (success : insertRequest setting contract requestId revision predecessor now tables = .ok after) :
    ∀ row ∈ after.requests, row.Filed setting := by
  obtain ⟨-, requests, inserted, rfl⟩ := of_insertRequest success
  intro row member
  rcases (mem_insertRow inserted).mp member with member | rfl
  · exact filed row member
  · exact filed_row accepted ..

/-- The result of an order that asks for a contract is an open request with the identity of it. -/
def Tables.Holds (tables : Tables) (setting : Setting) (contract : Contract) (ref : String) : Prop :=
  ∃ row ∈ tables.requests, row.requestRef = ref ∧ row.identityHash = setting.hash contract.json ∧
    row.status = .opened

private theorem holds_insertRequest {requestId : String} {revision : ℕ} {predecessor : Option String}
    {now : ℚ} {written : Tables}
    (success : insertRequest setting contract requestId revision predecessor now tables = .ok after)
    (same : written.requests = after.requests) :
    written.Holds setting contract (requestRefOf requestId revision) := by
  refine ⟨contract.row setting requestId revision predecessor now, ?_, rfl, rfl, rfl⟩
  rw [same]
  exact mem_of_insertRequest success

theorem filed_fresh {order : Order} {inside : Inside} {ref : String}
    (accepted : ∀ contract, order.body.contract? = some contract → contract.Accepted setting)
    (filed : ∀ row ∈ tables.requests, row.Filed setting)
    (success : order.fresh setting inside tables = .ok (ref, after)) :
    (∀ row ∈ after.requests, row.Filed setting) ∧
      ∀ contract, order.body.contract? = some contract → after.Holds setting contract ref := by
  obtain ⟨key, body⟩ := order
  have holds {contract : Contract} {ref : String} (asked : body.contract? = some contract)
      (held : after.Holds setting contract ref) :
      ∀ other, body.contract? = some other → after.Holds setting other ref := by
    intro other same
    obtain rfl := Option.some.inj (asked.symm.trans same)
    exact held
  cases body with
  | openRequest contract waiter =>
    have accepted := accepted contract rfl
    rcases of_openFresh success with ⟨row, member, ⟨identity, -, opened⟩, rfl, new, inserted⟩ |
      ⟨requestId, between, new, rfl, opened, inserted, rfl⟩
    · obtain ⟨waiters, rfl⟩ := frame_insertWaiter inserted
      exact ⟨filed, holds rfl ⟨row, member, rfl, identity, opened⟩⟩
    · obtain ⟨waiters, rfl⟩ := frame_insertWaiter inserted
      have filedBetween := filed_insertRequest accepted filed opened
      exact ⟨fun row member => filedBetween row member, holds rfl (holds_insertRequest opened rfl)⟩
  | openEffect effectId binding predecessorRequestRef contract waiter questRef =>
    have accepted := accepted contract rfl
    obtain ⟨predecessor, -, requestId, revision, placed, place, between, request, waiters, -, effects, -,
      -, rfl, rfl⟩ := of_openEffectFresh success
    have filedPlaced : ∀ row ∈ placed.requests, row.Filed setting := by
      rcases of_placeEffect place with ⟨row, -, -, -, -, -, rfl⟩ | ⟨-, -, -, rfl⟩
      · exact filed_update keepsCore_retire filed
      · exact filed
    have filedBetween := filed_insertRequest accepted filedPlaced request
    exact ⟨fun row member => filedBetween row member, holds rfl (holds_insertRequest request rfl)⟩
  | revise requestRef expectedRevision contract waiters =>
    obtain ⟨row, member, rfl, -, rfl, closed, between, disposed, request, waiting⟩ := of_reviseFresh success
    obtain ⟨dispositions, -, rfl⟩ := of_insertDisposition disposed
    obtain ⟨others, rfl⟩ := frame_insertWaiters waiting
    have filedBetween := filed_insertRequest (accepted contract rfl)
      (filed_update keepsCore_supersede filed) request
    exact ⟨fun row member => filedBetween row member, holds rfl (holds_insertRequest request rfl)⟩
  | evaluate requestRef responseRefs decision reasonCode evidenceRefs =>
    obtain ⟨rfl, row, member, rfl, -, evaluations, -, written⟩ := of_evaluateFresh success
    refine ⟨?_, fun _ none => (Option.some_ne_none _ none.symm).elim⟩
    rcases written with ⟨-, rfl⟩ | ⟨disposition, dispositions, -, -, rfl⟩
    · exact filed
    · exact filed_update (keepsCore_setStatus _) filed
  | validate requestRef waiterRef generation targetAssertion blockers authorizationReceiptRef =>
    obtain ⟨_, _, _, _, _, _, _, _, _, _, rfl, rfl⟩ := of_validateFresh success
    exact ⟨filed, fun _ none => (Option.some_ne_none _ none.symm).elim⟩

/-- Every step keeps that each request is filed. -/
theorem filed_step {allowed : Tables → Order → Prop} (step : Step setting allowed tables after)
    (filed : ∀ row ∈ tables.requests, row.Filed setting) : ∀ row ∈ after.requests, row.Filed setting := by
  cases step with
  | expire success =>
    rcases of_expire success with ⟨-, rfl⟩ | ⟨-, dispositions, -, rfl⟩
    · exact filed
    · exact filed_update (keepsCore_setStatus _) filed
  | transact checked _ success =>
    rcases of_transact success with ⟨rfl, -⟩ | ⟨-, between, commands, fresh, -, rfl⟩
    · exact filed
    · exact (filed_fresh checked.accepted filed fresh).1
  | consume success =>
    rcases of_consumeReleasedWaiter success with rfl | ⟨_, _, ⟨consumes⟩⟩
    · exact filed
    · obtain ⟨_, _, _, _, _, _, _, _, _, _, _, _, rfl⟩ := consumes
      exact filed
  | respond success =>
    obtain ⟨_, -, rfl⟩ := of_recordResponse success
    exact filed

theorem Reaches.filed {allowed : Tables → Order → Prop} (reaches : Reaches setting allowed tables after)
    (filed : ∀ row ∈ tables.requests, row.Filed setting) : ∀ row ∈ after.requests, row.Filed setting := by
  induction reaches with
  | refl => exact filed
  | tail _ step ih => exact filed_step step ih

theorem filed_afterCalls (setting : Setting) (calls : List Call) :
    ∀ row ∈ (afterCalls setting calls).requests, row.Filed setting :=
  (reach_anyCalls calls).filed fun row member => (Table.not_mem_empty row member).elim

/-! ### Commands that ask for a contract -/

/-- The command asks for the contract under a free key, and its transaction goes through. -/
def Command.Asks (setting : Setting) (here : Surroundings) (tables : Tables) (command : Command)
    (contract : Contract) (ref : String) (written : Tables) : Prop :=
  ∃ prepared order, command.checkKey setting = .ok () ∧
    command.materialize setting here tables = (.ok (), prepared) ∧
    command.prepare setting here.checkedAt prepared = .ok order ∧
    prepared.commands.find? order.idempotencyKey = none ∧ order.body.contract? = some contract ∧
    order.transact setting here.inside prepared = .ok (ref, written)

section

variable {here : Surroundings} {command : Command} {ref : String} {written : Tables}

theorem run_of_asks (asks : command.Asks setting here tables contract ref written) :
    command.run setting here tables = command.answer setting here.closing ref written := by
  obtain ⟨prepared, order, key, materialized, checked, -, -, transacted⟩ := asks
  exact Command.run_of_transact key materialized checked transacted

/-- What a command that asks for a contract leaves under its reference. -/
theorem of_asks (kept : Kept setting tables) (filed : ∀ row ∈ tables.requests, row.Filed setting)
    (asks : command.Asks setting here tables contract ref written) :
    Kept setting written ∧ contract.Accepted setting ∧
      (∃ row ∈ written.requests, row.requestRef = ref ∧ row.status = .opened ∧ row.Filed setting ∧
        row.identityHash = setting.hash contract.json) ∧ written.Settled ref := by
  obtain ⟨prepared, order, -, materialized, checked, free, asked, transacted⟩ := asks
  have reached := @reach_materializeSubject setting tables anyOrder here command
  rw [materialized] at reached
  obtain ⟨keptPrepared, -⟩ := reached.keep kept
  have filedPrepared := reached.filed filed
  have sound := Command.prepare_checked checked
  obtain ⟨keptWritten, -⟩ := keep_transact keptPrepared sound.sound transacted
  rcases of_transact transacted with ⟨-, -, row, found, -⟩ | ⟨-, between, commands, fresh, -, rfl⟩
  · rw [free] at found
    cases found
  · obtain ⟨filedBetween, holds⟩ := filed_fresh sound.accepted filedPrepared fresh
    obtain ⟨row, member, named, identity, opened⟩ := holds contract asked
    refine ⟨keptWritten, sound.accepted contract asked, ⟨row, member, named, opened,
      filedBetween row member, identity⟩, fun consumption present consumed => ?_⟩
    -- A consumed waiter belongs to a closed request.
    obtain ⟨waiter, waiting, key, -, status⟩ := keptWritten.consuming.waiter consumption present
    have closed := keptWritten.waiting.resumable waiter waiting (.inr status) row member
      (named.trans (consumed.symm.trans (congrArg Prod.fst key).symm))
    rw [opened] at closed
    rcases closed with closed | closed <;> cases closed

/-- An effect that was just opened has its row. -/
theorem effectOf_of_fresh {effectKey effectId : String} {binding : Dict}
    {predecessorRequestRef questRef : Option String} {waiter : Waiter} {inside : Inside}
    (kept : Kept setting written)
    (success : openEffectFresh setting inside effectKey effectId binding predecessorRequestRef contract
      waiter questRef tables = .ok (ref, after)) (same : written.effects = after.effects) :
    (written.effectOf ref).isSome = true := by
  obtain ⟨_, -, _, _, _, -, _, -, _, -, effects, -, opened, rfl, rfl⟩ := of_openEffectFresh success
  have member := (mem_insertRow opened).mpr (.inr rfl)
  have stored : written.effects = effects := same
  rw [← stored] at member
  exact Option.isSome_iff_exists.mpr ⟨_, (effectOf_eq_some_iff kept).mpr ⟨member, rfl⟩⟩

/-- What a command that asks for a contract is. -/
theorem shapes_of_asks (asks : command.Asks setting here tables contract ref written)
    (keptWritten : Kept setting written) :
    command.answersRequest = true ∧
      (command.opensEffect = true → (written.effectOf ref).isSome = true) := by
  obtain ⟨prepared, order, -, -, checked, free, asked, transacted⟩ := asks
  obtain ⟨-, shapes⟩ := Command.prepare_shapes checked
  rcases of_transact transacted with ⟨-, -, row, found, -⟩ | ⟨-, between, commands, fresh, -, rfl⟩
  · rw [free] at found
    cases found
  · obtain ⟨key, body⟩ := order
    cases command <;> cases body <;> first
      | exact False.elim shapes
      | exact (Option.some_ne_none _ asked.symm).elim
      | exact ⟨rfl, fun _ => effectOf_of_fresh keptWritten fresh rfl⟩
      | exact ⟨rfl, nofun⟩

/-- A command that asks for a contract answers with the request when that can be read. -/
theorem run_of_asks_ok_iff (asks : command.Asks setting here tables contract ref written)
    (keptWritten : Kept setting written) {row : RequestRow} (member : row ∈ written.requests)
    (named : row.requestRef = ref) (settled : written.Settled ref) :
    (∃ outcome, (command.run setting here tables).1 = .ok outcome ∧ outcome.ref = ref) ↔
      written.Lands here.closing ref ∧ row.Intact setting := by
  subst named
  obtain ⟨request, effect⟩ := shapes_of_asks asks keptWritten
  rw [run_of_asks asks]
  constructor
  · rintro ⟨outcome, answered, same⟩
    obtain ⟨shown, found, -, rfl⟩ := (answer_eq_ok_iff request).mp answered
    obtain ⟨lands, intact, -⟩ := (query_ok_iff keptWritten member).mp ⟨shown, found, same⟩
    exact ⟨lands, intact⟩
  · rintro ⟨lands, intact⟩
    obtain ⟨shown, found, -, core, opened⟩ := query_ok keptWritten member lands intact settled
    exact ⟨.request shown, (answer_eq_ok_iff request).mpr ⟨shown, found, fun opens => by
      rw [opened]; exact effect opens, rfl⟩, RequestRow.requestRef_of_core core⟩

end

/-- Of an accepted contract, and of every command that files it in any run: the columns give the
contract back, the command answers with the request and later queries show it exactly when the deadline
is no integer. Apart from that, an expiration on the way has to find its identifiers free, and a
consumption of the request has to name the latest validation of its waiter. -/
theorem contract_survives_iff (injective : Function.Injective setting.digest)
    (accepted : contract.Accepted setting) :
    (∀ requestId revision predecessor now,
      (contract.row setting requestId revision predecessor now).Intact setting ↔
        contract.hasWholeDeadline = false) ∧
    ∀ calls here command ref written,
      Command.Asks setting here (afterCalls setting calls) command contract ref written →
      ((∃ outcome, (command.run setting here (afterCalls setting calls)).1 = .ok outcome ∧
          outcome.ref = ref) ↔
        contract.hasWholeDeadline = false ∧ written.Lands here.closing ref) ∧
      ∀ later moment,
        let tables := runInputs (Call.apply setting)
          (command.run setting here (afterCalls setting calls)).2 later
        ((∃ shown, (queryHumanRequest setting moment ref tables).1 = .ok (some shown) ∧
            shown.request.requestRef = ref) ↔
          contract.hasWholeDeadline = false ∧ tables.Lands moment ref ∧ tables.Settled ref) ∧
        ((queryHumanRequest setting moment ref tables).1 = .error "human_request_artifact_invalid" ↔
          contract.hasWholeDeadline = true ∧ tables.Lands moment ref) := by
  refine ⟨intact_row_iff injective accepted, fun calls here command ref written asks => ?_⟩
  have kept := kept_afterCalls setting calls
  obtain ⟨keptWritten, -, ⟨row, member, rfl, -, filed, identity⟩, settled⟩ :=
    of_asks kept (filed_afterCalls setting calls) asks
  have intact := filed.intact_iff injective accepted identity
  constructor
  · rw [run_of_asks_ok_iff asks keptWritten member rfl settled, intact, and_comm]
  · intro later moment tables
    have keptAnswered := @reach_answer setting written anyOrder here.closing row.requestRef command
    rw [← run_of_asks asks] at keptAnswered
    obtain ⟨keptTables, grows⟩ :=
      Reaches.keep keptWritten (keptAnswered.trans (reach_anyCalls later))
    obtain ⟨shown, there, ref, core⟩ := grows.find?_request member
    have query := @query_ok_iff setting tables shown moment keptTables there
    have refused := @query_artifact_invalid_iff setting tables shown moment keptTables there
    rw [RequestRow.intact_of_core core, intact, ref] at query refused
    refine ⟨by rw [query, and_left_comm], ?_⟩
    rw [refused, and_comm, Bool.not_eq_false]

/-! ### A sample -/

private theorem isFractional_ofInteger (value : ℤ) :
    Json.isFractional (toString value ++ ".0") = true := by
  have numeral := Json.integer_numeral value
  simp only [Json.isFractional, String.toList_append, List.all_append, List.any_append, numeral]
  simp [Json.isNumeral, Json.isPoint]

/-- An Owner that tells every two texts apart and takes nothing for a secret. -/
def sampleSetting : Setting where
  issuer := "agent_runtime"
  hasVerifier := true
  hasYield := true
  digest := id
  float value := ⟨toString value ++ ".0", isFractional_ofInteger value⟩
  secrets :=
    { key := fun _ => false
      text := fun _ => false
      yieldName := fun _ _ => rfl
      yieldText := ⟨rfl, rfl⟩
      requestRef := fun _ _ => rfl }

def sampleUuid : Uuid := default

def sampleStamp (now : ℚ) : Stamp :=
  ⟨now, sampleUuid, sampleUuid, sampleUuid, sampleUuid, sampleUuid, sampleUuid⟩

/-- A call during which the clock stands still. -/
def sampleAt (now : ℚ) : Surroundings where
  opening := ⟨now, sampleStamp now⟩
  checkedAt := now
  inside := ⟨sampleStamp now, now, .ok (), true⟩
  closing := ⟨now, sampleStamp now⟩

def sampleTarget : Dict := ⟨[("file", .text "survey.csv")], by decide +kernel⟩

def sampleWaiter : Waiter := ⟨"waiter", 1, sampleTarget, "local", []⟩

def sampleArguments (expiresAt : Option Number) : ContractArguments where
  requestKind := "offline_action"
  obligation := "Collect the survey"
  businessPurpose := "Complete the dataset"
  targetAssertion := sampleTarget
  acceptanceConditions := ["The file is there"]
  questRef := none
  requiredAuthorization := none
  expiresAt := expiresAt

/-- A request that expires at ten. -/
def sampleOpen (expiresAt : Number) : Command :=
  .openRequest (sampleArguments (some expiresAt)) sampleWaiter "open"

def ten : Double := ⟨"10.0", by decide +kernel⟩

/-- An accepted contract. -/
theorem exists_accepted (expiresAt : Number)
    (passes : (validateContract sampleSetting 1 (sampleArguments (some expiresAt))).isOk = true) :
    ∃ contract, validateContract sampleSetting 1 (sampleArguments (some expiresAt)) = .ok contract := by
  cases accepted : validateContract sampleSetting 1 (sampleArguments (some expiresAt)) with
  | ok contract => exact ⟨contract, rfl⟩
  | error _ => simp [accepted, Except.isOk, Except.toBool] at passes

theorem contract_survives_iff_sample :
    ∃ contract, validateContract sampleSetting 1 (sampleArguments (some (.real ten))) = .ok contract ∧
      ((contract.row sampleSetting "request" 1 none 1).Intact sampleSetting ↔
        contract.hasWholeDeadline = false) := by
  obtain ⟨contract, accepted⟩ := exists_accepted (.real ten) (by decide +kernel)
  exact ⟨contract, accepted, (@contract_survives_iff sampleSetting contract (fun _ _ same => same)
    ⟨1, _, accepted⟩).1 "request" 1 none 1⟩

/-- A contract that expires at the integer ten is accepted and its request is filed, but neither the
command nor a query gets the request back. -/
theorem integer_deadline_unreadable :
    (validateContract sampleSetting 1 (sampleArguments (some (.whole 10)))).isOk = true ∧
    ((sampleOpen (.whole 10)).run sampleSetting (sampleAt 1) {}).1 =
      .error "human_request_artifact_invalid" ∧
    ((sampleOpen (.whole 10)).run sampleSetting (sampleAt 1) {}).2.requests.rows.map (·.requestRef) =
      [requestRefOf (newRef "human_request" sampleUuid) 1] ∧
    (queryHumanRequest sampleSetting (sampleAt 1).opening
      (requestRefOf (newRef "human_request" sampleUuid) 1)
      ((sampleOpen (.whole 10)).run sampleSetting (sampleAt 1) {}).2).1 =
        .error "human_request_artifact_invalid" :=
  ⟨by decide +kernel, isError_iff.mp (by decide +kernel), by decide +kernel,
    isError_iff.mp (by decide +kernel)⟩

end MetaResearch.HumanRequests

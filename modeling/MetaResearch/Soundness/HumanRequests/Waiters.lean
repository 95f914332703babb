import MetaResearch.Soundness.HumanRequests.Expiry
import MetaResearch.Soundness.HumanRequests.Queries

/-! # The protocol of waiters

A validation is filed for a waiter in any state, and readers look at the latest one. So a waiter goes from
blocked over released to consumed as long as its release is the latest validation when it is filed, and no
later one is filed behind it.
-/

namespace MetaResearch.HumanRequests

open Datasets (newRef)

variable {setting : Setting} {tables after : Tables} {system : System} {event : Event}

/-! ### Names of waiters -/

/-- A reference and a generation pass the checks of a consumption. -/
def Addressable (waiterRef : String) (generation : ℤ) : Prop :=
  boundedText waiterRef "human_request_waiter_ref_invalid" 128 = .ok waiterRef ∧ 1 ≤ generation

/-- A text that was checked passes the check again. -/
theorem boundedText_boundedText {value code text : String} {maximum : ℕ}
    (success : boundedText value code maximum = .ok text) : boundedText text code maximum = .ok text := by
  unfold boundedText at success
  rw [check_then_eq_ok_iff, require_eq_ok_iff, Bool.and_eq_true, Bool.not_eq_true', decide_eq_true_iff]
    at success
  obtain ⟨⟨solid, short⟩, same⟩ := success
  cases same
  unfold boundedText
  rw [check_then_eq_ok_iff, require_eq_ok_iff, Bool.and_eq_true, Bool.not_eq_true', decide_eq_true_iff,
    Text.strip_strip]
  exact ⟨⟨Text.isBlank_strip solid, short⟩, rfl⟩

theorem validateWaiter_addressable {value waiter : Waiter}
    (success : validateWaiter setting value = .ok waiter) :
    Addressable waiter.waiterRef waiter.generation := by
  unfold validateWaiter at success
  simp only [bind_eq_ok_iff (α := String), check_then_eq_ok_iff, bind_eq_ok_iff (α := Dict),
    bind_eq_ok_iff (α := List String), require_eq_ok_iff, decide_eq_true_iff] at success
  obtain ⟨waiterRef, bounded, positive, _, -, -, _, -, -, same⟩ := success
  cases same
  exact ⟨boundedText_boundedText bounded, positive⟩

/-- The waiters that a transaction may file. -/
def Body.waiters : Body → List Waiter
  | openRequest _ waiter | openEffect _ _ _ _ waiter _ => [waiter]
  | revise _ _ _ waiters => waiters
  | evaluate .. | validate .. => []

/-- The waiters of a checked order pass the checks of a consumption. -/
def Order.Addressed (order : Order) : Prop :=
  ∀ waiter ∈ order.body.waiters, Addressable waiter.waiterRef waiter.generation

theorem Command.prepare_addressed {command : Command} {now : ℚ} {order : Order}
    (success : command.prepare setting now tables = .ok order) : order.Addressed := by
  cases command with
  | openRequest arguments directWaiter key =>
    simp only [prepare, bind_eq_ok_iff (α := Contract), bind_eq_ok_iff (α := Waiter),
      check_then_eq_ok_iff] at success
    obtain ⟨_, -, waiter, validated, -, same⟩ := success
    cases same
    exact List.forall_mem_singleton.mpr (validateWaiter_addressable validated)
  | openEffect key effectId operationBinding predecessorRequestRef arguments directWaiter =>
    simp only [prepare, bind_eq_ok_iff (α := Contract), bind_eq_ok_iff (α := Waiter),
      bind_eq_ok_iff (α := String), bind_eq_ok_iff (α := Option String), bind_eq_ok_iff (α := Dict),
      check_then_eq_ok_iff] at success
    obtain ⟨-, _, -, _, -, _, -, waiter, validated, _, -, same⟩ := success
    cases same
    exact List.forall_mem_singleton.mpr (validateWaiter_addressable validated)
  | revise requestRef expectedRevision obligation targetAssertion acceptanceConditions directWaiters key
      requiredAuthorization expiresAt =>
    simp only [prepare] at success
    split at success
    · cases success
    · simp only [bind_eq_ok_iff (α := Contract), bind_eq_ok_iff (α := List Waiter),
        check_then_eq_ok_iff] at success
      obtain ⟨_, -, waiters, validated, -, -, same⟩ := success
      cases same
      intro waiter member
      obtain ⟨value, -, accepted⟩ := exists_item_of_mapM validated waiter member
      exact validateWaiter_addressable accepted
  | evaluate | validate =>
    obtain ⟨-, shapes⟩ := Command.prepare_shapes success
    obtain ⟨key, body⟩ := order
    cases body <;> first | exact (shapes : False).elim | exact List.forall_mem_nil _

/-! ### What comes of a transaction -/

/-- A waiter is one from before, or a blocked one that the order names. -/
def WaiterRow.Comes (waiter : WaiterRow) (tables : Tables) (body : Body) : Prop :=
  waiter ∈ tables.waiters ∨ waiter.status = .blocked ∧
    ∃ source ∈ body.waiters, waiter.waiterRef = source.waiterRef ∧ waiter.generation = source.generation

theorem comes_insertWaiter (body : Body) {requestRef : String} {now : ℚ} {source : Waiter} {new : Bool}
    (named : source ∈ body.waiters)
    (success : insertWaiter setting requestRef now source tables = .ok (new, after)) :
    ∀ waiter ∈ after.waiters, waiter.Comes tables body := by
  rcases of_insertWaiter success with ⟨-, rfl, -⟩ | ⟨waiters, inserted, -, rfl⟩
  · exact fun waiter member => .inl member
  · intro waiter member
    rcases (mem_insertRow inserted).mp member with member | rfl
    · exact .inl member
    · exact .inr ⟨rfl, source, named, rfl, rfl⟩

theorem comes_insertWaiters (body : Body) {requestRef : String} {now : ℚ} {sources : List Waiter}
    (named : ∀ source ∈ sources, source ∈ body.waiters)
    (success : insertWaiters setting requestRef now sources tables = .ok after) :
    ∀ waiter ∈ after.waiters, waiter.Comes tables body := by
  induction sources generalizing tables with
  | nil =>
    cases success
    exact fun waiter member => .inl member
  | cons source rest ih =>
    simp only [insertWaiters, List.foldlM_cons, bind_eq_ok_iff (α := Tables),
      bind_eq_ok_iff (α := Bool × Tables)] at success
    obtain ⟨between, ⟨⟨new, written⟩, inserted, same⟩, later⟩ := success
    cases same
    intro waiter member
    rcases ih (fun other present => named other (List.mem_cons_of_mem _ present)) later waiter member with
      old | fresh
    · exact comes_insertWaiter body (named source List.mem_cons_self) inserted waiter old
    · exact .inr fresh

/-- Only a validation files validations, and only new waiters come with the other orders. -/
theorem frame_fresh {order : Order} {inside : Inside} {ref : String}
    (success : order.fresh setting inside tables = .ok (ref, after))
    (other : ∀ requestRef waiterRef generation targetAssertion blockers receipt,
      order.body ≠ .validate requestRef waiterRef generation targetAssertion blockers receipt) :
    after.validations = tables.validations ∧ after.consumptions = tables.consumptions ∧
      ∀ waiter ∈ after.waiters, waiter.Comes tables order.body := by
  obtain ⟨key, body⟩ := order
  cases body with
  | openRequest contract source =>
    rcases of_openFresh success with ⟨row, -, -, -, new, waited⟩ | ⟨_, filed, new, -, opened, waited, -⟩
    · have comes := comes_insertWaiter (.openRequest contract source) (List.mem_singleton.mpr rfl) waited
      obtain ⟨waiters, rfl⟩ := frame_insertWaiter waited
      exact ⟨rfl, rfl, comes⟩
    · have comes := comes_insertWaiter (.openRequest contract source) (List.mem_singleton.mpr rfl) waited
      obtain ⟨-, requests, -, rfl⟩ := of_insertRequest opened
      obtain ⟨waiters, rfl⟩ := frame_insertWaiter waited
      exact ⟨rfl, rfl, comes⟩
  | openEffect effectId binding predecessorRequestRef contract source questRef =>
    obtain ⟨_, _, _, _, placed, place, filed, request, waiters, inserted, _, _, _, -, rfl⟩ :=
      of_openEffectFresh success
    obtain ⟨-, requests, -, rfl⟩ := of_insertRequest request
    have same : placed.waiters = tables.waiters ∧ placed.validations = tables.validations ∧
        placed.consumptions = tables.consumptions := by
      rcases of_placeEffect place with ⟨row, -, -, -, -, -, rfl⟩ | ⟨-, -, -, rfl⟩ <;> exact ⟨rfl, rfl, rfl⟩
    refine ⟨same.2.1, same.2.2, fun waiter member => ?_⟩
    rcases (mem_insertRow inserted).mp member with member | rfl
    · exact .inl (same.1 ▸ member)
    · exact .inr ⟨rfl, source, List.mem_singleton.mpr rfl, rfl, rfl⟩
  | revise requestRef expectedRevision contract sources =>
    obtain ⟨row, -, -, -, -, closed, filed, disposed, request, waited⟩ := of_reviseFresh success
    have comes := comes_insertWaiters (.revise requestRef expectedRevision contract sources)
      (fun _ member => member) waited
    obtain ⟨dispositions, -, rfl⟩ := of_insertDisposition disposed
    obtain ⟨-, requests, -, rfl⟩ := of_insertRequest request
    obtain ⟨waiters, rfl⟩ := frame_insertWaiters waited
    exact ⟨rfl, rfl, comes⟩
  | evaluate requestRef responseRefs decision reasonCode evidenceRefs =>
    obtain ⟨-, row, -, -, -, evaluations, -, ⟨-, rfl⟩ | ⟨closing, dispositions, -, -, rfl⟩⟩ :=
      of_evaluateFresh success
    · exact ⟨rfl, rfl, fun waiter member => .inl member⟩
    · exact ⟨rfl, rfl, fun waiter member => .inl member⟩
  | validate requestRef waiterRef generation targetAssertion blockers receipt => exact (other _ _ _ _ _ _ rfl).elim

/-! ### The latest validation -/

/-- A validation with the draws would come behind all that the waiter has. -/
def Tables.ComesLast (tables : Tables) (requestRef waiterRef : String) (stamp : Stamp) : Prop :=
  ∀ earlier ∈ tables.validations, earlier.requestRef = requestRef → earlier.waiterRef = waiterRef →
    toLex (earlier.createdAt, earlier.validationRef) <
      toLex (stamp.now, newRef "resume_validation" stamp.draws.validation)

section

variable {validation : ValidationRow} {validations : Table ValidationRow.validationRef}
  {requestRef waiterRef : String} {stamp : Stamp} (waiters : Table WaiterRow.key)

/-- The latest validation of another waiter stays. -/
theorem latestValidation_insert_of_ne
    (apart : ¬ (validation.requestRef = requestRef ∧ validation.waiterRef = waiterRef))
    (inserted : insertRow tables.validations validation = .ok validations) :
    ({ tables with validations, waiters } : Tables).latestValidation requestRef waiterRef =
      tables.latestValidation requestRef waiterRef := by
  unfold Tables.latestValidation
  rw [select_insertRow inserted, if_neg (by simpa using apart), List.append_nil]

theorem latestValidation_insert (inserted : insertRow tables.validations validation = .ok validations) :
    ({ tables with validations, waiters } : Tables).latestValidation validation.requestRef
        validation.waiterRef =
      match tables.latestValidation validation.requestRef validation.waiterRef with
      | none => some validation
      | some latest =>
        if toLex (latest.createdAt, latest.validationRef) <
          toLex (validation.createdAt, validation.validationRef) then some validation else some latest := by
  unfold Tables.latestValidation
  rw [select_insertRow inserted, if_pos (by simp), List.argmax_concat]
  cases (tables.validations.select fun row => row.requestRef = validation.requestRef &&
      row.waiterRef = validation.waiterRef).argmax fun row => toLex (row.createdAt, row.validationRef) <;> rfl

/-- A validation that comes last is the latest one. -/
theorem latestValidation_insert_of_last (created : validation.createdAt = stamp.now)
    (drawn : validation.validationRef = newRef "resume_validation" stamp.draws.validation)
    (last : tables.ComesLast validation.requestRef validation.waiterRef stamp)
    (inserted : insertRow tables.validations validation = .ok validations) :
    ({ tables with validations, waiters } : Tables).latestValidation validation.requestRef
      validation.waiterRef = some validation := by
  rw [latestValidation_insert waiters inserted]
  cases found : tables.latestValidation validation.requestRef validation.waiterRef with
  | none => rfl
  | some latest =>
    obtain ⟨member, request, waiter⟩ := latestValidation_eq_some found
    rw [created, drawn]
    exact if_pos (last latest member request waiter)

/-- A validation that does not come last leaves the latest one. -/
theorem latestValidation_insert_of_not_last (created : validation.createdAt = stamp.now)
    (drawn : validation.validationRef = newRef "resume_validation" stamp.draws.validation)
    (last : ¬ tables.ComesLast validation.requestRef validation.waiterRef stamp)
    (inserted : insertRow tables.validations validation = .ok validations) :
    ({ tables with validations, waiters } : Tables).latestValidation validation.requestRef
      validation.waiterRef = tables.latestValidation validation.requestRef validation.waiterRef := by
  unfold Tables.ComesLast at last
  push Not at last
  obtain ⟨earlier, member, request, waiter, behind⟩ := last
  have listed : earlier ∈ tables.validations.select fun row =>
      row.requestRef = validation.requestRef && row.waiterRef = validation.waiterRef :=
    Table.mem_select.mpr ⟨member, by simp [request, waiter]⟩
  rw [latestValidation_insert waiters inserted]
  cases found : tables.latestValidation validation.requestRef validation.waiterRef with
  | none =>
    rw [List.argmax_eq_none.mp found] at listed
    cases listed
  | some latest =>
    have highest := List.le_of_mem_argmax (f := fun row : ValidationRow => toLex (row.createdAt, row.validationRef))
      listed found
    rw [created, drawn]
    exact if_neg (not_lt.mpr (behind.trans highest))

end

/-! ### The invariant -/

/-- The validation releases the waiter. -/
def ValidationRow.Releases (validation : ValidationRow) (waiter : WaiterRow) : Prop :=
  validation.released = true ∧ validation.generation = waiter.generation ∧
    validation.targetAssertionHash = waiter.targetAssertion.hash

/-- What is released was released by the latest validation, and what is consumed names the latest one. -/
structure Aligned (tables : Tables) : Prop where
  addressed : ∀ waiter ∈ tables.waiters, Addressable waiter.waiterRef waiter.generation
  released : ∀ waiter ∈ tables.waiters, waiter.status = .released →
    ∃ validation, tables.latestValidation waiter.requestRef waiter.waiterRef = some validation ∧
      validation.Releases waiter
  consumed : ∀ consumption ∈ tables.consumptions,
    ∃ validation, tables.latestValidation consumption.requestRef consumption.waiterRef = some validation ∧
      validation.validationRef = consumption.validationRef

theorem aligned_empty : Aligned {} :=
  ⟨fun _ member => (Table.not_mem_empty _ member).elim, fun _ member => (Table.not_mem_empty _ member).elim,
    fun _ member => (Table.not_mem_empty _ member).elim⟩

/-- Waiters may come and go on as long as none is released. -/
theorem Aligned.frame (aligned : Aligned tables) (validations : after.validations = tables.validations)
    (consumptions : after.consumptions = tables.consumptions)
    (waiters : ∀ waiter ∈ after.waiters, waiter ∈ tables.waiters ∨
      waiter.status ≠ .released ∧ Addressable waiter.waiterRef waiter.generation) : Aligned after := by
  have latest : ∀ requestRef waiterRef,
      after.latestValidation requestRef waiterRef = tables.latestValidation requestRef waiterRef :=
    fun _ _ => by rw [Tables.latestValidation, validations, Tables.latestValidation]
  refine ⟨fun waiter member => ?_, fun waiter member status => ?_, fun consumption member => ?_⟩
  · rcases waiters waiter member with old | ⟨-, named⟩
    · exact aligned.addressed waiter old
    · exact named
  · rcases waiters waiter member with old | ⟨standing, -⟩
    · rw [latest]
      exact aligned.released waiter old status
    · exact absurd status standing
  · rw [latest]
    exact aligned.consumed consumption (consumptions ▸ member)

theorem aligned_expire (aligned : Aligned tables) {stamp : Stamp} {requestRef : String}
    (success : expire setting stamp requestRef tables = .ok after) : Aligned after := by
  rcases of_expire success with ⟨-, rfl⟩ | ⟨-, dispositions, -, rfl⟩
  · exact aligned
  · refine aligned.frame rfl rfl fun waiter member => ?_
    obtain ⟨old, there, rfl⟩ := mem_update_iff.mp member
    split
    · exact .inr ⟨by simp [setWaiterStatus], aligned.addressed old there⟩
    · exact .inl there

theorem aligned_consume (aligned : Aligned tables) {stamp : Stamp} {requestRef waiterRef : String}
    {generation : ℤ} {workRef workHash : String}
    (consumes : Consumes setting stamp requestRef waiterRef generation workRef workHash tables after) :
    Aligned after := by
  obtain ⟨request, -, rfl, disposition, waiter, waiting, key, validation, latest, -, consumptions, inserted,
    rfl⟩ := consumes
  obtain ⟨-, validationRequest, validationWaiter⟩ := latestValidation_eq_some latest
  refine ⟨fun other member => ?_, fun other member status => ?_, fun consumption present => ?_⟩
  · obtain ⟨old, there, rfl⟩ := mem_update_iff.mp member
    split <;> exact aligned.addressed old there
  · obtain ⟨old, there, rfl⟩ := mem_update_iff.mp member
    split at status
    · cases status
    · rename_i spared
      rw [if_neg spared]
      exact aligned.released old there status
  · rcases (mem_insertRow inserted).mp present with present | rfl
    · exact aligned.consumed consumption present
    · refine ⟨validation, ?_, rfl⟩
      rw [← validationRequest, ← validationWaiter] at latest
      exact latest

/-- A release needs a blocked waiter, with its own generation and target. -/
theorem releases_of_not_blocked {inside : Inside} {request : RequestRow} {disposition : Option DispositionRow}
    {waiter : WaiterRow} {generation : ℤ} {targetAssertion : Dict} {blockers : List String}
    {receipt : Option String}
    (free : blockedReason setting inside request disposition waiter generation targetAssertion blockers
      receipt = none) :
    waiter.status = .blocked ∧ generation = waiter.generation ∧
      setting.hash targetAssertion.json = waiter.targetAssertion.hash := by
  unfold blockedReason at free
  split_ifs at free with unsettled resumable generationFits targetFits
  all_goals exact ⟨by simpa using resumable, by simpa using Eq.symm (by simpa using generationFits),
    by simpa using Eq.symm (by simpa using targetFits)⟩

/-- A validation is in turn: it comes last when it releases the waiter, and not when the waiter was released
before. -/
structure InTurn (setting : Setting) (tables : Tables) (inside : Inside) (requestRef waiterRef : String)
    (generation : ℤ) (targetAssertion : Dict) (blockers : List String) (receipt : Option String) : Prop where
  resumed : ∀ waiter ∈ tables.waiters, waiter.key = (requestRef, waiterRef) →
    waiter.status = .released ∨ waiter.status = .consumed → ¬ tables.ComesLast requestRef waiterRef inside.stamp
  releases : ∀ request ∈ tables.requests, request.requestRef = requestRef →
    ∀ waiter ∈ tables.waiters, waiter.key = (requestRef, waiterRef) →
      blockedReason setting inside request (tables.dispositions.find? requestRef) waiter generation
        targetAssertion blockers receipt = none → tables.ComesLast requestRef waiterRef inside.stamp

theorem aligned_validate (kept : Kept setting tables) (aligned : Aligned tables) {inside : Inside}
    {requestRef waiterRef ref : String} {generation : ℤ} {targetAssertion : Dict} {blockers : List String}
    {receipt : Option String}
    (validates : Validates setting inside requestRef waiterRef generation targetAssertion blockers receipt
      tables ref after)
    (inTurn : InTurn setting tables inside requestRef waiterRef generation targetAssertion blockers receipt) :
    Aligned after := by
  obtain ⟨request, filed, rfl, waiter, waiting, key, validations, reason, reason_eq, inserted, -, rfl⟩ :=
    validates
  have waiterRequest : waiter.requestRef = request.requestRef := congrArg Prod.fst key
  have waiterNamed : waiter.waiterRef = waiterRef := congrArg Prod.snd key
  have itself : ∀ other ∈ tables.waiters, other.requestRef = request.requestRef → other.waiterRef = waiterRef →
      other = waiter := fun other there sameRequest sameWaiter =>
    Table.eq_of_key there waiting (Prod.ext (sameRequest.trans waiterRequest.symm) (sameWaiter.trans waiterNamed.symm))
  -- The latest validation of a waiter that was released before stays.
  have stays : ∀ waiters : Table WaiterRow.key, ∀ other ∈ tables.waiters,
      other.status = .released ∨ other.status = .consumed →
      ({ tables with validations, waiters } : Tables).latestValidation other.requestRef other.waiterRef =
        tables.latestValidation other.requestRef other.waiterRef := by
    intro waiters other there status
    by_cases same : other.requestRef = request.requestRef ∧ other.waiterRef = waiterRef
    · rw [itself other there same.1 same.2] at status
      rw [same.1, same.2]
      exact latestValidation_insert_of_not_last waiters rfl rfl (inTurn.resumed waiter waiting key status) inserted
    · exact latestValidation_insert_of_ne waiters (fun both => same ⟨both.1.symm, both.2.symm⟩) inserted
  have consumed : ∀ waiters : Table WaiterRow.key, ∀ consumption ∈ tables.consumptions,
      ∃ validation, ({ tables with validations, waiters } : Tables).latestValidation consumption.requestRef
          consumption.waiterRef = some validation ∧ validation.validationRef = consumption.validationRef := by
    intro waiters consumption present
    obtain ⟨owner, there, named, -, status⟩ := kept.consuming.waiter consumption present
    obtain ⟨ownerRequest, ownerWaiter⟩ := Prod.ext_iff.mp named
    have latest := stays waiters owner there (.inr status)
    simp only [WaiterRow.key] at ownerRequest ownerWaiter
    rw [ownerRequest, ownerWaiter] at latest
    rw [latest]
    exact aligned.consumed consumption present
  rcases resumeWaiter_cases (validationRow setting inside.stamp request.requestRef waiterRef generation
      targetAssertion blockers receipt reason) waiter tables.waiters with same | ⟨-, status, moves, same⟩
  · rw [same]
    refine ⟨aligned.addressed, fun other there released => ?_, consumed _⟩
    rw [stays _ other there (.inl released)]
    exact aligned.released other there released
  · rw [same]
    refine ⟨fun other member => ?_, fun other member released => ?_, consumed _⟩
    · obtain ⟨old, there, rfl⟩ := mem_update_iff.mp member
      split <;> exact aligned.addressed old there
    · obtain ⟨old, there, rfl⟩ := mem_update_iff.mp member
      split at released
      · rename_i chosen
        rw [if_pos chosen]
        obtain rfl := Table.eq_of_key there waiting (of_decide_eq_true chosen)
        rcases moves with ⟨-, free⟩ | rfl
        · have none : reason = none := by simpa [validationRow] using free
          obtain ⟨-, generations, targets⟩ := releases_of_not_blocked (reason_eq.symm.trans none)
          have last := inTurn.releases request filed rfl old waiting key (reason_eq.symm.trans none)
          refine ⟨_, ?_, free, generations, targets⟩
          change Tables.latestValidation _ old.requestRef old.waiterRef = _
          rw [waiterRequest, waiterNamed]
          exact latestValidation_insert_of_last _ rfl rfl last inserted
        · cases released
      · rename_i spared
        rw [if_neg spared, stays _ old there (.inl released)]
        exact aligned.released old there released

/-! ### Runs -/

/-- The waiters that a transaction under way names were checked. -/
def Flight.Addressed : Flight → Prop
  | acting order _ => order.Addressed
  | entering .. | looking .. | expiring .. | checking .. | answering .. | closing .. | closingDue .. => True

theorem addressed_takeOff (issued : Command) : issued.takeOff.Addressed := by
  unfold Command.takeOff
  split <;> trivial

theorem addressed_advance {flight rest : Flight} {inside : Inside}
    (goes : (flight.advance setting inside tables).2 = some rest) : rest.Addressed := by
  cases flight with
  | entering | answering =>
    cases goes
    trivial
  | checking issued look =>
    cases prepared : issued.prepare setting inside.stamp.now tables with
    | error _ => simp only [Flight.advance, prepared, reduceCtorEq] at goes
    | ok order =>
      simp only [Flight.advance, prepared, Option.some.injEq] at goes
      subst goes
      exact Command.prepare_addressed prepared
  | acting order look =>
    simp only [Flight.advance] at goes
    split at goes
    · obtain ⟨key, body⟩ := order
      cases body <;> cases goes <;> trivial
    · cases goes
  | looking | expiring | closing | closingDue =>
    simp only [Flight.advance] at goes
    split at goes <;> cases goes <;> trivial

/-- A validation that is about to be filed is in turn. -/
def System.ValidatesInTurn (setting : Setting) (system : System) : Event → Prop
  | .advance index inside => ∀ key look requestRef waiterRef generation targetAssertion blockers receipt,
      system.flights[index]? = some (.acting ⟨key, .validate requestRef waiterRef generation targetAssertion
        blockers receipt⟩ look) → system.tables.commands.find? key = none →
      InTurn setting system.tables inside requestRef waiterRef generation targetAssertion blockers receipt
  | .call _ | .query _ | .consume .. | .respond .. => True

/-- What every event keeps: the invariant, the names of the waiters under way, and the latest validations. -/
structure System.InOrder (setting : Setting) (system : System) : Prop where
  sound : system.Sound setting
  addressed : ∀ flight ∈ system.flights, flight.Addressed
  aligned : Aligned system.tables

theorem inOrder_empty : System.InOrder setting {} :=
  ⟨sound_empty, fun _ member => (List.not_mem_nil member).elim, aligned_empty⟩

theorem aligned_fresh (kept : Kept setting tables) (aligned : Aligned tables) {order : Order}
    {inside : Inside} {ref : String} (addressed : order.Addressed)
    (inTurn : ∀ requestRef waiterRef generation targetAssertion blockers receipt,
      order.body = .validate requestRef waiterRef generation targetAssertion blockers receipt →
      InTurn setting tables inside requestRef waiterRef generation targetAssertion blockers receipt)
    (success : order.fresh setting inside tables = .ok (ref, after)) : Aligned after := by
  have other (unlike : ∀ requestRef waiterRef generation targetAssertion blockers receipt,
      order.body ≠ .validate requestRef waiterRef generation targetAssertion blockers receipt) :
      Aligned after := by
    obtain ⟨validations, consumptions, waiters⟩ := frame_fresh success unlike
    refine aligned.frame validations consumptions fun waiter member => ?_
    rcases waiters waiter member with old | ⟨blocked, source, named, ref, generation⟩
    · exact .inl old
    · rw [ref, generation]
      exact .inr ⟨by simp [blocked], addressed source named⟩
  obtain ⟨key, body⟩ := order
  cases body with
  | validate requestRef waiterRef generation targetAssertion blockers receipt =>
    obtain ⟨validates⟩ := of_validateFresh success
    exact aligned_validate kept aligned validates (inTurn _ _ _ _ _ _ rfl)
  | openRequest | openEffect | revise | evaluate => exact other fun _ _ _ _ _ _ same => by cases same

theorem System.InOrder.move (inOrder : system.InOrder setting)
    (inTurn : system.ValidatesInTurn setting event) : (system.move setting event).InOrder setting := by
  refine ⟨inOrder.sound.move event, forall_flights_move inOrder.addressed
    (fun issued _ => addressed_takeOff issued) (fun _ => trivial)
    fun index inside flight rest _ _ goes => addressed_advance goes, ?_⟩
  have moves := moves_move setting system event
  generalize (system.move setting event).tables = after at moves
  cases moves with
  | reads => exact inOrder.aligned
  | expires _ success => exact aligned_expire inOrder.aligned success
  | @transacts index inside order look ref after advances flying success =>
    subst advances
    rcases of_transact success with ⟨rfl, -⟩ | ⟨free, between, commands, fresh, -, rfl⟩
    · exact inOrder.aligned
    · have aligned := aligned_fresh inOrder.sound.kept inOrder.aligned
        (inOrder.addressed _ (List.mem_of_getElem? flying)) (fun _ _ _ _ _ _ same => by
          obtain ⟨key, body⟩ := order
          cases same
          exact inTurn _ _ _ _ _ _ _ _ flying free) fresh
      exact aligned.frame rfl rfl fun waiter member => .inl member
  | consumes _ success =>
    rcases of_consumeReleasedWaiter success with rfl | ⟨_, _, ⟨consumes⟩⟩
    · exact inOrder.aligned
    · exact aligned_consume inOrder.aligned consumes
  | responds success =>
    obtain ⟨responses, -, rfl⟩ := of_recordResponse success
    exact inOrder.aligned.frame rfl rfl fun waiter member => .inl member

/-! ### Consuming a release -/

/-- The arguments of a consumption pass their checks, and what it draws is new. -/
structure StartsWork (setting : Setting) (tables : Tables) (stamp : Stamp) (workRef workHash : String) :
    Prop where
  named : ∃ work, boundedText workRef "human_request_work_ref_invalid" 128 = .ok work ∧
    containsSecret setting.secrets (.object [("work_ref", .text work), ("work_hash", .text workHash)]) = false
  hashed : workHash.length = 64
  drawn : ∀ consumption ∈ tables.consumptions,
    consumption.consumptionRef ≠ newRef "resume_consumption" stamp.draws.consumption ∧
      consumption.receiptRef ≠ newRef "owner_receipt" stamp.draws.receipt

/-- A release of a current request has its disposition. -/
theorem isReleased_of_aligned (kept : Kept setting tables) {waiter : WaiterRow}
    (member : waiter ∈ tables.waiters) (status : waiter.status = .released) {row : RequestRow}
    (filed : row ∈ tables.requests) (ref : row.requestRef = waiter.requestRef) (current : row.isCurrent = true)
    {validation : ValidationRow} (releases : validation.Releases waiter) :
    ∃ disposition, tables.dispositions.find? waiter.requestRef = some disposition ∧
      isReleased row disposition waiter validation waiter.generation = true := by
  have agrees := kept.closings.agrees row filed
  have closed := kept.waiting.resumable waiter member (.inl status) row filed ref
  rw [ref] at agrees
  cases found : tables.dispositions.find? waiter.requestRef with
  | none =>
    rw [found] at agrees
    rcases closed with closed | closed <;> rw [closed] at agrees <;> cases agrees
  | some disposition =>
    rw [found] at agrees
    obtain ⟨released, generation, target⟩ := releases
    refine ⟨disposition, rfl, ?_⟩
    rcases closed with closed | closed <;> rw [closed] at agrees <;>
      simp [isReleased, closed, current, status, released, generation, target, Option.some.inj agrees]

/-- No consumption names the release of a waiter. -/
theorem unconsumed_of_released (kept : Kept setting tables) (aligned : Aligned tables) {waiter : WaiterRow}
    (member : waiter ∈ tables.waiters) (status : waiter.status = .released) {validation : ValidationRow}
    (latest : tables.latestValidation waiter.requestRef waiter.waiterRef = some validation) :
    ∀ consumption ∈ tables.consumptions,
      ¬ (consumption.requestRef = waiter.requestRef ∧ consumption.waiterRef = waiter.waiterRef) ∧
        consumption.validationRef ≠ validation.validationRef := by
  intro consumption present
  have apart : ¬ (consumption.requestRef = waiter.requestRef ∧ consumption.waiterRef = waiter.waiterRef) := by
    rintro ⟨sameRequest, sameWaiter⟩
    obtain ⟨owner, there, key, -, consumed⟩ := kept.consuming.waiter consumption present
    rw [sameRequest, sameWaiter] at key
    rw [Table.eq_of_key there member key, status] at consumed
    cases consumed
  refine ⟨apart, fun same => apart ?_⟩
  obtain ⟨named, found, ref⟩ := aligned.consumed consumption present
  obtain ⟨namedMember, namedRequest, namedWaiter⟩ := latestValidation_eq_some found
  obtain ⟨latestMember, latestRequest, latestWaiter⟩ := latestValidation_eq_some latest
  rw [Table.eq_of_key namedMember latestMember (ref.trans same)] at namedRequest namedWaiter
  exact ⟨namedRequest.symm.trans latestRequest, namedWaiter.symm.trans latestWaiter⟩

theorem consume_of_released (kept : Kept setting tables) (aligned : Aligned tables) {waiter : WaiterRow}
    (member : waiter ∈ tables.waiters) (status : waiter.status = .released) {row : RequestRow}
    (filed : row ∈ tables.requests) (ref : row.requestRef = waiter.requestRef) (current : row.isCurrent = true)
    {stamp : Stamp} {workRef workHash : String} (starts : StartsWork setting tables stamp workRef workHash) :
    ∃ after, consumeReleasedWaiter setting stamp waiter.requestRef waiter.waiterRef waiter.generation workRef
      workHash tables = .ok after := by
  obtain ⟨validation, latest, releases⟩ := aligned.released waiter member status
  obtain ⟨disposition, disposed, released⟩ :=
    isReleased_of_aligned kept member status filed ref current releases
  have unconsumed := unconsumed_of_released kept aligned member status latest
  obtain ⟨work, bounded, plain⟩ := starts.named
  obtain ⟨addressed, positive⟩ := aligned.addressed waiter member
  obtain ⟨-, validationRequest, validationWaiter⟩ := latestValidation_eq_some latest
  obtain ⟨consumptions, inserted⟩ := exists_insertRow_iff.mpr fun other present => show other.key ≠
      (consumptionRow setting stamp validation work workHash).key from fun same =>
    (unconsumed other present).1 ⟨(congrArg Prod.fst same).trans validationRequest,
      (congrArg (·.2.1) same).trans validationWaiter⟩
  have absent : tables.consumptions.find? (waiter.requestRef, waiter.waiterRef, waiter.generation) = none := by
    rw [Table.find?_eq_none_iff]
    exact fun other present same => (unconsumed other present).1
      ⟨congrArg Prod.fst same, congrArg (·.2.1) same⟩
  have found : tables.requests.find? waiter.requestRef = some row :=
    Table.find?_eq_some_iff.mpr ⟨filed, ref⟩
  have waits : tables.waiters.find? (waiter.requestRef, waiter.waiterRef) = some waiter :=
    Table.find?_eq_some_iff.mpr ⟨member, rfl⟩
  have fresh : (tables.consumptions.rows.all fun other =>
      other.consumptionRef ≠ (consumptionRow setting stamp validation work workHash).consumptionRef &&
        other.validationRef ≠ (consumptionRow setting stamp validation work workHash).validationRef &&
          other.receiptRef ≠ (consumptionRow setting stamp validation work workHash).receiptRef) = true := by
    rw [List.all_eq_true]
    intro other present
    simp only [Bool.and_eq_true, decide_eq_true_iff]
    exact ⟨⟨(starts.drawn other present).1, (unconsumed other present).2⟩, (starts.drawn other present).2⟩
  refine ⟨{ tables with
    consumptions
    waiters := tables.waiters.update (·.key = waiter.key) (setWaiterStatus .consumed) }, ?_⟩
  unfold consumeReleasedWaiter
  simp only [bind_eq_ok_iff (α := String), check_then_eq_ok_iff, require_eq_ok_iff, Bool.and_eq_true,
    Bool.not_eq_true', decide_eq_true_iff]
  refine ⟨_, addressed, work, bounded, ⟨⟨positive, starts.hashed⟩, plain⟩, ?_⟩
  simp only [absent]
  unfold consumeFresh
  simp only [found, disposed, waits, latest, check_then_eq_ok_iff, require_eq_ok_iff,
    bind_eq_ok_iff (α := Table ConsumptionRow.key)]
  exact ⟨verifyRequestStateIntegrity_ok kept filed, kept.verified disposition (Table.mem_of_find? disposed),
    released, fresh, consumptions, inserted, rfl⟩

/-! ### The protocol -/

/-- The consumption is one of the waiter. -/
def ConsumptionRow.IsOf (consumption : ConsumptionRow) (waiter : WaiterRow) : Prop :=
  consumption.requestRef = waiter.requestRef ∧ consumption.waiterRef = waiter.waiterRef

/-- Consumed waiters are those with a single consumption, of their latest validation; released ones were
released by their latest validation and can be consumed while their request is current; and no query finds a
consumption that does not fit. -/
structure ProtocolKept (setting : Setting) (tables : Tables) : Prop where
  consumed_iff : ∀ waiter ∈ tables.waiters, waiter.status = .consumed ↔
    ∃ consumption ∈ tables.consumptions, consumption.IsOf waiter ∧
      (∀ other ∈ tables.consumptions, other.IsOf waiter → other = consumption) ∧
      ∃ validation, tables.latestValidation waiter.requestRef waiter.waiterRef = some validation ∧
        consumption.validationRef = validation.validationRef
  released : ∀ waiter ∈ tables.waiters, waiter.status = .released →
    ∃ validation, tables.latestValidation waiter.requestRef waiter.waiterRef = some validation ∧
      validation.Releases waiter
  consumable : ∀ waiter ∈ tables.waiters, waiter.status = .released →
    ∀ row ∈ tables.requests, row.requestRef = waiter.requestRef → row.isCurrent = true →
      ∀ stamp workRef workHash, StartsWork setting tables stamp workRef workHash →
        ∃ after, consumeReleasedWaiter setting stamp waiter.requestRef waiter.waiterRef waiter.generation workRef
          workHash tables = .ok after
  readable : ∀ moment requestRef,
    (queryHumanRequest setting moment requestRef tables).1 ≠ .error "human_request_resume_consumption_invalid"

theorem settled_of_aligned (aligned : Aligned tables) (requestRef : String) : tables.Settled requestRef := by
  rintro consumption present rfl
  obtain ⟨validation, latest, ref⟩ := aligned.consumed consumption present
  rw [latest, Option.any_some, decide_eq_true_iff]
  exact ref

theorem consumed_iff_of_aligned (kept : Kept setting tables) (aligned : Aligned tables) {waiter : WaiterRow}
    (member : waiter ∈ tables.waiters) :
    waiter.status = .consumed ↔ ∃ consumption ∈ tables.consumptions, consumption.IsOf waiter ∧
      (∀ other ∈ tables.consumptions, other.IsOf waiter → other = consumption) ∧
      ∃ validation, tables.latestValidation waiter.requestRef waiter.waiterRef = some validation ∧
        consumption.validationRef = validation.validationRef := by
  have owner : ∀ consumption ∈ tables.consumptions, consumption.IsOf waiter →
      waiter.status = .consumed ∧ consumption.key = (waiter.requestRef, waiter.waiterRef, waiter.generation) := by
    intro consumption present ⟨sameRequest, sameWaiter⟩
    obtain ⟨other, there, key, generation, status⟩ := kept.consuming.waiter consumption present
    rw [sameRequest, sameWaiter] at key
    rw [Table.eq_of_key there member key] at status generation
    exact ⟨status, Prod.ext sameRequest (Prod.ext sameWaiter generation.symm)⟩
  constructor
  · intro status
    obtain ⟨consumption, present, key⟩ := kept.consuming.consumed waiter member status
    have isOf : consumption.IsOf waiter := ⟨congrArg Prod.fst key, congrArg (·.2.1) key⟩
    obtain ⟨validation, latest, ref⟩ := aligned.consumed consumption present
    rw [isOf.1, isOf.2] at latest
    refine ⟨consumption, present, isOf, fun other there named => ?_, validation, latest, ref.symm⟩
    exact Table.eq_of_key there present ((owner other there named).2.trans key.symm)
  · rintro ⟨consumption, present, isOf, -⟩
    exact (owner consumption present isOf).1

/-- A query of a settled request answers, or finds the deadline or the identity of the request in the way. -/
theorem query_ne_consumption_invalid (kept : Kept setting tables)
    (settled : ∀ requestRef, tables.Settled requestRef) (moment : Moment) (requestRef : String) :
    (queryHumanRequest setting moment requestRef tables).1 ≠
      .error "human_request_resume_consumption_invalid" := by
  by_cases lands : tables.Lands moment requestRef
  · rw [query_of_lands kept lands]
    cases found : (tables.madeUp setting moment requestRef).requests.find? requestRef with
    | none =>
      simp only [readHumanRequest, found]
      exact fun absurd => by cases absurd
    | some row =>
      obtain ⟨member, rfl⟩ := Table.find?_eq_some_iff.mp found
      have keptAfter : Kept setting (tables.madeUp setting moment row.requestRef) :=
        (Reaches.keep kept (show Reaches setting anyOrder tables _ from
          reach_materialize moment row.requestRef)).1
      by_cases intact : row.Intact setting
      · rw [readHumanRequest_ok keptAfter member intact (settled_materialize.mpr (settled _))]
        exact fun absurd => by cases absurd
      · rw [readHumanRequest_of_not_intact keptAfter member intact]
        simp
  · rw [query_of_not_lands kept lands]
    simp

theorem protocolKept_of_aligned (kept : Kept setting tables) (aligned : Aligned tables) :
    ProtocolKept setting tables where
  consumed_iff _ member := consumed_iff_of_aligned kept aligned member
  released := aligned.released
  consumable _ member status _ filed ref current _ _ _ starts :=
    consume_of_released kept aligned member status filed ref current starts
  readable := query_ne_consumption_invalid kept (settled_of_aligned aligned)

/-- Whatever the order of the steps and the readings of the clock, the protocol is kept as long as validations
are in turn. -/
theorem protocol_kept (setting : Setting) (events : List Event)
    (inTurn : Admissible (System.move setting) (System.ValidatesInTurn setting) {} events) :
    ProtocolKept setting (runInputs (System.move setting) {} events).tables := by
  have inOrder := inTurn.invariant inOrder_empty fun _ _ inOrder => inOrder.move
  exact protocolKept_of_aligned inOrder.sound.kept inOrder.aligned

/-! ### A sample -/

/-- The steps of the call behind so many others, up to and with its transaction. -/
def transactSteps (index : ℕ) (inside : Inside) : List Event := List.replicate 4 (.advance index inside)

def sampleRef : String := requestRefOf (newRef "human_request" sampleUuid) 1

def sampleValidate (key : String) : Command := .validate sampleRef "waiter" 1 sampleTarget [] key none

/-- A request is opened, answered and satisfied, and its waiter is released. -/
def releaseEvents : List Event :=
  [.call (.openRequest (sampleArguments none) sampleWaiter "open"), .advance 0 (sampleAt 1).inside,
    .advance 0 (sampleAt 1).inside,
    .respond ⟨"response", sampleRef, .provided⟩ (newRef "human_request" sampleUuid) 1 2,
    .call (.evaluate sampleRef ["response"] "satisfied" "checked" [] "evaluate")] ++
  transactSteps 1 (sampleAt 3).inside ++ [.call (sampleValidate "first")] ++
  transactSteps 2 (sampleAt 4).inside

def sampleWork : String := String.ofList (List.replicate 64 '0')

/-- The release is consumed. -/
def consumeEvents : List Event :=
  releaseEvents ++ [.consume sampleRef "waiter" 1 "work" sampleWork (sampleStamp 5)]

theorem form_ones : "11111111111111111111111111111111".length = 32 ∧
    "11111111111111111111111111111111".toList.all ("0123456789abcdef".toList.contains ·) := by decide +kernel

def otherUuid : Datasets.Uuid := ⟨"11111111111111111111111111111111", form_ones⟩

/-- The waiter is validated again, under a new key. -/
def validateAgain : List Event :=
  .call (sampleValidate "second") ::
    transactSteps 2 { (sampleAt 6).inside with
      stamp := { sampleStamp 6 with draws := { (sampleStamp 6).draws with validation := otherUuid } } }

/-- Before the first validation every waiter is blocked, and a validation is in turn. -/
def System.beforeRelease (system : System) : Event → Bool
  | .advance .. => system.tables.validations.rows.isEmpty && system.tables.waiters.rows.all (·.status = .blocked)
  | .call _ | .query _ | .consume .. | .respond .. => true

theorem validatesInTurn_of_beforeRelease (before : system.beforeRelease event = true) :
    system.ValidatesInTurn setting event := by
  cases event with
  | advance index inside =>
    intro key look requestRef waiterRef generation targetAssertion blockers receipt _ _
    rw [System.beforeRelease, Bool.and_eq_true, List.isEmpty_iff, List.all_eq_true] at before
    constructor
    · intro waiter member _ resumed
      have blocked := of_decide_eq_true (before.2 waiter member)
      rw [blocked] at resumed
      rcases resumed with resumed | resumed <;> cases resumed
    · intro _ _ _ _ _ _ _ earlier present
      rw [Table.mem_def, before.1] at present
      cases present
  | call | query | consume | respond => trivial

theorem protocol_kept_consumed :
    ProtocolKept sampleSetting (runInputs (System.move sampleSetting) {} consumeEvents).tables := by
  have before : Admissible (System.move sampleSetting) (fun system event => system.beforeRelease event = true)
      {} consumeEvents := by decide +kernel
  exact protocol_kept sampleSetting consumeEvents (before.mono fun _ _ => validatesInTurn_of_beforeRelease)

/-- Once the release is consumed, another validation makes the request unreadable. -/
theorem validated_again_unreadable :
    (queryHumanRequest sampleSetting (sampleAt 7).opening sampleRef
        (runInputs (System.move sampleSetting) {} (consumeEvents ++ validateAgain)).tables).1 =
      .error "human_request_resume_consumption_invalid" ∧
    ¬ ProtocolKept sampleSetting
      (runInputs (System.move sampleSetting) {} (consumeEvents ++ validateAgain)).tables := by
  have unreadable : (queryHumanRequest sampleSetting (sampleAt 7).opening sampleRef
        (runInputs (System.move sampleSetting) {} (consumeEvents ++ validateAgain)).tables).1 =
      .error "human_request_resume_consumption_invalid" := isError_iff.mp (by decide +kernel)
  exact ⟨unreadable, fun kept => kept.readable _ _ unreadable⟩

end MetaResearch.HumanRequests

import MetaResearch.Soundness.HumanRequests.Storage

/-! # Effects that stay resolvable

An opened effect is resolved through the current revision of its request. That revision carries the
effect on as long as no revision is made that drops it, and it can be read as long as its deadline is no
integer and no consumed waiter of it is validated again.
-/

namespace MetaResearch.HumanRequests

open Datasets (Uuid newRef)

variable {setting : Setting} {tables after : Tables}

/-! ### Traces -/

/-- The current revision goes on with the effect of the row, and it can be read if the row can. -/
def Continues (setting : Setting) (effects : Table OpenEffectRow.effectKey) (effect : OpenEffectRow)
    (row current : RequestRow) : Prop :=
  current.kind = .systemOperationHelp ∧
    (current.requestRef = row.requestRef ∨ current.Intact setting) ∧
    ∃ other ∈ effects, other.requestRef = current.requestRef ∧ other.effectId = effect.effectId

/-- The effects of requests for help with a system operation are carried on by the current revisions. -/
def Traced (setting : Setting) (requests : Table RequestRow.requestRef)
    (effects : Table OpenEffectRow.effectKey) : Prop :=
  ∀ effect ∈ effects, ∀ row ∈ requests, row.requestRef = effect.requestRef →
    row.kind = .systemOperationHelp → ∀ current ∈ requests, current.requestId = row.requestId →
      current.isCurrent = true → Continues setting effects effect row current

section

variable {requests grown : Table RequestRow.requestRef}
  {effects opened : Table OpenEffectRow.effectKey} {effect : OpenEffectRow} {new : RequestRow}

theorem continues_of_core {row old current before : RequestRow} (same : row.core = old.core)
    (currentSame : current.core = before.core) (continues : Continues setting effects effect old before) :
    Continues setting effects effect row current := by
  obtain ⟨kind, readable, carried⟩ := continues
  rw [Continues, RequestRow.kind_of_core currentSame, RequestRow.requestRef_of_core currentSame,
    RequestRow.requestRef_of_core same, RequestRow.intact_of_core currentSame]
  exact ⟨kind, readable, carried⟩

theorem Continues.mono {row current : RequestRow} (continues : Continues setting effects effect row current)
    (grows : ∀ other ∈ effects, other ∈ opened) : Continues setting opened effect row current := by
  obtain ⟨kind, readable, other, present, carried⟩ := continues
  exact ⟨kind, readable, other, grows other present, carried⟩

theorem Traced.pull (traced : Traced setting requests effects) (comes : ∀ row ∈ grown, row.From requests) :
    Traced setting grown effects := by
  intro effect present row member ref kind current here id isCurrent
  obtain ⟨old, there, same, -⟩ := comes row member
  obtain ⟨before, oldThere, currentSame, wasCurrent⟩ := comes current here
  refine continues_of_core same currentSame ?_
  exact traced effect present old there ((RequestRow.requestRef_of_core same).symm.trans ref)
    ((RequestRow.kind_of_core same).symm.trans kind) before oldThere
    (by rw [← RequestRow.requestId_of_core same, ← RequestRow.requestId_of_core currentSame, id])
    (wasCurrent isCurrent)

/-- The row of a known effect is no new row. -/
private theorem from_of_effect (comes : ∀ row ∈ grown, row = new ∨ row.From requests)
    (fresh : ∀ old ∈ requests, old.requestRef ≠ new.requestRef)
    (filed : ∃ row ∈ requests, row.requestRef = effect.requestRef) {row : RequestRow} (member : row ∈ grown)
    (ref : row.requestRef = effect.requestRef) : row.From requests := by
  rcases comes row member with rfl | pulled
  · obtain ⟨old, there, same⟩ := filed
    exact (fresh old there (same.trans ref.symm)).elim
  · exact pulled

/-- A new revision of a request without an effect. -/
theorem Traced.file (traced : Traced setting requests effects)
    (comes : ∀ row ∈ grown, row = new ∨ row.From requests)
    (fresh : ∀ old ∈ requests, old.requestRef ≠ new.requestRef)
    (filed : ∀ effect ∈ effects, ∃ row ∈ requests, row.requestRef = effect.requestRef)
    (foreign : ∀ effect ∈ effects, ∀ row ∈ requests, row.requestRef = effect.requestRef →
      row.kind = .systemOperationHelp → row.requestId ≠ new.requestId) :
    Traced setting grown effects := by
  intro effect present row member ref kind current here id isCurrent
  obtain ⟨old, there, same, -⟩ := from_of_effect comes fresh (filed effect present) member ref
  have oldRef := (RequestRow.requestRef_of_core same).symm.trans ref
  have oldKind := (RequestRow.kind_of_core same).symm.trans kind
  rcases comes current here with rfl | ⟨before, oldThere, currentSame, wasCurrent⟩
  · exact (foreign effect present old there oldRef oldKind
      ((RequestRow.requestId_of_core same).symm.trans id.symm)).elim
  · refine continues_of_core same currentSame ?_
    exact traced effect present old there oldRef oldKind before oldThere
      (by rw [← RequestRow.requestId_of_core same, ← RequestRow.requestId_of_core currentSame, id])
      (wasCurrent isCurrent)

/-- A new revision with an effect, which carries on the effects of its request. -/
theorem Traced.open (traced : Traced setting requests effects) (lineage : Lineage grown)
    (comes : ∀ row ∈ grown, row = new ∨ row.From requests) (newHere : new ∈ grown)
    (newCurrent : new.isCurrent = true) (fresh : ∀ old ∈ requests, old.requestRef ≠ new.requestRef)
    (filed : ∀ effect ∈ effects, ∃ row ∈ requests, row.requestRef = effect.requestRef)
    (named : effect.requestRef = new.requestRef) (inserted : insertRow effects effect = .ok opened)
    (goesOn : ∀ earlier ∈ effects, ∀ row ∈ requests, row.requestRef = earlier.requestRef →
      row.kind = .systemOperationHelp → row.requestId = new.requestId →
        new.kind = .systemOperationHelp ∧ new.Intact setting ∧ effect.effectId = earlier.effectId) :
    Traced setting grown opened := by
  have effectHere : effect ∈ opened := (mem_insertRow inserted).mpr (.inr rfl)
  intro shown present row member ref kind current here id isCurrent
  rcases (mem_insertRow inserted).mp present with present | rfl
  · obtain ⟨old, there, same, -⟩ := from_of_effect comes fresh (filed shown present) member ref
    have oldRef := (RequestRow.requestRef_of_core same).symm.trans ref
    have oldKind := (RequestRow.kind_of_core same).symm.trans kind
    rcases comes current here with rfl | ⟨before, oldThere, currentSame, wasCurrent⟩
    · obtain ⟨help, intact, carried⟩ := goesOn shown present old there oldRef oldKind
        ((RequestRow.requestId_of_core same).symm.trans id.symm)
      exact ⟨help, .inr intact, effect, effectHere, named, carried⟩
    · refine Continues.mono (continues_of_core same currentSame ?_) fun other known =>
        (mem_insertRow inserted).mpr (.inl known)
      exact traced shown present old there oldRef oldKind before oldThere
        (by rw [← RequestRow.requestId_of_core same, ← RequestRow.requestId_of_core currentSame, id])
        (wasCurrent isCurrent)
  · obtain rfl : row = new := Table.eq_of_key member newHere (ref.trans named)
    obtain rfl : current = row := lineage.eq_of_current here member id isCurrent newCurrent
    exact ⟨kind, .inl rfl, shown, effectHere, named, rfl⟩

end

/-! ### Orders that carry effects on -/

/-- Under a free key, the order does not really revise a request for help that has an effect, does not go
on with an effect until an integer deadline, and does not validate a consumed waiter of an effect. -/
def Order.CarriesOn (setting : Setting) (tables : Tables) (order : Order) : Prop :=
  tables.commands.find? order.idempotencyKey = none →
    match order.body with
    | .revise requestRef expectedRevision contract _ => ∀ row ∈ tables.requests,
        row.requestRef = requestRef → row.isCurrent = true → row.status = .opened →
          (row.revision : ℤ) = expectedRevision → setting.hash contract.json ≠ row.identityHash →
            row.kind = .systemOperationHelp → tables.effectOf requestRef = none
    | .openEffect _ _ predecessorRequestRef contract _ _ => ∀ row ∈ tables.requests,
        predecessorRequestRef = some row.requestRef → row.isCurrent = true →
          row.continuesWith contract.kind = true → contract.hasWholeDeadline = false
    | .validate requestRef waiterRef .. => (tables.effectOf requestRef).isSome = true →
        ∀ waiter ∈ tables.waiters, waiter.key = (requestRef, waiterRef) → waiter.status ≠ .consumed
    | .openRequest .. | .evaluate .. => True

theorem filed_effects (kept : Kept setting tables) :
    ∀ effect ∈ tables.effects, ∃ row ∈ tables.requests, row.requestRef = effect.requestRef := by
  intro effect present
  obtain ⟨row, member, ref, -⟩ := kept.effects.fits effect present
  exact ⟨row, member, ref⟩

/-- A first revision belongs to no effect. -/
private theorem foreign_of_first (kept : Kept setting tables) {requestId : String}
    {effects : Table OpenEffectRow.effectKey}
    (unnumbered : ∀ other ∈ tables.requests, other.requestId = requestId → other.revision ≠ 1) :
    ∀ effect ∈ effects, ∀ row ∈ tables.requests, row.requestRef = effect.requestRef →
      row.kind = .systemOperationHelp → row.requestId ≠ requestId :=
  fun _ _ row member _ _ => kept.lineage.apart unnumbered row member

/-- What is filed, and what it comes from. -/
private theorem comes_insert {requests placed grown : Table RequestRow.requestRef} {new : RequestRow}
    (pulled : ∀ row ∈ placed, row.From requests) (inserted : insertRow placed new = .ok grown) :
    ∀ row ∈ grown, row = new ∨ row.From requests := by
  intro row member
  rcases (mem_insertRow inserted).mp member with member | rfl
  · exact .inr (pulled row member)
  · exact .inl rfl

private theorem fresh_of_update {requests grown : Table RequestRow.requestRef} {new : RequestRow}
    {ref : String} {rewrite : Rewrite RequestRow.requestRef}
    (inserted : insertRow (requests.update (·.requestRef = ref) rewrite) new = .ok grown) :
    ∀ old ∈ requests, old.requestRef ≠ new.requestRef := by
  intro old there same
  obtain ⟨shown, here, key⟩ := Table.exists_key_update.mpr ⟨old, there, same⟩
  exact key_ne_of_insertRow inserted here key

theorem traced_openFresh (kept : Kept setting tables)
    (traced : Traced setting tables.requests tables.effects) {inside : Inside} {contract : Contract}
    {waiter : Waiter} {ref : String}
    (success : openFresh setting inside contract waiter tables = .ok (ref, after)) :
    Traced setting after.requests after.effects := by
  rcases of_openFresh success with ⟨row, -, -, -, new, inserted⟩ |
    ⟨requestId, filed, new, rfl, opened, inserted, -⟩
  · obtain ⟨waiters, rfl⟩ := frame_insertWaiter inserted
    exact traced
  · obtain ⟨apart, requests, request, rfl⟩ := of_insertRequest opened
    have filed : Traced setting requests tables.effects :=
      traced.file (comes_insert (fun row => from_self) request)
        (fun old there => key_ne_of_insertRow request there) (filed_effects kept)
        (foreign_of_first kept fun other there => (apart other there).1)
    obtain ⟨waiters, rfl⟩ := frame_insertWaiter inserted
    exact filed

theorem traced_reviseFresh (kept : Kept setting tables)
    (traced : Traced setting tables.requests tables.effects) {inside : Inside} {requestRef ref : String}
    {expectedRevision : ℤ} {contract : Contract} {waiters : List Waiter}
    (dropped : ∀ row ∈ tables.requests, row.requestRef = requestRef → row.isCurrent = true →
      row.status = .opened → (row.revision : ℤ) = expectedRevision →
        setting.hash contract.json ≠ row.identityHash → row.kind = .systemOperationHelp →
          tables.effectOf requestRef = none)
    (success : reviseFresh setting inside requestRef expectedRevision contract waiters tables =
      .ok (ref, after)) :
    Traced setting after.requests after.effects := by
  obtain ⟨revised, here, rfl, ⟨current, wasOpen, revision, changed⟩, -, closed, filed, disposed, request, waiting⟩ :=
    of_reviseFresh success
  obtain ⟨dispositions, -, rfl⟩ := of_insertDisposition disposed
  obtain ⟨-, requests, inserted, rfl⟩ := of_insertRequest request
  have carried : Traced setting requests tables.effects := by
    refine traced.file (comes_insert (from_update keepsCore_supersede fun _ => nofun) inserted)
      (fresh_of_update inserted) (filed_effects kept) fun effect present row member ref kind same => ?_
    -- The effect would be carried by the revised request, which has none.
    obtain ⟨help, -, other, listed, named, -⟩ :=
      traced effect present row member ref kind revised here same.symm current
    have found := (effectOf_eq_some_iff kept).mpr ⟨listed, named⟩
    rw [dropped revised here rfl current wasOpen revision changed help] at found
    cases found
  obtain ⟨others, rfl⟩ := frame_insertWaiters waiting
  exact carried

theorem traced_openEffect (kept : Kept setting tables)
    (traced : Traced setting tables.requests tables.effects) {inside : Inside}
    {effectKey effectId ref : String} {binding : Dict} {predecessorRequestRef : Option String}
    {contract : Contract} {waiter : Waiter}
    (real : ∀ row ∈ tables.requests, predecessorRequestRef = some row.requestRef →
      row.isCurrent = true → row.continuesWith contract.kind = true → contract.hasWholeDeadline = false)
    (lineage : Lineage after.requests)
    (opens : OpensEffect setting inside effectKey effectId binding predecessorRequestRef contract waiter
      tables ref after) :
    Traced setting after.requests after.effects := by
  obtain ⟨predecessor, precedes, requestId, revision, placed, place, filed, request, waiters, -,
    effects, -, opened, rfl, rfl⟩ := opens
  obtain ⟨apart, requests, inserted, rfl⟩ := of_insertRequest request
  rcases of_placeEffect place with ⟨row, found, continues, current, rfl, rfl, rfl⟩ | ⟨-, rfl, rfl, rfl⟩
  · obtain ⟨predecessorRef, named, before⟩ := precedes row found
    obtain ⟨help, -, stays⟩ := RequestRow.continuesWith_iff.mp continues
    obtain ⟨carrier, carried, sameId⟩ := before.effect
    have readable := real row before.member (by rw [named, before.ref]) current continues
    refine traced.open lineage (comes_insert (from_update keepsCore_retire fun _ => nofun) inserted)
      ((mem_insertRow inserted).mpr (.inr rfl)) rfl (fresh_of_update inserted) (filed_effects kept) rfl
      opened fun earlier present old there oldRef kind same => ?_
    refine ⟨stays, intact_row contract _ _ _ _ readable, ?_⟩
    -- The earlier effect is carried by the predecessor, whose one effect has the same identity.
    obtain ⟨-, -, other, listed, otherRef, otherId⟩ :=
      traced earlier present old there oldRef kind row before.member same.symm current
    have unique := (effectOf_eq_some_iff kept).mpr ⟨listed, otherRef.trans before.ref⟩
    obtain rfl := Option.some.inj (unique.symm.trans carried)
    exact (sameId help stays).symm.trans otherId
  · refine traced.open lineage (comes_insert (fun row => from_self) inserted)
      ((mem_insertRow inserted).mpr (.inr rfl)) rfl
      (fun old there => key_ne_of_insertRow inserted there) (filed_effects kept) rfl opened
      fun earlier present old there oldRef kind same => ?_
    exact (foreign_of_first kept (fun other member => (apart other member).1) earlier present old there
      oldRef kind same).elim

/-- An order that carries effects on keeps the traces. -/
theorem traced_fresh (kept : Kept setting tables)
    (traced : Traced setting tables.requests tables.effects) {order : Order} {inside : Inside}
    {ref : String} (free : tables.commands.find? order.idempotencyKey = none)
    (carries : order.CarriesOn setting tables) (lineage : Lineage after.requests)
    (success : order.fresh setting inside tables = .ok (ref, after)) :
    Traced setting after.requests after.effects := by
  have rule := carries free
  obtain ⟨key, body⟩ := order
  cases body with
  | openRequest contract waiter => exact traced_openFresh kept traced success
  | openEffect effectId binding predecessorRequestRef contract waiter questRef =>
    obtain ⟨opens⟩ := of_openEffectFresh success
    exact traced_openEffect kept traced rule lineage opens
  | revise requestRef expectedRevision contract waiters =>
    exact traced_reviseFresh kept traced rule success
  | evaluate requestRef responseRefs decision reasonCode evidenceRefs =>
    obtain ⟨rfl, row, -, -, -, evaluations, -, written⟩ := of_evaluateFresh success
    rcases written with ⟨-, rfl⟩ | ⟨disposition, dispositions, -, -, rfl⟩
    · exact traced
    · exact traced.pull (from_update (keepsCore_setStatus _) fun _ current => current)
  | validate requestRef waiterRef generation targetAssertion blockers authorizationReceiptRef =>
    obtain ⟨_, _, _, _, _, _, _, _, _, _, rfl, rfl⟩ := of_validateFresh success
    exact traced

/-! ### Settled effects -/

/-- The requests of effects are settled. -/
def Tables.EffectsSettled (tables : Tables) : Prop :=
  ∀ effect ∈ tables.effects, tables.Settled effect.requestRef

/-- A request that is not there has no consumptions. -/
theorem settled_of_absent (kept : Kept setting tables) {ref : String}
    (absent : ∀ row ∈ tables.requests, row.requestRef ≠ ref) : tables.Settled ref := by
  intro consumption present named
  obtain ⟨waiter, waiting, key, -⟩ := kept.consuming.waiter consumption present
  obtain ⟨row, member, same⟩ := kept.waiting.filed waiter waiting
  exact (absent row member (same.trans ((congrArg Prod.fst key).trans named))).elim

/-- A validation unsettles at most the waiter that it is about. -/
theorem settled_validate (kept : Kept setting tables) {ref : String} (settled : tables.Settled ref)
    {validation : ValidationRow} {validations : Table ValidationRow.validationRef}
    {waiters : Table WaiterRow.key} (inserted : insertRow tables.validations validation = .ok validations)
    (apart : validation.requestRef = ref → ∀ waiter ∈ tables.waiters,
      waiter.key = (validation.requestRef, validation.waiterRef) → waiter.status ≠ .consumed) :
    ({ tables with validations, waiters } : Tables).Settled ref := by
  intro consumption present named
  have latest := settled consumption present named
  obtain ⟨waiter, waiting, key, -, status⟩ := kept.consuming.waiter consumption present
  have other : ¬ (validation.requestRef = ref ∧ validation.waiterRef = consumption.waiterRef) := by
    rintro ⟨sameRequest, sameWaiter⟩
    exact apart sameRequest waiter waiting (by rw [key, named, sameRequest, sameWaiter]) status
  have same : ({ tables with validations, waiters } : Tables).latestValidation ref consumption.waiterRef =
      tables.latestValidation ref consumption.waiterRef := by
    unfold Tables.latestValidation
    rw [select_insertRow inserted]
    simp [other]
  rw [same]
  exact latest

/-- A consumption names the validation that was the latest one. -/
theorem settled_consume {ref : String} (settled : tables.Settled ref) {stamp : Stamp}
    {requestRef waiterRef workRef workHash : String} {generation : ℤ}
    (consumes : Consumes setting stamp requestRef waiterRef generation workRef workHash tables after) :
    after.Settled ref := by
  obtain ⟨_, _, rfl, _, waiter, _, _, validation, latest, _, consumptions, inserted, rfl⟩ := consumes
  intro consumption present named
  rcases (mem_insertRow inserted).mp present with present | rfl
  · exact settled consumption present named
  · obtain ⟨-, validationRequest, validationWaiter⟩ := latestValidation_eq_some latest
    have here : validation.requestRef = ref := named
    have found : tables.latestValidation ref validation.waiterRef = some validation := by
      rw [← here, validationRequest, validationWaiter]
      exact latest
    show (tables.latestValidation ref validation.waiterRef).any _ = true
    rw [found]
    simp [consumptionRow]

/-- An order that carries effects on keeps them settled. -/
theorem effectsSettled_fresh (kept : Kept setting tables) (settled : tables.EffectsSettled) {order : Order}
    {inside : Inside} {ref : String} (free : tables.commands.find? order.idempotencyKey = none)
    (carries : order.CarriesOn setting tables) (success : order.fresh setting inside tables = .ok (ref, after)) :
    after.EffectsSettled := by
  have rule := carries free
  obtain ⟨key, body⟩ := order
  cases body with
  | openRequest contract waiter =>
    rcases of_openFresh success with ⟨row, -, -, -, new, inserted⟩ |
      ⟨requestId, filed, new, rfl, opened, inserted, -⟩
    · obtain ⟨waiters, rfl⟩ := frame_insertWaiter inserted
      exact settled
    · obtain ⟨-, requests, -, rfl⟩ := of_insertRequest opened
      obtain ⟨waiters, rfl⟩ := frame_insertWaiter inserted
      exact settled
  | openEffect effectId binding predecessorRequestRef contract waiter questRef =>
    obtain ⟨predecessor, -, requestId, revision, placed, place, filed, request, waiters, -, effects, -,
      opened, rfl, rfl⟩ := of_openEffectFresh success
    obtain ⟨-, requests, inserted, rfl⟩ := of_insertRequest request
    have absent : ∀ row ∈ tables.requests, row.requestRef ≠ requestRefOf requestId revision := by
      rcases of_placeEffect place with ⟨row, -, -, -, rfl, rfl, rfl⟩ | ⟨-, rfl, rfl, rfl⟩
      · exact fresh_of_update inserted
      · exact fun row member => key_ne_of_insertRow inserted member
    have frame : placed.effects = tables.effects ∧ placed.consumptions = tables.consumptions ∧
        placed.validations = tables.validations := by
      rcases of_placeEffect place with ⟨row, -, -, -, -, -, rfl⟩ | ⟨-, -, -, rfl⟩ <;> exact ⟨rfl, rfl, rfl⟩
    have same (requests : Table RequestRow.requestRef) (ref : String) :
        ({ placed with requests, waiters, effects } : Tables).Settled ref ↔ tables.Settled ref := by
      unfold Tables.Settled Tables.latestValidation
      rw [frame.2.1, frame.2.2]
    intro effect present
    rw [same]
    rcases (mem_insertRow opened).mp present with present | rfl
    · rw [frame.1] at present
      exact settled effect present
    · exact settled_of_absent kept absent
  | revise requestRef expectedRevision contract waiters =>
    obtain ⟨row, -, rfl, -, -, closed, filed, disposed, request, waiting⟩ := of_reviseFresh success
    obtain ⟨dispositions, -, rfl⟩ := of_insertDisposition disposed
    obtain ⟨-, requests, -, rfl⟩ := of_insertRequest request
    obtain ⟨others, rfl⟩ := frame_insertWaiters waiting
    exact settled
  | evaluate requestRef responseRefs decision reasonCode evidenceRefs =>
    obtain ⟨rfl, row, -, -, -, evaluations, -, written⟩ := of_evaluateFresh success
    rcases written with ⟨-, rfl⟩ | ⟨disposition, dispositions, -, -, rfl⟩ <;> exact settled
  | validate requestRef waiterRef generation targetAssertion blockers authorizationReceiptRef =>
    obtain ⟨_, _, _, _, _, _, validations, reason, _, inserted, rfl, rfl⟩ := of_validateFresh success
    intro effect present
    refine settled_validate kept (settled effect present) inserted fun here waiter member key => ?_
    have found := (effectOf_eq_some_iff kept).mpr ⟨present, here.symm⟩
    exact rule (Option.isSome_iff_exists.mpr ⟨effect, found⟩) waiter member key

/-! ### Runs that carry effects on -/

/-- Effects are traced, and their requests are settled. -/
structure Resolvable (setting : Setting) (tables : Tables) : Prop where
  traced : Traced setting tables.requests tables.effects
  settled : tables.EffectsSettled

theorem resolvable_step (kept : Kept setting tables)
    (step : Step setting (fun tables order => order.CarriesOn setting tables) tables after)
    (resolvable : Resolvable setting tables) : Resolvable setting after := by
  have keptAfter := (keep_step kept step).1
  obtain ⟨traced, settled⟩ := resolvable
  cases step with
  | expire success =>
    rcases of_expire success with ⟨-, rfl⟩ | ⟨-, dispositions, -, rfl⟩
    · exact ⟨traced, settled⟩
    · exact ⟨traced.pull (from_update (keepsCore_setStatus _) fun _ current => current), settled⟩
  | transact checked carries success =>
    rcases of_transact success with ⟨rfl, -⟩ | ⟨free, between, commands, fresh, -, rfl⟩
    · exact ⟨traced, settled⟩
    · have lineage : Lineage between.requests := keptAfter.lineage
      have settledBetween := effectsSettled_fresh kept settled free carries fresh
      have tracedBetween := traced_fresh kept traced free carries lineage fresh
      exact ⟨tracedBetween, settledBetween⟩
  | consume success =>
    rcases of_consumeReleasedWaiter success with rfl | ⟨_, _, ⟨consumes⟩⟩
    · exact ⟨traced, settled⟩
    · have effects : after.effects = tables.effects ∧ after.requests = tables.requests := by
        obtain ⟨_, _, _, _, _, _, _, _, _, _, _, _, rfl⟩ := consumes
        exact ⟨rfl, rfl⟩
      refine ⟨by rw [effects.1, effects.2]; exact traced, fun effect present => ?_⟩
      rw [effects.1] at present
      exact settled_consume (settled effect present) consumes
  | respond success =>
    obtain ⟨_, -, rfl⟩ := of_recordResponse success
    exact ⟨traced, settled⟩

/-! ### Reconciliation -/

section

variable {moment : Moment} {requestRef : String} {row : RequestRow}

/-- A current revision stays the current one. -/
theorem isCurrent_madeUp (kept : Kept setting tables) (member : row ∈ tables.requests)
    (current : row.isCurrent = true) {later : RequestRow}
    (there : later ∈ (tables.madeUp setting moment requestRef).requests) (same : later.core = row.core) :
    later.isCurrent = true := by
  obtain ⟨keptAfter, -⟩ := @exists_madeUp setting tables row moment requestRef kept member
  by_contra retired
  obtain ⟨higher, here, id, revision⟩ := keptAfter.lineage.above later there (by simpa using retired)
  obtain ⟨old, oldHere, oldSame, -⟩ := from_madeUp higher here
  have bounded := kept.lineage.top row member current old oldHere
    (by rw [← RequestRow.requestId_of_core oldSame, id, RequestRow.requestId_of_core same])
  rw [← RequestRow.revision_of_core oldSame, revision, RequestRow.revision_of_core same] at bounded
  omega

theorem resolvable_madeUp (kept : Kept setting tables) (resolvable : Resolvable setting tables) :
    Resolvable setting (tables.madeUp setting moment requestRef) :=
  Reaches.invariant (fun _ _ keptBefore step fact => resolvable_step keptBefore step fact) kept resolvable
    (reach_materialize moment requestRef)

theorem query_eq (kept : Kept setting tables) (member : row ∈ tables.requests)
    (lands : tables.Lands moment row.requestRef) (intact : row.Intact setting)
    (settled : tables.Settled row.requestRef) :
    ∃ shown, queryHumanRequest setting moment row.requestRef tables =
        (.ok (some shown), tables.madeUp setting moment row.requestRef) ∧
      shown.request ∈ (tables.madeUp setting moment row.requestRef).requests ∧
      shown.request.core = row.core ∧ shown.openEffect = tables.effectOf row.requestRef := by
  obtain ⟨shown, found, there, core, effect⟩ := query_ok kept member lands intact settled
  refine ⟨shown, ?_, there, core, effect⟩
  rw [query_of_lands kept lands] at found ⊢
  exact Prod.ext found rfl

end

theorem find?_revisionsOf (kept : Kept setting tables) {top : RequestRow} (member : top ∈ tables.requests)
    (current : top.isCurrent = true) :
    (tables.revisionsOf top.requestId).find? (·.isCurrent) = some top := by
  have listed : top ∈ tables.revisionsOf top.requestId := Table.mem_select.mpr ⟨member, by simp⟩
  cases found : (tables.revisionsOf top.requestId).find? (·.isCurrent) with
  | none =>
    have absent := List.find?_eq_none.mp found top listed
    simp [current] at absent
  | some other =>
    obtain ⟨there, id⟩ := Table.mem_select.mp (List.mem_of_find?_eq_some found)
    have otherCurrent : other.isCurrent = true := by simpa using List.find?_some found
    rw [kept.lineage.eq_of_current there member (of_decide_eq_true id) otherCurrent current]

/-- A stored effect whose request can be read is resolved to its current revision, as far as what the
queries make up for lands. -/
theorem reconcile_resolves (kept : Kept setting tables) (resolvable : Resolvable setting tables)
    {first second : Moment} {effectKey : String} {effect : OpenEffectRow} {row : RequestRow}
    (valid : validateIdempotencyKey setting effectKey = .ok ())
    (found : tables.effects.find? effectKey = some effect) (member : row ∈ tables.requests)
    (named : row.requestRef = effect.requestRef) (intact : row.Intact setting)
    (lands : tables.Lands first effect.requestRef)
    (landsToo : ∀ ref, (tables.madeUp setting first effect.requestRef).Lands second ref) :
    ∃ shown, (reconcileHumanRequestEffect setting first second effectKey tables).1 = .ok shown ∧
      shown.request ∈ (reconcileHumanRequestEffect setting first second effectKey tables).2.requests ∧
      shown.request.requestId = row.requestId ∧
      shown.openEffect.any (·.effectId = effect.effectId) = true ∧
      (row.kind = .systemOperationHelp → shown.request.isCurrent = true) := by
  have stored := Table.mem_of_find? found
  have carried := (effectOf_eq_some_iff kept).mpr ⟨stored, named.symm⟩
  have settled := resolvable.settled effect stored
  rw [← named] at lands landsToo settled
  obtain ⟨shown, query, there, core, opened⟩ := query_eq kept member lands intact settled
  rw [carried] at opened
  unfold reconcileHumanRequestEffect
  simp only [valid, reading, chain, found, ← named, query, opened, Option.isNone_some, Bool.false_eq_true,
    if_false]
  split_ifs with moved
  · rw [Bool.and_eq_true, decide_eq_true_iff, Bool.not_eq_true'] at moved
    have keptUp := (@exists_madeUp setting tables row first row.requestRef kept member).1
    have up := @resolvable_madeUp setting tables first row.requestRef kept resolvable
    obtain ⟨top, topHere, topId, topCurrent⟩ := keptUp.lineage.exists_current there
    have listed := find?_revisionsOf keptUp topHere topCurrent
    rw [topId] at listed
    have effects : (tables.madeUp setting first row.requestRef).effects = tables.effects := by
      obtain ⟨_, _, _, frame⟩ := @materialize_frame setting tables first row.requestRef
      rw [Tables.madeUp, frame]
    obtain ⟨help, readable, other, present, otherRef, otherId⟩ := up.traced effect (effects ▸ stored)
      shown.request there ((RequestRow.requestRef_of_core core).trans named) moved.1 top topHere topId
      topCurrent
    have topIntact : top.Intact setting := by
      rcases readable with same | topIntact
      · rw [Table.eq_of_key topHere there same] at topCurrent
        simp [moved.2] at topCurrent
      · exact topIntact
    have topSettled := up.settled other present
    rw [otherRef] at topSettled
    obtain ⟨again, requery, againThere, againCore, againOpened⟩ :=
      query_eq keptUp topHere (landsToo top.requestRef) topIntact topSettled
    have againEffect : again.openEffect = some other := by
      rw [againOpened]
      exact (effectOf_eq_some_iff keptUp).mpr ⟨present, otherRef⟩
    have againHelp : again.request.kind = .systemOperationHelp :=
      (RequestRow.kind_of_core againCore).trans help
    have againId : again.request.requestId = row.requestId := by
      rw [RequestRow.requestId_of_core againCore, topId, RequestRow.requestId_of_core core]
    have againCurrent := isCurrent_madeUp keptUp topHere topCurrent againThere againCore
    simp only [listed, requery, againEffect, againHelp]
    simp only [Option.any_some, otherId, decide_true, Bool.and_self, require, if_true]
    exact ⟨again, rfl, againThere, againId, by simp [againEffect, otherId], fun _ => againCurrent⟩
  · refine ⟨shown, rfl, there, RequestRow.requestId_of_core core, by simp [opened], fun help => ?_⟩
    by_contra retired
    exact moved (by simp [RequestRow.kind_of_core core, help, retired])

/-- Where the current revision carries no effect, there is nothing to resolve to. -/
theorem reconcile_of_dropped {between later : Tables} {first second : Moment} {effectKey : String}
    {effect : OpenEffectRow} {shown current : PublicRequest} {top : RequestRow}
    (valid : validateIdempotencyKey setting effectKey = .ok ())
    (found : tables.effects.find? effectKey = some effect)
    (query : queryHumanRequest setting first effect.requestRef tables = (.ok (some shown), between))
    (opened : shown.openEffect.isNone = false)
    (retired : (shown.request.kind = .systemOperationHelp && !shown.request.isCurrent) = true)
    (listed : (between.revisionsOf shown.request.requestId).find? (·.isCurrent) = some top)
    (requery : queryHumanRequest setting second top.requestRef between = (.ok (some current), later))
    (dropped : current.openEffect = none) :
    (reconcileHumanRequestEffect setting first second effectKey tables).1 =
      .error "human_request_open_effect_invalid" := by
  simp only [reconcileHumanRequestEffect, valid, reading, chain, found, query, opened, retired, listed,
    requery, dropped, Option.any_none, Bool.and_false, Bool.false_eq_true, if_false, if_true]
  rfl

/-! ### Effects that were opened -/

theorem effect_of_transact {order : Order} {inside : Inside} {ref : String}
    (effectBody : ∃ effectId binding predecessor contract waiter questRef,
      order.body = .openEffect effectId binding predecessor contract waiter questRef)
    (success : order.transact setting inside tables = .ok (ref, after)) :
    ∃ effect, after.effects.find? order.idempotencyKey = some effect ∧ effect.requestRef = ref := by
  obtain ⟨effectId, binding, predecessor, contract, waiter, questRef, same⟩ := effectBody
  rcases of_transact success with ⟨rfl, verified, -⟩ | ⟨-, between, commands, fresh, -, rfl⟩
  · unfold verifyReplayedEffect at verified
    rw [same, require_eq_ok_iff, Option.any_eq_true] at verified
    obtain ⟨effect, found, named⟩ := verified
    exact ⟨effect, found, of_decide_eq_true named⟩
  · unfold Order.fresh at fresh
    rw [same] at fresh
    obtain ⟨_, -, _, _, _, -, _, -, _, -, effects, -, opened, rfl, rfl⟩ := of_openEffectFresh fresh
    exact ⟨_, Table.find?_eq_some_iff.mpr ⟨(mem_insertRow opened).mpr (.inr rfl), rfl⟩, rfl⟩

/-- What a successful opening leaves: the effect under its key, with a request that can be read. -/
theorem opened_of_run (kept : Kept setting tables) {effectKey effectId : String} {binding : Dict}
    {predecessor : Option String} {arguments : ContractArguments} {waiter : Waiter} {here : Surroundings}
    {outcome : Outcome}
    (answered : (Command.openEffect effectKey effectId binding predecessor arguments waiter).run setting
      here tables = (.ok outcome, after)) :
    validateIdempotencyKey setting effectKey = .ok () ∧ ∃ shown effect, outcome = .request shown ∧
      shown.openEffect = some effect ∧ after.effects.find? effectKey = some effect ∧
      ∃ row ∈ after.requests, row.requestRef = effect.requestRef ∧ row.core = shown.request.core ∧
        row.Intact setting := by
  obtain ⟨prepared, order, ref, written, -, materialized, checked, transacted, answer⟩ :=
    Command.run_ok answered
  cases materialized
  have sound := Command.prepare_checked checked
  obtain ⟨keptWritten, -⟩ := keep_transact kept sound.sound transacted
  obtain ⟨sameKey, shapes⟩ := Command.prepare_shapes checked
  have body : ∃ effectId binding predecessor contract waiter questRef,
      order.body = .openEffect effectId binding predecessor contract waiter questRef := by
    obtain ⟨key, body⟩ := order
    cases body <;> first | exact False.elim shapes | exact ⟨_, _, _, _, _, _, rfl⟩
  obtain ⟨effect, found, named⟩ := effect_of_transact body transacted
  replace sameKey : order.idempotencyKey = effectKey := sameKey
  rw [sameKey] at found
  obtain ⟨row, member, rowRef⟩ := filed_effects keptWritten effect (Table.mem_of_find? found)
  have valid : validateIdempotencyKey setting effectKey = .ok () := by
    simp only [Command.prepare, check_then_eq_ok_iff] at checked
    exact checked.1
  obtain ⟨shown, query, -, rfl⟩ := (answer_eq_ok_iff rfl).mp (congrArg Prod.fst answer)
  rw [← named, ← rowRef] at query
  obtain ⟨⟨-, intact, -⟩, -, core, opened⟩ := of_query_ok keptWritten member query
  rw [(effectOf_eq_some_iff keptWritten).mpr ⟨Table.mem_of_find? found, rowRef.symm⟩] at opened
  have reached := @reach_answer setting written anyOrder here.closing ref
    (.openEffect effectKey effectId binding predecessor arguments waiter)
  rw [answer] at reached
  obtain ⟨-, grows⟩ := Reaches.keep keptWritten reached
  obtain ⟨later, there, laterRef, laterCore⟩ := grows.find?_request member
  refine ⟨valid, shown, effect, rfl, opened, grows.effects _ _ found, later, there,
    laterRef.trans rowRef, laterCore.trans core.symm, (RequestRow.intact_of_core laterCore).mpr intact⟩

/-! ### The law of a run -/

/-- The revisions of the requests, their dispositions and their successors are in order. -/
structure Orderly (tables : Tables) : Prop where
  current : ∀ row ∈ tables.requests, ∃! current, current ∈ tables.requests ∧
    current.requestId = row.requestId ∧ current.isCurrent = true
  revisions : ∀ current ∈ tables.requests, current.isCurrent = true → ∀ revision,
    (∃ row ∈ tables.requests, row.requestId = current.requestId ∧ row.revision = revision) ↔
      1 ≤ revision ∧ revision ≤ current.revision
  numbered : ∀ row ∈ tables.requests, ∀ other ∈ tables.requests, row.requestId = other.requestId →
    row.revision = other.revision → row = other
  past : ∀ row ∈ tables.requests, row.isCurrent = false → row.status = .closed .superseded ∨
    row.kind = .systemOperationHelp ∧ row.status = .closed .satisfied
  disposed : ∀ row ∈ tables.requests,
    (row.status ≠ .opened ↔ ∃ disposition ∈ tables.dispositions,
      disposition.requestRef = row.requestRef) ∧
    ∀ disposition ∈ tables.dispositions, disposition.requestRef = row.requestRef →
      row.status = .closed disposition.decision
  disposedOnce : ∀ first ∈ tables.dispositions, ∀ second ∈ tables.dispositions,
    first.requestRef = second.requestRef → first = second
  successor : ∀ row ∈ tables.requests, ∀ other ∈ tables.requests, row.predecessorRequestRef.isSome →
    row.predecessorRequestRef = other.predecessorRequestRef → row = other

theorem Lineage.exists_revision {requests : Table RequestRow.requestRef} (lineage : Lineage requests)
    {row : RequestRow} (member : row ∈ requests) {revision : ℕ} (positive : 1 ≤ revision)
    (bounded : revision ≤ row.revision) :
    ∃ other ∈ requests, other.requestId = row.requestId ∧ other.revision = revision := by
  induction rest : row.revision - revision generalizing row with
  | zero => exact ⟨row, member, rfl, by omega⟩
  | succ rest ih =>
    obtain ⟨lower, there, id, next⟩ := lineage.below row member (by omega)
    obtain ⟨other, here, sameId, same⟩ := ih there (by omega) (by omega)
    exact ⟨other, here, sameId.trans id, same⟩

theorem orderly_of_kept (kept : Kept setting tables) : Orderly tables where
  current row member := by
    obtain ⟨current, there, id, isCurrent⟩ := kept.lineage.exists_current member
    refine ⟨current, ⟨there, id, isCurrent⟩, fun other ⟨here, otherId, otherCurrent⟩ => ?_⟩
    exact kept.lineage.eq_of_current here there (otherId.trans id.symm) otherCurrent isCurrent
  revisions current member isCurrent revision := by
    constructor
    · rintro ⟨row, there, id, rfl⟩
      exact ⟨kept.lineage.positive row there, kept.lineage.top current member isCurrent row there id⟩
    · rintro ⟨positive, bounded⟩
      exact kept.lineage.exists_revision member positive bounded
  numbered _ member _ present id revision := kept.lineage.unique member present id revision
  past := kept.lineage.past
  disposed row member := by
    have agrees := kept.closings.agrees row member
    constructor
    · rw [ne_eq, kept.closings.opened_iff member, Table.find?_eq_none_iff]
      simp only [not_forall, not_not, exists_prop]
    · intro disposition present named
      rw [Table.find?_eq_some_iff.mpr ⟨present, named⟩] at agrees
      cases status : row.status with
      | opened => simp [status, Status.disposition?] at agrees
      | closed decision =>
        simp only [status, Status.disposition?, Option.map_some, Option.some.injEq] at agrees
        rw [agrees]
  disposedOnce _ member _ present same := Table.eq_of_key member present same
  successor := kept.lineage.successor

/-- In every run the requests are in order. In a run whose orders carry effects on, an effect that was
once opened is resolved at any later time to the current revision of its request, with its identity, as
long as what the two queries make up for lands. -/
theorem effects_stay_resolvable {earlier later : List Call} {effectKey effectId : String} {binding : Dict}
    {predecessor : Option String} {arguments : ContractArguments} {waiter : Waiter} {here : Surroundings}
    {outcome : Outcome}
    (run : Admissible (Call.apply setting) (Call.Allows setting fun tables order => order.CarriesOn setting tables)
      {} (earlier ++ .command (.openEffect effectKey effectId binding predecessor arguments waiter) here ::
        later))
    (answered : ((Command.openEffect effectKey effectId binding predecessor arguments waiter).run setting
      here (afterCalls setting earlier)).1 = .ok outcome) :
    let tables := afterCalls setting (earlier ++
      .command (.openEffect effectKey effectId binding predecessor arguments waiter) here :: later)
    Orderly tables ∧ ∃ opened effect, outcome = .request opened ∧ opened.openEffect = some effect ∧
      ∀ first second, tables.Lands first effect.requestRef →
        (∀ ref, (tables.madeUp setting first effect.requestRef).Lands second ref) →
        ∃ shown, (reconcileHumanRequestEffect setting first second effectKey tables).1 = .ok shown ∧
          shown.request ∈
            (reconcileHumanRequestEffect setting first second effectKey tables).2.requests ∧
          shown.request.requestId = opened.request.requestId ∧
          shown.openEffect.any (·.effectId = effect.effectId) = true ∧
          (opened.request.kind = .systemOperationHelp → shown.request.isCurrent = true) := by
  intro tables
  have keptTables := kept_afterCalls setting (earlier ++
    .command (.openEffect effectKey effectId binding predecessor arguments waiter) here :: later)
  refine ⟨orderly_of_kept keptTables, ?_⟩
  have resolvable : Resolvable setting tables := by
    refine Reaches.invariant (fun _ _ kept step fact => resolvable_step kept step fact) kept_empty
      ⟨fun effect present => (Table.not_mem_empty effect present).elim,
        fun effect present => (Table.not_mem_empty effect present).elim⟩ (reach_calls run)
  obtain ⟨valid, opened, effect, rfl, carries, found, row, member, named, core, intact⟩ :=
    opened_of_run (kept_afterCalls setting earlier) (Prod.ext answered rfl)
  refine ⟨opened, effect, rfl, carries, fun first second lands landsToo => ?_⟩
  have split : tables = runInputs (Call.apply setting)
      ((Command.openEffect effectKey effectId binding predecessor arguments waiter).run setting here
        (afterCalls setting earlier)).2 later := by
    show runInputs _ _ _ = _
    rw [runInputs_append]
    rfl
  obtain ⟨-, grows⟩ := keep_calls (keep_calls (kept_afterCalls setting earlier)
    [.command (.openEffect effectKey effectId binding predecessor arguments waiter) here]).1 later
  have growsTables : Grows ((Command.openEffect effectKey effectId binding predecessor arguments
      waiter).run setting here (afterCalls setting earlier)).2 tables := by
    rw [split]
    exact grows
  obtain ⟨stored, there, storedRef, storedCore⟩ := growsTables.find?_request member
  obtain ⟨shown, resolved, present, id, sameEffect, current⟩ := reconcile_resolves keptTables resolvable
    valid (growsTables.effects _ _ found) there (storedRef.trans named)
    ((RequestRow.intact_of_core storedCore).mpr intact) lands landsToo
  have openedCore : stored.core = opened.request.core := storedCore.trans core
  refine ⟨shown, resolved, present, id.trans (RequestRow.requestId_of_core openedCore), sameEffect,
    fun help => current ?_⟩
  exact (RequestRow.kind_of_core openedCore).trans help

/-! ### A sample -/

def sampleBinding : Dict :=
  ⟨[("quest_ref", .text "quest"), ("task_ref", .text "task"), ("root_session_ref", .text "session"),
    ("operation_id", .text "operation"), ("attempt_ref", .text "attempt"),
    ("request_owner", .text "agent_runtime"), ("generation", .integer 1)], by decide +kernel⟩

/-- Help with a system operation, without a deadline. -/
def sampleHelp : ContractArguments :=
  { sampleArguments none with requestKind := "system_operation_help", questRef := some "quest" }

def sampleEffect : Command :=
  .openEffect "effect" "operation-1" sampleBinding none sampleHelp sampleWaiter

/-- The request that the sample draws. -/
def sampleId : String := newRef "human_request" sampleUuid

def sampleRevise : Command :=
  .revise (requestRefOf sampleId 1) 1 "Collect the survey again" sampleTarget ["The file is there"]
    [sampleWaiter] "revise" none none

def helpContract (obligation : String) : Contract where
  questRef := some "quest"
  kind := .systemOperationHelp
  obligation := obligation
  businessPurpose := "Complete the dataset"
  targetAssertion := sampleTarget.reload
  acceptanceConditions := ["The file is there"]
  requiredAuthorization := none
  expiresAt := none

def checkedWaiter : Waiter := ⟨"waiter", 1, sampleTarget.reload, "local", []⟩

def effectOrder : Order where
  idempotencyKey := "effect"
  body := .openEffect "operation-1" sampleBinding.reload none (helpContract "Collect the survey")
    checkedWaiter (some "quest")

def reviseOrder : Order where
  idempotencyKey := "revise"
  body := .revise (requestRefOf sampleId 1) 1 (helpContract "Collect the survey again") [checkedWaiter]

def firstRow : RequestRow := (helpContract "Collect the survey").row sampleSetting sampleId 1 none 1

def secondRow : RequestRow :=
  (helpContract "Collect the survey again").row sampleSetting sampleId 2 (some (requestRefOf sampleId 1)) 2

/-- The tables once the effect is open. -/
def openedTables : Tables where
  requests := ⟨[firstRow], by decide⟩
  waiters := ⟨[checkedWaiter.row sampleSetting (requestRefOf sampleId 1) 1], by simp⟩
  effects := ⟨[effectRow sampleSetting (sampleStamp 1) "effect" "operation-1" (requestRefOf sampleId 1)
    sampleBinding.reload none checkedWaiter], by simp⟩
  commands := ⟨[⟨"effect", "open_effect", sampleSetting.hash effectOrder.body.json,
    requestRefOf sampleId 1, 1⟩], by decide⟩

def retiredRow : RequestRow := { firstRow with status := .closed .superseded, isCurrent := false }

/-- The tables once the request is revised. -/
def revisedTables : Tables :=
  { openedTables with
    requests := ⟨[retiredRow, secondRow], by decide +kernel⟩
    waiters := ⟨[checkedWaiter.row sampleSetting (requestRefOf sampleId 1) 1,
      checkedWaiter.row sampleSetting (requestRefOf sampleId 2) 2], by decide +kernel⟩
    dispositions := ⟨[dispositionRow sampleSetting (sampleStamp 2) (requestRefOf sampleId 1) .superseded
      none], by simp⟩
    commands := ⟨[⟨"effect", "open_effect", sampleSetting.hash effectOrder.body.json,
      requestRefOf sampleId 1, 1⟩, ⟨"revise", "revise", sampleSetting.hash reviseOrder.body.json,
      requestRefOf sampleId 2, 2⟩], by decide⟩ }

private theorem run_sampleEffect : sampleEffect.run sampleSetting (sampleAt 1) {} =
    sampleEffect.answer sampleSetting (sampleAt 1).closing (requestRefOf sampleId 1) openedTables :=
  @Command.run_of_transact sampleSetting {} sampleEffect (sampleAt 1) {} openedTables effectOrder _
    (by rfl) (by rfl) (by rfl) (by rfl)

private theorem apply_sampleEffect : Call.apply sampleSetting {} (.command sampleEffect (sampleAt 1)) =
    openedTables := by
  rw [apply_command, run_sampleEffect, answer_snd rfl, Tables.madeUp, materialize_of_not_due (by rfl)]

private theorem kept_openedTables : Kept sampleSetting openedTables := by
  rw [← apply_sampleEffect, ← afterCalls_singleton]
  exact kept_afterCalls ..

set_option maxRecDepth 20000 in
private theorem transact_sampleRevise :
    reviseOrder.transact sampleSetting (sampleAt 2).inside openedTables =
      .ok (requestRefOf sampleId 2, revisedTables) := by rfl

private theorem apply_sampleRevise :
    Call.apply sampleSetting openedTables (.command sampleRevise (sampleAt 2)) = revisedTables := by
  have materialized : sampleRevise.materialize sampleSetting (sampleAt 2) openedTables =
      (.ok (), openedTables) :=
    @materialize_of_not_due sampleSetting openedTables (sampleAt 2).opening (requestRefOf sampleId 1)
      (by rfl)
  rw [apply_command, @Command.run_of_transact sampleSetting openedTables sampleRevise (sampleAt 2)
    openedTables revisedTables reviseOrder _ (by rfl) materialized (by rfl) transact_sampleRevise,
    answer_snd rfl, Tables.madeUp, materialize_of_not_due (by rfl)]

/-- The effect of the sample opens. -/
private theorem answered_sampleEffect :
    ∃ outcome, (sampleEffect.run sampleSetting (sampleAt 1) {}).1 = .ok outcome := by
  have settled : openedTables.Settled (requestRefOf sampleId 1) :=
    fun consumption present => (Table.not_mem_empty consumption present).elim
  have member : firstRow ∈ openedTables.requests := List.mem_singleton.mpr rfl
  obtain ⟨shown, found, -, -, opened⟩ := query_ok kept_openedTables member
    (.of_not_due (by rfl) : openedTables.Lands (sampleAt 1).closing firstRow.requestRef)
    (intact_row _ _ _ _ _ rfl) settled
  have effect : openedTables.effectOf firstRow.requestRef = openedTables.effects.rows.head? := by rfl
  rw [run_sampleEffect]
  exact ⟨_, (answer_eq_ok_iff rfl).mpr ⟨shown, found, fun _ => by rw [opened, effect]; rfl, rfl⟩⟩

theorem effects_stay_resolvable_sample : ∃ outcome, (sampleEffect.run sampleSetting (sampleAt 1)
      (afterCalls sampleSetting [])).1 = .ok outcome ∧
    Orderly (afterCalls sampleSetting [.command sampleEffect (sampleAt 1)]) := by
  obtain ⟨outcome, answered⟩ := answered_sampleEffect
  have admissible : Admissible (Call.apply sampleSetting)
      (Call.Allows sampleSetting fun tables order => order.CarriesOn sampleSetting tables) {}
      ([] ++ Call.command sampleEffect (sampleAt 1) :: []) := by
    refine ⟨fun order _ _ => ?_, trivial⟩
    have none {α κ : Type} {key : α → κ} (row : α) : row ∉ (∅ : Table key) := Table.not_mem_empty row
    obtain ⟨key, body⟩ := order
    cases body with
    | openRequest | evaluate => trivial
    | openEffect => exact fun row member => (none row member).elim
    | revise => exact fun row member => (none row member).elim
    | validate => exact fun _ waiter member => (none waiter member).elim
  exact ⟨outcome, answered, (effects_stay_resolvable admissible answered).1⟩

/-- A request for help with an open effect is revised; its effect cannot be resolved any more. -/
theorem revised_effect_unresolvable :
    (∃ outcome, (sampleEffect.run sampleSetting (sampleAt 1) {}).1 = .ok outcome) ∧
    (reconcileHumanRequestEffect sampleSetting (sampleAt 3).opening (sampleAt 3).closing "effect"
      (afterCalls sampleSetting [.command sampleEffect (sampleAt 1),
        .command sampleRevise (sampleAt 2)])).1 = .error "human_request_open_effect_invalid" := by
  have kept := kept_afterCalls sampleSetting
    [.command sampleEffect (sampleAt 1), .command sampleRevise (sampleAt 2)]
  rw [afterCalls_pair, apply_sampleEffect, apply_sampleRevise] at kept ⊢
  refine ⟨answered_sampleEffect, ?_⟩
  have settled (ref : String) : revisedTables.Settled ref :=
    fun consumption present => (Table.not_mem_empty consumption present).elim
  have query (row : RequestRow) (member : row ∈ revisedTables.requests)
      (intact : row.Intact sampleSetting) (moment : Moment)
      (early : revisedTables.isDue row.requestRef moment.read = false) :
      queryHumanRequest sampleSetting moment row.requestRef revisedTables =
        (.ok (some (revisedTables.shown sampleSetting row)), revisedTables) := by
    rw [query_of_lands kept (.of_not_due early), Tables.madeUp, materialize_of_not_due early,
      readHumanRequest_ok kept member intact (settled _)]
  have intact : retiredRow.Intact sampleSetting := (RequestRow.intact_of_core rfl).mpr
    (intact_row (helpContract "Collect the survey") sampleId 1 none 1 rfl)
  have first := query retiredRow (List.mem_cons_self ..) intact (sampleAt 3).opening (by rfl)
  have second := query secondRow (List.mem_cons_of_mem _ (List.mem_singleton.mpr rfl))
    (intact_row _ _ _ _ _ rfl) (sampleAt 3).closing (by rfl)
  have found : revisedTables.effects.find? "effect" = some (effectRow sampleSetting (sampleStamp 1)
    "effect" "operation-1" retiredRow.requestRef sampleBinding.reload none checkedWaiter) := by rfl
  have opened : (revisedTables.effectOf retiredRow.requestRef).isNone = false := by rfl
  have current : (revisedTables.revisionsOf retiredRow.requestId).find? (·.isCurrent) =
      some secondRow := by rfl
  exact reconcile_of_dropped (by rfl) found first opened (by rfl) current second (by rfl)

end MetaResearch.HumanRequests

import MetaResearch.Soundness.HumanRequests.Invariant

/-! # What HumanRequest queries answer

Under the invariant every check of a query passes but for two: the contract that a row is read back as
has to fit the identity of the request, and the validation that a consumption names has to be the latest
one of its waiter.
-/

namespace MetaResearch.HumanRequests

open Datasets (Uuid newRef)

variable {setting : Setting} {tables : Tables} {row : RequestRow}

/-- The contract that the row is read back as has the identity of the request. -/
def RequestRow.Intact (setting : Setting) (row : RequestRow) : Prop :=
  setting.hash row.contract = row.identityHash

/-- Each consumption of the request names the latest validation of its waiter. -/
def Tables.Settled (tables : Tables) (requestRef : String) : Prop :=
  ∀ consumption ∈ tables.consumptions, consumption.requestRef = requestRef →
    (tables.latestValidation requestRef consumption.waiterRef).any
      (·.validationRef = consumption.validationRef) = true

theorem RequestRow.intact_of_core {other : RequestRow} (same : row.core = other.core) :
    row.Intact setting ↔ other.Intact setting := by
  have shown : ∀ row : RequestRow, row.Intact setting ↔ row.core.Intact setting := fun _ => Iff.rfl
  rw [shown row, shown other, same]

/-! ### The state of a request -/

private theorem eq_singleton {α : Type} {items : List α} {item : α} (nodup : items.Nodup)
    (member : item ∈ items) (each : ∀ other ∈ items, other = item) : items = [item] := by
  obtain ⟨front, back, rfl⟩ := List.append_of_mem member
  have back : back = [] := List.eq_nil_iff_forall_not_mem.mpr fun other present => by
    obtain rfl := each other (by simp [present])
    have := (List.nodup_middle.mp nodup)
    simp [present] at this
  have front : front = [] := List.eq_nil_iff_forall_not_mem.mpr fun other present => by
    obtain rfl := each other (by simp [present])
    have := (List.nodup_middle.mp nodup)
    simp [present] at this
  rw [front, back, List.nil_append]

theorem nodup_select {κ ρ : Type} {key : ρ → κ} (table : Table key) (keep : ρ → Bool) :
    (table.select keep).Nodup :=
  (List.Nodup.of_map key table.distinct).filter keep

theorem verifyRequestStateIntegrity_ok (kept : Kept setting tables) (member : row ∈ tables.requests) :
    verifyRequestStateIntegrity tables row = .ok () := by
  have inRevisions : ∀ other, other ∈ tables.revisionsOf row.requestId ↔
      other ∈ tables.requests ∧ other.requestId = row.requestId := by
    intro other
    rw [Tables.revisionsOf, Table.mem_select, decide_eq_true_iff]
  have here := (inRevisions row).mpr ⟨member, rfl⟩
  cases found : (tables.revisionsOf row.requestId).argmax
      fun row => toLex (row.revision, row.requestRef) with
  | none => simp [List.argmax_eq_none.mp found] at here
  | some top =>
    obtain ⟨topMember, topId⟩ := (inRevisions top).mp (List.argmax_mem found)
    have topCurrent : top.isCurrent = true := by
      by_contra retired
      obtain ⟨higher, there, id, revision⟩ := kept.lineage.above top topMember (by simpa using retired)
      have ordered := List.le_of_mem_argmax ((inRevisions higher).mpr ⟨there, id.trans topId⟩) found
      rw [Prod.Lex.toLex_le_toLex] at ordered
      simp only [revision] at ordered
      omega
    -- The top revision is the only current one.
    have current : (tables.revisionsOf row.requestId).filter (·.isCurrent) = [top] := by
      refine eq_singleton ((nodup_select _ _).filter _) ?_ ?_
      · exact List.mem_filter.mpr ⟨(inRevisions top).mpr ⟨topMember, topId⟩, topCurrent⟩
      · intro other present
        obtain ⟨there, isCurrent⟩ := List.mem_filter.mp present
        obtain ⟨otherMember, otherId⟩ := (inRevisions other).mp there
        exact kept.lineage.eq_of_current otherMember topMember (otherId.trans topId.symm) isCurrent
          topCurrent
    have isTop : (row.isCurrent = (decide (row.requestRef = top.requestRef) : Bool)) := by
      rw [Bool.eq_iff_iff, decide_eq_true_iff]
      constructor
      · intro isCurrent
        rw [kept.lineage.eq_of_current member topMember topId.symm isCurrent topCurrent]
      · intro same
        rw [Table.eq_of_key member topMember same, topCurrent]
    have nonempty : (tables.revisionsOf row.requestId).isEmpty = false :=
      List.isEmpty_eq_false_iff.mpr (List.ne_nil_of_mem here)
    have past : (row.isCurrent || decide (row.status = .closed .superseded) ||
        decide (row.kind = .systemOperationHelp) && decide (row.status = .closed .satisfied)) =
          true := by
      cases isCurrent : row.isCurrent with
      | true => rfl
      | false =>
        rcases kept.lineage.past row member isCurrent with status | ⟨kind, status⟩
        · simp [status]
        · simp [kind, status]
    have agrees := kept.closings.agrees row member
    unfold verifyRequestStateIntegrity
    rw [require_eq_ok_iff]
    simp only [Bool.and_eq_true]
    refine ⟨⟨⟨⟨?_, ?_⟩, ?_⟩, ?_⟩, past⟩
    · rw [current, found]
      simp
    · rw [found]
      simpa using isTop
    · rw [nonempty]
      rfl
    · cases status : row.status with
      | opened =>
        rw [status, Status.disposition?, Option.map_eq_none_iff] at agrees
        simp [agrees]
      | closed decision =>
        rw [status, Status.disposition?, Option.map_eq_some_iff] at agrees
        obtain ⟨disposition, stored, same⟩ := agrees
        simp [stored, same]

theorem verifyStoredDisposition_ok (kept : Kept setting tables) (requestRef : String) :
    verifyStoredDisposition setting tables requestRef = .ok () := by
  unfold verifyStoredDisposition
  cases stored : tables.dispositions.find? requestRef with
  | none => rfl
  | some disposition => exact kept.verified disposition (Table.mem_of_find? stored)

theorem publicContract_ok_iff (kept : Kept setting tables) (member : row ∈ tables.requests) :
    publicContract setting row = .ok () ↔ row.Intact setting := by
  have columns := (kept.columns row member).1
  unfold publicContract
  rw [check_then_eq_ok_iff, require_eq_ok_iff, require_eq_ok_iff, decide_eq_true_iff]
  exact and_iff_right columns

/-! ### Waiters -/

theorem mem_waitersOf {requestRef : String} {waiter : WaiterRow} :
    waiter ∈ tables.waitersOf requestRef ↔ waiter ∈ tables.waiters ∧ waiter.requestRef = requestRef := by
  rw [Tables.waitersOf, (sortByKey_perm _ _).mem_iff, Table.mem_select, decide_eq_true_iff]

theorem latestConsumption_eq_some {requestRef waiterRef : String} {consumption : ConsumptionRow}
    (found : tables.latestConsumption requestRef waiterRef = some consumption) :
    consumption ∈ tables.consumptions ∧ consumption.requestRef = requestRef ∧
      consumption.waiterRef = waiterRef := by
  simpa [Table.mem_select] using List.argmax_mem (m := consumption) found

theorem latestValidation_eq_some {requestRef waiterRef : String} {validation : ValidationRow}
    (found : tables.latestValidation requestRef waiterRef = some validation) :
    validation ∈ tables.validations ∧ validation.requestRef = requestRef ∧
      validation.waiterRef = waiterRef := by
  simpa [Table.mem_select] using List.argmax_mem (m := validation) found

/-- What a query shows of a waiter. -/
def Tables.shownWaiter (tables : Tables) (requestRef : String) (waiter : WaiterRow) : PublicWaiter :=
  ⟨waiter, tables.latestValidation requestRef waiter.waiterRef,
    tables.latestConsumption requestRef waiter.waiterRef⟩

/-- The consumption that is shown is that of the generation of the waiter, and it is there exactly
when the waiter is consumed. -/
theorem shown_consumption (kept : Kept setting tables) {waiter : WaiterRow}
    (member : waiter ∈ tables.waiters) :
    (decide (waiter.status = .consumed) =
        (tables.latestConsumption waiter.requestRef waiter.waiterRef).isSome) ∧
      ∀ consumption, tables.latestConsumption waiter.requestRef waiter.waiterRef = some consumption →
        consumption.generation = waiter.generation := by
  have owner : ∀ consumption,
      tables.latestConsumption waiter.requestRef waiter.waiterRef = some consumption →
        consumption.generation = waiter.generation ∧ waiter.status = .consumed := by
    intro consumption found
    obtain ⟨present, ref, waiterRef⟩ := latestConsumption_eq_some found
    obtain ⟨other, there, key, generation, status⟩ := kept.consuming.waiter consumption present
    obtain rfl : other = waiter := Table.eq_of_key there member (by
      rw [key, ref, waiterRef, WaiterRow.key])
    exact ⟨generation.symm, status⟩
  refine ⟨?_, fun consumption found => (owner consumption found).1⟩
  cases found : tables.latestConsumption waiter.requestRef waiter.waiterRef with
  | some consumption => simp [(owner consumption found).2]
  | none =>
    rw [Option.isSome_none, decide_eq_false_iff_not]
    intro status
    obtain ⟨consumption, present, key⟩ := kept.consuming.consumed waiter member status
    obtain ⟨ref, rest⟩ := Prod.ext_iff.mp key
    obtain ⟨waiterRef, -⟩ := Prod.ext_iff.mp rest
    have listed : consumption ∈ tables.consumptions.select fun row =>
        row.requestRef = waiter.requestRef && row.waiterRef = waiter.waiterRef :=
      Table.mem_select.mpr ⟨present, by simpa using ⟨ref, waiterRef⟩⟩
    rw [List.argmax_eq_none.mp found] at listed
    cases listed

/-- The one check of a waiter that the invariant leaves open. -/
theorem publicWaiter_ok (kept : Kept setting tables) {waiter : WaiterRow}
    (member : waiter ∈ tables.waiters) (settled : tables.Settled waiter.requestRef) :
    publicWaiter setting (tables.shownWaiter waiter.requestRef waiter) = .ok () := by
  obtain ⟨columns, plain⟩ := kept.waiting.columns waiter member
  obtain ⟨status, generation⟩ := shown_consumption kept member
  unfold publicWaiter Tables.shownWaiter
  simp only [check_then_eq_ok_iff, require_eq_ok_iff]
  refine ⟨columns, by rw [Bool.not_eq_true']; exact plain, ?_, ?_, ?_⟩
  · simp only [Bool.and_eq_true, decide_eq_true_iff]
    refine ⟨status, ?_⟩
    cases found : tables.latestConsumption waiter.requestRef waiter.waiterRef with
    | none => rfl
    | some consumption =>
      obtain ⟨present, ref, waiterRef⟩ := latestConsumption_eq_some found
      have latest := settled consumption present ref
      rw [waiterRef] at latest
      simp only [Option.all_some, Bool.and_eq_true, decide_eq_true_iff]
      exact ⟨latest, generation consumption found⟩
  · rw [checkAll_eq_ok_iff]
    intro consumption shown
    rw [Option.mem_toList] at shown
    exact kept.consuming.shown consumption (latestConsumption_eq_some shown).1
  · rw [checkAll_eq_ok_iff]
    intro validation shown
    rw [Option.mem_toList] at shown
    exact kept.validated validation (latestValidation_eq_some shown).1

/-! ### Effects -/

theorem effectOf_eq_some_iff (kept : Kept setting tables) {requestRef : String}
    {effect : OpenEffectRow} :
    tables.effectOf requestRef = some effect ↔
      effect ∈ tables.effects ∧ effect.requestRef = requestRef := by
  unfold Tables.effectOf
  constructor
  · intro found
    simpa [Table.mem_select] using List.mem_of_head? found
  · rintro ⟨member, ref⟩
    have listed : effect ∈ tables.effects.select (·.requestRef = requestRef) :=
      Table.mem_select.mpr ⟨member, by simpa using ref⟩
    rw [eq_singleton (nodup_select _ _) listed]
    · rfl
    · intro other present
      obtain ⟨there, otherRef⟩ := Table.mem_select.mp present
      exact kept.effects.unique other there effect member (by simpa [ref] using otherRef)

theorem publicOpenEffect_ok (kept : Kept setting tables) (member : row ∈ tables.requests)
    {effect : OpenEffectRow} (present : effect ∈ tables.effects)
    (ref : effect.requestRef = row.requestRef) :
    publicOpenEffect setting row (tables.waitersOf row.requestRef) effect = .ok () := by
  obtain ⟨fitting, there, sameRef, fits⟩ := kept.effects.fits effect present
  obtain rfl : fitting = row := Table.eq_of_key there member (sameRef.trans ref)
  obtain ⟨waiter, waiterMember, key, generation⟩ := kept.effects.waiter effect present
  obtain ⟨waiterRequest, waiterRef⟩ := Prod.ext_iff.mp key
  have single : (tables.waitersOf fitting.requestRef).filter (fun waiter =>
      decide (waiter.waiterRef = effect.waiterRef) && decide (waiter.generation = effect.generation)) =
        [waiter] := by
    refine eq_singleton ?_ ?_ ?_
    · exact ((sortByKey_perm _ _).nodup_iff.mpr (nodup_select _ _)).filter _
    · refine List.mem_filter.mpr ⟨mem_waitersOf.mpr ⟨waiterMember, waiterRequest.trans ref⟩, ?_⟩
      simpa using ⟨waiterRef, generation⟩
    · intro other listed
      obtain ⟨otherListed, matching⟩ := List.mem_filter.mp listed
      obtain ⟨otherMember, otherRef⟩ := mem_waitersOf.mp otherListed
      rw [Bool.and_eq_true, decide_eq_true_iff, decide_eq_true_iff] at matching
      exact Table.eq_of_key otherMember waiterMember (by
        rw [key, WaiterRow.key, otherRef, matching.1, ref])
  unfold publicOpenEffect
  rw [require_eq_ok_iff, fits, single]
  rfl

/-! ### Queries -/

private theorem shown_rest (kept : Kept setting tables) (member : row ∈ tables.requests) :
    (checkAll (publicEvaluation setting) (tables.shown setting row).evaluation.toList = .ok ()) ∧
    (checkAll (fun disposition => require (disposition.receiptHash = dispositionReceiptHash setting
      row.requestRef disposition.decision disposition.evaluationRef)
      "human_request_disposition_invalid") (tables.shown setting row).disposition.toList = .ok ()) ∧
    checkAll (publicOpenEffect setting row ((tables.shown setting row).directWaiters.map (·.waiter)))
      (tables.shown setting row).openEffect.toList = .ok () := by
  refine ⟨?_, ?_, ?_⟩
  · rw [checkAll_eq_ok_iff]
    intro evaluation shown
    have found : tables.latestEvaluation row.requestRef = some evaluation := Option.mem_toList.mp shown
    have listed := List.argmax_mem (m := evaluation) found
    exact kept.evaluated evaluation (Table.mem_select.mp listed).1
  · rw [checkAll_eq_ok_iff]
    intro disposition shown
    have found : tables.dispositions.find? row.requestRef = some disposition :=
      Option.mem_toList.mp shown
    have verified := kept.verified disposition (Table.mem_of_find? found)
    unfold verifyDispositionIntegrity at verified
    rw [check_then_eq_ok_iff] at verified
    rw [← Table.key_of_find? found]
    exact verified.1
  · rw [checkAll_eq_ok_iff]
    intro effect shown
    have found : tables.effectOf row.requestRef = some effect := Option.mem_toList.mp shown
    obtain ⟨present, ref⟩ := (effectOf_eq_some_iff kept).mp found
    have waiters : (tables.shown setting row).directWaiters.map (·.waiter) =
        tables.waitersOf row.requestRef := by
      simp [Tables.shown, Function.comp_def]
    rw [waiters]
    exact publicOpenEffect_ok kept member present ref

/-- A query of an intact and settled request shows it. -/
theorem readHumanRequest_ok (kept : Kept setting tables) (member : row ∈ tables.requests)
    (intact : row.Intact setting) (settled : tables.Settled row.requestRef) :
    readHumanRequest setting tables row.requestRef = .ok (some (tables.shown setting row)) := by
  obtain ⟨evaluation, disposition, effect⟩ := shown_rest kept member
  have waiters : checkAll (publicWaiter setting) (tables.shown setting row).directWaiters = .ok () := by
    rw [checkAll_eq_ok_iff]
    intro shown listed
    obtain ⟨waiter, present, rfl⟩ := List.mem_map.mp listed
    obtain ⟨waiterMember, ref⟩ := mem_waitersOf.mp present
    rw [← ref] at settled ⊢
    exact publicWaiter_ok kept waiterMember settled
  have shown : publicRequest setting (tables.shown setting row) = .ok (tables.shown setting row) := by
    unfold publicRequest
    simp only [check_then_eq_ok_iff]
    exact ⟨(publicContract_ok_iff kept member).mpr intact, waiters, evaluation, disposition, effect, rfl⟩
  unfold readHumanRequest
  rw [Table.find?_of_mem member]
  simp only [verifyRequestStateIntegrity_ok kept member, verifyStoredDisposition_ok kept, shown]
  rfl

/-- A request is read only when it is settled. -/
theorem settled_of_readHumanRequest (kept : Kept setting tables) (member : row ∈ tables.requests)
    {shown : PublicRequest} (read : readHumanRequest setting tables row.requestRef = .ok (some shown)) :
    tables.Settled row.requestRef := by
  unfold readHumanRequest at read
  rw [Table.find?_of_mem member] at read
  simp only [check_then_eq_ok_iff, bind_eq_ok_iff (α := PublicRequest)] at read
  obtain ⟨-, -, _, published, -⟩ := read
  unfold publicRequest at published
  simp only [check_then_eq_ok_iff] at published
  obtain ⟨-, waiters, -⟩ := published
  rw [checkAll_eq_ok_iff] at waiters
  intro consumption present ref
  obtain ⟨waiter, there, key, generation, status⟩ := kept.consuming.waiter consumption present
  obtain ⟨waiterRequest, waiterNamed⟩ := Prod.ext_iff.mp key
  replace waiterNamed : waiter.waiterRef = consumption.waiterRef := waiterNamed
  have listed : tables.shownWaiter row.requestRef waiter ∈ (tables.shown setting row).directWaiters :=
    List.mem_map_of_mem (mem_waitersOf.mpr ⟨there, waiterRequest.trans ref⟩)
  have checked := waiters _ listed
  unfold publicWaiter Tables.shownWaiter at checked
  simp only [check_then_eq_ok_iff, require_eq_ok_iff, Bool.and_eq_true, decide_eq_true_iff] at checked
  obtain ⟨-, -, ⟨isConsumed, latest⟩, -⟩ := checked
  -- The latest consumption of the waiter is this one: both are of its generation.
  have some : (tables.latestConsumption row.requestRef waiter.waiterRef).isSome = true := by
    rw [← isConsumed, status]
    rfl
  obtain ⟨last, found⟩ := Option.isSome_iff_exists.mp some
  obtain ⟨lastPresent, lastRef, lastWaiter⟩ := latestConsumption_eq_some found
  rw [found, Option.all_some, Bool.and_eq_true, decide_eq_true_iff] at latest
  have same : last = consumption := Table.eq_of_key lastPresent present (by
    rw [ConsumptionRow.key, ConsumptionRow.key, lastRef, lastWaiter, latest.2, ← ref, ← generation,
      waiterNamed])
  rw [← same, lastWaiter]
  exact latest.1

/-- A request with another identity cannot be read. -/
theorem readHumanRequest_of_not_intact (kept : Kept setting tables) (member : row ∈ tables.requests)
    (changed : ¬ row.Intact setting) :
    readHumanRequest setting tables row.requestRef = .error "human_request_artifact_invalid" := by
  have columns := (kept.columns row member).1
  have contract : publicContract setting row = .error "human_request_artifact_invalid" := by
    unfold publicContract
    unfold RequestRow.Intact at changed
    rw [columns]
    simp [require, changed, bind, Except.bind]
  unfold readHumanRequest
  rw [Table.find?_of_mem member]
  simp only [verifyRequestStateIntegrity_ok kept member, verifyStoredDisposition_ok kept]
  unfold publicRequest Tables.shown
  simp only [contract]
  rfl

/-- A request is read when it is intact and settled, and only then. -/
theorem readHumanRequest_eq_ok_iff (kept : Kept setting tables) (member : row ∈ tables.requests) :
    readHumanRequest setting tables row.requestRef = .ok (some (tables.shown setting row)) ↔
      row.Intact setting ∧ tables.Settled row.requestRef := by
  refine ⟨fun read => ⟨?_, settled_of_readHumanRequest kept member read⟩, fun both =>
    readHumanRequest_ok kept member both.1 both.2⟩
  by_contra changed
  rw [readHumanRequest_of_not_intact kept member changed] at read
  cases read

/-- Another code than the one about the identity of a request. -/
private theorem ne_invalid {condition : Bool} {error : String}
    (apart : error ≠ "human_request_artifact_invalid") :
    require condition error ≠ .error "human_request_artifact_invalid" := require_ne_error apart

private theorem checkAll_ne_error {α ε : Type} {check : α → Except ε Unit} {items : List α} {error : ε}
    (each : ∀ item ∈ items, check item ≠ .error error) : checkAll check items ≠ .error error := by
  induction items with
  | nil => simp [checkAll]
  | cons item rest ih =>
    exact bind_ne_error (each item (by simp)) fun _ _ => ih fun other member => each other (by simp [member])

/-- An intact request is never refused for its identity. -/
theorem readHumanRequest_ne_artifact_invalid (kept : Kept setting tables)
    (member : row ∈ tables.requests) (intact : row.Intact setting) :
    readHumanRequest setting tables row.requestRef ≠ .error "human_request_artifact_invalid" := by
  obtain ⟨evaluation, disposition, effect⟩ := shown_rest kept member
  have waiter : ∀ shown, publicWaiter setting shown ≠ .error "human_request_artifact_invalid" := by
    intro shown
    refine bind_ne_error (ne_invalid (by decide)) fun _ _ =>
      bind_ne_error (ne_invalid (by decide)) fun _ _ =>
      bind_ne_error (ne_invalid (by decide)) fun _ _ => bind_ne_error ?_ fun _ _ => ?_
    · exact checkAll_ne_error fun _ _ => ne_invalid (by decide)
    · exact checkAll_ne_error fun _ _ => ne_invalid (by decide)
  have contract := (publicContract_ok_iff kept member).mpr intact
  have shown : publicRequest setting (tables.shown setting row) ≠
      .error "human_request_artifact_invalid" := by
    refine bind_ne_error (by simp [Tables.shown, contract]) fun _ _ =>
      bind_ne_error (checkAll_ne_error fun _ _ => waiter _) fun _ _ => ?_
    simp only [evaluation]
    refine bind_ne_error (by simp) fun _ _ => bind_ne_error ?_ fun _ _ => bind_ne_error ?_ fun _ _ => ?_
    · exact disposition ▸ (by simp)
    · exact effect ▸ (by simp)
    · simp [pure, Except.pure]
  unfold readHumanRequest
  rw [Table.find?_of_mem member]
  simp only [verifyRequestStateIntegrity_ok kept member, verifyStoredDisposition_ok kept]
  refine bind_ne_error (by simp) fun _ _ => bind_ne_error (by simp) fun _ _ =>
    bind_ne_error shown fun _ _ => by simp [pure, Except.pure]

end MetaResearch.HumanRequests

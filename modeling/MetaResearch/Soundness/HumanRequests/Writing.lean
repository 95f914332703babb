import MetaResearch.Soundness.HumanRequests.Reading

/-! # What a HumanRequest transaction keeps

Every transaction keeps the invariant and takes no row away. What a command checked before its
transaction stays true while responses come in, so it may run against later tables.
-/

namespace MetaResearch.HumanRequests

open Datasets (Uuid newRef)

variable {setting : Setting} {tables after : Tables} {row : RequestRow}

/-! ### Growth -/

/-- What is found under a key is found later. -/
def FindGrow {κ ρ : Type} [DecidableEq κ] {key : ρ → κ} (before after : Table key) : Prop :=
  ∀ k row, before.find? k = some row → after.find? k = some row

theorem FindGrow.refl {κ ρ : Type} [DecidableEq κ] {key : ρ → κ} (table : Table key) :
    FindGrow table table := fun _ _ found => found

theorem FindGrow.insert {κ ρ : Type} [DecidableEq κ] {key : ρ → κ} {before after : Table key} {row : ρ}
    (inserted : insertRow before row = .ok after) : FindGrow before after :=
  fun _ _ found => find?_insertRow_of_some inserted found

/-- No row goes, and rows change in nothing but their progress. -/
structure Grows (before after : Tables) : Prop where
  requests : RequestsGrow before.requests after.requests
  waiters : WaitersGrow before.waiters after.waiters
  evaluations : FindGrow before.evaluations after.evaluations
  dispositions : FindGrow before.dispositions after.dispositions
  validations : FindGrow before.validations after.validations
  consumptions : FindGrow before.consumptions after.consumptions
  effects : FindGrow before.effects after.effects
  commands : FindGrow before.commands after.commands
  responses : FindGrow before.responses after.responses

theorem Grows.refl (tables : Tables) : Grows tables tables where
  requests := .refl _
  waiters := .refl _
  evaluations := .refl _
  dispositions := .refl _
  validations := .refl _
  consumptions := .refl _
  effects := .refl _
  commands := .refl _
  responses := .refl _

theorem Grows.trans {before between after : Tables} (first : Grows before between)
    (second : Grows between after) : Grows before after where
  requests := first.requests.trans second.requests
  waiters := first.waiters.trans second.waiters
  evaluations k row found := second.evaluations k row (first.evaluations k row found)
  dispositions k row found := second.dispositions k row (first.dispositions k row found)
  validations k row found := second.validations k row (first.validations k row found)
  consumptions k row found := second.consumptions k row (first.consumptions k row found)
  effects k row found := second.effects k row (first.effects k row found)
  commands k row found := second.commands k row (first.commands k row found)
  responses k row found := second.responses k row (first.responses k row found)

/-- A request is found later as the same one. -/
theorem Grows.find?_request (grows : Grows tables after) (member : row ∈ tables.requests) :
    ∃ later ∈ after.requests, later.requestRef = row.requestRef ∧ later.core = row.core := by
  obtain ⟨later, there, core, -, -⟩ := grows.requests row member
  exact ⟨later, there, RequestRow.requestRef_of_core core, core⟩

/-! ### Dispositions -/

section

variable {stamp : Stamp} {requestRef : String} {decision : Disposition} {evaluationRef : Option String}

theorem of_insertDisposition
    (success : insertDisposition setting stamp requestRef decision evaluationRef tables = .ok after) :
    ∃ dispositions, insertRow tables.dispositions
        (dispositionRow setting stamp requestRef decision evaluationRef) = .ok dispositions ∧
      after = { tables with dispositions } := by
  unfold insertDisposition at success
  rw [check_then_eq_ok_iff, bind_eq_ok_iff] at success
  obtain ⟨-, dispositions, inserted, written⟩ := success
  cases written
  exact ⟨dispositions, inserted, rfl⟩

/-- A disposition that rests on no evaluation passes. -/
theorem verifyDispositionIntegrity_row (plain : decision.evaluation? = none) :
    verifyDispositionIntegrity setting tables (dispositionRow setting stamp requestRef decision none) =
      .ok () := by
  unfold verifyDispositionIntegrity dispositionRow
  rw [check_then_eq_ok_iff]
  refine ⟨by simp, ?_⟩
  simp only [plain]
  rfl

/-- Dispositions keep passing when another one comes. -/
theorem verified_insert (kept : Kept setting tables) {new : DispositionRow}
    {dispositions : Table DispositionRow.requestRef}
    (passes : verifyDispositionIntegrity setting tables new = .ok ())
    (inserted : insertRow tables.dispositions new = .ok dispositions) :
    ∀ disposition ∈ dispositions, verifyDispositionIntegrity setting tables disposition = .ok () := by
  intro disposition member
  rcases (mem_insertRow inserted).mp member with member | rfl
  · exact kept.verified disposition member
  · exact passes

end

/-! ### Expiration -/

theorem find?_of_isDue {requestRef : String} {now : ℚ} (due : tables.isDue requestRef now = true) :
    ∃ row ∈ tables.requests, row.requestRef = requestRef ∧ row.isCurrent = true ∧
      row.status = .opened ∧ ∃ deadline, row.expiresAt = some deadline ∧ deadline.value ≤ now := by
  unfold Tables.isDue at due
  obtain ⟨row, found, rowDue⟩ := (Option.any_eq_true _ _).mp due
  obtain ⟨member, ref⟩ := Table.find?_eq_some_iff.mp found
  simp only [RequestRow.isDue, Bool.and_eq_true, decide_eq_true_iff] at rowDue
  obtain ⟨deadline, expires, passed⟩ := (Option.any_eq_true _ _).mp rowDue.2
  exact ⟨row, member, ref, rowDue.1.1, rowDue.1.2, deadline, expires, by simpa using passed⟩

/-- The expiration writes when the request is due, and leaves the tables otherwise. -/
theorem of_expire {stamp : Stamp} {requestRef : String}
    (success : expire setting stamp requestRef tables = .ok after) :
    (tables.isDue requestRef stamp.now = false ∧ after = tables) ∨
      tables.isDue requestRef stamp.now = true ∧ ∃ dispositions, insertRow tables.dispositions
          (dispositionRow setting stamp requestRef .expired none) = .ok dispositions ∧
        after = { tables with
          requests := tables.requests.update (·.requestRef = requestRef) (setStatus (.closed .expired))
          waiters := tables.waiters.update
            (fun row => row.requestRef = requestRef && row.status = .blocked) (setWaiterStatus .cancelled)
          dispositions } := by
  unfold expire at success
  split_ifs at success with due
  · obtain ⟨dispositions, inserted, rfl⟩ := of_insertDisposition success
    exact .inr ⟨due, dispositions, inserted, rfl⟩
  · cases success
    exact .inl ⟨by simpa using due, rfl⟩

theorem keep_expire (kept : Kept setting tables) {stamp : Stamp} {requestRef : String}
    (success : expire setting stamp requestRef tables = .ok after) :
    Kept setting after ∧ Grows tables after := by
  rcases of_expire success with ⟨-, rfl⟩ | ⟨due, dispositions, inserted, rfl⟩
  · exact ⟨kept, .refl _⟩
  · obtain ⟨row, member, ref, current, opened, -⟩ := find?_of_isDue due
    subst ref
    have requestsGrow : RequestsGrow tables.requests
        (tables.requests.update (·.requestRef = row.requestRef) (setStatus (.closed .expired))) := by
      refine .update (keepsCore_setStatus _) (fun other there same notOpened => ?_) fun _ kept => kept
      rw [Table.eq_of_key there member (of_decide_eq_true same)] at notOpened
      exact (notOpened opened).elim
    have waitersGrow : WaitersGrow tables.waiters (tables.waiters.update
        (fun waiter => waiter.requestRef = row.requestRef && waiter.status = .blocked)
        (setWaiterStatus .cancelled)) := .update fun _ => rfl
    constructor
    · refine ⟨?_, ?_, ?_, verified_insert kept (verifyDispositionIntegrity_row rfl) inserted,
        kept.evaluated, ?_, kept.validated, ?_, kept.effects.grow requestsGrow waitersGrow⟩
      · refine kept.lineage.update (keepsCore_setStatus _) (fun _ => rfl) fun other there same => ?_
        rw [Table.eq_of_key there member same, current]
      · intro shown present
        obtain ⟨old, there, rfl⟩ := mem_update_iff.mp present
        split <;> exact kept.columns old there
      · exact kept.closings.close member rfl (fun _ => rfl) inserted
      · refine (kept.waiting.grow requestsGrow).update (fun waiter there _ =>
          kept.waiting.columns waiter there) fun waiter there _ status => ?_
        rcases status with status | status <;> cases status
      · refine kept.consuming.update (fun waiter there chosen status => ?_) fun _ => by
          simp [setWaiterStatus]
        rw [Bool.and_eq_true, decide_eq_true_iff, decide_eq_true_iff, status] at chosen
        cases chosen.2
    · exact { Grows.refl tables with
        requests := requestsGrow
        waiters := waitersGrow
        dispositions := .insert inserted }

/-! ### New requests -/

section

variable {contract : Contract} {requestId : String} {revision : ℕ} {predecessor : Option String} {now : ℚ}

theorem of_insertRequest
    (success : insertRequest setting contract requestId revision predecessor now tables = .ok after) :
    (∀ other ∈ tables.requests, (other.requestId = requestId → other.revision ≠ revision) ∧
      (predecessor.isSome → other.predecessorRequestRef ≠ predecessor)) ∧
    ∃ requests, insertRow tables.requests
        (contract.row setting requestId revision predecessor now) = .ok requests ∧
      after = { tables with requests } := by
  unfold insertRequest at success
  simp only [check_then_eq_ok_iff, bind_eq_ok_iff (α := Table RequestRow.requestRef),
    require_eq_ok_iff] at success
  obtain ⟨-, unique, requests, inserted, written⟩ := success
  cases written
  refine ⟨fun other member => ?_, requests, inserted, rfl⟩
  have apart := List.all_eq_true.mp unique other member
  rw [Bool.and_eq_true] at apart
  refine ⟨fun same => by simpa [same] using apart.1, fun some => ?_⟩
  obtain ⟨ref, rfl⟩ := Option.isSome_iff_exists.mp some
  simpa using apart.2

theorem fits_row (requests : Table RequestRow.requestRef)
    (apart : ∀ other ∈ requests, (other.requestId = requestId → other.revision ≠ revision) ∧
      (predecessor.isSome → other.predecessorRequestRef ≠ predecessor)) :
    Lineage.Fits requests (contract.row setting requestId revision predecessor now) :=
  ⟨rfl, rfl, fun other member => (apart other member).1, fun other member => (apart other member).2⟩

/-- The parts of the invariant that a new open request does not touch. -/
private theorem kept_of_requests (kept : Kept setting tables) {requests : Table RequestRow.requestRef}
    {dispositions : Table DispositionRow.requestRef} (grows : RequestsGrow tables.requests requests)
    (lineage : Lineage requests) (columns : ∀ row ∈ requests, row.ColumnsKept setting)
    (closings : Closings requests dispositions)
    (verified : ∀ disposition ∈ dispositions,
      verifyDispositionIntegrity setting tables disposition = .ok ()) :
    Kept setting { tables with requests, dispositions } :=
  ⟨lineage, columns, closings, verified, kept.evaluated, kept.waiting.grow grows, kept.validated,
    kept.consuming, kept.effects.grow grows (.refl _)⟩

private theorem columns_insert {requests grown : Table RequestRow.requestRef}
    (columns : ∀ row ∈ requests, row.ColumnsKept setting) (issued : Issued requestId)
    (inserted : insertRow requests (contract.row setting requestId revision predecessor now) = .ok grown) :
    ∀ row ∈ grown, row.ColumnsKept setting := by
  intro row member
  rcases (mem_insertRow inserted).mp member with member | rfl
  · exact columns row member
  · exact columnsKept_row _ issued ..

/-- A first revision. -/
theorem keep_insertRequest (kept : Kept setting tables) (issued : Issued requestId)
    (success : insertRequest setting contract requestId 1 predecessor now tables = .ok after) :
    Kept setting after ∧ Grows tables after := by
  obtain ⟨apart, requests, inserted, rfl⟩ := of_insertRequest success
  refine ⟨kept_of_requests kept (.insert inserted)
    (kept.lineage.first (fits_row _ apart) rfl inserted) (columns_insert kept.columns issued inserted)
    (kept.closings.insert rfl inserted) kept.verified, ?_⟩
  exact { Grows.refl tables with requests := .insert inserted }

/-- What is known of the rows before the revision that takes over. -/
private theorem apart_of_update {ref : String} {rewrite : Rewrite RequestRow.requestRef}
    (core : Rewrite.KeepsCore rewrite)
    (apart : ∀ other ∈ tables.requests.update (·.requestRef = ref) rewrite,
      (other.requestId = requestId → other.revision ≠ revision) ∧
        (predecessor.isSome → other.predecessorRequestRef ≠ predecessor)) :
    ∀ other ∈ tables.requests, (other.requestId = requestId → other.revision ≠ revision) ∧
      (predecessor.isSome → other.predecessorRequestRef ≠ predecessor) := by
  intro other member
  have shown := apart _ (mem_update_iff.mpr ⟨other, member, rfl⟩)
  split at shown
  · have same := core other
    rwa [RequestRow.requestId_of_core same, RequestRow.revision_of_core same,
      RequestRow.predecessor_of_core same] at shown
  · exact shown

theorem columns_update {requests : Table RequestRow.requestRef} {ref : String}
    {rewrite : Rewrite RequestRow.requestRef} (core : Rewrite.KeepsCore rewrite)
    (columns : ∀ row ∈ requests, row.ColumnsKept setting) :
    ∀ row ∈ requests.update (·.requestRef = ref) rewrite, row.ColumnsKept setting := by
  have shown : ∀ row : RequestRow, row.ColumnsKept setting ↔ row.core.ColumnsKept setting :=
    fun _ => Iff.rfl
  intro row member
  obtain ⟨old, there, rfl⟩ := mem_update_iff.mp member
  split
  · rw [shown, core, ← shown]
    exact columns old there
  · exact columns old there

/-- A satisfied request for help is continued by a next revision. -/
theorem keep_continue (kept : Kept setting tables) (member : row ∈ tables.requests)
    (current : row.isCurrent = true) (kind : row.kind = .systemOperationHelp)
    (status : row.status = .closed .satisfied)
    (success : insertRequest setting contract row.requestId (row.revision + 1) predecessor now
      (tables.updateRequest row.requestRef retire) = .ok after) :
    Kept setting after ∧ Grows tables after := by
  obtain ⟨apart, requests, inserted, rfl⟩ := of_insertRequest success
  have grows : RequestsGrow tables.requests requests :=
    (RequestsGrow.update keepsCore_retire (fun _ _ _ _ => rfl) fun _ _ => rfl).trans (.insert inserted)
  constructor
  · refine kept_of_requests kept grows ?_ (columns_insert (columns_update keepsCore_retire
      kept.columns) (kept.columns row member).2 inserted) ((kept.closings.update fun _ _ _ => rfl).insert rfl inserted) kept.verified
    exact kept.lineage.advance keepsCore_retire member current rfl (.inr ⟨kind, status⟩)
      (fits_row _ (apart_of_update keepsCore_retire apart)) rfl rfl inserted
  · exact { Grows.refl tables with requests := grows }

/-- An open request is superseded by a next revision. -/
theorem keep_supersede (kept : Kept setting tables) {stamp : Stamp} {closed : Tables}
    (member : row ∈ tables.requests) (current : row.isCurrent = true) (opened : row.status = .opened)
    (disposed : insertDisposition setting stamp row.requestRef .superseded none
      (tables.updateRequest row.requestRef supersede) = .ok closed)
    (success : insertRequest setting contract row.requestId (row.revision + 1) predecessor now closed =
      .ok after) :
    Kept setting after ∧ Grows tables after := by
  obtain ⟨dispositions, disposition, rfl⟩ := of_insertDisposition disposed
  obtain ⟨apart, requests, inserted, rfl⟩ := of_insertRequest success
  have superseded : RequestsGrow tables.requests
      (tables.requests.update (·.requestRef = row.requestRef) supersede) := by
    refine .update keepsCore_supersede (fun other there same notOpened => ?_) fun _ _ => rfl
    rw [Table.eq_of_key there member (of_decide_eq_true same)] at notOpened
    exact (notOpened opened).elim
  have grows : RequestsGrow tables.requests requests := superseded.trans (.insert inserted)
  constructor
  · refine kept_of_requests kept grows ?_ (columns_insert (columns_update keepsCore_supersede
      kept.columns) (kept.columns row member).2 inserted) ((kept.closings.close member rfl (fun _ => rfl) disposition).insert rfl
        inserted) (verified_insert kept (verifyDispositionIntegrity_row rfl) disposition)
    exact kept.lineage.advance keepsCore_supersede member current rfl (.inl rfl)
      (fits_row _ (apart_of_update keepsCore_supersede apart)) rfl rfl inserted
  · exact { Grows.refl tables with
      requests := grows
      dispositions := .insert disposition }

end

/-! ### Waiters -/

section

variable {requestRef : String} {now : ℚ} {waiter : Waiter} {new : Bool}

theorem of_insertWaiter
    (success : insertWaiter setting requestRef now waiter tables = .ok (new, after)) :
    (new = false ∧ after = tables ∧
        ∃ existing, tables.waiters.find? (requestRef, waiter.waiterRef) = some existing) ∨
      ∃ waiters, insertRow tables.waiters (waiter.row setting requestRef now) = .ok waiters ∧
        new = true ∧ after = { tables with waiters } := by
  unfold insertWaiter at success
  cases found : tables.waiters.find? (requestRef, waiter.waiterRef) with
  | some existing =>
    simp only [found, check_then_eq_ok_iff] at success
    cases success.2
    exact .inl ⟨rfl, rfl, existing, rfl⟩
  | none =>
    simp only [found, bind_eq_ok_iff (α := Table WaiterRow.key)] at success
    obtain ⟨waiters, inserted, written⟩ := success
    cases written
    exact .inr ⟨waiters, inserted, rfl, rfl⟩

theorem keep_insertWaiter (kept : Kept setting tables) (filed : ∃ row ∈ tables.requests,
      row.requestRef = requestRef) (plain : Plain setting (Json.texts waiter.otherBlockers))
    (success : insertWaiter setting requestRef now waiter tables = .ok (new, after)) :
    Kept setting after ∧ Grows tables after := by
  rcases of_insertWaiter success with ⟨-, rfl, -⟩ | ⟨waiters, inserted, -, rfl⟩
  · exact ⟨kept, .refl _⟩
  · obtain ⟨row, member, ref⟩ := filed
    have columns : (waiter.row setting requestRef now).ColumnsKept setting :=
      ⟨by simp [Waiter.row, intact_sealed_dict, intact_sealed_texts, isArray_sealed_texts],
        plain_sealed plain⟩
    constructor
    · exact ⟨kept.lineage, kept.columns, kept.closings, kept.verified, kept.evaluated,
        kept.waiting.insert member ref columns rfl inserted, kept.validated,
        kept.consuming.insert rfl inserted, kept.effects.grow (.refl _) (.insert inserted)⟩
    · exact { Grows.refl tables with waiters := .insert inserted }

/-- The waiters of a revision. -/
theorem keep_insertWaiters {waiters : List Waiter} (kept : Kept setting tables)
    (filed : ∃ row ∈ tables.requests, row.requestRef = requestRef)
    (plain : ∀ waiter ∈ waiters, Plain setting (Json.texts waiter.otherBlockers))
    (success : insertWaiters setting requestRef now waiters tables = .ok after) :
    Kept setting after ∧ Grows tables after := by
  induction waiters generalizing tables with
  | nil =>
    cases success
    exact ⟨kept, .refl _⟩
  | cons waiter rest ih =>
    simp only [insertWaiters, List.foldlM_cons, bind_eq_ok_iff (α := Tables),
      bind_eq_ok_iff (α := Bool × Tables)] at success
    obtain ⟨between, ⟨⟨new, written⟩, inserted, same⟩, later⟩ := success
    cases same
    obtain ⟨keptBetween, grows⟩ := keep_insertWaiter kept filed (plain waiter (by simp)) inserted
    obtain ⟨row, member, ref⟩ := filed
    obtain ⟨found, there, sameRef, -⟩ := grows.find?_request member
    obtain ⟨keptAfter, growsAfter⟩ := ih keptBetween ⟨found, there, sameRef.trans ref⟩
      (fun other member => plain other (by simp [member])) later
    exact ⟨keptAfter, grows.trans growsAfter⟩

end

/-! ### Opening -/

/-- A request is filed under its reference. -/
theorem mem_of_insertRequest {contract : Contract} {requestId : String} {revision : ℕ}
    {predecessor : Option String} {now : ℚ}
    (success : insertRequest setting contract requestId revision predecessor now tables = .ok after) :
    contract.row setting requestId revision predecessor now ∈ after.requests := by
  obtain ⟨-, requests, inserted, rfl⟩ := of_insertRequest success
  exact (mem_insertRow inserted).mpr (.inr rfl)

/-- An open request with the same contract is reused, or a first revision is filed. -/
theorem of_openFresh {inside : Inside} {contract : Contract} {waiter : Waiter} {ref : String}
    (success : openFresh setting inside contract waiter tables = .ok (ref, after)) :
    (∃ row ∈ tables.requests, (row.identityHash = setting.hash contract.json ∧ row.isCurrent = true ∧
        row.status = .opened) ∧ ref = row.requestRef ∧
        ∃ new, insertWaiter setting row.requestRef inside.stamp.now waiter tables = .ok (new, after)) ∨
      ∃ requestId filed new, requestId = newRef "human_request" inside.stamp.draws.request ∧
        insertRequest setting contract requestId 1 none inside.stamp.now tables = .ok filed ∧
        insertWaiter setting (requestRefOf requestId 1) inside.stamp.now waiter filed = .ok (new, after) ∧
        ref = requestRefOf requestId 1 := by
  unfold openFresh at success
  simp only at success
  split at success
  · rename_i row found
    simp only [bind_eq_ok_iff (α := Bool × Tables)] at success
    obtain ⟨⟨new, written⟩, inserted, same⟩ := success
    cases same
    obtain ⟨member, chosen⟩ := Table.mem_select.mp (List.argmin_mem (m := row) found)
    simp only [Bool.and_eq_true, decide_eq_true_iff] at chosen
    exact .inl ⟨row, member, ⟨chosen.1.1, chosen.1.2, chosen.2⟩, rfl, new, inserted⟩
  · simp only [bind_eq_ok_iff (α := Bool × Tables), bind_eq_ok_iff (α := Tables)] at success
    obtain ⟨filed, opened, ⟨new, written⟩, inserted, same⟩ := success
    cases same
    exact .inr ⟨_, filed, new, rfl, opened, inserted, rfl⟩

theorem keep_openFresh (kept : Kept setting tables) {inside : Inside} {contract : Contract}
    {waiter : Waiter} {ref : String} (plain : Plain setting (Json.texts waiter.otherBlockers))
    (success : openFresh setting inside contract waiter tables = .ok (ref, after)) :
    Kept setting after ∧ Grows tables after ∧ ∃ row ∈ after.requests, row.requestRef = ref := by
  rcases of_openFresh success with ⟨row, member, -, rfl, new, inserted⟩ |
    ⟨requestId, filed, new, rfl, opened, inserted, rfl⟩
  · obtain ⟨keptAfter, grows⟩ := keep_insertWaiter kept ⟨row, member, rfl⟩ plain inserted
    obtain ⟨later, there, sameRef, -⟩ := grows.find?_request member
    exact ⟨keptAfter, grows, later, there, sameRef⟩
  · obtain ⟨keptFiled, growsFiled⟩ := keep_insertRequest kept ⟨_, rfl⟩ opened
    have member := mem_of_insertRequest opened
    obtain ⟨keptAfter, grows⟩ := keep_insertWaiter keptFiled ⟨_, member, rfl⟩ plain inserted
    obtain ⟨later, there, sameRef, -⟩ := grows.find?_request member
    exact ⟨keptAfter, growsFiled.trans grows, later, there, sameRef⟩

/-! ### Effects -/

/-- What the check of an operation binding leaves. -/
structure BindingFits (setting : Setting) (binding : Dict) (waiter : Waiter) : Prop where
  owner : (binding.get "request_owner").isText setting.issuer = true
  generation : (binding.get "generation").isInteger waiter.generation = true
  plain : containsSecret setting.secrets binding.json = false
  waiterRef : setting.secrets.text waiter.waiterRef = false

private theorem text_of_isText {value : Json} {expected : String} (same : value.isText expected = true) :
    value = .text expected := by
  cases value <;> simp_all [Json.isText, Json.text?]

private theorem integer_of_isInteger {value : Json} {expected : ℤ}
    (same : value.isInteger expected = true) : value = .integer expected := by
  cases value <;> simp_all [Json.isInteger]

private theorem distinct_operationYieldFact (requestRef waiterRef : String) (binding : Dict) :
    (operationYieldFact requestRef waiterRef binding).distinct = true := by
  rw [operationYieldFact, Json.distinct_object_iff]
  refine ⟨by simp, fun field member => ?_⟩
  simp only [List.mem_cons, List.not_mem_nil, or_false] at member
  rcases member with rfl | rfl | rfl | rfl | rfl | rfl | rfl | rfl | rfl | rfl <;>
    first | rfl | exact binding.distinct_get _

/-- The yield fact over a binding that was read back has the same text. -/
private theorem dumps_operationYieldFact_reload (requestRef waiterRef : String) (binding : Dict) :
    (operationYieldFact requestRef waiterRef binding.reload).dumps =
      (operationYieldFact requestRef waiterRef binding).dumps := by
  refine Json.dumps_eq_of_same ?_
  have twice (name : String) : (binding.reload.get name).canonical = (binding.get name).canonical := by
    rw [Dict.get_reload, Json.canonical_canonical _ (binding.distinct_get name)]
  simp only [Json.Same, operationYieldFact, Json.canonical, Json.canonicalFields, twice]

private theorem plain_operationYieldFact {requestRef waiterRef : String} {binding : Dict}
    (request : setting.secrets.text requestRef = false)
    (waiter : setting.secrets.text waiterRef = false)
    (plain : containsSecret setting.secrets binding.json = false) :
    containsSecret setting.secrets (operationYieldFact requestRef waiterRef binding) = false := by
  rw [operationYieldFact, containsSecret, anySecretField_eq_false_iff]
  intro field member
  refine ⟨setting.secrets.yieldName field.1 ?_, ?_⟩
  · simp only [yieldNames]
    simp only [List.mem_cons, List.not_mem_nil, or_false] at member
    rcases member with rfl | rfl | rfl | rfl | rfl | rfl | rfl | rfl | rfl | rfl <;> simp
  · simp only [List.mem_cons, List.not_mem_nil, or_false] at member
    rcases member with rfl | rfl | rfl | rfl | rfl | rfl | rfl | rfl | rfl | rfl
    · exact setting.secrets.yieldText.1
    · exact setting.secrets.yieldText.2
    · exact request
    all_goals first | exact containsSecret_get plain _ | exact waiter

theorem effectFits_row {stamp : Stamp} {effectKey effectId : String} {binding : Dict}
    {contract : Contract} {waiter : Waiter} {requestId : String} {revision : ℕ}
    {predecessor : Option String} {now : ℚ} (fits : BindingFits setting binding waiter)
    (issued : Issued requestId) :
    effectFits setting (contract.row setting requestId revision predecessor now)
      (effectRow setting stamp effectKey effectId (requestRefOf requestId revision) binding predecessor
        waiter) = true := by
  obtain ⟨uuid, named⟩ := issued
  have hash : setting.hash binding.json.canonical = setting.hash binding.json := by
    rw [Setting.hash, Setting.hash, Datasets.canonicalHash, Datasets.canonicalHash,
      binding.dumps_canonical]
  have owner : (binding.reload.get "request_owner").isText setting.issuer = true := by
    rw [Dict.get_reload, text_of_isText fits.owner]
    simp [Json.canonical, Json.isText, Json.text?]
  have generation : (binding.reload.get "generation").isInteger waiter.generation = true := by
    rw [Dict.get_reload, integer_of_isInteger fits.generation]
    simp [Json.canonical, Json.isInteger]
  have fact := distinct_operationYieldFact (requestRefOf requestId revision) waiter.waiterRef binding
  have plainFact := plain_operationYieldFact (named ▸ setting.secrets.requestRef uuid revision)
    fits.waiterRef fits.plain
  have sealedFact := @intact_sealed setting _ fact
  rw [Setting.sealed] at sealedFact
  simp only [effectFits, effectRow, Contract.row, hash, decide_true, owner, generation,
    sealedFact, Setting.sealed, Json.dumps_canonical fact, dumps_operationYieldFact_reload,
    Dict.json_reload, containsSecret_canonical, fits.plain, plainFact, Bool.not_false, Bool.and_self]

/-- An effect comes with its request and its waiter. -/
theorem Effects.insert {requests : Table RequestRow.requestRef} {waiters : Table WaiterRow.key}
    {effects grown : Table OpenEffectRow.effectKey} (invariant : Effects setting requests waiters effects)
    {effect : OpenEffectRow} (member : row ∈ requests) (ref : row.requestRef = effect.requestRef)
    (fits : effectFits setting row effect = true) {waiter : WaiterRow} (present : waiter ∈ waiters)
    (key : waiter.key = (effect.requestRef, effect.waiterRef))
    (generation : waiter.generation = effect.generation)
    (apart : ∀ other ∈ effects, other.requestRef ≠ effect.requestRef)
    (inserted : insertRow effects effect = .ok grown) : Effects setting requests waiters grown := by
  refine ⟨fun other there => ?_, fun other there => ?_, fun first here second there same => ?_⟩
  · rcases (mem_insertRow inserted).mp there with there | rfl
    · exact invariant.fits other there
    · exact ⟨row, member, ref, fits⟩
  · rcases (mem_insertRow inserted).mp there with there | rfl
    · exact invariant.waiter other there
    · exact ⟨waiter, present, key, generation⟩
  · rcases (mem_insertRow inserted).mp here with here | rfl <;>
      rcases (mem_insertRow inserted).mp there with there | rfl
    · exact invariant.unique first here second there same
    · exact (apart first here same).elim
    · exact (apart second there same.symm).elim
    · rfl

/-- What the check of a predecessor leaves. -/
structure Precedes (tables : Tables) (predecessorRequestRef effectId : String) (kind : Kind)
    (predecessor : RequestRow) : Prop where
  member : predecessor ∈ tables.requests
  ref : predecessor.requestRef = predecessorRequestRef
  status : predecessor.status = .closed .satisfied ∨ predecessor.status = .closed .unsatisfied
  effect : ∃ effect, tables.effectOf predecessorRequestRef = some effect ∧
    (predecessor.kind = .systemOperationHelp → kind = .systemOperationHelp → effect.effectId = effectId)

theorem of_verifyEffectSuccessorPredecessor {predecessorRequestRef effectId : String} {binding : Dict}
    {kind : Kind} {generation : ℤ} {questRef : Option String} {predecessor : RequestRow}
    (success : verifyEffectSuccessorPredecessor setting predecessorRequestRef binding effectId kind
      generation questRef tables = .ok predecessor) :
    Precedes tables predecessorRequestRef effectId kind predecessor := by
  unfold verifyEffectSuccessorPredecessor at success
  cases found : tables.requests.find? predecessorRequestRef with
  | none => simp [found] at success
  | some row =>
    simp only [found, check_then_eq_ok_iff, require_eq_ok_iff, Bool.or_eq_true,
      decide_eq_true_iff] at success
    obtain ⟨-, status, -, rest⟩ := success
    split at rest
    · rename_i effect waiter stored _
      simp only [check_then_eq_ok_iff, require_eq_ok_iff, Bool.and_eq_true] at rest
      obtain ⟨checks, -, same⟩ := rest
      cases same
      obtain ⟨member, ref⟩ := Table.find?_eq_some_iff.mp found
      refine ⟨member, ref, status, effect, stored, fun help more => ?_⟩
      have shared := checks.1.1.1.1.1.1.2
      by_contra apart
      simp [help, more, apart] at shared
    · cases rest

/-- Where an effect's request goes: on in the revisions of its predecessor, or on its own. -/
theorem of_placeEffect {inside : Inside} {kind : Kind} {predecessor : Option RequestRow}
    {requestId : String} {revision : ℕ} {between : Tables}
    (success : placeEffect inside kind predecessor tables = .ok (requestId, revision, between)) :
    (∃ row, predecessor = some row ∧ row.continuesWith kind = true ∧ row.isCurrent = true ∧
        requestId = row.requestId ∧ revision = row.revision + 1 ∧
          between = tables.updateRequest row.requestRef retire) ∨
      (∀ row, predecessor = some row → row.continuesWith kind = false) ∧
        requestId = newRef "human_request" inside.stamp.draws.request ∧ revision = 1 ∧
          between = tables := by
  unfold placeEffect at success
  cases predecessor with
  | none =>
    cases success
    exact .inr ⟨fun row none => (Option.some_ne_none row none.symm).elim, rfl, rfl, rfl⟩
  | some row =>
    cases continues : row.continuesWith kind with
    | true =>
      simp only [continues, if_true, check_then_eq_ok_iff, require_eq_ok_iff] at success
      cases success.2
      exact .inl ⟨row, rfl, continues, success.1, rfl, rfl, rfl⟩
    | false =>
      simp only [continues, Bool.false_eq_true, if_false] at success
      cases success
      refine .inr ⟨fun other same => ?_, rfl, rfl, rfl⟩
      cases same
      exact continues

/-- The parts of the opening of an effect. -/
structure OpensEffect (setting : Setting) (inside : Inside) (effectKey effectId : String)
    (binding : Dict) (predecessorRequestRef : Option String) (contract : Contract) (waiter : Waiter)
    (tables : Tables) (ref : String) (after : Tables) where
  predecessor : Option RequestRow
  precedes : ∀ row, predecessor = some row → ∃ predecessorRef,
    predecessorRequestRef = some predecessorRef ∧
      Precedes tables predecessorRef effectId contract.kind row
  requestId : String
  revision : ℕ
  placed : Tables
  place : placeEffect inside contract.kind predecessor tables = .ok (requestId, revision, placed)
  filed : Tables
  request : insertRequest setting contract requestId revision predecessorRequestRef inside.stamp.now
    placed = .ok filed
  waiters : Table WaiterRow.key
  inserted : insertRow filed.waiters (waiter.row setting (requestRefOf requestId revision)
    inside.stamp.now) = .ok waiters
  effects : Table OpenEffectRow.effectKey
  apart : ∀ other ∈ filed.effects, other.requestRef ≠ requestRefOf requestId revision
  opened : insertRow filed.effects (effectRow setting inside.stamp effectKey effectId
    (requestRefOf requestId revision) binding predecessorRequestRef waiter) = .ok effects
  ref_eq : ref = requestRefOf requestId revision
  after_eq : after = { filed with waiters, effects }

theorem of_openEffectFresh {inside : Inside} {effectKey effectId ref : String} {binding : Dict}
    {predecessorRequestRef questRef : Option String} {contract : Contract} {waiter : Waiter}
    (success : openEffectFresh setting inside effectKey effectId binding predecessorRequestRef contract
      waiter questRef tables = .ok (ref, after)) :
    Nonempty (OpensEffect setting inside effectKey effectId binding predecessorRequestRef contract
      waiter tables ref after) := by
  unfold openEffectFresh at success
  simp only [bind_eq_ok_iff (α := Option RequestRow), bind_eq_ok_iff (α := String × ℕ × Tables),
    bind_eq_ok_iff (α := Tables), bind_eq_ok_iff (α := Bool × Tables), check_then_eq_ok_iff,
    bind_eq_ok_iff (α := Table OpenEffectRow.effectKey), require_eq_ok_iff] at success
  obtain ⟨predecessor, checked, ⟨requestId, revision, placed⟩, place, filed, request,
    ⟨new, waited⟩, waiting, isNew, -, -, apart, effects, opened, written⟩ := success
  cases written
  rcases of_insertWaiter waiting with ⟨known, -, -⟩ | ⟨waiters, inserted, -, rfl⟩
  · rw [known] at isNew
    cases isNew
  · refine ⟨⟨predecessor, fun row same => ?_, requestId, revision, placed, place, filed, request,
      waiters, inserted, effects, fun other member => ?_, opened, rfl, rfl⟩⟩
    · cases named : predecessorRequestRef with
      | none =>
        rw [named] at checked
        cases checked
        cases same
      | some predecessorRef =>
        rw [named, checkOptional, bind_eq_ok_iff] at checked
        obtain ⟨found, verified, rest⟩ := checked
        cases rest
        cases same
        exact ⟨predecessorRef, rfl, of_verifyEffectSuccessorPredecessor verified⟩
    · have both := List.all_eq_true.mp apart other member
      rw [Bool.and_eq_true, decide_eq_true_iff] at both
      exact both.1

theorem RequestRow.continuesWith_iff {kind : Kind} :
    row.continuesWith kind = true ↔ row.kind = .systemOperationHelp ∧
      row.status = .closed .satisfied ∧ kind = .systemOperationHelp := by
  simp [RequestRow.continuesWith, and_assoc]

theorem keep_openEffect {inside : Inside} {effectKey effectId ref : String} {binding : Dict}
    {predecessorRequestRef : Option String} {contract : Contract} {waiter : Waiter}
    (kept : Kept setting tables) (plain : Plain setting (Json.texts waiter.otherBlockers))
    (fits : BindingFits setting binding waiter)
    (opens : OpensEffect setting inside effectKey effectId binding predecessorRequestRef contract waiter
      tables ref after) :
    Kept setting after ∧ Grows tables after ∧ ∃ row ∈ after.requests, row.requestRef = ref := by
  obtain ⟨predecessor, precedes, requestId, revision, placed, place, filed, request, waiters, inserted,
    effects, apart, opened, rfl, rfl⟩ := opens
  have filing : (Kept setting filed ∧ Grows tables filed) ∧ Issued requestId := by
    rcases of_placeEffect place with ⟨row, found, continues, current, rfl, rfl, rfl⟩ | ⟨-, rfl, rfl, rfl⟩
    · obtain ⟨predecessorRef, -, before⟩ := precedes row found
      obtain ⟨kind, status, -⟩ := RequestRow.continuesWith_iff.mp continues
      exact ⟨keep_continue kept before.member current kind status request,
        (kept.columns row before.member).2⟩
    · exact ⟨keep_insertRequest kept ⟨_, rfl⟩ request, _, rfl⟩
  obtain ⟨⟨keptFiled, growsFiled⟩, issued⟩ := filing
  have member := mem_of_insertRequest request
  have waits : insertWaiter setting (requestRefOf requestId revision) inside.stamp.now waiter filed =
      .ok (true, { filed with waiters }) := by
    have free : filed.waiters.find? (requestRefOf requestId revision, waiter.waiterRef) = none := by
      rw [Table.find?_eq_none_iff]
      exact fun other present same => key_ne_of_insertRow inserted present same
    unfold insertWaiter
    simp only [free, inserted]
    rfl
  obtain ⟨keptWaiting, growsWaiting⟩ := keep_insertWaiter keptFiled ⟨_, member, rfl⟩ plain waits
  refine ⟨⟨keptWaiting.lineage, keptWaiting.columns, keptWaiting.closings, keptWaiting.verified,
    keptWaiting.evaluated, keptWaiting.waiting, keptWaiting.validated, keptWaiting.consuming, ?_⟩,
    growsFiled.trans (growsWaiting.trans { Grows.refl _ with effects := .insert opened }),
    _, member, rfl⟩
  exact keptWaiting.effects.insert member rfl (effectFits_row fits issued)
    ((mem_insertRow inserted).mpr (.inr rfl)) rfl rfl apart opened

/-! ### Revising -/

/-- A current open request is superseded, and a next revision of it is filed. -/
theorem of_reviseFresh {inside : Inside} {requestRef ref : String} {expectedRevision : ℤ}
    {contract : Contract} {waiters : List Waiter}
    (success : reviseFresh setting inside requestRef expectedRevision contract waiters tables =
      .ok (ref, after)) :
    ∃ row ∈ tables.requests, row.requestRef = requestRef ∧ (row.isCurrent = true ∧ row.status = .opened ∧
        (row.revision : ℤ) = expectedRevision ∧ setting.hash contract.json ≠ row.identityHash) ∧
      ref = requestRefOf row.requestId (row.revision + 1) ∧
      ∃ closed filed, insertDisposition setting inside.stamp requestRef .superseded none
          (tables.updateRequest requestRef supersede) = .ok closed ∧
        insertRequest setting contract row.requestId (row.revision + 1) (some requestRef) inside.stamp.now
          closed = .ok filed ∧
        insertWaiters setting (requestRefOf row.requestId (row.revision + 1)) inside.stamp.now waiters
          filed = .ok after := by
  unfold reviseFresh at success
  cases found : tables.requests.find? requestRef with
  | none => simp [found] at success
  | some row =>
    simp only [found, check_then_eq_ok_iff, require_eq_ok_iff, Bool.and_eq_true, decide_eq_true_iff,
      bind_eq_ok_iff (α := Tables)] at success
    obtain ⟨-, ⟨⟨revision, current⟩, opened⟩, changed, closed, disposed, filed, request, waited, waiting,
      written⟩ := success
    cases written
    obtain ⟨member, ref⟩ := Table.find?_eq_some_iff.mp found
    exact ⟨row, member, ref, ⟨current, opened, revision, changed⟩, rfl, closed, filed, disposed, request, waiting⟩

theorem keep_reviseFresh (kept : Kept setting tables) {inside : Inside} {requestRef ref : String}
    {expectedRevision : ℤ} {contract : Contract} {waiters : List Waiter}
    (plain : ∀ waiter ∈ waiters, Plain setting (Json.texts waiter.otherBlockers))
    (success : reviseFresh setting inside requestRef expectedRevision contract waiters tables =
      .ok (ref, after)) :
    Kept setting after ∧ Grows tables after ∧ ∃ row ∈ after.requests, row.requestRef = ref := by
  obtain ⟨row, member, rfl, ⟨current, opened, -⟩, rfl, closed, filed, disposed, request, waiting⟩ :=
    of_reviseFresh success
  obtain ⟨keptFiled, growsFiled⟩ := keep_supersede kept member current opened disposed request
  have filedRow := mem_of_insertRequest request
  obtain ⟨keptAfter, grows⟩ := keep_insertWaiters keptFiled ⟨_, filedRow, rfl⟩ plain waiting
  obtain ⟨later, there, sameRef, -⟩ := grows.find?_request filedRow
  exact ⟨keptAfter, growsFiled.trans grows, later, there, sameRef⟩

end MetaResearch.HumanRequests

import MetaResearch.Soundness.HumanRequests.Revisions

/-! # The invariant of the HumanRequest tables

What holds of the tables between any two transactions, in one part for each group of tables, and how
the elementary writes keep each part.
-/

namespace MetaResearch.HumanRequests

open Datasets (Uuid newRef)

/-! ### Secrets -/

section

variable {patterns : SecretPatterns}

theorem anySecretField_eq_false_iff {fields : Json.Fields} :
    anySecretField patterns fields = false ↔
      ∀ field ∈ fields, patterns.key field.1 = false ∧ containsSecret patterns field.2 = false := by
  induction fields with
  | nil => simp [anySecretField]
  | cons field rest ih =>
    rw [anySecretField, Bool.or_eq_false_iff, Bool.or_eq_false_iff, ih, List.forall_mem_cons]

theorem containsSecret_get {dict : Dict} (plain : containsSecret patterns dict.json = false)
    (name : String) : containsSecret patterns (dict.get name) = false := by
  rw [Dict.json, containsSecret, anySecretField_eq_false_iff] at plain
  unfold Dict.get Json.get
  cases found : dict.fields.lookup name with
  | none => rfl
  | some value =>
    obtain ⟨front, back, same, -⟩ := List.lookup_eq_some_iff.mp found
    exact (plain (name, value) (by simp [same])).2

theorem containsSecret_sorted {fields : Json.Fields} :
    anySecretField patterns (Json.sortNamed fields) = anySecretField patterns fields := by
  rw [Bool.eq_iff_iff, ← not_iff_not, Bool.not_eq_true, Bool.not_eq_true,
    anySecretField_eq_false_iff, anySecretField_eq_false_iff]
  exact forall_congr' fun field => imp_congr_left (Json.sortNamed_perm fields).mem_iff

mutual

/-- Reading a text back reveals no secret and hides none. -/
theorem containsSecret_canonical : ∀ value : Json,
    containsSecret patterns value.canonical = containsSecret patterns value
  | .array items => by
    rw [Json.canonical, containsSecret, containsSecret, anySecret_canonicalItems items]
  | .object fields => by
    rw [Json.canonical, containsSecret, containsSecret, containsSecret_sorted,
      anySecretField_canonicalFields fields]
  | .null => rfl
  | .bool _ => rfl
  | .integer _ => rfl
  | .number _ => rfl
  | .text _ => rfl
  termination_by structural value => value

theorem anySecret_canonicalItems : ∀ items : List Json,
    anySecret patterns (Json.canonicalItems items) = anySecret patterns items
  | [] => rfl
  | item :: rest => by
    rw [Json.canonicalItems, anySecret, anySecret, containsSecret_canonical item,
      anySecret_canonicalItems rest]
  termination_by structural items => items

theorem anySecretField_canonicalFields : ∀ fields : List (String × Json),
    anySecretField patterns (Json.canonicalFields fields) = anySecretField patterns fields
  | [] => rfl
  | (name, value) :: rest => by
    rw [Json.canonicalFields, anySecretField, anySecretField, containsSecret_canonical value,
      anySecretField_canonicalFields rest]
  termination_by structural fields => fields

end

end

/-! ### Sealed columns -/

variable {setting : Setting}

/-- A value with distinct names is sealed for good. -/
theorem intact_sealed {value : Json} (distinct : value.distinct = true) :
    setting.intact (setting.sealed value) = true := by
  unfold Setting.intact Setting.sealed Setting.hash Datasets.canonicalHash
  simp [Json.dumps_canonical distinct]

theorem intact_sealed_texts (values : List String) :
    setting.intact (setting.sealed (Json.texts values)) = true :=
  intact_sealed (Json.distinct_texts values)

theorem intact_sealed_dict (dict : Dict) : setting.intact (setting.sealed dict.json) = true :=
  intact_sealed dict.distinct

theorem isArray_sealed_texts (values : List String) :
    Json.isArray (setting.sealed (Json.texts values)).value = true := by
  simp [Setting.sealed, Json.texts, Json.canonical, Json.isArray, Json.array?]

/-! ### Requests and dispositions -/

def Status.disposition? : Status → Option Disposition
  | .opened => none
  | .closed disposition => some disposition

/-- The identity of a request is one that the Owner draws. -/
def Issued (requestId : String) : Prop := ∃ uuid, requestId = newRef "human_request" uuid

/-- The columns of a request fit the hashes beside them, and its identity was drawn. -/
def RequestRow.ColumnsKept (setting : Setting) (row : RequestRow) : Prop :=
  (setting.intact row.targetAssertion && Json.isArray row.acceptanceConditions.value &&
    setting.intact row.acceptanceConditions && row.requiredAuthorization.all setting.intact) = true ∧
  Issued row.requestId

theorem columnsKept_row (contract : Contract) {requestId : String} (issued : Issued requestId)
    (revision : ℕ) (predecessor : Option String) (now : ℚ) :
    (contract.row setting requestId revision predecessor now).ColumnsKept setting := by
  have authorization : (contract.requiredAuthorization.map fun dict : Dict =>
      setting.sealed dict.json).all setting.intact = true := by
    cases contract.requiredAuthorization with
    | none => rfl
    | some dict => exact intact_sealed_dict dict
  refine ⟨?_, issued⟩
  simp only [Contract.row, intact_sealed_dict, isArray_sealed_texts, intact_sealed_texts, authorization,
    Bool.and_self]

/-- A request has a disposition exactly when it is closed, and it is that one. -/
structure Closings (requests : Table RequestRow.requestRef)
    (dispositions : Table DispositionRow.requestRef) : Prop where
  agrees : ∀ row ∈ requests,
    (dispositions.find? row.requestRef).map (·.decision) = row.status.disposition?
  filed : ∀ disposition ∈ dispositions, ∃ row ∈ requests, row.requestRef = disposition.requestRef

namespace Closings

variable {requests after : Table RequestRow.requestRef}
  {dispositions closed : Table DispositionRow.requestRef} {row : RequestRow}

theorem opened_iff (closings : Closings requests dispositions) (member : row ∈ requests) :
    row.status = .opened ↔ dispositions.find? row.requestRef = none := by
  rw [← Option.map_eq_none_iff (f := DispositionRow.decision), closings.agrees row member]
  cases row.status <;> simp [Status.disposition?]

/-- A new request is open. -/
theorem insert (closings : Closings requests dispositions) (opened : row.status = .opened)
    (inserted : insertRow requests row = .ok after) : Closings after dispositions := by
  constructor
  case agrees =>
    intro other member
    rcases (mem_insertRow inserted).mp member with member | rfl
    · exact closings.agrees other member
    · have absent : dispositions.find? other.requestRef = none := by
        rw [Table.find?_eq_none_iff]
        intro disposition present same
        obtain ⟨filed, there, ref⟩ := closings.filed disposition present
        exact key_ne_of_insertRow inserted there (ref.trans same)
      rw [absent, opened]
      rfl
  case filed =>
    intro disposition present
    obtain ⟨filed, there, ref⟩ := closings.filed disposition present
    exact ⟨filed, (mem_insertRow inserted).mpr (.inl there), ref⟩

/-- Requests may change in what is not their status. -/
theorem update (closings : Closings requests dispositions) {chosen : RequestRow → Bool}
    {rewrite : Rewrite RequestRow.requestRef}
    (status : ∀ row ∈ requests, chosen row = true → (rewrite.apply row).status = row.status) :
    Closings (requests.update chosen rewrite) dispositions := by
  constructor
  case agrees =>
    intro row member
    obtain ⟨old, present, rfl⟩ := mem_update_iff.mp member
    split
    · rw [rewrite.keeps, status old present ‹_›]
      exact closings.agrees old present
    · exact closings.agrees old present
  case filed =>
    intro disposition present
    obtain ⟨filed, there, ref⟩ := closings.filed disposition present
    exact Table.exists_key_update.mpr ⟨filed, there, ref⟩

/-- A request is closed together with its disposition. -/
theorem close (closings : Closings requests dispositions) {disposition : DispositionRow}
    {rewrite : Rewrite RequestRow.requestRef} (member : row ∈ requests)
    (named : disposition.requestRef = row.requestRef)
    (status : ∀ old, (rewrite.apply old).status = .closed disposition.decision)
    (inserted : insertRow dispositions disposition = .ok closed) :
    Closings (requests.update (·.requestRef = row.requestRef) rewrite) closed := by
  have filed : ∀ ref, (∃ old ∈ requests, old.requestRef = ref) →
      ∃ old ∈ requests.update (·.requestRef = row.requestRef) rewrite, old.requestRef = ref :=
    fun _ there => Table.exists_key_update.mpr there
  constructor
  case agrees =>
    intro shown present
    obtain ⟨old, there, rfl⟩ := mem_update_iff.mp present
    split
    · rename_i same
      rw [rewrite.keeps, find?_insertRow inserted, named, of_decide_eq_true same, if_pos rfl, status]
      rfl
    · rename_i apart
      rw [find?_insertRow inserted, named, if_neg fun same => apart (by simp [same])]
      exact closings.agrees old there
  case filed =>
    intro shown present
    rcases (mem_insertRow inserted).mp present with present | rfl
    · exact filed _ (closings.filed shown present)
    · exact filed _ ⟨row, member, named.symm⟩

end Closings

/-! ### Dispositions and their evaluations -/

section

variable {tables after : Tables} {requestRef : String}

theorem verifyHumanResponse_eq_ok_iff {responseRef : String} {response : Response} :
    tables.verifyHumanResponse requestRef responseRef = .ok response ↔
      tables.responses.find? responseRef = some response ∧ response.requestRef = requestRef := by
  unfold Tables.verifyHumanResponse
  cases found : tables.responses.find? responseRef with
  | none => simp
  | some stored =>
    simp only [check_then_eq_ok_iff, require_eq_ok_iff, decide_eq_true_iff, pure, Except.pure,
      Except.ok.injEq, Option.some.injEq]
    constructor
    · rintro ⟨named, rfl⟩
      exact ⟨rfl, named⟩
    · rintro ⟨rfl, named⟩
      exact ⟨named, rfl⟩

/-- Responses are found again later. -/
theorem mapM_verifyHumanResponse_mono {refs : List String} {responses : List Response}
    (kept : ∀ ref response, tables.responses.find? ref = some response →
      after.responses.find? ref = some response)
    (verified : refs.mapM (tables.verifyHumanResponse requestRef) = .ok responses) :
    refs.mapM (after.verifyHumanResponse requestRef) = .ok responses := by
  refine mapM_eq_ok_of_imp verified fun ref _ response found => ?_
  rw [verifyHumanResponse_eq_ok_iff] at found ⊢
  exact ⟨kept ref response found.1, found.2⟩

/-- A disposition passes as long as its request is not evaluated again. -/
theorem verifyDispositionIntegrity_mono {disposition : DispositionRow}
    (found : ∀ ref evaluation, tables.evaluations.find? ref = some evaluation →
      after.evaluations.find? ref = some evaluation)
    (latest : after.latestEvaluation disposition.requestRef =
      tables.latestEvaluation disposition.requestRef)
    (kept : ∀ ref response, tables.responses.find? ref = some response →
      after.responses.find? ref = some response)
    (verified : verifyDispositionIntegrity setting tables disposition = .ok ()) :
    verifyDispositionIntegrity setting after disposition = .ok () := by
  unfold verifyDispositionIntegrity at verified ⊢
  rw [check_then_eq_ok_iff] at verified ⊢
  refine ⟨verified.1, ?_⟩
  have rest := verified.2
  cases decision : disposition.decision.evaluation? <;> cases named : disposition.evaluationRef <;>
    simp only [decision, named] at rest ⊢
  all_goals try exact rest
  rename_i decision ref
  cases stored : tables.evaluations.find? ref with
  | none => simp [stored] at rest
  | some evaluation =>
    rw [stored] at rest
    rw [found ref evaluation stored]
    unfold verifyDispositionEvaluation at rest ⊢
    simp only [check_then_eq_ok_iff, latest] at rest ⊢
    refine ⟨rest.1, rest.2.1, rest.2.2.1, ?_⟩
    cases responses : evaluation.responseRefs.mapM
        (tables.verifyHumanResponse disposition.requestRef) with
    | error _ => simp [responses] at rest
    | ok responses' =>
      rw [mapM_verifyHumanResponse_mono kept responses]
      simpa [responses] using rest.2.2.2

end

/-! ### Rows that stay -/

/-- No request goes: what is closed stays closed so, and what is retired stays retired. -/
def RequestsGrow (before after : Table RequestRow.requestRef) : Prop :=
  ∀ row ∈ before, ∃ later ∈ after, later.core = row.core ∧
    (row.status ≠ .opened → later.status = row.status) ∧
    (row.isCurrent = false → later.isCurrent = false)

/-- No waiter goes, and each keeps its generation. -/
def WaitersGrow (before after : Table WaiterRow.key) : Prop :=
  ∀ waiter ∈ before, ∃ later ∈ after, later.key = waiter.key ∧ later.generation = waiter.generation

section

variable {before between after : Table RequestRow.requestRef}

theorem RequestsGrow.refl (table : Table RequestRow.requestRef) : RequestsGrow table table :=
  fun row member => ⟨row, member, rfl, fun _ => rfl, fun kept => kept⟩

theorem RequestsGrow.trans (first : RequestsGrow before between) (second : RequestsGrow between after) :
    RequestsGrow before after := by
  intro row member
  obtain ⟨middle, there, core, status, current⟩ := first row member
  obtain ⟨later, here, core', status', current'⟩ := second middle there
  refine ⟨later, here, core'.trans core, fun closed => ?_, fun retired => current' (current retired)⟩
  rw [status' (by rw [status closed]; exact closed), status closed]

theorem RequestsGrow.insert {row : RequestRow} (inserted : insertRow before row = .ok after) :
    RequestsGrow before after :=
  fun other member =>
    ⟨other, (mem_insertRow inserted).mpr (.inl member), rfl, fun _ => rfl, fun kept => kept⟩

theorem RequestsGrow.update {chosen : RequestRow → Bool} {rewrite : Rewrite RequestRow.requestRef}
    (core : Rewrite.KeepsCore rewrite)
    (status : ∀ row ∈ before, chosen row = true → row.status ≠ .opened →
      (rewrite.apply row).status = row.status)
    (current : ∀ row, row.isCurrent = false → (rewrite.apply row).isCurrent = false) :
    RequestsGrow before (before.update chosen rewrite) := by
  intro row member
  refine ⟨_, mem_update_iff.mpr ⟨row, member, rfl⟩, ?_⟩
  split
  · exact ⟨core row, status row member ‹_›, current row⟩
  · exact ⟨rfl, fun _ => rfl, fun kept => kept⟩

end

section

variable {before between after : Table WaiterRow.key}

theorem WaitersGrow.refl (table : Table WaiterRow.key) : WaitersGrow table table :=
  fun waiter member => ⟨waiter, member, rfl, rfl⟩

theorem WaitersGrow.trans (first : WaitersGrow before between) (second : WaitersGrow between after) :
    WaitersGrow before after := by
  intro waiter member
  obtain ⟨middle, there, key, generation⟩ := first waiter member
  obtain ⟨later, here, key', generation'⟩ := second middle there
  exact ⟨later, here, key'.trans key, generation'.trans generation⟩

theorem WaitersGrow.insert {waiter : WaiterRow} (inserted : insertRow before waiter = .ok after) :
    WaitersGrow before after :=
  fun other member => ⟨other, (mem_insertRow inserted).mpr (.inl member), rfl, rfl⟩

theorem WaitersGrow.update {chosen : WaiterRow → Bool} {rewrite : Rewrite WaiterRow.key}
    (generation : ∀ waiter, (rewrite.apply waiter).generation = waiter.generation) :
    WaitersGrow before (before.update chosen rewrite) := by
  intro waiter member
  refine ⟨_, mem_update_iff.mpr ⟨waiter, member, rfl⟩, ?_⟩
  split
  · exact ⟨rewrite.keeps waiter, generation waiter⟩
  · exact ⟨rfl, rfl⟩

end

/-! ### Waiters -/

/-- Blockers that show no secret. -/
def Plain (setting : Setting) (otherBlockers : Json) : Prop :=
  containsSecret setting.secrets (.object [("other_blockers", otherBlockers)]) = false

/-- The columns of a waiter fit the hashes beside them and show no secret. -/
def WaiterRow.ColumnsKept (setting : Setting) (waiter : WaiterRow) : Prop :=
  (setting.intact waiter.targetAssertion && Json.isArray waiter.otherBlockers.value &&
    setting.intact waiter.otherBlockers) = true ∧ Plain setting waiter.otherBlockers.value

theorem plain_sealed {blockers : List String} (plain : Plain setting (Json.texts blockers)) :
    Plain setting (setting.sealed (Json.texts blockers)).value := by
  unfold Plain at plain ⊢
  have same : (Json.object [("other_blockers", (Json.texts blockers).canonical)]) =
      (Json.object [("other_blockers", Json.texts blockers)]).canonical := rfl
  rw [Setting.sealed, same, containsSecret_canonical, plain]

/-- A waiter belongs to a request, and one that was released belongs to a request that was satisfied
or left unsatisfied. -/
structure Waiting (setting : Setting) (requests : Table RequestRow.requestRef)
    (waiters : Table WaiterRow.key) : Prop where
  filed : ∀ waiter ∈ waiters, ∃ row ∈ requests, row.requestRef = waiter.requestRef
  columns : ∀ waiter ∈ waiters, waiter.ColumnsKept setting
  resumable : ∀ waiter ∈ waiters, waiter.status = .released ∨ waiter.status = .consumed →
    ∀ row ∈ requests, row.requestRef = waiter.requestRef →
      row.status = .closed .satisfied ∨ row.status = .closed .unsatisfied

namespace Waiting

variable {requests grown : Table RequestRow.requestRef} {waiters after : Table WaiterRow.key}

theorem grow (waiting : Waiting setting requests waiters) (grows : RequestsGrow requests grown) :
    Waiting setting grown waiters := by
  constructor
  case filed =>
    intro waiter member
    obtain ⟨row, there, ref⟩ := waiting.filed waiter member
    obtain ⟨later, here, core, -, -⟩ := grows row there
    exact ⟨later, here, (RequestRow.requestRef_of_core core).trans ref⟩
  case columns => exact waiting.columns
  case resumable =>
    intro waiter member status row present ref
    obtain ⟨old, there, oldRef⟩ := waiting.filed waiter member
    obtain ⟨later, here, core, kept, -⟩ := grows old there
    have same : row = later := Table.eq_of_key present here
      (ref.trans (oldRef.symm.trans (RequestRow.requestRef_of_core core).symm))
    have closed := waiting.resumable waiter member status old there oldRef
    rw [same, kept (by rcases closed with closed | closed <;> simp [closed])]
    exact closed

/-- A new waiter is blocked. -/
theorem insert (waiting : Waiting setting requests waiters) {waiter : WaiterRow} {row : RequestRow}
    (member : row ∈ requests) (ref : row.requestRef = waiter.requestRef)
    (columns : waiter.ColumnsKept setting) (blocked : waiter.status = .blocked)
    (inserted : insertRow waiters waiter = .ok after) : Waiting setting requests after := by
  constructor
  case filed =>
    intro other present
    rcases (mem_insertRow inserted).mp present with present | rfl
    · exact waiting.filed other present
    · exact ⟨row, member, ref⟩
  case columns =>
    intro other present
    rcases (mem_insertRow inserted).mp present with present | rfl
    · exact waiting.columns other present
    · exact columns
  case resumable =>
    intro other present status
    rcases (mem_insertRow inserted).mp present with present | rfl
    · exact waiting.resumable other present status
    · rw [blocked] at status
      rcases status with status | status <;> cases status

theorem update (waiting : Waiting setting requests waiters) {chosen : WaiterRow → Bool}
    {rewrite : Rewrite WaiterRow.key}
    (columns : ∀ waiter ∈ waiters, chosen waiter = true → (rewrite.apply waiter).ColumnsKept setting)
    (resumable : ∀ waiter ∈ waiters, chosen waiter = true →
      (rewrite.apply waiter).status = .released ∨ (rewrite.apply waiter).status = .consumed →
      ∀ row ∈ requests, row.requestRef = waiter.requestRef →
        row.status = .closed .satisfied ∨ row.status = .closed .unsatisfied) :
    Waiting setting requests (waiters.update chosen rewrite) := by
  have ref : ∀ waiter, (rewrite.apply waiter).requestRef = waiter.requestRef :=
    fun waiter => congrArg Prod.fst (rewrite.keeps waiter)
  constructor
  case filed =>
    intro waiter member
    obtain ⟨old, present, rfl⟩ := mem_update_iff.mp member
    split
    · rw [ref]
      exact waiting.filed old present
    · exact waiting.filed old present
  case columns =>
    intro waiter member
    obtain ⟨old, present, rfl⟩ := mem_update_iff.mp member
    split
    · exact columns old present ‹_›
    · exact waiting.columns old present
  case resumable =>
    intro waiter member
    obtain ⟨old, present, rfl⟩ := mem_update_iff.mp member
    split
    · rw [ref]
      exact resumable old present ‹_›
    · exact waiting.resumable old present

end Waiting

/-! ### Consumptions -/

/-- The consumed waiters are those with a consumption of their generation. -/
structure Consuming (setting : Setting) (waiters : Table WaiterRow.key)
    (consumptions : Table ConsumptionRow.key) : Prop where
  shown : ∀ consumption ∈ consumptions, publicConsumption setting consumption = .ok ()
  consumed : ∀ waiter ∈ waiters, waiter.status = .consumed → ∃ consumption ∈ consumptions,
    consumption.key = (waiter.requestRef, waiter.waiterRef, waiter.generation)
  waiter : ∀ consumption ∈ consumptions, ∃ waiter ∈ waiters,
    waiter.key = (consumption.requestRef, consumption.waiterRef) ∧
      waiter.generation = consumption.generation ∧ waiter.status = .consumed

namespace Consuming

variable {waiters after : Table WaiterRow.key} {consumptions : Table ConsumptionRow.key}

/-- Waiters come and change in what is not a consumption. -/
theorem ofWaiters (consuming : Consuming setting waiters consumptions)
    (comes : ∀ waiter ∈ after, waiter.status = .consumed → waiter ∈ waiters)
    (stays : ∀ waiter ∈ waiters, waiter.status = .consumed → waiter ∈ after) :
    Consuming setting after consumptions := by
  refine ⟨consuming.shown, fun waiter member status =>
    consuming.consumed waiter (comes waiter member status) status, fun consumption present => ?_⟩
  obtain ⟨waiter, there, key, generation, status⟩ := consuming.waiter consumption present
  exact ⟨waiter, stays waiter there status, key, generation, status⟩

theorem insert (consuming : Consuming setting waiters consumptions) {waiter : WaiterRow}
    (blocked : waiter.status = .blocked) (inserted : insertRow waiters waiter = .ok after) :
    Consuming setting after consumptions := by
  refine consuming.ofWaiters (fun other member status => ?_) fun other member _ =>
    (mem_insertRow inserted).mpr (.inl member)
  rcases (mem_insertRow inserted).mp member with member | rfl
  · exact member
  · rw [blocked] at status
    cases status

theorem update (consuming : Consuming setting waiters consumptions) {chosen : WaiterRow → Bool}
    {rewrite : Rewrite WaiterRow.key}
    (before : ∀ waiter ∈ waiters, chosen waiter = true → waiter.status ≠ .consumed)
    (later : ∀ waiter, (rewrite.apply waiter).status ≠ .consumed) :
    Consuming setting (waiters.update chosen rewrite) consumptions := by
  refine consuming.ofWaiters (fun waiter member status => ?_) fun waiter member status => ?_
  · obtain ⟨old, present, rfl⟩ := mem_update_iff.mp member
    split at status
    · exact (later old status).elim
    · rename_i spared
      rwa [if_neg spared]
  · refine mem_update_iff.mpr ⟨waiter, member, ?_⟩
    rw [if_neg fun hit => before waiter member hit status]

end Consuming

/-! ### Effects -/

/-- An effect fits its request and its waiter, and a request has at most one. -/
structure Effects (setting : Setting) (requests : Table RequestRow.requestRef)
    (waiters : Table WaiterRow.key) (effects : Table OpenEffectRow.effectKey) : Prop where
  fits : ∀ effect ∈ effects, ∃ row ∈ requests, row.requestRef = effect.requestRef ∧
    effectFits setting row effect = true
  waiter : ∀ effect ∈ effects, ∃ waiter ∈ waiters,
    waiter.key = (effect.requestRef, effect.waiterRef) ∧ waiter.generation = effect.generation
  unique : ∀ effect ∈ effects, ∀ other ∈ effects, effect.requestRef = other.requestRef →
    effect = other

theorem effectFits_of_core {row other : RequestRow} {effect : OpenEffectRow}
    (same : row.core = other.core) : effectFits setting row effect = effectFits setting other effect := by
  have shown : ∀ row : RequestRow, effectFits setting row effect = effectFits setting row.core effect :=
    fun _ => rfl
  rw [shown row, shown other, same]

theorem Effects.grow {requests grown : Table RequestRow.requestRef}
    {waiters after : Table WaiterRow.key} {table : Table OpenEffectRow.effectKey}
    (effects : Effects setting requests waiters table) (grows : RequestsGrow requests grown)
    (waitersGrow : WaitersGrow waiters after) : Effects setting grown after table := by
  refine ⟨fun effect member => ?_, fun effect member => ?_, effects.unique⟩
  · obtain ⟨row, there, ref, fits⟩ := effects.fits effect member
    obtain ⟨later, here, core, -, -⟩ := grows row there
    exact ⟨later, here, (RequestRow.requestRef_of_core core).trans ref,
      (effectFits_of_core core).trans fits⟩
  · obtain ⟨waiter, there, key, generation⟩ := effects.waiter effect member
    obtain ⟨later, here, key', generation'⟩ := waitersGrow waiter there
    exact ⟨later, here, key'.trans key, generation'.trans generation⟩

/-! ### The invariant -/

structure Kept (setting : Setting) (tables : Tables) : Prop where
  lineage : Lineage tables.requests
  columns : ∀ row ∈ tables.requests, row.ColumnsKept setting
  closings : Closings tables.requests tables.dispositions
  verified : ∀ disposition ∈ tables.dispositions,
    verifyDispositionIntegrity setting tables disposition = .ok ()
  evaluated : ∀ evaluation ∈ tables.evaluations, publicEvaluation setting evaluation = .ok ()
  waiting : Waiting setting tables.requests tables.waiters
  validated : ∀ validation ∈ tables.validations, publicValidation setting validation = .ok ()
  consuming : Consuming setting tables.waiters tables.consumptions
  effects : Effects setting tables.requests tables.waiters tables.effects

theorem kept_empty : Kept setting {} := by
  have none {α : Type} {κ : Type} {key : α → κ} {P : α → Prop} : ∀ row ∈ (∅ : Table key), P row :=
    fun row member => (Table.not_mem_empty row member).elim
  exact ⟨⟨none, none, none, none, none, none, none⟩, none, ⟨none, none⟩, none, none,
    ⟨none, none, none⟩, none, ⟨none, none, none⟩, ⟨none, none, none⟩⟩

end MetaResearch.HumanRequests

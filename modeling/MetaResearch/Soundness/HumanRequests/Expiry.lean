import MetaResearch.Soundness.HumanRequests.Interleaving
import MetaResearch.Soundness.HumanRequests.Storage

/-! # The deadlines of HumanRequests

A command looks at the deadline of its request before anything else, and expires the request when it is
due. Its transaction does not look again: an evaluation closes whatever is still open then. So deadlines
hold in the runs in which no deadline passes between the look and the transaction of an evaluation.
-/

namespace MetaResearch.HumanRequests

open Datasets (newRef)

variable {setting : Setting} {tables after : Tables} {system : System} {event : Event}

/-! ### What holds of deadlines -/

/-- The request is past its deadline at the time. -/
def RequestRow.PastAt (row : RequestRow) (now : ℚ) : Prop :=
  ∃ deadline, row.expiresAt = some deadline ∧ deadline.value ≤ now

/-- What is recorded for a request past its deadline is that it expired or was superseded. -/
def DeadlinesHold (tables : Tables) : Prop :=
  ∀ disposition ∈ tables.dispositions, disposition.decision ≠ .expired → disposition.decision ≠ .superseded →
    ∀ row ∈ tables.requests, row.requestRef = disposition.requestRef → ¬ row.PastAt disposition.createdAt

/-- No waiter of the request was resumed. -/
def NeverResumed (tables : Tables) (requestRef : String) : Prop :=
  ∀ waiter ∈ tables.waiters, waiter.requestRef = requestRef →
    waiter.status ≠ .released ∧ waiter.status ≠ .consumed

/-- The request that the transaction would close, if it is open. -/
def Body.closes? : Body → Option String
  | evaluate requestRef _ decision _ _ => if decision.disposition?.isSome then some requestRef else none
  | openRequest .. | openEffect .. | revise .. | validate .. => none

/-- An evaluation that is about to close its request, and looked at it before its deadline, meets it before
its deadline. -/
def System.EvaluatesInTime (system : System) : Event → Prop
  | .advance index inside => ∀ order look, system.clock ≤ inside.stamp.now →
      system.flights[index]? = some (.acting order look) →
      system.tables.commands.find? order.idempotencyKey = none →
      ∀ row ∈ system.tables.requests, order.body.closes? = some row.requestRef → row.isCurrent = true →
        row.status = .opened → (∀ seen, look = some seen → seen.found = true → ¬ row.PastAt seen.read) →
        ¬ row.PastAt inside.stamp.now
  | .call _ | .query _ | .consume .. | .respond .. => True

/-! ### Dispositions that come -/

theorem RequestRow.pastAt_of_core {row other : RequestRow} (same : row.core = other.core) {now : ℚ} :
    row.PastAt now ↔ other.PastAt now := by
  unfold RequestRow.PastAt
  rw [RequestRow.expiresAt_of_core same]

theorem RequestRow.PastAt.later {row : RequestRow} {first second : ℚ} (past : row.PastAt first)
    (ordered : first ≤ second) : row.PastAt second := by
  obtain ⟨deadline, expires, passed⟩ := past
  exact ⟨deadline, expires, passed.trans ordered⟩

/-- A disposition is one from before, or it says that its request expired or was superseded, or that a
request that was current and open was evaluated. -/
def Settles (tables : Tables) (now : ℚ) (closes? : Option String)
    (disposition : DispositionRow) : Prop :=
  disposition ∈ tables.dispositions ∨ disposition.decision = .expired ∨
    disposition.decision = .superseded ∨
      disposition.createdAt = now ∧ ∃ row ∈ tables.requests, row.requestRef = disposition.requestRef ∧
        closes? = some row.requestRef ∧ row.isCurrent = true ∧ row.status = .opened

theorem settles_expire {stamp : Stamp} {requestRef : String}
    (success : expire setting stamp requestRef tables = .ok after) :
    ∀ disposition ∈ after.dispositions, Settles tables stamp.now none disposition := by
  rcases of_expire success with ⟨-, rfl⟩ | ⟨-, dispositions, inserted, rfl⟩
  · exact fun disposition member => .inl member
  · intro disposition member
    rcases (mem_insertRow inserted).mp member with member | rfl
    · exact .inl member
    · exact .inr (.inl rfl)

theorem settles_fresh {order : Order} {inside : Inside} {ref : String}
    (success : order.fresh setting inside tables = .ok (ref, after)) :
    ∀ disposition ∈ after.dispositions, Settles tables inside.stamp.now order.body.closes? disposition := by
  obtain ⟨key, body⟩ := order
  cases body with
  | openRequest contract waiter =>
    rcases of_openFresh success with ⟨row, -, -, -, new, waited⟩ | ⟨_, filed, new, -, opened, waited, -⟩
    · obtain ⟨waiters, rfl⟩ := frame_insertWaiter waited
      exact fun disposition member => .inl member
    · obtain ⟨-, requests, -, rfl⟩ := of_insertRequest opened
      obtain ⟨waiters, rfl⟩ := frame_insertWaiter waited
      exact fun disposition member => .inl member
  | openEffect effectId binding predecessorRequestRef contract waiter questRef =>
    obtain ⟨_, _, _, _, placed, place, filed, request, _, _, _, _, _, -, rfl⟩ := of_openEffectFresh success
    obtain ⟨-, requests, -, rfl⟩ := of_insertRequest request
    intro disposition member
    rcases of_placeEffect place with ⟨row, -, -, -, -, -, rfl⟩ | ⟨-, -, -, rfl⟩ <;> exact .inl member
  | revise requestRef expectedRevision contract waiters =>
    obtain ⟨row, -, -, -, -, closed, filed, disposed, request, waited⟩ := of_reviseFresh success
    obtain ⟨dispositions, inserted, rfl⟩ := of_insertDisposition disposed
    obtain ⟨-, requests, -, rfl⟩ := of_insertRequest request
    obtain ⟨waiters, rfl⟩ := frame_insertWaiters waited
    intro disposition member
    rcases (mem_insertRow inserted).mp member with member | rfl
    · exact .inl member
    · exact .inr (.inr (.inl rfl))
  | evaluate requestRef responseRefs decision reasonCode evidenceRefs =>
    obtain ⟨-, row, filed, rfl, ⟨current, opened⟩, evaluations, -, ⟨-, rfl⟩ | ⟨closing, dispositions, closes,
      inserted, rfl⟩⟩ := of_evaluateFresh success
    · exact fun disposition member => .inl member
    · intro disposition member
      rcases (mem_insertRow inserted).mp member with member | rfl
      · exact .inl member
      · refine .inr (.inr (.inr ⟨rfl, row, filed, rfl, ?_, current, opened⟩))
        rw [Body.closes?, closes]
        rfl
  | validate requestRef waiterRef generation targetAssertion blockers authorizationReceiptRef =>
    obtain ⟨_, _, _, _, _, _, _, _, _, _, _, rfl⟩ := of_validateFresh success
    exact fun disposition member => .inl member

/-- What comes on time leaves the deadlines kept. -/
theorem DeadlinesHold.grow {now : ℚ} {closes? : Option String} (hold : DeadlinesHold tables)
    (kept : Kept setting tables) (grows : Grows tables after)
    (settles : ∀ disposition ∈ after.dispositions, Settles tables now closes? disposition)
    (timely : ∀ row ∈ tables.requests, closes? = some row.requestRef → row.isCurrent = true →
      row.status = .opened → ¬ row.PastAt now) : DeadlinesHold after := by
  intro disposition member unexpired standing row filed named
  -- The request was there before, with the same deadline.
  have earlier : ∀ old ∈ tables.requests, old.requestRef = disposition.requestRef → row.core = old.core := by
    intro old there ref
    obtain ⟨later, here, sameRef, core⟩ := grows.find?_request there
    rwa [Table.eq_of_key filed here (named.trans (sameRef.trans ref).symm)]
  rcases settles disposition member with old | expired | superseded | ⟨created, open', there, ref, closes,
    current, opened⟩
  · obtain ⟨request, there, ref⟩ := kept.closings.filed disposition old
    rw [RequestRow.pastAt_of_core (earlier request there ref)]
    exact hold disposition old unexpired standing request there ref
  · exact absurd expired unexpired
  · exact absurd superseded standing
  · rw [RequestRow.pastAt_of_core (earlier open' there ref), created]
    exact timely open' there closes current opened

/-! ### What a look is good for -/

/-- A request that was past its deadline when it was looked at is not open any more. -/
def Look.Settled (tables : Tables) (look : Look) : Prop :=
  look.found = true → ∃ row ∈ tables.requests, row.requestRef = look.requestRef ∧
    (row.PastAt look.read → ¬ (row.isCurrent = true ∧ row.status = .opened))

theorem Look.Settled.mono {look : Look} (settled : look.Settled tables) (grows : Grows tables after) :
    look.Settled after := by
  intro found
  obtain ⟨row, there, ref, closed⟩ := settled found
  obtain ⟨later, here, core, status, current⟩ := grows.requests row there
  refine ⟨later, here, (RequestRow.requestRef_of_core core).trans ref, fun past stands => ?_⟩
  refine closed ((RequestRow.pastAt_of_core core).mp past) ⟨?_, ?_⟩
  · by_contra retired
    rw [current (by simpa using retired)] at stands
    cases stands.1
  · by_contra shut
    exact shut ((status shut).symm.trans stands.2)

/-- A request that is past its deadline and not due is not open. -/
theorem closed_of_not_due {requestRef : String} {now : ℚ} {row : RequestRow} (member : row ∈ tables.requests)
    (ref : row.requestRef = requestRef) (early : tables.isDue requestRef now = false) (past : row.PastAt now) :
    ¬ (row.isCurrent = true ∧ row.status = .opened) := by
  rintro ⟨current, opened⟩
  obtain ⟨deadline, expires, passed⟩ := past
  have found : tables.requests.find? requestRef = some row := Table.find?_eq_some_iff.mpr ⟨member, ref⟩
  simp [Tables.isDue, found, RequestRow.isDue, current, opened, expires, passed] at early

/-- Once it was to expire, a request past its deadline is not open. -/
theorem settled_expire {stamp : Stamp} {look : Look} (ordered : look.read ≤ stamp.now) {row : RequestRow}
    (member : row ∈ tables.requests) (ref : row.requestRef = look.requestRef)
    (success : expire setting stamp look.requestRef tables = .ok after) : look.Settled after := by
  intro _
  rcases of_expire success with ⟨early, rfl⟩ | ⟨-, dispositions, -, rfl⟩
  · exact ⟨row, member, ref, fun past => closed_of_not_due member ref early (past.later ordered)⟩
  · refine ⟨_, mem_update_iff.mpr ⟨row, member, rfl⟩, ?_⟩
    rw [if_pos (by simpa using ref)]
    refine ⟨ref, fun _ stands => ?_⟩
    cases stands.2

/-- What a call under way knows from its look, by the clock. -/
def Flight.Looked (tables : Tables) (clock : ℚ) : Flight → Prop
  | entering issued requestRef => issued.subject? = some requestRef
  | looking issued requestRef read => issued.subject? = some requestRef ∧ read ≤ clock
  | expiring issued look => issued.subject? = some look.requestRef ∧ look.read ≤ clock ∧
      ∃ row ∈ tables.requests, row.requestRef = look.requestRef
  | checking issued look => ∀ requestRef, issued.subject? = some requestRef →
      ∃ seen, look = some seen ∧ seen.requestRef = requestRef ∧ seen.Settled tables
  | acting order look => ∀ requestRef, order.body.closes? = some requestRef →
      ∃ seen, look = some seen ∧ seen.requestRef = requestRef ∧ seen.Settled tables
  | answering _ | closing .. | closingDue _ => True

theorem Flight.Looked.mono {flight : Flight} {clock later : ℚ} (looked : flight.Looked tables clock)
    (grows : Grows tables after) (ordered : clock ≤ later) : flight.Looked after later := by
  cases flight with
  | entering => exact looked
  | looking => exact ⟨looked.1, looked.2.trans ordered⟩
  | expiring =>
    obtain ⟨subject, read, row, there, ref⟩ := looked
    obtain ⟨kept, here, sameRef, -⟩ := grows.find?_request there
    exact ⟨subject, read.trans ordered, kept, here, sameRef.trans ref⟩
  | checking | acting =>
    intro requestRef named
    obtain ⟨seen, look, ref, settled⟩ := looked requestRef named
    exact ⟨seen, look, ref, settled.mono grows⟩
  | answering | closing | closingDue => trivial

theorem looked_takeOff {clock : ℚ} (issued : Command) : issued.takeOff.Looked tables clock := by
  unfold Command.takeOff
  split
  · assumption
  · rename_i none
    intro requestRef named
    rw [none] at named
    cases named

/-- Only an evaluation closes a request, and it is the one that was looked at. -/
theorem subject_of_closes {issued : Command} {now : ℚ} {order : Order} {requestRef : String}
    (prepared : issued.prepare setting now tables = .ok order)
    (closes : order.body.closes? = some requestRef) : issued.subject? = some requestRef := by
  cases issued with
  | evaluate evaluated responseRefs decision reasonCode acceptedEvidenceRefs key =>
    simp only [Command.prepare] at prepared
    split at prepared
    · cases prepared
    · simp only [bind_eq_ok_iff (α := String), bind_eq_ok_iff (α := List String),
        bind_eq_ok_iff (α := List Response), check_then_eq_ok_iff] at prepared
      obtain ⟨_, -, _, -, _, -, -, _, -, -, same⟩ := prepared
      cases same
      simp only [Body.closes?, Option.ite_none_right_eq_some] at closes
      exact closes.2
  | openRequest | openEffect | revise | validate =>
    obtain ⟨-, shapes⟩ := Command.prepare_shapes prepared
    obtain ⟨key, body⟩ := order
    cases body <;> first | cases closes | cases shapes

/-- The rest of a call knows what its look is good for. -/
theorem looked_advance {flight rest : Flight} {inside : Inside} {clock : ℚ}
    (looked : flight.Looked tables clock) (ordered : clock ≤ inside.stamp.now)
    (goes : (flight.advance setting inside tables).2 = some rest) :
    rest.Looked (flight.advance setting inside tables).1 inside.stamp.now := by
  cases flight with
  | entering issued requestRef =>
    cases goes
    exact ⟨looked, le_rfl⟩
  | looking issued requestRef read =>
    obtain ⟨subject, read⟩ := looked
    simp only [Flight.advance] at goes ⊢
    split at goes
    · rename_i due
      cases goes
      obtain ⟨row, there, ref, -⟩ := find?_of_isDue due
      exact ⟨subject, read.trans ordered, row, there, ref⟩
    · rename_i early
      cases goes
      intro named same
      refine ⟨_, rfl, Option.some.inj (subject.symm.trans same), fun found => ?_⟩
      obtain ⟨row, there⟩ := Option.isSome_iff_exists.mp found
      obtain ⟨member, ref⟩ := Table.find?_eq_some_iff.mp there
      exact ⟨row, member, ref, closed_of_not_due member ref (by simpa using early)⟩
  | expiring issued look =>
    obtain ⟨subject, read, row, there, ref⟩ := looked
    cases success : expire setting inside.stamp look.requestRef tables with
    | error _ => simp only [Flight.advance, success, reduceCtorEq] at goes
    | ok written =>
      simp only [Flight.advance, success, Option.some.injEq] at goes ⊢
      subst goes
      intro named same
      exact ⟨look, rfl, Option.some.inj (subject.symm.trans same),
        settled_expire (read.trans ordered) there ref success⟩
  | checking issued look =>
    cases prepared : issued.prepare setting inside.stamp.now tables with
    | error _ => simp only [Flight.advance, prepared, reduceCtorEq] at goes
    | ok order =>
      simp only [Flight.advance, prepared, Option.some.injEq] at goes ⊢
      subst goes
      exact fun requestRef closes => looked requestRef (subject_of_closes prepared closes)
  | acting order look =>
    simp only [Flight.advance] at goes
    split at goes
    · obtain ⟨key, body⟩ := order
      cases body <;> cases goes <;> trivial
    · cases goes
  | answering requestRef =>
    cases goes
    trivial
  | closing requestRef read =>
    simp only [Flight.advance] at goes
    split at goes <;> cases goes
    trivial
  | closingDue requestRef =>
    simp only [Flight.advance] at goes
    split at goes <;> cases goes

/-! ### Runs -/

/-- What every event keeps: every call knows what its look is good for, and the deadlines hold. -/
structure System.Timely (setting : Setting) (system : System) : Prop where
  sound : system.Sound setting
  looked : ∀ flight ∈ system.flights, flight.Looked system.tables system.clock
  deadlines : DeadlinesHold system.tables

theorem timely_empty : System.Timely setting {} :=
  ⟨sound_empty, fun _ member => (List.not_mem_nil member).elim,
    fun _ member => (Table.not_mem_empty _ member).elim⟩

/-- An evaluation in time closes no request past its deadline. -/
theorem System.Timely.closes_early {index : ℕ} {inside : Inside} {order : Order} {look : Option Look}
    (timely : system.Timely setting) (inTime : system.EvaluatesInTime (.advance index inside))
    (ordered : system.clock ≤ inside.stamp.now)
    (flying : system.flights[index]? = some (.acting order look))
    (free : system.tables.commands.find? order.idempotencyKey = none) :
    ∀ row ∈ system.tables.requests, order.body.closes? = some row.requestRef → row.isCurrent = true →
      row.status = .opened → ¬ row.PastAt inside.stamp.now := by
  intro row filed closes current opened
  refine inTime order look ordered flying free row filed closes current opened fun seen seeing found past => ?_
  obtain ⟨same, looking, ref, settled⟩ := timely.looked _ (List.mem_of_getElem? flying) row.requestRef closes
  obtain rfl := Option.some.inj (looking.symm.trans seeing)
  obtain ⟨other, there, named, closed⟩ := settled found
  rw [Table.eq_of_key there filed (named.trans ref)] at closed
  exact closed past ⟨current, opened⟩

/-- The clock does not go back, and it is the reading of the event. -/
theorem clock_move (ordered : event.now?.all (system.clock ≤ ·) = true) :
    system.clock ≤ (system.move setting event).clock := by
  cases event with
  | call issued =>
    simp only [System.move]
    split <;> exact le_rfl
  | query => exact le_rfl
  | advance index inside =>
    simp only [System.move]
    split
    · exact le_rfl
    · exact of_decide_eq_true ordered
  | consume | respond => exact of_decide_eq_true ordered

theorem System.Timely.move (timely : system.Timely setting)
    (ordered : event.now?.all (system.clock ≤ ·) = true) (inTime : system.EvaluatesInTime event) :
    (system.move setting event).Timely setting := by
  have moves := moves_move setting system event
  have grows := (timely.sound.keep moves).2
  refine ⟨timely.sound.move event, ?_, ?_⟩
  · refine forall_flights_move (fun flight member => (timely.looked flight member).mono grows
      (clock_move ordered)) (fun issued _ => looked_takeOff issued) (fun _ => trivial) ?_
    rintro index inside flight rest rfl flying goes
    have looked := looked_advance (timely.looked flight (List.mem_of_getElem? flying))
      (by simpa [Event.now?] using ordered) goes
    simpa only [System.move, flying] using looked
  · generalize (system.move setting event).tables = after at moves grows
    cases moves with
    | reads => exact timely.deadlines
    | expires _ success =>
      exact timely.deadlines.grow timely.sound.kept grows (settles_expire success) fun _ _ none => by cases none
    | @transacts index inside order look ref after advances flying success =>
      subst advances
      rcases of_transact success with ⟨rfl, -⟩ | ⟨free, between, commands, fresh, -, rfl⟩
      · exact timely.deadlines
      · exact timely.deadlines.grow timely.sound.kept grows
          (fun disposition member => settles_fresh fresh disposition member)
          (timely.closes_early inTime (by simpa [Event.now?] using ordered) flying free)
    | consumes _ success =>
      rcases of_consumeReleasedWaiter success with rfl | ⟨_, _, ⟨consumes⟩⟩
      · exact timely.deadlines
      · obtain ⟨_, _, _, _, _, _, _, _, _, _, _, _, rfl⟩ := consumes
        exact timely.deadlines
    | responds success =>
      obtain ⟨responses, -, rfl⟩ := of_recordResponse success
      exact timely.deadlines

theorem System.Timely.step (timely : system.Timely setting) (inTime : system.EvaluatesInTime event) :
    (system.step setting event).Timely setting := by
  unfold System.step
  split_ifs with ordered
  · exact timely.move ordered inTime
  · exact timely

/-! ### Expiry is final -/

theorem neverResumed_of_expired (kept : Kept setting tables) {row : RequestRow} (member : row ∈ tables.requests)
    (expired : row.status = .closed .expired) : NeverResumed tables row.requestRef := by
  intro waiter there ref
  have unanswered : ¬ (row.status = .closed .satisfied ∨ row.status = .closed .unsatisfied) := by
    simp [expired]
  exact ⟨fun status => unanswered (kept.waiting.resumable waiter there (.inl status) row member ref.symm),
    fun status => unanswered (kept.waiting.resumable waiter there (.inr status) row member ref.symm)⟩

/-- What expired before is expired after, and none of its waiters was resumed. -/
def StaysExpired (before after : Tables) : Prop :=
  ∀ row ∈ before.requests, row.status = .closed .expired →
    (∃ later ∈ after.requests, later.requestRef = row.requestRef ∧ later.status = .closed .expired) ∧
      NeverResumed after row.requestRef

theorem staysExpired_of_grows (kept : Kept setting after) (grows : Grows tables after) :
    StaysExpired tables after := by
  intro row member expired
  obtain ⟨later, there, core, status, -⟩ := grows.requests row member
  have ref := RequestRow.requestRef_of_core core
  have same : later.status = .closed .expired := by rw [status (by simp [expired]), expired]
  refine ⟨⟨later, there, ref, same⟩, ?_⟩
  rw [← ref]
  exact neverResumed_of_expired kept there same

/-- Whatever the order of the steps, and wherever the clock stands when they are taken, deadlines hold as
long as evaluations are in time, and what expired stays so. -/
theorem expiry_final (setting : Setting) (earlier later : List Event)
    (inTime : Admissible (System.step setting) System.EvaluatesInTime {} (earlier ++ later)) :
    DeadlinesHold (runInputs (System.step setting) {} (earlier ++ later)).tables ∧
      StaysExpired (runInputs (System.step setting) {} earlier).tables
        (runInputs (System.step setting) {} (earlier ++ later)).tables := by
  constructor
  · exact (inTime.invariant timely_empty fun _ _ timely => timely.step).deadlines
  · obtain ⟨sound, -⟩ := sound_steps (sound_empty : System.Sound setting {}) earlier
    obtain ⟨soundLater, grows⟩ := sound_steps sound later
    rw [runInputs_append]
    exact staysExpired_of_grows soundLater.kept grows

/-! ### A sample -/

/-- A request that expires at ten is opened and answered, and evaluated in a transaction at the time. -/
def sampleEvents (transactedAt : ℚ) : List Event :=
  let requestRef := requestRefOf (newRef "human_request" sampleUuid) 1
  [.call (sampleOpen (.real ten)), .advance 0 (sampleAt 1).inside, .advance 0 (sampleAt 1).inside,
    .respond ⟨"response", requestRef, .provided⟩ (newRef "human_request" sampleUuid) 1 2,
    .call (.evaluate requestRef ["response"] "satisfied" "checked" [] "evaluate"),
    .advance 1 (sampleAt 5).inside, .advance 1 (sampleAt 5).inside, .advance 1 (sampleAt 6).inside,
    .advance 1 (sampleAt transactedAt).inside]

/-- No request is past its deadline. -/
def System.early (system : System) : Event → Bool
  | .advance _ inside =>
    system.tables.requests.rows.all fun row => row.expiresAt.all (inside.stamp.now < ·.value)
  | .call _ | .query _ | .consume .. | .respond .. => true

theorem evaluatesInTime_of_early (early : system.early event = true) : system.EvaluatesInTime event := by
  cases event with
  | advance index inside =>
    rintro order look - - - row member - - - - ⟨deadline, expires, passed⟩
    have later := List.all_eq_true.mp early row member
    rw [expires, Option.all_some, decide_eq_true_iff] at later
    exact absurd passed (not_le.mpr later)
  | call | query | consume | respond => trivial

/-- The transaction is in time at nine. -/
theorem expiry_final_sample :
    DeadlinesHold (runInputs (System.step sampleSetting) {} (sampleEvents 9 ++ [])).tables ∧
      StaysExpired (runInputs (System.step sampleSetting) {} (sampleEvents 9)).tables
        (runInputs (System.step sampleSetting) {} (sampleEvents 9 ++ [])).tables := by
  have early : Admissible (System.step sampleSetting) (fun system event => system.early event = true) {}
      (sampleEvents 9 ++ []) := by decide +kernel
  exact expiry_final sampleSetting (sampleEvents 9) [] (early.mono fun _ _ => evaluatesInTime_of_early)

/-- The request is satisfied at eleven, after it was looked at before ten. -/
theorem late_evaluation_recorded :
    ¬ DeadlinesHold (runInputs (System.step sampleSetting) {} (sampleEvents 11)).tables := by
  have recorded : (runInputs (System.step sampleSetting) {} (sampleEvents 11)).tables.dispositions.rows.any
      (fun disposition => disposition.decision = .satisfied &&
        (runInputs (System.step sampleSetting) {} (sampleEvents 11)).tables.requests.rows.any fun row =>
          row.requestRef = disposition.requestRef && row.expiresAt.any (·.value ≤ disposition.createdAt)) =
      true := by decide +kernel
  intro hold
  obtain ⟨disposition, member, late⟩ := List.any_eq_true.mp recorded
  rw [Bool.and_eq_true, decide_eq_true_iff, List.any_eq_true] at late
  obtain ⟨satisfied, row, filed, named⟩ := late
  rw [Bool.and_eq_true, decide_eq_true_iff, Option.any_eq_true] at named
  obtain ⟨ref, deadline, expires, passed⟩ := named
  exact hold disposition member (by simp [satisfied]) (by simp [satisfied]) row filed ref
    ⟨deadline, expires, by simpa using passed⟩

end MetaResearch.HumanRequests

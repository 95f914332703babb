import MetaResearch.Model.RuntimeProtection.Telemetry

/-! # Telemetry leaves only under consent

An exporter is silent when its worker has left its loop for good, or when nothing is queued or
carried and no thread can still hand it an event that it accepts. Consent is an invariant of every
run: while the durable mode permits no export, all exporters are silent; beside the one exporter that
is published or being revoked, all others are silent. Every transaction that takes the permission
away needs all exporters silent. A revocation is finalized only after the worker of the last speaking
exporter has shut down, but `close` disables the row before it stops the exporter that it replaces.
-/

namespace MetaResearch.RuntimeProtection.Telemetry

variable {Event : Type}

/-! ### Silence of one exporter -/

namespace AsyncExporter

/-- The exporter will not call its delegate again; `published` says that a thread can reach it. -/
def Silent (published : Prop) (exporter : AsyncExporter Event) : Prop :=
  exporter.worker.final ∨
    exporter.worker.carried = none ∧ (∀ item ∈ exporter.queue, item = none) ∧
      (published → exporter.accepting = false)

instance {published : Prop} [Decidable published] (exporter : AsyncExporter Event) :
    Decidable (exporter.Silent published) :=
  inferInstanceAs (Decidable (_ ∨ _))

variable {published : Prop} {exporter after : AsyncExporter Event} {outcome : Outcome}

theorem Silent.imp {reachable : Prop} (fewer : reachable → published)
    (silent : exporter.Silent published) : exporter.Silent reachable :=
  silent.imp_right fun ⟨carried, queue, closed⟩ => ⟨carried, queue, fun on => closed (fewer on)⟩

theorem Silent.carried (silent : exporter.Silent published) : exporter.worker.carried = none := by
  rcases silent with final | ⟨carried, _⟩
  · cases worker : exporter.worker with
    | waiting | carrying | exporting | reporting => simp [worker, Worker.final] at final
    | shuttingDown | reportingShutdown | proving | settling | stopped | crashed => rfl
  · exact carried

theorem silent_create (unpublished : ¬ published) : (create : AsyncExporter Event).Silent published :=
  .inr ⟨rfl, fun _ member => absurd member List.not_mem_nil, fun on => absurd on unpublished⟩

/-- A worker that has left its loop does not come back. -/
theorem workerStep_final (final : exporter.worker.final) :
    (exporter.workerStep outcome).worker.final := by
  unfold workerStep
  cases worker : exporter.worker with
  | waiting | carrying | exporting | reporting => simp [worker, Worker.final] at final
  | shuttingDown => cases outcome <;> rfl
  | proving => dsimp only; split_ifs <;> simp [worker, Worker.final]
  | reportingShutdown | settling => rfl
  | stopped | crashed => simp [worker, Worker.final]

/-- The proof of shutdown is given after the loop. -/
theorem workerStep_proven (proven : exporter.shutdownProven → exporter.worker.final)
    (after : (exporter.workerStep outcome).shutdownProven) :
    (exporter.workerStep outcome).worker.final := by
  cases was : exporter.shutdownProven with
  | true => exact workerStep_final (proven was)
  | false =>
    revert after
    unfold workerStep
    cases worker : exporter.worker with
    | waiting => dsimp only; split <;> simp [was]
    | carrying event => simp [was]
    | exporting event => cases outcome <;> simp [was]
    | reporting => cases outcome <;> simp [was]
    | shuttingDown => cases outcome <;> simp [was]
    | reportingShutdown | settling | stopped | crashed => simp [was]
    | proving => dsimp only; split_ifs <;> simp [was, Worker.final]

theorem workerStep_silent (silent : exporter.Silent published) :
    (exporter.workerStep outcome).Silent published := by
  rcases silent with final | ⟨carried, queue, closed⟩
  · exact .inl (workerStep_final final)
  · unfold workerStep
    cases worker : exporter.worker with
    | waiting =>
      cases items : exporter.queue with
      | nil => exact .inr ⟨carried, queue, closed⟩
      | cons item rest =>
        obtain rfl := queue item (items ▸ List.mem_cons_self)
        exact .inl rfl
    | carrying event => simp [worker, Worker.carried] at carried
    | exporting event => cases outcome <;> exact .inr ⟨rfl, queue, closed⟩
    | reporting =>
      cases outcome with
      | ok => exact .inr ⟨rfl, queue, closed⟩
      | fails => exact .inl rfl
    | shuttingDown => cases outcome <;> exact .inl rfl
    | proving => dsimp only; split_ifs <;> exact .inl (by simp [worker, Worker.final])
    | reportingShutdown | settling => exact .inl rfl
    | stopped | crashed => exact .inl (by simp [worker, Worker.final])

variable {timed : Bool} {point : ClosePoint} {next : ClosePoint ⊕ Bool}

/-- Closing an exporter neither touches its worker nor its proof of shutdown. -/
theorem closeStep_worker :
    (exporter.closeStep timed outcome point).2.worker = exporter.worker ∧
      (exporter.closeStep timed outcome point).2.shutdownProven = exporter.shutdownProven := by
  cases point with
  | enter => dsimp only [closeStep]; split_ifs <;> exact ⟨rfl, rfl⟩
  | discard => dsimp only [closeStep]; split <;> exact ⟨rfl, rfl⟩
  | sentinel => exact ⟨rfl, rfl⟩
  | wait => dsimp only [closeStep]; split_ifs <;> exact ⟨rfl, rfl⟩
  | proven => dsimp only [closeStep]; split_ifs <;> exact ⟨rfl, rfl⟩

theorem closeStep_silent (silent : exporter.Silent published) :
    (exporter.closeStep timed outcome point).2.Silent published := by
  rcases silent with final | ⟨carried, queue, closed⟩
  · exact .inl (by rwa [closeStep_worker.1])
  · refine .inr ⟨by rwa [closeStep_worker.1], ?_, ?_⟩
    · cases point with
      | enter => dsimp only [closeStep]; split_ifs <;> exact queue
      | discard =>
        cases items : exporter.queue with
        | nil => simp [closeStep, items]
        | cons item rest =>
          have rest_none : ∀ item ∈ rest, item = none :=
            fun item member => queue item (items ▸ List.mem_cons_of_mem _ member)
          simpa [closeStep, items] using rest_none
      | sentinel =>
        dsimp only [closeStep]
        split_ifs
        · intro item member
          rcases List.mem_append.mp member with member | member
          · exact queue item member
          · exact List.mem_singleton.mp member
        · exact queue
      | wait => dsimp only [closeStep]; split_ifs <;> exact queue
      | proven => dsimp only [closeStep]; split_ifs <;> exact queue
    · intro on
      have refuses := closed on
      cases point with
      | enter => dsimp only [closeStep]; split_ifs <;> first | exact refuses | rfl
      | discard => dsimp only [closeStep]; split <;> exact refuses
      | sentinel => exact refuses
      | wait => dsimp only [closeStep]; split_ifs <;> exact refuses
      | proven => dsimp only [closeStep]; split_ifs <;> exact refuses

/-- Only a proven shutdown makes `close_and_wait` return true. -/
theorem proven_of_closeStep
    (returned : (exporter.closeStep timed outcome point).1 = .inr true) : exporter.shutdownProven := by
  cases point with
  | enter => dsimp only [closeStep] at returned; split_ifs at returned
  | discard => dsimp only [closeStep] at returned; split at returned <;> cases returned
  | sentinel => cases returned
  | wait => dsimp only [closeStep] at returned; split_ifs at returned; cases returned
  | proven =>
    dsimp only [closeStep] at returned
    split_ifs at returned
    exact Sum.inr.inj returned

/-- An exporter that a thread reaches and that is silent keeps its silence when it is handed an
event: it refuses the event, or nobody takes it from the queue. -/
theorem put_silent {event : Event} (put : exporter.put event = some after)
    (silent : exporter.Silent True) : after.Silent True := by
  unfold AsyncExporter.put at put
  split_ifs at put with accepts room
  · obtain rfl := Option.some.inj put
    rcases silent with final | ⟨_, _, closed⟩
    · exact .inl final
    · rw [closed True.intro] at accepts
      cases accepts
  · obtain rfl := Option.some.inj put
    exact silent

theorem put_worker {event : Event} (put : exporter.put event = some after) :
    after.worker = exporter.worker ∧ after.shutdownProven = exporter.shutdownProven := by
  unfold AsyncExporter.put at put
  split_ifs at put <;> (obtain rfl := Option.some.inj put; exact ⟨rfl, rfl⟩)

end AsyncExporter

/-! ### Silence of all exporters -/

/-- The exporter that a thread is about to hand an event to. -/
def Frame.target : Frame Event → Option ℕ
  | .emitTo number _ => some number
  | _ => none

/-- The exporter whose shutdown a thread has seen proven. -/
def Frame.finalizes : Frame Event → Option ℕ
  | .finalize _ pending _ => some pending
  | _ => none

namespace State

/-- A thread can still reach the exporter to hand it an event. -/
def Published (state : State Event) (number : ℕ) : Prop :=
  state.telemetry = some number ∨ ∃ frame ∈ state.threads, frame.target = some number

instance (state : State Event) (number : ℕ) : Decidable (state.Published number) :=
  inferInstanceAs (Decidable (_ ∨ _))

def Silent (state : State Event) (number : ℕ) : Prop :=
  ∀ exporter ∈ state.exporters[number]?, exporter.Silent (state.Published number)

instance (state : State Event) (number : ℕ) : Decidable (state.Silent number) :=
  match found : state.exporters[number]? with
  | some exporter =>
    decidable_of_iff (exporter.Silent (state.Published number)) (by simp [Silent, found])
  | none => isTrue (by simp [Silent, found])

/-- The worker of the exporter has left its loop for good. -/
def Final (state : State Event) (number : ℕ) : Prop :=
  ∃ exporter ∈ state.exporters[number]?, exporter.worker.final

theorem Final.silent {state : State Event} {number : ℕ} (final : state.Final number) :
    state.Silent number := by
  obtain ⟨exporter, found, final⟩ := final
  intro other member
  obtain rfl := Option.mem_unique found member
  exact .inl final

/-- The next step is the transaction of `close`, and it disables an active row. -/
def DisablesActive (state : State Event) (input : Input Event) : Bool :=
  match state.critical, input, state.row.mode with
  | some (_, .closeWrite _ _), .holder .ok, .active _ _ => true
  | _, _, _ => false

/-- The transaction of `close` disables an active row only when no exporter can speak any more. -/
def QuietClose (state : State Event) (input : Input Event) : Prop :=
  state.DisablesActive input → ∀ number < state.exporters.length, state.Silent number

instance (state : State Event) (input : Input Event) : Decidable (state.QuietClose input) :=
  inferInstanceAs (Decidable (_ → _))

/-! ### The invariant -/

/-- What the lock holder relies on at its point. -/
def Keeps (state : State Event) : Critical Event → Prop
  | .enableWrite candidate _ _ _ => candidate < state.exporters.length
  | .enablePublish candidate _ =>
    candidate < state.exporters.length ∧ state.row.mode.consents ∧ state.revoking = none ∧
      ∀ other ≠ candidate, state.Silent other
  | .revokeSwap pending _ =>
    state.row.mode.consents ∧ (state.telemetry = some pending ∨ state.revoking = some pending)
  | .finalizeRead _ pending _ => state.Final pending
  | .finalizeWrite _ pending _ => state.Final pending ∧ state.revoking = some pending
  | .closeWrite _ _ => state.revoking = none
  | _ => True

structure Consent (state : State Event) : Prop where
  proven : ∀ exporter ∈ state.exporters, exporter.shutdownProven → exporter.worker.final
  known : ∀ number, state.Published number → number < state.exporters.length
  finalizing : ∀ frame ∈ state.threads, ∀ pending ∈ frame.finalizes, state.Final pending
  off : state.row.mode.consents = false → state.revoking = none ∧ ∀ number, state.Silent number
  sole : ∀ number, state.telemetry = some number ∨ state.revoking = some number →
    ∀ other ≠ number, state.Silent other
  holder : ∀ thread point, state.critical = some (thread, point) → state.Keeps point

variable {state : State Event} {thread number : ℕ} {frame : Frame Event} {point : Critical Event}

theorem consent_start (stored : TelemetryRow) : (start stored : State Event).Consent where
  proven := fun _ member => absurd member List.not_mem_nil
  known := by rintro number (published | ⟨frame, member, _⟩) <;> contradiction
  finalizing := fun _ member => absurd member List.not_mem_nil
  off := fun _ => ⟨rfl, fun _ _ member => by simp [start] at member⟩
  sole := by rintro number (published | pending) <;> contradiction
  holder := fun _ _ held => by simp [start] at held

/-! ### Updates that keep the invariant -/

/-- What becomes of an exporter without any new way to reach it. -/
theorem Silent.goto (reached : ∀ target ∈ frame.target, state.Published target) {other : ℕ}
    (silent : state.Silent other) : (state.goto thread frame).Silent other := by
  intro exporter found
  refine (silent exporter found).imp ?_
  rintro (published | ⟨next, member, target⟩)
  · exact .inl published
  · rcases List.mem_or_eq_of_mem_set member with member | rfl
    · exact .inr ⟨next, member, target⟩
    · exact reached other target

theorem Keeps.goto (reached : ∀ target ∈ frame.target, state.Published target)
    (keeps : state.Keeps point) : (state.goto thread frame).Keeps point := by
  cases point with
  | enablePublish candidate event =>
    obtain ⟨known, consents, idle, silent⟩ := keeps
    exact ⟨known, consents, idle, fun other ne => (silent other ne).goto reached⟩
  | _ => exact keeps

/-- A thread goes on to a point from which it reaches no further exporter. -/
theorem Consent.goto (consent : state.Consent)
    (reached : ∀ target ∈ frame.target, state.Published target)
    (final : ∀ pending ∈ frame.finalizes, state.Final pending) :
    (state.goto thread frame).Consent where
  proven := consent.proven
  known := by
    rintro other (published | ⟨next, member, target⟩)
    · exact consent.known other (.inl published)
    · rcases List.mem_or_eq_of_mem_set member with member | rfl
      · exact consent.known other (.inr ⟨next, member, target⟩)
      · exact consent.known other (reached other target)
  finalizing := by
    intro next member pending finalizes
    rcases List.mem_or_eq_of_mem_set member with member | rfl
    · exact consent.finalizing next member pending finalizes
    · exact final pending finalizes
  off := fun off => ⟨(consent.off off).1, fun other => ((consent.off off).2 other).goto reached⟩
  sole := fun other named another ne => (consent.sole other named another ne).goto reached
  holder := fun holder point held => (consent.holder holder point held).goto reached

/-- A thread goes on to a point that concerns no exporter. -/
theorem Consent.goto_plain (consent : state.Consent) (target : frame.target = none)
    (finalizes : frame.finalizes = none) : (state.goto thread frame).Consent :=
  consent.goto (by simp [target]) (by simp [finalizes])

/-- The lock changes hands, or its holder goes on. -/
theorem Consent.hold (consent : state.Consent) {critical : Option (ℕ × Critical Event)}
    (keeps : ∀ thread point, critical = some (thread, point) → state.Keeps point) :
    { state with critical := critical }.Consent :=
  ⟨consent.proven, consent.known, consent.finalizing, consent.off, consent.sole, keeps⟩

theorem Consent.within (consent : state.Consent) (keeps : state.Keeps point) :
    (state.within thread point).Consent :=
  consent.hold fun _ _ held => by
    obtain ⟨-, rfl⟩ := Prod.mk.inj (Option.some.inj held)
    exact keeps

theorem Consent.release (consent : state.Consent) (target : frame.target = none)
    (finalizes : frame.finalizes = none) : (state.release thread frame).Consent := by
  have gone : (state.goto thread frame).Consent := consent.goto_plain target finalizes
  exact gone.hold fun _ _ held => by cases held

theorem Consent.acquire (consent : state.Consent) (keeps : state.Keeps point) :
    (state.acquire thread point).Consent := by
  unfold State.acquire
  split
  · have gone : (state.goto thread .inside).Consent := consent.goto_plain rfl rfl
    refine gone.hold fun _ _ held => ?_
    obtain ⟨-, rfl⟩ := Prod.mk.inj (Option.some.inj held)
    exact keeps.goto (by simp [Frame.target])
  · exact consent

section Exporter

variable {exporter after : AsyncExporter Event}

theorem getElem?_setExporter {other : ℕ} (found : state.exporters[number]? = some exporter) :
    (state.setExporter number after).exporters[other]? =
      if number = other then some after else state.exporters[other]? := by
  obtain ⟨inside, -⟩ := List.getElem?_eq_some_iff.mp found
  simp only [setExporter, List.getElem?_set, inside, if_true]

theorem Silent.setExporter {other : ℕ} (found : state.exporters[number]? = some exporter)
    (silence : exporter.Silent (state.Published number) → after.Silent (state.Published number))
    (silent : state.Silent other) : (state.setExporter number after).Silent other := by
  intro next member
  rw [getElem?_setExporter found] at member
  split_ifs at member with same
  · subst same
    obtain rfl := Option.some.inj member
    exact silence (silent exporter found)
  · exact silent next member

theorem Final.setExporter {other : ℕ} (found : state.exporters[number]? = some exporter)
    (ends : exporter.worker.final → after.worker.final) (final : state.Final other) :
    (state.setExporter number after).Final other := by
  obtain ⟨next, member, final⟩ := final
  unfold Final
  rw [getElem?_setExporter found]
  split_ifs with same
  · subst same
    obtain rfl := Option.mem_unique found member
    exact ⟨after, rfl, ends final⟩
  · exact ⟨next, member, final⟩

/-- An exporter changes without speaking up. -/
theorem Consent.setExporter (consent : state.Consent)
    (found : state.exporters[number]? = some exporter)
    (ends : exporter.worker.final → after.worker.final)
    (proves : (exporter.shutdownProven → exporter.worker.final) →
      after.shutdownProven → after.worker.final)
    (silence : exporter.Silent (state.Published number) → after.Silent (state.Published number)) :
    (state.setExporter number after).Consent where
  proven := by
    intro next member
    rcases List.mem_or_eq_of_mem_set member with member | rfl
    · exact consent.proven next member
    · exact proves (consent.proven exporter (List.mem_of_getElem? found))
  known := fun other published => by
    simpa [State.setExporter] using consent.known other published
  finalizing := fun frame member pending finalizes =>
    (consent.finalizing frame member pending finalizes).setExporter found ends
  off := fun off =>
    ⟨(consent.off off).1, fun other => ((consent.off off).2 other).setExporter found silence⟩
  sole := fun other named another ne => (consent.sole other named another ne).setExporter found silence
  holder := by
    intro thread point held
    have keeps := consent.holder thread point held
    cases point with
    | enableWrite candidate provider ref event =>
      simpa [Keeps, State.setExporter] using keeps
    | enablePublish candidate event =>
      obtain ⟨known, consents, idle, silent⟩ := keeps
      exact ⟨by simpa [State.setExporter] using known, consents, idle,
        fun other ne => (silent other ne).setExporter found silence⟩
    | finalizeRead caller pending ref => exact Final.setExporter found ends keeps
    | finalizeWrite caller pending ref => exact ⟨keeps.1.setExporter found ends, keeps.2⟩
    | _ => exact keeps

/-- One step of closing an exporter, whatever the thread does next. -/
theorem Consent.closing {timed : Bool} {outcome : Outcome} {place : ClosePoint}
    {goOn : ClosePoint ⊕ Bool → State Event → State Event} (consent : state.Consent)
    (next : ∀ after, after.Consent → ∀ result, (result = .inr true → after.Final number) →
      (goOn result after).Consent) :
    (state.closing number timed outcome place goOn).Consent := by
  unfold State.closing
  cases found : state.exporters[number]? with
  | none => exact consent
  | some exporter =>
    have same := @AsyncExporter.closeStep_worker Event exporter outcome timed place
    have kept : (state.setExporter number (exporter.closeStep timed outcome place).2).Consent :=
      consent.setExporter found (by rw [same.1]; exact id) (by rw [same.1, same.2]; exact id)
        AsyncExporter.closeStep_silent
    refine next _ kept _ fun returned =>
      ⟨(exporter.closeStep timed outcome place).2, ?_, ?_⟩
    · exact (getElem?_setExporter found).trans (if_pos rfl)
    · rw [same.1]
      exact consent.proven exporter (List.mem_of_getElem? found)
        (AsyncExporter.proven_of_closeStep returned)

end Exporter

/-- A transaction that neither gives nor takes the permission. -/
theorem Consent.rewrite (consent : state.Consent) {row : TelemetryRow}
    (same : row.mode.consents = state.row.mode.consents) : { state with row := row }.Consent where
  proven := consent.proven
  known := consent.known
  finalizing := consent.finalizing
  off := fun off => consent.off (same ▸ off)
  sole := consent.sole
  holder := by
    intro thread point held
    have keeps := consent.holder thread point held
    cases point with
    | enablePublish candidate event =>
      obtain ⟨known, consents, idle, silent⟩ := keeps
      exact ⟨known, same.trans consents, idle, silent⟩
    | revokeSwap pending ref => exact ⟨same.trans keeps.1, keeps.2⟩
    | _ => exact keeps

/-! ### Steps -/

theorem consents_fail (ref reasonCode : String) (row : TelemetryRow) :
    (row.fail ref reasonCode).mode.consents = row.mode.consents := by
  unfold TelemetryRow.fail
  cases mode : row.mode <;> simp [mode, Mode.consents]

theorem consents_revokeWithoutTransport (ref : String) (row : TelemetryRow) :
    (row.revokeWithoutTransport ref).mode.consents = row.mode.consents := by
  unfold TelemetryRow.revokeWithoutTransport
  cases mode : row.mode <;> simp [mode, Mode.consents]

/-- A new exporter is empty and known to its creator only. -/
theorem Consent.create (consent : state.Consent) :
    ({ state with exporters := state.exporters ++ [AsyncExporter.create] } : State Event).Consent := by
  set after : State Event := { state with exporters := state.exporters ++ [.create] } with created
  have silent {other : ℕ} (silent : state.Silent other) : after.Silent other := by
    intro exporter member
    rw [created, Option.mem_def, List.getElem?_append] at member
    split_ifs at member with inside
    · exact silent exporter member
    · obtain ⟨bound, rfl⟩ := List.getElem?_eq_some_iff.mp member
      simp only [List.getElem_singleton]
      exact AsyncExporter.silent_create fun published => inside (consent.known other published)
  have final {other : ℕ} (final : state.Final other) : after.Final other := by
    obtain ⟨exporter, member, final⟩ := final
    exact ⟨exporter, List.getElem?_append_left (List.getElem?_eq_some_iff.mp member).1 ▸ member, final⟩
  have longer : state.exporters.length ≤ after.exporters.length := by simp [created]
  refine ⟨?_, ?_, ?_, ?_, ?_, ?_⟩
  · intro exporter member
    rcases List.mem_append.mp member with member | member
    · exact consent.proven exporter member
    · obtain rfl := List.mem_singleton.mp member
      exact fun proven => by cases proven
  · exact fun other published => (consent.known other published).trans_le longer
  · exact fun frame member pending finalizes =>
      final (consent.finalizing frame member pending finalizes)
  · exact fun off => ⟨(consent.off off).1, fun other => silent ((consent.off off).2 other)⟩
  · exact fun other named another ne => silent (consent.sole other named another ne)
  · intro holder point held
    have keeps := consent.holder holder point held
    cases point with
    | enableWrite candidate provider ref event =>
      exact Nat.lt_of_lt_of_le keeps longer
    | enablePublish candidate event =>
      obtain ⟨known, consents, idle, others⟩ := keeps
      exact ⟨known.trans_le longer, consents, idle, fun other ne => silent (others other ne)⟩
    | finalizeRead caller pending ref => exact final keeps
    | finalizeWrite caller pending ref => exact ⟨final keeps.1, keeps.2⟩
    | _ => exact keeps

variable {outcome : Outcome}

theorem Consent.enableRead (consent : state.Consent) {provider ref : String} {event : Event} :
    (state.enableRead thread provider ref event).Consent := by
  unfold State.enableRead
  split
  · split_ifs <;> exact consent.within True.intro
  all_goals exact consent.within True.intro

/-- Taking back the permission needs that nobody speaks. -/
theorem Consent.forbid (consent : state.Consent) {row : TelemetryRow}
    (free : ∀ thread point, state.critical = some (thread, point) →
      { state with row := row, revoking := none }.Keeps point)
    (silent : ∀ number, state.Silent number) :
    { state with row := row, revoking := none }.Consent where
  proven := consent.proven
  known := consent.known
  finalizing := consent.finalizing
  off := fun _ => ⟨rfl, silent⟩
  sole := fun _ _ other _ => silent other
  holder := free

theorem Consent.revokeRead (consent : state.Consent) {ref : String} :
    (state.revokeRead thread ref).Consent := by
  unfold State.revokeRead
  split
  · split_ifs
    · exact consent.release rfl rfl
    · exact consent.within True.intro
  · exact consent.within True.intro
  · split <;> exact consent.release rfl rfl
  · rename_i mode
    have consents : state.row.mode.consents := by rw [mode]; rfl
    split
    · rename_i pending _ revoking
      exact consent.within ⟨consents, .inr revoking⟩
    · rename_i _ pending _ telemetry
      exact consent.within ⟨consents, .inl telemetry⟩
    · exact consent.release rfl rfl

/-- Fewer named and reachable exporters. -/
theorem Consent.retract (consent : state.Consent) {revoking : Option ℕ}
    (named : ∀ number, revoking = some number →
      state.row.mode.consents ∧ (state.telemetry = some number ∨ state.revoking = some number))
    (keeps : { state with telemetry := none, revoking := revoking }.Keeps point) :
    ({ state with telemetry := none, revoking := revoking } : State Event).within thread point
      |>.Consent := by
  have fewer {number : ℕ}
      (published : { state with telemetry := none, revoking := revoking }.Published number) :
      state.Published number := published.elim (fun named => by cases named) .inr
  have silent {number : ℕ} (silent : state.Silent number) :
      { state with telemetry := none, revoking := revoking }.Silent number :=
    fun exporter member => (silent exporter member).imp fewer
  refine ⟨consent.proven, fun number published => consent.known number (fewer published),
    consent.finalizing, fun off => ⟨?_, fun number => silent ((consent.off off).2 number)⟩, ?_, ?_⟩
  · cases revoking with
    | none => rfl
    | some number =>
      have denied : state.row.mode.consents = false := off
      rw [(named number rfl).1] at denied
      cases denied
  · rintro number (unnamed | pending) other ne
    · cases unnamed
    · exact silent (consent.sole number (named number pending).2 other ne)
  · intro holder _ held
    obtain ⟨-, rfl⟩ := Prod.mk.inj (Option.some.inj held)
    exact keeps

theorem Consent.finalizeRead (consent : state.Consent) {caller : Finalizer} {pending : ℕ}
    {ref : String} (final : state.Final pending) :
    (state.finalizeRead thread caller pending ref).Consent := by
  unfold State.finalizeRead
  split
  · rename_i mode
    have idle : state.revoking = none := (consent.off (by rw [mode]; rfl)).1
    have same : (if state.revoking = some pending then none else state.revoking) = state.revoking := by
      rw [idle]
      rfl
    rw [same]
    exact consent.release rfl rfl
  all_goals
    split_ifs with revoking
    · exact consent.within ⟨final, revoking⟩
    · exact consent.release rfl rfl

/-- The finalized exporter has shut down and all others are silent. -/
theorem Consent.finalizeWrite (consent : state.Consent) {row : TelemetryRow} {pending : ℕ}
    (final : state.Final pending) (revoking : state.revoking = some pending)
    (target : frame.target = none) (finalizes : frame.finalizes = none) :
    { state.release thread frame with row := row, revoking := none }.Consent := by
  have silent (number : ℕ) : (state.release thread frame).Silent number := by
    have kept : (state.release thread frame).Consent := consent.release target finalizes
    by_cases same : number = pending
    · exact Final.silent (same ▸ final)
    · exact kept.sole pending (.inr revoking) number same
  exact (consent.release target finalizes).forbid (fun _ _ held => by cases held) silent

theorem Consent.enableWrite (consent : state.Consent) {candidate : ℕ} {provider ref : String}
    {event : Event} {row : TelemetryRow} (known : candidate < state.exporters.length)
    (enabled : state.row.enable provider ref = some row) :
    { state.within thread (.enablePublish candidate event) with row := row }.Consent := by
  have off : state.row.mode.consents = false ∧ row.mode.consents := by
    unfold TelemetryRow.enable at enabled
    cases mode : state.row.mode <;> simp only [mode, reduceCtorEq] at enabled <;>
      obtain rfl := Option.some.inj enabled <;> exact ⟨rfl, rfl⟩
  obtain ⟨idle, silent⟩ := consent.off off.1
  refine ⟨consent.proven, consent.known, consent.finalizing, fun on => ?_, consent.sole, ?_⟩
  · rw [off.2] at on
    cases on
  · intro holder point held
    obtain ⟨-, rfl⟩ := Prod.mk.inj (Option.some.inj held)
    exact ⟨known, off.2, idle, fun other _ => silent other⟩

theorem Consent.enablePublish (consent : state.Consent) {candidate : ℕ} {event : Event}
    (keeps : state.Keeps (.enablePublish candidate event)) (target : frame.target = none)
    (finalizes : frame.finalizes = none) :
    { state.release thread frame with telemetry := some candidate }.Consent := by
  obtain ⟨known, consents, idle, others⟩ := keeps
  have released : (state.release thread frame).Consent := consent.release target finalizes
  refine ⟨released.proven, ?_, released.finalizing, fun off => ?_, ?_, fun _ _ held => by cases held⟩
  · rintro number (named | reached)
    · exact Option.some.inj named ▸ known
    · exact released.known number (.inr reached)
  · have denied : state.row.mode.consents = false := off
    rw [consents] at denied
    cases denied
  · rintro number (named | revoking) other ne
    · obtain rfl := Option.some.inj named
      have silent : (state.release thread frame).Silent other :=
        (others other ne).goto (by simp [target])
      refine fun exporter member => (silent exporter member).imp ?_
      rintro (named | reached)
      · exact absurd (Option.some.inj named).symm ne
      · exact .inr reached
    · have pending : state.revoking = some number := revoking
      rw [idle] at pending
      cases pending

/-- The transaction of `close`. -/
theorem Consent.closeWrite (consent : state.Consent) (idle : state.revoking = none)
    (quiet : ∀ provider ref, state.row.mode = .active provider ref → ∀ number, state.Silent number)
    (target : frame.target = none) (finalizes : frame.finalizes = none) :
    { state.release thread frame with row := state.row.close }.Consent := by
  have released : (state.release thread frame).Consent := consent.release target finalizes
  by_cases active : ∃ provider ref, state.row.mode = .active provider ref
  · obtain ⟨provider, ref, mode⟩ := active
    have silent (number : ℕ) : (state.release thread frame).Silent number :=
      (quiet provider ref mode number).goto (by simp [target])
    have same : { state.release thread frame with row := state.row.close } =
        { state.release thread frame with row := state.row.close, revoking := none } := by
      simp only [State.release, State.goto, idle]
    rw [same]
    exact released.forbid (fun _ _ held => by cases held) silent
  · have same : state.row.close = state.row := by
      unfold TelemetryRow.close
      split
      · rename_i mode
        exact absurd ⟨_, _, mode⟩ active
      all_goals rfl
    rw [same]
    exact released

theorem Consent.spawn (consent : state.Consent) (target : frame.target = none)
    (finalizes : frame.finalizes = none) {waiter : Option ℕ} :
    { state with threads := state.threads ++ [frame], waiter := waiter }.Consent := by
  have fewer {number : ℕ}
      (published : { state with threads := state.threads ++ [frame], waiter := waiter }.Published number) :
      state.Published number := by
    rcases published with named | ⟨next, member, reached⟩
    · exact .inl named
    · rcases List.mem_append.mp member with member | member
      · exact .inr ⟨next, member, reached⟩
      · rw [List.mem_singleton.mp member, target] at reached
        cases reached
  have silent {number : ℕ} (silent : state.Silent number) :
      { state with threads := state.threads ++ [frame], waiter := waiter }.Silent number :=
    fun exporter member => (silent exporter member).imp fewer
  refine ⟨consent.proven, fun number published => consent.known number (fewer published), ?_,
    fun off => ⟨(consent.off off).1, fun number => silent ((consent.off off).2 number)⟩,
    fun number named other ne => silent (consent.sole number named other ne), ?_⟩
  · intro next member pending ends
    rcases List.mem_append.mp member with member | member
    · exact consent.finalizing next member pending ends
    · rw [List.mem_singleton.mp member, finalizes] at ends
      cases ends
  · intro holder point held
    have keeps := consent.holder holder point held
    cases point with
    | enablePublish candidate event =>
      obtain ⟨known, consents, idle, others⟩ := keeps
      exact ⟨known, consents, idle, fun other ne => silent (others other ne)⟩
    | _ => exact keeps

theorem Consent.rewait (consent : state.Consent) {waiter : Option ℕ} :
    { state with waiter := waiter }.Consent :=
  ⟨consent.proven, consent.known, consent.finalizing, consent.off, consent.sole, consent.holder⟩

theorem closeFrame_target (previous pending : Option ℕ) :
    (closeFrame previous pending : Frame Event).target = none ∧
      (closeFrame previous pending : Frame Event).finalizes = none := by
  cases previous <;> cases pending <;> exact ⟨rfl, rfl⟩

theorem closeRest_target (previous : ℕ) (pending : Option ℕ) :
    (closeRest previous pending : Frame Event).target = none ∧
      (closeRest previous pending : Frame Event).finalizes = none := by
  cases pending with
  | none => exact ⟨rfl, rfl⟩
  | some other => dsimp only [closeRest]; split_ifs <;> exact ⟨rfl, rfl⟩

theorem frame_target (call : Call Event) : call.frame.target = none ∧ call.frame.finalizes = none := by
  cases call with
  | emit | close => exact ⟨rfl, rfl⟩
  | enable => dsimp only [Call.frame]; split_ifs <;> exact ⟨rfl, rfl⟩
  | revoke => dsimp only [Call.frame]; split_ifs <;> exact ⟨rfl, rfl⟩

theorem Consent.criticalStep (consent : state.Consent) (held : state.critical = some (thread, point))
    (quiet : state.QuietClose (.holder outcome)) :
    (state.criticalStep thread outcome point).Consent := by
  have keeps := consent.holder thread point held
  cases point with
  | enableRead provider ref event =>
    cases outcome with
    | ok => exact consent.enableRead
    | fails => exact consent.release rfl rfl
  | enableRefuse closed failed => exact consent.release rfl rfl
  | enableCreate provider ref event =>
    cases outcome with
    | ok =>
      refine Consent.within consent.create ?_
      simp [Keeps]
    | fails => exact consent.release rfl rfl
  | enableWrite candidate provider ref event =>
    dsimp only [State.criticalStep]
    split
    · rename_i enabled
      exact consent.enableWrite keeps enabled
    all_goals exact consent.within True.intro
  | enablePublish candidate event => exact consent.enablePublish keeps rfl rfl
  | enableAbandon candidate place failure =>
    dsimp only [State.criticalStep]
    refine consent.closing fun after kept result _ => ?_
    cases result with
    | inl place => exact kept.within True.intro
    | inr stopped => exact kept.release rfl rfl
  | revokeRead ref =>
    cases outcome with
    | ok => exact consent.revokeRead
    | fails => exact consent.release rfl rfl
  | revokeWithoutTransport ref =>
    cases outcome with
    | ok =>
      exact Consent.within (consent.rewrite (consents_revokeWithoutTransport ref state.row)) True.intro
    | fails => exact consent.release rfl rfl
  | revokeWithoutTransportLog => exact consent.release rfl rfl
  | revokeSwap pending ref =>
    refine consent.retract (fun number named => ?_) True.intro
    obtain rfl := Option.some.inj named
    exact keeps
  | revokeStop pending ref place =>
    dsimp only [State.criticalStep]
    refine consent.closing fun after kept result _ => ?_
    split <;> exact kept.within True.intro
  | revokeRecord pending ref =>
    dsimp only [State.criticalStep]
    split
    · rename_i row pended
      have same : row.mode.consents = state.row.mode.consents := by
        unfold TelemetryRow.pend at pended
        split at pended <;> simp only [reduceCtorEq, Option.some.injEq] at pended
        rename_i mode
        rw [mode, ← pended]
        rfl
      exact Consent.release (consent.rewrite same) rfl rfl
    all_goals exact consent.within True.intro
  | revokeRecordFailure pending ref =>
    cases outcome with
    | ok => exact Consent.within (consent.rewrite (consents_fail ..)) True.intro
    | fails => exact consent.within True.intro
  | revokeFailureLog pending ref => cases outcome <;> exact consent.release rfl rfl
  | finalizeRead caller pending ref =>
    cases outcome with
    | ok => exact consent.finalizeRead keeps
    | fails => exact consent.release rfl rfl
  | finalizeWrite caller pending ref =>
    dsimp only [State.criticalStep]
    split
    · exact consent.finalizeWrite keeps.1 keeps.2 rfl rfl
    all_goals exact consent.release rfl rfl
  | failureWrite caller ref reasonCode =>
    cases outcome with
    | ok => exact Consent.release (consent.rewrite (consents_fail ..)) rfl rfl
    | fails => exact consent.release rfl rfl
  | waiterStart pending ref =>
    dsimp only [State.criticalStep]
    split_ifs
    · exact consent.release rfl rfl
    · cases outcome with
      | ok => exact (consent.release rfl rfl).spawn rfl rfl
      | fails => exact (consent.release rfl rfl).rewait
  | closeSwap => exact consent.retract (fun _ named => by cases named) rfl
  | closeWrite previous pending =>
    cases outcome with
    | ok =>
      obtain ⟨target, finalizes⟩ := @closeFrame_target Event previous pending
      refine consent.closeWrite keeps (fun provider ref mode number exporter member => ?_) target finalizes
      have disables : state.DisablesActive (.holder .ok) = true := by
        simp only [DisablesActive, held, mode]
      exact quiet disables number (List.getElem?_eq_some_iff.mp member).1 exporter member
    | fails => exact consent.release rfl rfl

/-- An event is put into the queue of an exporter that the thread reaches. -/
theorem Consent.emitTo (consent : state.Consent) {event : Event}
    (reached : state.Published number) : (state.emitTo thread number event outcome).Consent := by
  unfold State.emitTo
  split
  · rename_i exporter found
    split_ifs
    · exact consent
    · split
      · rename_i after put
        have same := AsyncExporter.put_worker put
        have kept : (state.setExporter _ after).Consent :=
          consent.setExporter found (by rw [same.1]; exact id) (by rw [same.1, same.2]; exact id)
            fun silent => (AsyncExporter.put_silent put (silent.imp fun _ => reached)).imp
              fun _ => True.intro
        exact kept.goto_plain rfl rfl
      · cases outcome <;> exact consent.goto_plain rfl rfl
  · exact consent

theorem Consent.threadStep (consent : state.Consent) (found : state.threads[thread]? = some frame) :
    (state.threadStep thread outcome frame).Consent := by
  have member := List.mem_of_getElem? found
  cases frame with
  | emitLog event => cases outcome <;> exact consent.goto_plain rfl rfl
  | emit event =>
    dsimp only [State.threadStep]
    split
    · rename_i published
      refine consent.goto (fun target named => ?_) (fun _ named => by cases named)
      obtain rfl := Option.some.inj named
      exact .inl published
    · exact consent.goto_plain rfl rfl
  | emitTo target event => exact consent.emitTo (.inr ⟨_, member, rfl⟩)
  | emitReport => exact consent.goto_plain rfl rfl
  | enable provider ref event => exact consent.acquire True.intro
  | revoke ref => exact consent.acquire True.intro
  | revokeWait pending ref place =>
    dsimp only [State.threadStep]
    refine consent.closing fun after kept result proven => ?_
    split
    · exact kept.goto_plain rfl rfl
    · refine kept.goto (fun _ named => by cases named) fun other named => ?_
      obtain rfl := Option.some.inj named
      exact proven rfl
    · exact kept.goto_plain rfl rfl
  | finalize caller pending ref =>
    exact consent.acquire (consent.finalizing _ member pending rfl)
  | finalizeLog caller ref => cases outcome <;> exact consent.goto_plain rfl rfl
  | recordFailure caller ref reasonCode => exact consent.acquire True.intro
  | failureLog caller => exact consent.goto_plain rfl rfl
  | startWaiter pending ref => exact consent.acquire True.intro
  | awaitRevocation pending ref place =>
    dsimp only [State.threadStep]
    refine consent.closing fun after kept result proven => ?_
    split
    · exact kept.goto_plain rfl rfl
    · refine kept.goto (fun _ named => by cases named) fun other named => ?_
      obtain rfl := Option.some.inj named
      exact proven rfl
    · exact kept.goto_plain rfl rfl
  | close => exact consent.acquire True.intro
  | closePrevious previous pending place =>
    dsimp only [State.threadStep]
    refine consent.closing fun after kept result _ => ?_
    obtain ⟨target, finalizes⟩ := @closeRest_target Event previous pending
    split
    · exact kept.goto_plain rfl rfl
    · exact kept.goto_plain target finalizes
  | closePending pending place =>
    dsimp only [State.threadStep]
    refine consent.closing fun after kept result _ => ?_
    split <;> exact kept.goto_plain rfl rfl
  | inside | done => exact consent

/-- Every step keeps consent, `close` under the condition on its transaction. -/
theorem Consent.step (consent : state.Consent) {input : Input Event} (quiet : state.QuietClose input) :
    (state.step input).Consent := by
  cases input with
  | call call =>
    obtain ⟨target, finalizes⟩ := frame_target call
    exact consent.spawn target finalizes
  | thread number outcome =>
    dsimp only [State.step]
    split
    · rename_i frame found
      exact consent.threadStep found
    · exact consent
  | holder outcome =>
    dsimp only [State.step]
    split
    · rename_i held
      exact consent.criticalStep held quiet
    · exact consent
  | worker number outcome =>
    dsimp only [State.step]
    split
    · rename_i exporter found
      exact consent.setExporter found AsyncExporter.workerStep_final AsyncExporter.workerStep_proven
        AsyncExporter.workerStep_silent
    · exact consent

/-- Under consent a delegate is called only while the row permits it. -/
theorem Consent.consented (consent : state.Consent) (input : Input Event) :
    state.Consented input := by
  intro exports
  by_contra denied
  cases input with
  | worker number outcome =>
    obtain ⟨exporter, found, carries⟩ := exports
    have silent := (consent.off (by simpa using denied)).2 number exporter found
    rw [silent.carried] at carries
    cases carries
  | call | thread | holder => exact exports

instance (state : State Event) : ∀ input, Decidable (state.Exports input)
  | .worker number _ =>
    match found : state.exporters[number]? with
    | some exporter =>
      decidable_of_iff (exporter.worker.carried.isSome = true) (by simp [Exports, found])
    | none => isFalse (by simp [Exports, found])
  | .call _ | .thread _ _ | .holder _ => isFalse id

instance (state : State Event) (input : Input Event) : Decidable (state.Consented input) :=
  inferInstanceAs (Decidable (_ → _))

end State

/-! ### Runs -/

/-- In a run in which `close` disables an active row only when every exporter is silent, each call
of a delegate happens while the durable row consents. -/
theorem exports_under_consent {Event : Type} (stored : TelemetryRow) (inputs : List (Input Event))
    (quiet : Admissible State.step State.QuietClose (State.start stored) inputs) :
    Admissible State.step State.Consented (State.start stored) inputs :=
  quiet.imp (State.consent_start stored) (fun _ _ consent quiet => consent.step quiet)
    fun _ input consent _ => consent.consented input

/-- Telemetry is enabled and the worker hands its one event over before anything else happens. -/
def enableAndDrain : List (Input Unit) :=
  .call (.enable "otlp" "grant" ()) :: .thread 0 .ok :: List.replicate 4 (.holder .ok) ++
    List.replicate 3 (.thread 0 .ok) ++ List.replicate 3 (.worker 0 .ok)

theorem exports_of_quiet_close :
    Admissible State.step State.Consented (State.start ⟨.disabled, none⟩)
      (enableAndDrain ++ [.call .close, .thread 1 .ok, .holder .ok, .holder .ok]) :=
  exports_under_consent _ _ (by decide +kernel)

/-- The row is disabled while the event of `enable_telemetry` is still queued, and the worker hands
it over before `close` stops the exporter. -/
theorem export_after_close :
    ¬ ∀ (stored : TelemetryRow) (inputs : List (Input Unit)),
      Admissible State.step State.Consented (State.start stored) inputs := by
  intro always
  have run := always ⟨.disabled, none⟩
    (.call (.enable "otlp" "grant" ()) :: .thread 0 .ok :: List.replicate 4 (.holder .ok) ++
      List.replicate 3 (.thread 0 .ok) ++ [.call .close, .thread 1 .ok, .holder .ok, .holder .ok] ++
      List.replicate 2 (.worker 0 .ok))
  revert run
  decide +kernel

end MetaResearch.RuntimeProtection.Telemetry

import MetaResearch.Soundness.HumanRequests.Steps

/-! # Interleaved HumanRequest commands

An event of the system advances one call by one step, which reads or runs one transaction. So whatever
the order of the steps, the invariant is kept and no row goes, and a call runs its transaction for
arguments that were checked, on tables that have grown since.
-/

namespace MetaResearch.HumanRequests

variable {setting : Setting} {tables after : Tables} {system : System} {event : Event}

/-! ### What an event does -/

/-- The tables after an event: it only reads, it raises, or its transaction returns. -/
inductive Moves (setting : Setting) (system : System) (event : Event) : Tables → Prop
  | reads : Moves setting system event system.tables
  | expires {index : ℕ} {inside : Inside} {requestRef : String} {after : Tables}
    (advances : event = .advance index inside)
    (success : expire setting inside.stamp requestRef system.tables = .ok after) :
    Moves setting system event after
  | transacts {index : ℕ} {inside : Inside} {order : Order} {look : Option Look} {ref : String}
    {after : Tables} (advances : event = .advance index inside)
    (flying : system.flights[index]? = some (.acting order look))
    (success : order.transact setting inside system.tables = .ok (ref, after)) :
    Moves setting system event after
  | consumes {requestRef waiterRef : String} {generation : ℤ} {workRef workHash : String} {stamp : Stamp}
    {after : Tables} (consumes : event = .consume requestRef waiterRef generation workRef workHash stamp)
    (success : consumeReleasedWaiter setting stamp requestRef waiterRef generation workRef workHash
      system.tables = .ok after) : Moves setting system event after
  | responds {response : Response} {requestId : String} {revision : ℕ} {now : ℚ} {after : Tables}
    (success : recordResponse setting response requestId revision now system.tables = .ok after) :
    Moves setting system event after

theorem moves_advance {index : ℕ} {inside : Inside} {flight : Flight}
    (flying : system.flights[index]? = some flight) :
    Moves setting system (.advance index inside) (flight.advance setting inside system.tables).1 := by
  cases flight with
  | entering | looking | answering | closing => exact .reads
  | expiring issued look =>
    simp only [Flight.advance]
    split
    · exact .expires rfl ‹_›
    · exact .reads
  | checking issued look =>
    simp only [Flight.advance]
    split <;> exact .reads
  | acting order look =>
    simp only [Flight.advance]
    split
    · exact .transacts rfl flying ‹_›
    · exact .reads
  | closingDue requestRef =>
    simp only [Flight.advance]
    split
    · exact .expires rfl ‹_›
    · exact .reads

theorem moves_move (setting : Setting) (system : System) (event : Event) :
    Moves setting system event (system.move setting event).tables := by
  cases event with
  | call issued =>
    simp only [System.move]
    split <;> exact .reads
  | query requestRef => exact .reads
  | advance index inside =>
    simp only [System.move]
    split
    · exact .reads
    · exact moves_advance ‹_›
  | consume requestRef waiterRef generation workRef workHash stamp =>
    simp only [System.move]
    cases success : consumeReleasedWaiter setting stamp requestRef waiterRef generation workRef workHash
        system.tables with
    | error _ => exact .reads
    | ok after => exact .consumes rfl success
  | respond response requestId revision now =>
    simp only [System.move]
    cases success : recordResponse setting response requestId revision now system.tables with
    | error _ => exact .reads
    | ok after => exact .responds success

/-- A call after an event is one from before, a new one, or the rest of the one that advances. -/
theorem forall_flights_move {fact : Flight → Prop} (stays : ∀ flight ∈ system.flights, fact flight)
    (takesOff : ∀ issued, event = .call issued → fact issued.takeOff)
    (asks : ∀ requestRef, fact (.answering requestRef))
    (goesOn : ∀ index inside flight rest, event = .advance index inside →
      system.flights[index]? = some flight →
      (flight.advance setting inside system.tables).2 = some rest → fact rest) :
    ∀ flight ∈ (system.move setting event).flights, fact flight := by
  cases event with
  | call issued =>
    simp only [System.move]
    split
    · simp only [List.forall_mem_append, List.forall_mem_singleton]
      exact ⟨stays, takesOff issued rfl⟩
    · exact stays
  | query requestRef =>
    simp only [System.move, List.forall_mem_append, List.forall_mem_singleton]
    exact ⟨stays, asks requestRef⟩
  | advance index inside =>
    simp only [System.move]
    split
    · exact stays
    · rename_i flight flying
      simp only [List.forall_mem_append, Option.mem_toList]
      refine ⟨⟨fun other member => stays other (List.mem_of_mem_take member), fun rest goes => ?_⟩,
        fun other member => stays other (List.mem_of_mem_drop member)⟩
      exact goesOn index inside flight rest rfl flying goes
  | consume | respond => exact stays

/-! ### The invariant -/

/-- The arguments of a transaction were checked. -/
def Flight.Checked (setting : Setting) (tables : Tables) : Flight → Prop
  | acting order _ => order.Checked setting tables
  | entering .. | looking .. | expiring .. | checking .. | answering .. | closing .. | closingDue .. => True

theorem Flight.Checked.mono {flight : Flight} (checked : flight.Checked setting tables)
    (grows : Grows tables after) : flight.Checked setting after := by
  cases flight with
  | acting order look => exact Order.Checked.mono checked grows
  | entering | looking | expiring | checking | answering | closing | closingDue => trivial

theorem checked_takeOff (issued : Command) : issued.takeOff.Checked setting tables := by
  unfold Command.takeOff
  split <;> trivial

/-- The rest of a call is checked. -/
theorem checked_advance {flight rest : Flight} {inside : Inside}
    (goes : (flight.advance setting inside tables).2 = some rest) :
    rest.Checked setting (flight.advance setting inside tables).1 := by
  cases flight with
  | entering issued requestRef | answering requestRef =>
    cases goes
    trivial
  | looking issued requestRef read =>
    simp only [Flight.advance] at goes
    split at goes <;> cases goes <;> trivial
  | expiring issued look =>
    simp only [Flight.advance] at goes
    split at goes <;> cases goes
    trivial
  | checking issued look =>
    cases prepared : issued.prepare setting inside.stamp.now tables with
    | error _ => simp only [Flight.advance, prepared, reduceCtorEq] at goes
    | ok order =>
      simp only [Flight.advance, prepared, Option.some.injEq] at goes ⊢
      subst goes
      exact Command.prepare_checked prepared
  | acting order look =>
    simp only [Flight.advance] at goes
    split at goes
    · obtain ⟨key, body⟩ := order
      cases body <;> cases goes <;> trivial
    · cases goes
  | closing requestRef read =>
    simp only [Flight.advance] at goes
    split at goes <;> cases goes
    trivial
  | closingDue requestRef =>
    simp only [Flight.advance] at goes
    split at goes <;> cases goes

/-- The tables keep their invariant, and the transactions under way were checked. -/
structure System.Sound (setting : Setting) (system : System) : Prop where
  kept : Kept setting system.tables
  checked : ∀ flight ∈ system.flights, flight.Checked setting system.tables

theorem sound_empty : System.Sound setting {} := ⟨kept_empty, fun _ member => (List.not_mem_nil member).elim⟩

/-- An event is a step or leaves the tables. -/
theorem System.Sound.step (sound : system.Sound setting) (moves : Moves setting system event after) :
    after = system.tables ∨ Step setting anyOrder system.tables after := by
  cases moves with
  | reads => exact .inl rfl
  | expires _ success => exact .inr (.expire success)
  | transacts _ flying success =>
    exact .inr (.transact (sound.checked _ (List.mem_of_getElem? flying)) trivial success)
  | consumes _ success => exact .inr (.consume success)
  | responds success => exact .inr (.respond success)

theorem System.Sound.keep (sound : system.Sound setting) (moves : Moves setting system event after) :
    Kept setting after ∧ Grows system.tables after := by
  rcases sound.step moves with rfl | step
  · exact ⟨sound.kept, .refl _⟩
  · exact keep_step sound.kept step

theorem System.Sound.move (sound : system.Sound setting) (event : Event) :
    (system.move setting event).Sound setting := by
  obtain ⟨kept, grows⟩ := sound.keep (moves_move setting system event)
  refine ⟨kept, forall_flights_move (fun flight member => (sound.checked flight member).mono grows)
    (fun issued _ => checked_takeOff issued) (fun _ => trivial) ?_⟩
  rintro index inside flight rest rfl flying goes
  have tables : (system.move setting (.advance index inside)).tables =
      (flight.advance setting inside system.tables).1 := by
    simp only [System.move, flying]
  rw [tables]
  exact checked_advance goes

/-- A step of the system keeps the invariant and takes no row away. -/
theorem sound_step (sound : system.Sound setting) (event : Event) :
    (system.step setting event).Sound setting ∧ Grows system.tables (system.step setting event).tables := by
  unfold System.step
  split_ifs
  · exact ⟨sound.move event, (sound.keep (moves_move setting system event)).2⟩
  · exact ⟨sound, .refl _⟩

theorem sound_steps (sound : system.Sound setting) (events : List Event) :
    (runInputs (System.step setting) system events).Sound setting ∧
      Grows system.tables (runInputs (System.step setting) system events).tables := by
  induction events generalizing system with
  | nil => exact ⟨sound, .refl _⟩
  | cons event rest ih =>
    obtain ⟨soundNext, grows⟩ := sound_step sound event
    obtain ⟨soundLater, growsLater⟩ := ih soundNext
    exact ⟨soundLater, grows.trans growsLater⟩

end MetaResearch.HumanRequests

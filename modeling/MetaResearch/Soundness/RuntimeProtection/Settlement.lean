import MetaResearch.Soundness.RuntimeProtection.FailClosed

/-! # Permits and boundaries over whole runs

Every call of a run moves the ledger, and a daemon that is alive is current: a start interrupts what
an earlier incarnation left active before it does anything else. Three laws follow in every reachable
system: permits fail closed, a finished responsibility stays as it is with its exact receipt, and a
finish can be repeated under its own boundary only.
-/

namespace MetaResearch.RuntimeProtection

variable {host : Host}

/-! ### What a call leaves -/

/-- The arguments of a finish under the receipt are well formed. -/
structure BoundaryReceipt.Formed (receipt : BoundaryReceipt) : Prop where
  ref : safeIdentifier receipt.responsibilityRef 128 = true
  checkpoint : receipt.checkpointRef.all (safeIdentifier · 128) = true
  required : ¬ (receipt.boundary = .checkpoint ∧ receipt.checkpointRef = none)

/-- Every finished row was closed under its receipt, and every receipt can be finished under. -/
structure Receipted (tables : Tables) : Prop where
  closed : ∀ row ∈ tables.responsibilities, row.status = .finished → Closed tables.receipts row
  formed : ∀ receipt ∈ tables.receipts, receipt.Formed

/-- From one ledger to a later one, over any call: finished rows stay, and the rest is in order. -/
structure Follows (before after : Tables) : Prop where
  finished : ∀ row ∈ before.responsibilities, row.status = .finished → row ∈ after.responsibilities
  receipted : Receipted before → Receipted after

theorem Follows.refl (tables : Tables) : Follows tables tables := ⟨fun _ member _ => member, id⟩

theorem Follows.trans {before middle after : Tables} (first : Follows before middle)
    (second : Follows middle after) : Follows before after :=
  ⟨fun row member done => second.finished row (first.finished row member done) done,
    second.receipted ∘ first.receipted⟩

/-- Only the responsibilities and the receipts matter. -/
theorem Follows.congr {before middle after : Tables} (follows : Follows before middle)
    (responsibilities : after.responsibilities = middle.responsibilities)
    (receipts : after.receipts = middle.receipts) : Follows before after := by
  obtain ⟨finished, receipted⟩ := follows
  constructor
  · rwa [responsibilities]
  · intro start
    obtain ⟨closed, formed⟩ := receipted start
    constructor
    · rwa [responsibilities, receipts]
    · rwa [receipts]

/-- A move that finishes a row only under a receipt. -/
theorem Moves.follows {gains : Responsibility → Prop} {before after : Tables} (moves : Moves gains before after)
    (closed : ∀ row, gains row → row.status = .finished → Closed before.receipts row) :
    Follows before after where
  finished := moves.finished
  receipted receipted := by
    constructor
    · intro row member done
      rw [moves.receipts]
      rcases moves.settled row member (.inr done) with old | gained
      · exact receipted.closed row old done
      · exact closed row gained done
    · exact moves.receipts ▸ receipted.formed

theorem Evolves.follows {ref : String} {before after : PowerWorld}
    (evolves : Evolves (granting ref) before after) : Follows before.durable after.durable := by
  refine evolves.moves.follows fun row gained done => ?_
  rcases gained with closed | ⟨_, active, _⟩
  · exact closed
  · exact absurd (done.symm.trans active) (by decide)

/-- The daemon stays current, for what becomes active does so in its incarnation. -/
theorem Current.evolves {ref : String} {before after : PowerWorld} (current : Current before)
    (evolves : Evolves (granting ref) before after) : Current after where
  registered := by
    rw [evolves.moves.instances, evolves.incarnation]
    exact current.registered
  rows row member active := by
    rw [evolves.incarnation]
    rcases evolves.moves.settled row member (.inl active) with old | closed | ⟨_, _, same⟩
    · exact current.rows row old active
    · exact absurd (active.symm.trans closed.1) (by decide)
    · exact same

/-! ### Starts -/

/-- Registering an incarnation moves the ledger up to the instances, and leaves a current daemon. -/
theorem registerTx_spec {incarnation : ℕ} {kind : String} {now : ℤ} {holders : List HolderRef}
    {tables after : Tables} (success : registerTx incarnation kind now tables = .ok (holders, after)) :
    Follows tables after ∧
      (∃ row ∈ after.instances, row.incarnationRef = incarnation ∧ row.status = .active) ∧
      ∀ row ∈ after.responsibilities, row.status = .active → row.incarnationRef = incarnation := by
  unfold registerTx at success
  dsimp only at success
  split at success
  · rename_i instances capabilities registered _
    obtain ⟨_, rfl⟩ := Prod.mk.inj (Except.ok.inj success)
    refine ⟨?_, ⟨_, (Table.mem_insert? registered).mpr (.inr rfl), rfl, rfl⟩, ?_⟩
    · have interrupted : Moves (fun _ => False) tables (interruptRows (·.orphaned incarnation)
          (fun row => if row.status = .active then "daemon_restarted" else "runtime_acquire_interrupted")
          now tables) :=
        Moves.interruptRows fun row hit done => by simp [Responsibility.orphaned, done] at hit
      exact (interrupted.follows fun _ impossible => impossible.elim).congr rfl rfl
    · intro row member active
      obtain ⟨old, _, ⟨_, rfl⟩ | ⟨kept, rfl⟩⟩ := Table.mem_update.mp member
      · cases active
      · simpa [Responsibility.orphaned, active] using kept
  · cases success

/-- What a start has left so far: the registered daemon is current. -/
def Opened (before after : PowerWorld) : Prop := Follows before.durable after.durable ∧ Current after

variable {before : PowerWorld}

/-- A program of the started daemon that activates nothing. -/
theorem Opened.ends {α : Type} {prog : Act α} (framed : Framed closing prog) :
    Ends host (Opened before) prog (fun _ => Opened before)
      (fun _ world => Follows before.durable world.durable) := by
  refine .framed framed (fun _ _ evolves opened => ?_) fun _ _ opened => opened.1
  have granting := granting_of_closing evolves ""
  exact ⟨opened.1.trans granting.follows, opened.2.evolves granting⟩

theorem registerIncarnation_ends :
    Ends host (fun world => world.durable = before.durable) registerIncarnation
      (fun _ => Opened before) (fun _ world => Follows before.durable world.durable) := by
  let Same := fun (world : PowerWorld) => world.durable = before.durable
  let Read := fun (incarnation : ℕ) (world : PowerWorld) =>
    Same world ∧ world.memory.incarnationRef = incarnation
  let stopped := fun (_ : Stop ProtectionError) (world : PowerWorld) => Follows before.durable world.durable
  have follows {world : PowerWorld} (same : Same world) : Follows before.durable world.durable :=
    same ▸ .refl _
  have asked {α : Type} {answer : Host → ℕ → α} : Ends host Same (Prog.ask answer) (fun _ => Same) stopped :=
    .ask fun _ => id
  have kind {incarnation : ℕ} : Ends host (Read incarnation) inhibitorKind (fun _ => Read incarnation) stopped :=
    .ask fun _ => id
  have registered {incarnation : ℕ} {kind : String} {now : ℤ} :
      Ends host (Read incarnation) (write (registerTx incarnation kind now)) (fun _ => Opened before) stopped := by
    refine .commit (fun _ _ read => follows read.1) ?_
    rintro world holders durable ⟨same, rfl⟩ success
    obtain ⟨moved, active, rows⟩ := registerTx_spec success
    exact ⟨(follows same).trans moved, active, rows⟩
  refine asked.bind fun now => Ends.reads.bind fun incarnation => kind.bind fun kind =>
    registered.bind fun holders => ?_
  exact Opened.ends (.forEach fun _ => Framed.reviewInterruptedHolder)

/-- The constructor leaves a current daemon if it returns. -/
theorem startDaemon_ends {startupProbe : Bool} :
    Ends host (fun world => world = before) (startDaemon startupProbe) (fun _ => Opened before)
      (fun _ world => Follows before.durable world.durable) := by
  let Same := fun (world : PowerWorld) => world.durable = before.durable
  let stopped := fun (_ : Stop ProtectionError) (world : PowerWorld) => Follows before.durable world.durable
  have minted : Ends host (fun world => world = before) newRef (fun _ => Same) stopped :=
    .ask fun _ same => same ▸ rfl
  have remembered {change : Memory → Memory} :
      Ends host Same (Prog.remember change) (fun _ => Same) stopped :=
    fun _ same => same
  have opened : Ends host (fun world => world = before) openIncarnation (fun _ => Opened before) stopped :=
    minted.bind fun _ => remembered.bind fun _ => registerIncarnation_ends.bind fun _ =>
      (Opened.ends Framed.supersedeExistingEpochBackends).bind fun _ => Opened.ends Framed.settleLedger
  refine opened.bind fun _ => (Opened.ends Framed.ensureInterruptedProtected).bind fun shielded =>
    (Opened.ends .observe).bind fun pending => ?_
  split_ifs
  · exact Opened.ends Framed.runStartupProbe
  · exact .pure fun _ => id

/-! ### One call -/

theorem safeIdentifier_mono {value : String} {maximum larger : ℕ} (safe : safeIdentifier value maximum = true)
    (le : maximum ≤ larger) : safeIdentifier value larger = true := by
  unfold safeIdentifier at safe ⊢
  split at safe
  · cases safe
  · simp only [Bool.and_eq_true, decide_eq_true_eq] at safe ⊢
    exact ⟨⟨⟨safe.1.1.1.trans le, safe.1.1.2⟩, safe.1.2⟩, safe.2⟩

theorem ref_of_validateIdentity {identity : RuntimeEffectIdentity} {done : Unit}
    (valid : validateIdentity identity = .ok done) :
    safeIdentifier identity.responsibilityRef 96 = true := by
  unfold validateIdentity at valid
  split_ifs at valid with safe
  simp only [Bool.and_eq_true] at safe
  tauto

/-- The Owner's transaction may only add a receipt that a finish accepts. -/
theorem recordBoundaryTx_spec {identity : RuntimeEffectIdentity} {boundary : RuntimeBoundary}
    {evidence : String} {checkpointRef : Option String} {done : Unit} {tables after : Tables}
    (success : recordBoundaryTx identity boundary evidence checkpointRef tables = .ok (done, after)) :
    Follows tables after ∧ after.responsibilities = tables.responsibilities ∧
      after.instances = tables.instances := by
  unfold recordBoundaryTx at success
  simp only [bind, Except.bind] at success
  split at success
  · cases success
  rename_i valid
  split_ifs at success with safe checkpoint required
  split at success
  · cases success
  split at success
  · cases success
  split at success
  · split_ifs at success
    obtain ⟨_, rfl⟩ := Prod.mk.inj (Except.ok.inj success)
    exact ⟨.refl _, rfl, rfl⟩
  split_ifs at success
  split at success
  · rename_i receipts inserted
    obtain ⟨_, rfl⟩ := Prod.mk.inj (Except.ok.inj success)
    refine ⟨⟨fun _ member _ => member, fun receipted => ⟨?_, ?_⟩⟩, rfl, rfl⟩
    · intro row member finished
      obtain ⟨_, receipt, stored, closes⟩ := receipted.closed row member finished
      exact ⟨finished, receipt, (Table.mem_insert? inserted).mpr (.inl stored), closes⟩
    · intro receipt member
      rcases (Table.mem_insert? inserted).mp member with old | rfl
      · exact receipted.formed receipt old
      · refine ⟨safeIdentifier_mono (ref_of_validateIdentity valid) (by omega), by simpa using checkpoint, ?_⟩
        rintro ⟨rfl, rfl⟩
        simp at required
  · cases success

/-- How a call of a live daemon may stop: an exception leaves it current. -/
def Survives (before : PowerWorld) (stop : Stop ProtectionError) (after : PowerWorld) : Prop :=
  Follows before.durable after.durable ∧ (stop ≠ .died → Current after)

theorem Opened.survives {after : PowerWorld} (opened : Opened before after) (stop : Stop ProtectionError) :
    Survives before stop after :=
  ⟨opened.1, fun _ => opened.2⟩

/-- The step lemma for the calls of a live daemon. -/
theorem call_ends (current : Current before) {call : Call} (served : call.isStart = false) :
    Ends host (fun world => world = before) call.program (fun _ => Opened before) (Survives before) := by
  have moved {ref : String} {after : PowerWorld} (evolves : Evolves (granting ref) before after) :
      Opened before after :=
    ⟨evolves.follows, current.evolves evolves⟩
  have framed {prog : Act Unit} (frame : Framed closing prog) :
      Ends host (fun world => world = before) prog (fun _ => Opened before) (Survives before) := by
    have start : Ends host (Evolves closing before) prog (fun _ => Evolves closing before)
        fun _ => Evolves closing before :=
      .framed frame (fun _ _ second first => first.trans second) fun _ _ => id
    exact start.consequence (fun _ same => same ▸ .refl _)
      (fun _ _ evolves => moved (granting_of_closing evolves ""))
      fun stop _ evolves => (moved (granting_of_closing evolves "")).survives stop
  cases call with
  | start => cases served
  | acquire identity =>
    have acquired : Ends host (fun world => world = before) (RuntimeProtection.acquire identity)
        (fun _ => Opened before) (Survives before) := by
      refine (acquire_ends current).consequence (fun _ same => same ▸ .refl _)
        (fun _ _ granted => moved granted.1) ?_
      rintro (error | _) world halted
      · exact (moved (granting_of_closing halted "")).survives _
      · exact (moved halted).survives _
    exact acquired.bind fun _ => .pure fun _ => id
  | finish ref boundary checkpointRef =>
    exact framed (Framed.finish.mono fun _ _ evolves => evolves.mono fun _ _ _ closed =>
      ⟨closed.1, closed.2.2.2.2⟩)
  | interruptActive => exact framed Framed.interruptActive
  | reconcileStartup => exact framed Framed.reconcileStartup
  | recordBoundary identity boundary evidence checkpointRef =>
    refine .commit (fun stop world same => ?_) ?_
    · subst same
      exact ⟨.refl _, fun _ => ⟨current.registered, current.rows⟩⟩
    · rintro world done durable rfl success
      obtain ⟨follows, responsibilities, instances⟩ := recordBoundaryTx_spec success
      exact ⟨follows, instances ▸ current.registered, responsibilities ▸ current.rows⟩

/-! ### Runs -/

/-- What holds of every reachable system. -/
structure System.Orderly (system : System) : Prop where
  receipted : Receipted system.world.durable
  current : system.live = true → Current system.world

theorem System.initial_orderly : System.initial.Orderly where
  receipted := ⟨fun _ member => (Table.not_mem_empty _ member).elim,
    fun _ member => (Table.not_mem_empty _ member).elim⟩
  current live := by cases live

/-- The step lemma: an orderly system stays so, and keeps its finished rows. -/
theorem System.step_follows {system : System} (orderly : system.Orderly) (input : Host × Call) :
    (system.step input).Orderly ∧ Follows system.world.durable (system.step input).world.durable := by
  obtain ⟨host, call⟩ := input
  unfold System.step
  split_ifs with served
  · cases begins : call.isStart with
    | true =>
      cases call with
      | start startupProbe =>
        have reached := @startDaemon_ends host system.world startupProbe system.world rfl
        dsimp only [Call.program]
        split <;> rename_i ran <;> rw [ran] at reached
        · exact ⟨⟨reached.1.receipted orderly.receipted, fun _ => reached.2⟩, reached.1⟩
        · exact ⟨⟨reached.receipted orderly.receipted, fun live => by cases live⟩, reached⟩
        · exact ⟨⟨reached.receipted orderly.receipted, fun live => by cases live⟩, reached⟩
      | _ => cases begins
    | false =>
      have live : system.live = true := by simpa [begins] using served
      have reached := @call_ends host _ (orderly.current live) call begins system.world rfl
      dsimp only
      split <;> rename_i ran <;> rw [ran] at reached
      · exact ⟨⟨reached.1.receipted orderly.receipted, fun _ => reached.2⟩, reached.1⟩
      · exact ⟨⟨reached.1.receipted orderly.receipted, fun _ => reached.2 (by simp)⟩, reached.1⟩
      · exact ⟨⟨reached.1.receipted orderly.receipted, fun live => by cases live⟩, reached.1⟩
  · exact ⟨orderly, .refl _⟩

/-- The run lemma: from an orderly system, whatever is called in whatever surroundings. -/
theorem System.run_follows {system : System} (orderly : system.Orderly) (inputs : List (Host × Call)) :
    (runInputs System.step system inputs).Orderly ∧
      Follows system.world.durable (runInputs System.step system inputs).world.durable := by
  induction inputs generalizing system with
  | nil => exact ⟨orderly, .refl _⟩
  | cons input rest ih =>
    obtain ⟨stepped, first⟩ := System.step_follows orderly input
    obtain ⟨reached, second⟩ := ih stepped
    exact ⟨reached, first.trans second⟩

theorem System.reachable_orderly (inputs : List (Host × Call)) :
    (runInputs System.step .initial inputs).Orderly :=
  (System.run_follows System.initial_orderly inputs).1

/-! ### The three laws -/

/-- An exception has activated nothing; a death has activated nothing but the named responsibility,
in the current incarnation. -/
def FailsClosed (identity : RuntimeEffectIdentity) (before : PowerWorld) :
    Stop ProtectionError → PowerWorld → Prop
  | .raised _, after => ∀ row ∈ after.durable.responsibilities, row.status = .active →
      row ∈ before.durable.responsibilities
  | .died, after => ∀ row ∈ after.durable.responsibilities, row.status = .active →
      row ∈ before.durable.responsibilities ∨
        (row.ref = identity.responsibilityRef ∧ row.incarnationRef = before.memory.incarnationRef)

/-- The Owner's transaction and the finish of one permitted effect. -/
def finishedRun : List (Host × Call) :=
  [(guardian, .start false), (guardian, .acquire (providerUnit "r1")),
    (guardian, .recordBoundary (providerUnit "r1") .terminal "evidence" none),
    (guardian, .finish "r1" .terminal none)]

/-- The check of a finish against the receipt a row was closed under. -/
theorem assertFinishReceipt_of_closes {row : Responsibility} {receipt : BoundaryReceipt}
    (closes : receipt.Closes row) (boundary : RuntimeBoundary) (checkpointRef : Option String) :
    (row.boundary = some boundary ∧ row.checkpointRef = checkpointRef ∧
      assertFinishReceipt row (some receipt) boundary checkpointRef = .ok ()) ∨
    (¬ (row.boundary = some boundary ∧ row.checkpointRef = checkpointRef) ∧
      ∃ error, assertFinishReceipt row (some receipt) boundary checkpointRef = .error error) := by
  by_cases same : row.boundary = some boundary ∧ row.checkpointRef = checkpointRef
  · obtain ⟨_, under, checkpoint, scope, run, attempt, fence, operation⟩ := closes
    obtain ⟨rfl, rfl⟩ : receipt.boundary = boundary ∧ receipt.checkpointRef = checkpointRef :=
      ⟨Option.some.inj (under.symm.trans same.1), checkpoint.symm.trans same.2⟩
    refine .inl ⟨same.1, same.2, ?_⟩
    simp [assertFinishReceipt, scope, run, attempt, fence, operation, under, checkpoint]
  · have other : receipt.boundary ≠ boundary ∨ receipt.checkpointRef ≠ checkpointRef := by
      by_contra both
      simp only [not_or, not_not] at both
      exact same ⟨both.1 ▸ closes.boundary, closes.checkpoint.trans both.2⟩
    refine .inr ⟨same, _, if_pos ?_⟩
    rcases other with other | other
    · exact .inl other
    · exact .inr (.inl other)

/-- A finish repeated under its own boundary passes the checks of its arguments. -/
theorem BoundaryReceipt.Formed.checks {row : Responsibility} {receipt : BoundaryReceipt} (formed : receipt.Formed)
    (closes : receipt.Closes row) {boundary : RuntimeBoundary} {checkpointRef : Option String}
    (own : row.boundary = some boundary ∧ row.checkpointRef = checkpointRef) :
    checkpointRef.all (safeIdentifier · 128) = true ∧ ¬ (boundary = .checkpoint ∧ checkpointRef = none) := by
  obtain ⟨rfl, rfl⟩ : receipt.boundary = boundary ∧ receipt.checkpointRef = checkpointRef :=
    ⟨Option.some.inj (closes.boundary.symm.trans own.1), closes.checkpoint.symm.trans own.2⟩
  exact ⟨formed.checkpoint, formed.required⟩

theorem Current.assertCurrentIncarnation {world : PowerWorld} (current : Current world) :
    assertCurrentIncarnation world.memory.incarnationRef world.durable = .ok () := by
  obtain ⟨serving, registered, named, active⟩ := current.registered
  have registration : world.durable.instances.find? world.memory.incarnationRef = some serving :=
    Table.find?_eq_some_iff.mpr ⟨registered, named⟩
  simp [RuntimeProtection.assertCurrentIncarnation, registration, active]

end MetaResearch.RuntimeProtection

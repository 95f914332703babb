import MetaResearch.Soundness.RuntimeProtection.Permits

/-! # Power holds over whole runs

Every call keeps the ledger under its hazard condition, so every admissible run does. The two laws
of the ledger are the two results: an active responsibility is held by an active epoch, and an
active epoch is referenced by an unfinished responsibility. Neither holds over all runs: each has a
run, closed by evaluation, in which the branch without its hazard condition is taken.
-/

namespace MetaResearch.RuntimeProtection

variable {safe tight : Prop} {host : Host}

/-- An active responsibility is linked to an active epoch. -/
def PowerHoldSafe (tables : Tables) : Prop :=
  ∀ row ∈ tables.responsibilities, row.status = .active →
    ∃ holder, row.holderRef = some holder ∧
      ∃ epoch ∈ tables.epochs, epoch.holderRef = holder ∧ epoch.status = .active

/-- An active epoch, other than the probe's, is referenced by an unfinished responsibility. -/
def NoLeakedHold (tables : Tables) : Prop :=
  ∀ epoch ∈ tables.epochs, epoch.status = .active → epoch.holderRef ≠ .startupProbe →
    ∃ row ∈ tables.responsibilities, row.holderRef = some epoch.holderRef ∧ row.status ≠ .finished

/-- What one call is allowed to meet, under the law it is to keep. -/
def Clear (safe tight : Prop) (host : Host) (world : PowerWorld) (call : Call) : Prop :=
  (safe → call.KeepsSharedHold host world) ∧ (tight → call.KeepsSupport host world)

/-! ### One call -/

/-- Whatever runs before the protection of interrupted responsibilities, the hazard of that
protection is the only condition. -/
private theorem protect_after {prog : Act Unit}
    (keeps : Keeps safe tight host Any prog fun _ => Any) {next : Bool → Act Unit}
    (rest : ∀ shielded, Keeps safe tight host Any (next shielded) fun _ => Any) :
    Triple host
      (fun world => Sound safe tight Any world ∧
        (tight → (prog >>= fun _ => recoverUnresolved).Returns host world (clearToProtect host)))
      (prog >>= fun _ => ensureInterruptedProtected >>= next) (fun _ => Sound safe tight Any)
      (Sound safe tight Any) := by
  have first : Triple host
      (fun world => Sound safe tight Any world ∧
        (tight → (prog >>= fun _ => recoverUnresolved).Returns host world (clearToProtect host)))
      prog
      (fun _ world => Sound safe tight Any world ∧
        recoverUnresolved.Returns host world fun count after =>
          tight → clearToProtect host count after)
      (Sound safe tight Any) := by
    refine Triple.assuming (Triple.returning keeps) ?_
    rintro world ⟨sound, returns⟩
    have moved := Prog.Returns.under fun on => Prog.returns_bind.mp (returns on)
    exact ⟨sound, moved.imp fun _ _ => Prog.Returns.under⟩
  exact first.bind fun _ => Keeps.ensureInterruptedProtected.bind rest

private theorem acquire_sound {identity : RuntimeEffectIdentity} :
    Triple host
      (fun world => Sound safe tight Any world ∧ Clear safe tight host world (.acquire identity))
      (acquire identity) (fun _ => Sound safe tight Any) (Sound safe tight Any) := by
  have preamble : Triple host
      (fun world => Sound safe tight Any world ∧
        (tight → (admission identity >>= fun _ => recoverUnresolved).Returns host world
          (clearToProtect host)))
      (acquirePreamble identity) (fun _ => Sound safe tight Any) (Sound safe tight Any) := by
    refine protect_after Keeps.admission fun shielded => ?_
    split_ifs
    · exact Keeps.pure fun _ => id
    · exact Keeps.raise
  refine (Triple.assuming preamble.returning ?_).bind fun _ => Keeps.acquireSettled
  rintro world ⟨sound, shared, supported⟩
  exact ⟨⟨sound, supported⟩, Prog.Returns.under shared⟩

private theorem start_sound {startupProbe : Bool} :
    Triple host
      (fun world => Sound safe tight Any world ∧ Clear safe tight host world (.start startupProbe))
      (startDaemon startupProbe) (fun _ => Sound safe tight Any) (Sound safe tight Any) := by
  refine Triple.assuming (protect_after Keeps.openIncarnation fun shielded => ?_) ?_
  · refine Keeps.scan.bind fun pending => ?_
    split_ifs
    · exact Keeps.runStartupProbe
    · exact Keeps.pure fun _ => id
  · exact fun world start => ⟨start.1, start.2.2⟩

/-- The step lemma for programs: every call keeps the ledger. -/
theorem call_sound (call : Call) :
    Triple host (fun world => Sound safe tight Any world ∧ Clear safe tight host world call)
      call.program (fun _ => Sound safe tight Any) (Sound safe tight Any) := by
  cases call with
  | start => exact start_sound
  | acquire => exact acquire_sound.bind fun _ => Keeps.pure fun _ => id
  | finish => exact Triple.assuming Keeps.finish fun _ start => start.1
  | interruptActive => exact Triple.assuming Keeps.interruptActive fun _ start => start.1
  | reconcileStartup => exact Triple.assuming Keeps.reconcileStartup fun _ start => start.1
  | recordBoundary =>
    exact Triple.assuming (Keeps.commits fun _ _ _ _ ledger => ledger.recordBoundaryTx)
      fun _ start => start.1

/-! ### Hosts of the runs below -/

/-- A host whose guardian confirms and releases every hold, and whose daemon does not die. -/
def guardian : Host where
  kind := "guardian"
  allowsBackendSupersession := false
  canQueryExactHold := false
  dies _ := false
  clock serial := serial
  acquire serial holder := .ok ⟨holder, "guardian", "sleep", serial, "native"⟩
  queryHold _ _ := .queried .confirmed
  queryExactHold _ _ := none
  release _ _ := true

/-- The guardian is gone: its hold is absent, and a new one is refused. -/
def lostGuardian : Host :=
  { guardian with
    acquire := fun _ _ => .error (.unavailable "power_inhibitor_refused")
    queryHold := fun _ _ => .queried .absent }

/-- The daemon dies at the given interaction. -/
def mortalGuardian (last : ℕ) : Host := { guardian with dies := fun serial => serial = last }

def providerUnit (ref : String) : RuntimeEffectIdentity :=
  ⟨ref, "agent_runtime", "run", "operation", "provider_unit", none, none⟩

instance (tables : Tables) : Decidable (PowerHoldSafe tables) :=
  decidable_of_iff (∀ row ∈ tables.responsibilities.rows, row.status = .active →
    row.holderRef.any fun holder => tables.epochs.rows.any fun epoch =>
      epoch.holderRef = holder && epoch.status = .active) (by
    simp [PowerHoldSafe, Option.any_eq_true, Table.mem_def])

instance (tables : Tables) : Decidable (NoLeakedHold tables) :=
  decidable_of_iff (∀ epoch ∈ tables.epochs.rows, epoch.status = .active →
    epoch.holderRef ≠ .startupProbe → tables.responsibilities.rows.any fun row =>
      row.holderRef = some epoch.holderRef && row.status ≠ .finished) (by
    simp [NoLeakedHold, Table.mem_def])

/-! ### Whole runs -/

/-- The ledger holds in the world of the system. -/
def System.Sound (safe tight : Prop) (system : System) : Prop :=
  RuntimeProtection.Sound safe tight Any system.world

/-- The step lemma: a served call keeps the ledger, and any other leaves the system as it is. -/
theorem System.step_sound {system : System} {input : Host × Call} (sound : system.Sound safe tight)
    (clear : (system.live || input.2.isStart) = true → Clear safe tight input.1 system.world input.2) :
    (system.step input).Sound safe tight := by
  unfold System.step
  split
  · rename_i served
    have reached := call_sound input.2 system.world ⟨sound, clear served⟩
    split <;> simp_all [System.Sound]
  · exact sound

theorem System.initial_sound : System.initial.Sound safe tight :=
  ⟨PowerLedger.empty, True.intro⟩

end MetaResearch.RuntimeProtection

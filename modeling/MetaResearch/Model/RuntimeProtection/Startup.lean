import MetaResearch.Model.RuntimeProtection.Acquire
import MetaResearch.ToMathlib.Run

/-! # Daemon starts and whole runs

The constructor of `RuntimeProtection`, the two remaining public commands, and the machine whose
steps are the calls of one daemon after another. A daemon that dies inside a call leaves what its
transactions committed; only a new start makes calls possible again.
-/

namespace MetaResearch.RuntimeProtection

/-! ### Constructor -/

/-- Rows of an earlier incarnation that were active or acquiring. -/
def Responsibility.orphaned (row : Responsibility) (incarnation : ℕ) : Bool :=
  (row.status = .active || row.status = .acquiring) && row.incarnationRef ≠ incarnation

/-- The transaction of `_register_incarnation`, returning the holders of the rows it interrupts. -/
def registerTx (incarnation : ℕ) (kind : String) (now : ℤ) (tables : Tables) :
    Except ProtectionError (List HolderRef × Tables) :=
  let instances := tables.instances.update (fun row => row.status = .active)
    ⟨fun row => { row with status := .interrupted }, fun _ => rfl⟩
  match instances.insert? ⟨incarnation, .active, now⟩, tables.capabilities.insert? {
      incarnationRef := incarnation
      holderRef := none
      backend := logIdentifier kind "unsupported"
      scope := "sleep"
      probeStatus := .unprobed
      failureCode := none
      probedAt := none
      updatedAt := now } with
  | some instances, some capabilities =>
    let reason := fun row : Responsibility =>
      if row.status = .active then "daemon_restarted" else "runtime_acquire_interrupted"
    let missing := fun row : Responsibility =>
      if row.status = .acquiring then MissingBoundary.inhibitorConfirmation
      else .effectResultOrCheckpoint
    let rows := tables.responsibilities.select (·.orphaned incarnation)
    .ok ((rows.filterMap Responsibility.holderRef).dedup,
      { interruptRows (·.orphaned incarnation) reason now tables with
        instances := instances
        capabilities := capabilities
        interruptions := tables.interruptions ++ interruptionsFor rows "daemon" now reason missing })
  | _, _ => .error .integrityError

/-- Mark as protected what is still required of the interrupted responsibilities of a holder. -/
def protectHolderTx (holder : HolderRef) (tables : Tables) : Tables :=
  tables.updateInterruptions
    (fun interruption => interruption.reconciliationStatus = .required &&
      tables.responsibilities.rows.any fun row =>
        row.ref = interruption.responsibilityRef && row.heldBy holder && row.interrupted)
    fun interruption => { interruption with reconciliationStatus := .protectedHold }

/-- What a start asks about the hold of one interrupted holder. -/
def reviewInterruptedHolder (holder : HolderRef) : Act Unit := do
  match ← (leaseOf holder).attempt with
  | .error (.unavailable _) => pure ()
  | .error error => Prog.raise error
  | .ok lease =>
    match ← queryHold lease with
    | .confirmed => change (protectHolderTx holder)
    | .absent => markHolderLost lease
    | .unknown => recordHoldReconciliationRequired lease

def registerIncarnation : Act Unit := do
  let now ← now
  let incarnation ← incarnationRef
  let kind ← inhibitorKind
  let holders ← write (registerTx incarnation kind now)
  Prog.forEach reviewInterruptedHolder holders

/-- Adopt the lease of another backend for one epoch row read before. -/
def supersedeTx (epoch : Epoch) (lease : InhibitorLease) (now : ℤ) (tables : Tables) : Tables :=
  tables.updateEpochs
    (fun row => row.holderRef = epoch.holderRef && row.backend = epoch.backend &&
      row.status = epoch.status)
    ⟨fun row => { row.withLease lease with updatedAt := now }, fun _ => rfl⟩

def supersedeBackend (epoch : Epoch) : Act Unit := do
  let kind ← inhibitorKind
  if epoch.backend = kind then pure ()
  else do
    match ← Prog.ask fun host serial => host.queryExactHold serial epoch.holderRef with
    | some (.confirmed, some lease) =>
      if leaseValid lease epoch.holderRef && lease.backend = kind then do
        let now ← now
        change (supersedeTx epoch lease now)
      else pure ()
    | _ => pure ()

def supersedeExistingEpochBackends : Act Unit := do
  if ← Prog.ask fun host _ => host.allowsBackendSupersession && host.canQueryExactHold then do
    let rows ← read fun tables => tables.epochs.selectBy
      (fun epoch => [.active, .releasing, .releasePending].contains epoch.status) Epoch.updatedAt
    Prog.forEach supersedeBackend rows
  else pure ()

/-! ### Startup probe -/

def prepareProbeTx (kind : String) (incarnation : ℕ) (now : ℤ) (tables : Tables) :
    Except ProtectionError (Unit × Tables) :=
  let backend := logIdentifier kind "unsupported"
  match tables.epochs.find? .startupProbe with
  | none => do
    let tables ← insertIssuedEpoch tables .startupProbe kind incarnation now
    .ok ((), tables)
  | some _ =>
    .ok ((), tables.updateEpochs (fun epoch => epoch.holderRef = .startupProbe)
      ⟨fun epoch => { epoch with
        incarnationRef := incarnation, backend := backend, scope := "sleep"
        nativeHolderRef := none, status := .acquiring, failureCode := none
        acquiredAt := none, releasedAt := none, updatedAt := now },
      fun _ => rfl⟩)

def prepareCapabilityProbeEpoch : Act Unit := do
  let now ← now
  let incarnation ← incarnationRef
  let kind ← inhibitorKind
  write (prepareProbeTx kind incarnation now)
  recordCapability .probing .startupProbe (logIdentifier kind "unsupported") "sleep" none

def probeFailedTx (reasonCode : String) (now : ℤ) (tables : Tables) : Tables :=
  tables.updateEpochs (fun epoch => epoch.holderRef = .startupProbe && epoch.status = .acquiring)
    ⟨fun epoch => { epoch with
      status := .failed, failureCode := some reasonCode, updatedAt := now },
    fun _ => rfl⟩

def markProbeEpochFailed (reasonCode : String) : Act Unit := do
  let now ← now
  change (probeFailedTx reasonCode now)

def probeConfirmedTx (lease : InhibitorLease) (incarnation : ℕ) (now : ℤ) (tables : Tables) :
    Tables :=
  tables.updateEpochs (fun epoch => epoch.holderRef = .startupProbe &&
      (epoch.status = .acquiring || epoch.status = .active))
    ⟨fun epoch => { epoch.withLease lease with
      incarnationRef := incarnation, status := .releasing, failureCode := none
      releasedAt := none, updatedAt := now },
    fun _ => rfl⟩

/-- A probe that resumes an issued epoch is noted under the backend of that epoch. -/
def noteProbing (recovering : Bool) : Act Unit :=
  if recovering then do
    match ← epochOf .startupProbe with
    | some epoch => recordCapability .probing .startupProbe epoch.backend epoch.scope none
    | none => pure ()
  else pure ()

/-- A failed probe closes its epoch, unless it resumes an issued one or is still to be reconciled. -/
def dismissProbe (recovering : Bool) (reasonCode : String) : Act Unit :=
  if recovering || reasonCode = "power_inhibitor_reconciliation_required" then pure ()
  else markProbeEpochFailed reasonCode

def attemptCapabilityProbe (recovering : Bool) : Act Unit := do
  noteProbing recovering
  match ← requestHold .startupProbe with
  | .refused code lease => do
    dismissProbe recovering code
    let kind ← inhibitorKind
    recordCapabilityUnavailable .startupProbe (lease.elim kind InhibitorLease.backend)
      (lease.elim "sleep" InhibitorLease.scope) code
  | .broken => do
    dismissProbe recovering "power_inhibitor_acquisition_failed"
    let kind ← inhibitorKind
    recordCapabilityUnavailable .startupProbe kind "sleep" "power_inhibitor_acquisition_failed"
  | .confirmed lease => do
    let now ← now
    let incarnation ← incarnationRef
    change (probeConfirmedTx lease incarnation now)
    releaseEpoch lease

/-- The failure code of the current capability row. -/
def capabilityFailure (incarnation : ℕ) (tables : Tables) : Option String :=
  (tables.capabilities.find? incarnation).bind Capability.failureCode

/-- The epoch of the interrupted responsibility updated first. -/
def unresolvedInterruptedEpoch (tables : Tables) : Option Epoch :=
  ((tables.responsibilities.selectBy Responsibility.interrupted Responsibility.updatedAt).filterMap
    fun row => row.holderRef.bind tables.epochs.find?).head?

/-- `_active_responsibility_lease`: an active epoch with live responsibilities. -/
def activeResponsibilityEpoch (tables : Tables) : Option Epoch :=
  tables.epochs.latest? (fun epoch => epoch.status = .active &&
      tables.responsibilities.rows.any fun row =>
        row.heldBy epoch.holderRef && row.live)
    fun epoch => epoch.acquiredAt.getD 0

def probeEpoch : Act Unit := do
  let memory ← Prog.observe fun world : PowerWorld => world.memory
  match ← epochOf .startupProbe with
  | some epoch =>
    if memory.releasedDuringStartup.contains .startupProbe then do
      let lease ← ofExcept (leaseFromEpoch epoch)
      recordCapabilityReady lease
    else if epoch.status = .acquiring ∨ epoch.status = .active then attemptCapabilityProbe true
    else do
      prepareCapabilityProbeEpoch
      attemptCapabilityProbe false
  | none =>
    if memory.releasedDuringStartup.contains .startupProbe then pure ()
    else do
      prepareCapabilityProbeEpoch
      attemptCapabilityProbe false

/-- `_run_startup_probe`, where the flag says that interrupted work is protected. -/
def runStartupProbe (interruptedProtected : Bool) : Act Unit := do
  let incarnation ← incarnationRef
  match ← read fun tables =>
      (tables.epochs.selectBy (fun epoch => epoch.status = .releasePending) Epoch.updatedAt).head? with
  | some pending =>
    recordCapabilityUnavailable pending.holderRef pending.backend pending.scope
      (pending.failureCode.getD "power_inhibitor_release_pending")
  | none =>
    if !interruptedProtected then do
      let unresolved ← read unresolvedInterruptedEpoch
      let current ← read (capabilityFailure incarnation)
      let kind ← inhibitorKind
      recordCapabilityUnavailable (unresolved.elim .startupProbe Epoch.holderRef)
        (unresolved.elim kind Epoch.backend) (unresolved.elim "sleep" Epoch.scope)
        (if current = some "power_inhibitor_reconciliation_required" then
          "power_inhibitor_reconciliation_required"
        else "power_inhibitor_reacquisition_failed")
    else do
      match ← read activeResponsibilityEpoch with
      | some epoch => do
        let lease ← ofExcept (leaseFromEpoch epoch)
        match ← queryHold lease with
        | .confirmed => recordCapabilityReady lease
        | .unknown => recordHoldReconciliationRequired lease
        | .absent => probeEpoch
      | none => probeEpoch

/-- The part of the constructor before interrupted responsibilities are protected. -/
def openIncarnation : Act Unit := do
  let incarnation ← newRef
  Prog.remember fun _ => ⟨incarnation, []⟩
  registerIncarnation
  supersedeExistingEpochBackends
  settleLedger

/-- The constructor. -/
def startDaemon (startupProbe : Bool) : Act Unit := do
  openIncarnation
  let shielded ← ensureInterruptedProtected
  let pending ← pendingAcquisitionExists
  if startupProbe then runStartupProbe (shielded && !pending) else pure ()

/-! ### Remaining commands -/

/-- The transaction of `interrupt_active`. -/
def interruptActiveTx (kind reasonCode : String) (now : ℤ) (tables : Tables) : Tables :=
  let active := fun row : Responsibility => decide (row.status = .active)
  { interruptRows active (fun _ => reasonCode) now tables with
    interruptions := tables.interruptions ++
      interruptionsFor (tables.responsibilities.select active) kind now (fun _ => reasonCode)
        fun _ => .effectResultOrCheckpoint }

def interruptActive (kind reasonCode : String) : Act Unit :=
  if safeIdentifier kind 48 && safeIdentifier reasonCode 96 then do
    let now ← now
    change (interruptActiveTx kind reasonCode now)
  else Prog.raise (.invalid "runtime_interruption_invalid")

/-- Confirm a surviving guardian, or record that its hold is lost. -/
def reconcileStartup : Act Unit := do
  match ← activeLease with
  | none => pure ()
  | some lease =>
    match ← queryHold lease with
    | .confirmed => pure ()
    | .unknown => recordHoldReconciliationRequired lease
    | .absent => markHolderLost lease

/-! ### Runs -/

inductive Call where
  | start (startupProbe : Bool)
  | acquire (identity : RuntimeEffectIdentity)
  | finish (ref : String) (boundary : RuntimeBoundary) (checkpointRef : Option String)
  | interruptActive (kind reasonCode : String)
  | reconcileStartup
  /-- The Owner's own transaction that proves a boundary. -/
  | recordBoundary (identity : RuntimeEffectIdentity) (boundary : RuntimeBoundary)
      (ownerEvidenceRef : String) (checkpointRef : Option String)
deriving DecidableEq, Repr

/-- The program of a call. -/
def Call.program : Call → Act Unit
  | .start startupProbe => startDaemon startupProbe
  | .acquire identity => do
    let _ ← RuntimeProtection.acquire identity
    pure ()
  | .finish ref boundary checkpointRef => RuntimeProtection.finish ref boundary checkpointRef
  | .interruptActive kind reasonCode => RuntimeProtection.interruptActive kind reasonCode
  | .reconcileStartup => RuntimeProtection.reconcileStartup
  | .recordBoundary identity boundary ownerEvidenceRef checkpointRef =>
    write (recordBoundaryTx identity boundary ownerEvidenceRef checkpointRef)

def Call.isStart : Call → Bool
  | .start _ => true
  | _ => false

/-- The ledger, and whether a started daemon is there to serve calls. -/
structure System where
  world : PowerWorld
  live : Bool

/-- Before the first start: empty tables and no daemon. -/
def System.initial : System where
  world := { durable := {}, memory := ⟨0, []⟩, tick := 0 }
  live := false

/-- One call in the surroundings of one host. A start that raises leaves no daemon; any other call
leaves it alive unless the process died. -/
def System.step (system : System) (input : Host × Call) : System :=
  if system.live || input.2.isStart then
    match input.2.program input.1 system.world with
    | (.ok _, world) => ⟨world, true⟩
    | (.error (.raised _), world) => ⟨world, !input.2.isStart⟩
    | (.error .died, world) => ⟨world, false⟩
  else system

end MetaResearch.RuntimeProtection

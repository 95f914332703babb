import MetaResearch.Model.RuntimeProtection.Tables

/-! # Native holds and their ledger entries

The private methods of `RuntimeProtection` that talk to the native inhibitor or write one
transaction of the ledger. Each `...Tx` is the body of one `with self._database.write()` block.
Feed records and log lines are never read back and are left out.
-/

namespace MetaResearch.RuntimeProtection

/-! ### Capability diagnostics -/

def recordCapability (status : ProbeStatus) (holder : HolderRef) (backend scope : String)
    (reasonCode : Option String) : Act Unit := do
  let incarnation ← incarnationRef
  let now ← now
  change fun tables =>
    { tables with
      capabilities := tables.capabilities.update (fun row => row.incarnationRef = incarnation)
        ⟨fun row => { row with
          holderRef := some holder
          backend := logIdentifier backend "unsupported"
          scope := logIdentifier scope "sleep"
          probeStatus := status
          failureCode := reasonCode.map (logIdentifier · "runtime_protection_unavailable")
          probedAt := if status = .probing then none else some now
          updatedAt := now },
        fun _ => rfl⟩ }

def recordCapabilityReady (lease : InhibitorLease) : Act Unit :=
  recordCapability .ready lease.holderRef lease.backend lease.scope none

def recordCapabilityUnavailable (holder : HolderRef) (backend scope reasonCode : String) : Act Unit :=
  recordCapability .unavailable holder backend scope (some reasonCode)

def recordHoldReconciliationRequired (lease : InhibitorLease) : Act Unit :=
  recordCapabilityUnavailable lease.holderRef lease.backend lease.scope
    "power_inhibitor_reconciliation_required"

/-! ### Native answers -/

/-- `_query_hold`: an exception and an unrecognized status both read as unknown. -/
def HoldAnswer.holdStatus : HoldAnswer → InhibitorHoldStatus
  | .queried status => status
  | .unrecognized => .unknown
  | .isConfirmed true => .confirmed
  | .isConfirmed false => .absent
  | .raised => .unknown

def queryHold (lease : InhibitorLease) : Act InhibitorHoldStatus :=
  Prog.ask fun host serial => (host.queryHold serial lease).holdStatus

def confirmationFailureCode (lease : InhibitorLease) : Act (Option String) := do
  match ← queryHold lease with
  | .confirmed => pure none
  | .unknown => pure (some "power_inhibitor_reconciliation_required")
  | .absent => pure (some "power_inhibitor_confirmation_failed")

/-- How the `try` block around a native acquisition ends. -/
inductive HoldRequest where
  | confirmed (lease : InhibitorLease)
  /-- The typed exception, with the lease if one had been returned. -/
  | refused (code : String) (lease : Option InhibitorLease)
  /-- Any other exception. -/
  | broken
deriving DecidableEq, Repr

/-- The `try` block shared by the callers of the native `acquire`. -/
def requestHold (holder : HolderRef) : Act HoldRequest := do
  match ← Prog.ask fun host serial => host.acquire serial holder with
  | .error (.unavailable code) =>
    pure (.refused (if safeIdentifier code 96 then code else "runtime_protection_unavailable") none)
  | .error .other => pure .broken
  | .ok lease =>
    if leaseValid lease holder then
      match ← confirmationFailureCode lease with
      | none => pure (.confirmed lease)
      | some code => pure (.refused code (some lease))
    else pure (.refused "power_inhibitor_receipt_invalid" (some lease))

/-! ### Reading the ledger -/

def queryResponsibility (ref : String) : Act (Option Responsibility) :=
  read fun tables => tables.responsibilities.find? ref

def epochOf (holder : HolderRef) : Act (Option Epoch) := read fun tables => tables.epochs.find? holder

/-- `_lease`: the lease of an active epoch. -/
def leaseOf (holder : HolderRef) : Act InhibitorLease := do
  match ← epochOf holder with
  | some epoch =>
    if epoch.status = .active then ofExcept (leaseFromEpoch epoch)
    else Prog.raise (unavailable "power_inhibitor_hold_lost")
  | none => Prog.raise (unavailable "power_inhibitor_hold_lost")

def activeEpoch? (tables : Tables) : Option Epoch :=
  tables.epochs.latest? (fun epoch => epoch.status = .active) fun epoch => epoch.acquiredAt.getD 0

/-- `_active_lease`: the lease of the active epoch acquired last. -/
def activeLease : Act (Option InhibitorLease) := do
  match ← read activeEpoch? with
  | none => pure none
  | some epoch =>
    let lease ← ofExcept (leaseFromEpoch epoch)
    pure (some lease)

def pendingReleaseExists : Act Bool :=
  read fun tables => tables.epochs.rows.any fun epoch => epoch.status = .releasePending

def pendingAcquisitionExists : Act Bool :=
  read fun tables => tables.epochs.rows.any fun epoch => epoch.status = .acquiring

def Responsibility.interrupted (row : Responsibility) : Bool := row.status = .interrupted

def Responsibility.unfinished (row : Responsibility) : Bool := row.status ≠ .finished

def Responsibility.heldBy (row : Responsibility) (holder : HolderRef) : Bool :=
  row.holderRef = some holder

/-! ### Transactions -/

def insertIssuedEpoch (tables : Tables) (holder : HolderRef) (kind : String) (incarnation : ℕ)
    (now : ℤ) : Except ProtectionError Tables :=
  tables.insertEpoch (issuedEpoch holder (logIdentifier kind "unsupported") incarnation now)

/-- Link responsibilities to a holder. -/
def linkTo (holder : HolderRef) (now : ℤ) : Rewrite Responsibility.ref :=
  ⟨fun row => { row with holderRef := some holder, updatedAt := now }, fun _ => rfl⟩

@[simp]
theorem apply_linkTo (holder : HolderRef) (now : ℤ) (row : Responsibility) :
    (linkTo holder now).apply row = { row with holderRef := some holder, updatedAt := now } := rfl

/-- The update of `_link_acquiring_responsibility`, with its row count. -/
def linkAcquiringTx (ref : String) (holder : HolderRef) (now : ℤ) (tables : Tables) :
    Except ProtectionError (Unit × Tables) :=
  let chosen := fun row : Responsibility =>
    row.ref = ref && row.status = .acquiring && row.holderRef = none
  if tables.responsibilities.count chosen = 1 then
    .ok ((), tables.updateResponsibilities chosen (linkTo holder now))
  else .error (unavailable "runtime_responsibility_holder_link_conflict")

def linkAcquiringResponsibility (ref : String) (holder : HolderRef) : Act Unit := do
  let now ← now
  write (linkAcquiringTx ref holder now)

/-- The epoch update of `_activate`, which has no status condition. -/
def activateEpoch (lease : InhibitorLease) (now : ℤ) (tables : Tables) : Tables :=
  tables.updateEpochs (fun epoch => epoch.holderRef = lease.holderRef)
    ⟨fun epoch => { epoch.withLease lease with
      status := .active, failureCode := none, releasedAt := none, updatedAt := now },
    fun _ => rfl⟩

/-- The transaction of `_activate`. -/
def activateTx (ref : String) (lease : InhibitorLease) (incarnation : ℕ) (now : ℤ)
    (tables : Tables) : Except ProtectionError (Unit × Tables) :=
  let tables := activateEpoch lease now tables
  let chosen := fun row : Responsibility =>
    row.ref = ref && row.status = .acquiring && row.heldBy lease.holderRef
  if tables.responsibilities.count chosen = 1 then
    .ok ((), tables.updateResponsibilities chosen
      ⟨fun row => { row with
        holderRef := some lease.holderRef, status := .active, reasonCode := none
        incarnationRef := incarnation, updatedAt := now },
      fun _ => rfl⟩)
  else .error (unavailable "runtime_responsibility_activation_conflict")

def activate (identity : RuntimeEffectIdentity) (lease : InhibitorLease) : Act Unit := do
  let incarnation ← incarnationRef
  let now ← now
  write (activateTx identity.responsibilityRef lease incarnation now)

/-- The transaction of `_record_acquire_failure`: its epoch update has no status condition. -/
def acquireFailureTx (ref : String) (holder : HolderRef) (reasonCode : String)
    (lease : Option InhibitorLease) (now : ℤ) (tables : Tables) : Tables :=
  let pending := acquisitionReconciliationCodes.contains reasonCode
  let tables := tables.updateEpochs (fun epoch => epoch.holderRef = holder)
    ⟨fun epoch => { (match lease with
        | some lease => if pending then epoch.withLease lease else epoch
        | none => epoch) with
      holderRef := epoch.holderRef
      status := if pending then .acquiring else .failed
      failureCode := if pending then none else some reasonCode
      updatedAt := now },
    fun _ => rfl⟩
  tables.updateResponsibilities (fun row => row.ref = ref && row.status = .acquiring)
    ⟨fun row => { row with status := .waiting, reasonCode := some reasonCode, updatedAt := now },
    fun _ => rfl⟩

def recordAcquireFailure (identity : RuntimeEffectIdentity) (holder : HolderRef)
    (reasonCode : String) (lease : Option InhibitorLease) : Act Unit := do
  let now ← now
  change (acquireFailureTx identity.responsibilityRef holder reasonCode lease now)
  let kind ← inhibitorKind
  recordCapabilityUnavailable holder kind "sleep" reasonCode

/-- The interruption rows written for the given responsibilities. -/
def interruptionsFor (rows : List Responsibility) (kind : String) (now : ℤ)
    (reason : Responsibility → String) (missing : Responsibility → MissingBoundary) :
    List Interruption :=
  rows.map fun row => {
    responsibilityRef := row.ref
    interruptionKind := kind
    reasonCode := reason row
    firstMissingBoundary := missing row
    reconciliationStatus := .required
    recordedAt := now
    reconciledAt := none }

def Responsibility.live (row : Responsibility) : Bool :=
  row.status = .active || row.status = .interrupted

def loseEpoch (holder : HolderRef) (reasonCode : String) (now : ℤ) (tables : Tables) : Tables :=
  tables.updateEpochs (fun epoch => epoch.holderRef = holder && epoch.status = .active)
    ⟨fun epoch => { epoch with
      status := .lost, failureCode := some reasonCode, updatedAt := now },
    fun _ => rfl⟩

/-- Relabel the chosen responsibilities as interrupted. -/
def interruptRows (chosen : Responsibility → Bool) (reason : Responsibility → String) (now : ℤ)
    (tables : Tables) : Tables :=
  tables.updateResponsibilities chosen
    ⟨fun row => { row with
      status := .interrupted, reasonCode := some (reason row), updatedAt := now },
    fun _ => rfl⟩

/-- The transaction of `_mark_holder_lost`: every live responsibility of the holder is relabelled. -/
def holderLostTx (holder : HolderRef) (reasonCode : String) (now : ℤ) (tables : Tables) : Tables :=
  let live := fun row : Responsibility => row.heldBy holder && row.live
  { interruptRows live (fun _ => reasonCode) now (loseEpoch holder reasonCode now tables) with
    interruptions := tables.interruptions ++
      interruptionsFor (tables.responsibilities.select live) "power" now (fun _ => reasonCode)
        fun _ => .effectResultOrCheckpoint }

def markHolderLost (lease : InhibitorLease) : Act Unit := do
  let now ← now
  change (holderLostTx lease.holderRef "power_inhibitor_hold_lost" now)
  recordCapabilityUnavailable lease.holderRef lease.backend lease.scope "power_inhibitor_hold_lost"

/-- The transaction after a native release: only a releasing epoch moves. -/
def releaseTx (holder : HolderRef) (released : Bool) (now : ℤ) (tables : Tables) : Tables :=
  tables.updateEpochs (fun epoch => epoch.holderRef = holder && epoch.status = .releasing)
    ⟨fun epoch => { epoch with
      status := if released then .released else .releasePending
      failureCode := if released then none else some "power_inhibitor_release_failed"
      releasedAt := if released then some now else none
      updatedAt := now },
    fun _ => rfl⟩

def releaseEpoch (lease : InhibitorLease) : Act Unit := do
  let released ← Prog.ask fun host serial => host.release serial lease
  let now ← now
  change (releaseTx lease.holderRef released now)
  if released then
    Prog.remember fun memory =>
      { memory with releasedDuringStartup := lease.holderRef :: memory.releasedDuringStartup }
    recordCapabilityReady lease
  else
    recordCapabilityUnavailable lease.holderRef lease.backend lease.scope
      "power_inhibitor_release_failed"

/-- The transaction of `_retry_pending_releases`, returning the rows it read. -/
def retryReleasesTx (now : ℤ) (tables : Tables) : Except ProtectionError (List Epoch × Tables) :=
  .ok (tables.epochs.selectBy
      (fun epoch => epoch.status = .releasing || epoch.status = .releasePending) Epoch.updatedAt,
    tables.updateEpochs (fun epoch => epoch.status = .releasePending)
      ⟨fun epoch => { epoch with status := .releasing, failureCode := none, updatedAt := now },
      fun _ => rfl⟩)

def retryPendingReleases : Act Unit := do
  let now ← now
  let rows ← write (retryReleasesTx now)
  Prog.forEach (fun epoch => do
    let lease ← ofExcept (leaseFromEpoch epoch)
    releaseEpoch lease) rows

end MetaResearch.RuntimeProtection

import MetaResearch.Model.RuntimeProtection.Finish

/-! # Acquiring a permit

`acquire` and everything it runs first: the settlement of recorded boundaries and pending
releases, the renewed protection of interrupted responsibilities, and the exact resumption of an
already issued holder.
-/

namespace MetaResearch.RuntimeProtection

/-! ### Protection of interrupted responsibilities -/

def interruptedCount (tables : Tables) : ℕ :=
  tables.responsibilities.count Responsibility.interrupted

/-- The acquiring epochs that an interrupted responsibility is still linked to. -/
def unresolvedExactHolders (tables : Tables) : List HolderRef :=
  (tables.epochs.select fun epoch => epoch.status = .acquiring &&
    tables.responsibilities.rows.any fun row =>
      row.interrupted && row.heldBy epoch.holderRef).map Epoch.holderRef

/-- The interruption has not been reconciled and was recorded before any native confirmation. -/
def Interruption.awaitsConfirmation (row : Interruption) : Bool :=
  row.firstMissingBoundary = .inhibitorConfirmation &&
    (row.reconciliationStatus = .required || row.reconciliationStatus = .protectedHold)

/-- A leased epoch that was acquiring becomes active. -/
def adoptEpoch (lease : InhibitorLease) (incarnation : Epoch → ℕ) (releasedAt : Epoch → Option ℤ)
    (now : ℤ) (tables : Tables) : Tables :=
  tables.updateEpochs (fun epoch => epoch.holderRef = lease.holderRef && epoch.status = .acquiring)
    ⟨fun epoch => { epoch.withLease lease with
      incarnationRef := incarnation epoch, status := .active, failureCode := none
      releasedAt := releasedAt epoch, updatedAt := now },
    fun _ => rfl⟩

/-- The interrupted responsibilities of a holder that never saw a native confirmation acquire again. -/
def resumeAwaiting (holder : HolderRef) (incarnation : ℕ) (now : ℤ) (tables : Tables) : Tables :=
  tables.updateResponsibilities
    (fun row => row.heldBy holder && row.interrupted &&
      tables.interruptions.any fun interruption =>
        interruption.responsibilityRef = row.ref && interruption.awaitsConfirmation)
    ⟨fun row => { row with
      status := .acquiring, incarnationRef := incarnation, reasonCode := none, updatedAt := now },
    fun _ => rfl⟩

/-- The transaction that adopts an acquiring epoch whose native hold was confirmed, with whether it
found the epoch still acquiring. -/
def recoverHolderTx (lease : InhibitorLease) (incarnation : ℕ) (now : ℤ) (tables : Tables) :
    Except ProtectionError (Bool × Tables) :=
  if tables.epochs.count (fun epoch =>
      epoch.holderRef = lease.holderRef && epoch.status = .acquiring) = 1 then
    let after := resumeAwaiting lease.holderRef incarnation now
      (adoptEpoch lease (fun _ => incarnation) (fun _ => none) now tables)
    .ok (true, after.updateInterruptions
      (fun interruption => interruption.awaitsConfirmation &&
        after.responsibilities.rows.any fun row =>
          row.ref = interruption.responsibilityRef && row.heldBy lease.holderRef &&
            row.status = .acquiring)
      fun interruption => { interruption with
        reconciliationStatus := .completed, reconciledAt := some now })
  else .ok (false, tables)

/-- Note why the interrupted responsibilities of the chosen rows still wait. -/
def interruptedReasonTx (chosen : Responsibility → Bool) (reasonCode : String) (now : ℤ)
    (tables : Tables) : Tables :=
  tables.updateResponsibilities (fun row => chosen row && row.interrupted)
    ⟨fun row => { row with reasonCode := some reasonCode, updatedAt := now }, fun _ => rfl⟩

/-- The failure code of a native request, where any other exception has its own code. -/
def HoldRequest.outcome (brokenCode : String) : HoldRequest → Except String InhibitorLease
  | .confirmed lease => .ok lease
  | .refused code _ => .error code
  | .broken => .error brokenCode

/-- Adopt a native hold requested before a crash, without a new identity. -/
def recoverExactAcquiringHolder (holder : HolderRef) : Act Bool := do
  let request ← requestHold holder
  match request.outcome "power_inhibitor_acquire_reconciliation_failed" with
  | .error code => do
    let now ← now
    change (interruptedReasonTx (fun row => row.heldBy holder) code now)
    let kind ← inhibitorKind
    recordCapabilityUnavailable holder kind "sleep" code
    pure false
  | .ok lease => do
    let now ← now
    let incarnation ← incarnationRef
    let recovered ← write (recoverHolderTx lease incarnation now)
    if recovered then do
      recordCapabilityReady lease
      pure true
    else pure false

/-- Recover the holders in turn, up to the first that stays unresolved. -/
def recoverExactHolders : List HolderRef → Act Bool
  | [] => pure true
  | holder :: rest => do
    if ← recoverExactAcquiringHolder holder then recoverExactHolders rest else pure false

/-- Move every interrupted responsibility to one holder. -/
def relinkInterrupted (holder : HolderRef) (now : ℤ) (tables : Tables) : Tables :=
  tables.updateResponsibilities Responsibility.interrupted (linkTo holder now)

def protectRequired (tables : Tables) : Tables :=
  tables.updateInterruptions (fun row => row.reconciliationStatus = .required)
    fun row => { row with reconciliationStatus := .protectedHold }

/-- Issue a holder for all interrupted responsibilities, if they are as many as counted before. -/
def reissueTx (holder : HolderRef) (kind : String) (incarnation expected : ℕ) (now : ℤ)
    (tables : Tables) : Except ProtectionError (Unit × Tables) := do
  let tables ← insertIssuedEpoch tables holder kind incarnation now
  if interruptedCount tables = expected then .ok ((), relinkInterrupted holder now tables)
  else .error (unavailable "runtime_interrupted_holder_link_conflict")

def reacquireFailureTx (holder : HolderRef) (code : String) (now : ℤ) (tables : Tables) : Tables :=
  let pending : Bool := code = "power_inhibitor_reconciliation_required"
  interruptedReasonTx (fun _ => true) code now <|
    tables.updateEpochs (fun epoch => epoch.holderRef = holder && epoch.status = .acquiring)
      ⟨fun epoch => { epoch with
        status := if pending then .acquiring else .failed
        failureCode := if pending then none else some code
        updatedAt := now },
      fun _ => rfl⟩

def reacquiredTx (lease : InhibitorLease) (now : ℤ) (tables : Tables) : Tables :=
  protectRequired <| relinkInterrupted lease.holderRef now <|
    adoptEpoch lease Epoch.incarnationRef Epoch.releasedAt now tables

/-- Request a new hold for all interrupted responsibilities. -/
def reissueHold (count : ℕ) : Act Bool := do
  let serial ← newRef
  let now ← now
  let kind ← inhibitorKind
  let incarnation ← incarnationRef
  write (reissueTx (.powerHolder serial) kind incarnation count now)
  let request ← requestHold (.powerHolder serial)
  match request.outcome "power_inhibitor_reacquisition_failed" with
  | .error code => do
    let now ← RuntimeProtection.now
    change (reacquireFailureTx (.powerHolder serial) code now)
    let kind ← inhibitorKind
    recordCapabilityUnavailable (.powerHolder serial) kind "sleep" code
    pure false
  | .ok lease => do
    let now ← RuntimeProtection.now
    change (reacquiredTx lease now)
    recordCapabilityReady lease
    pure true

/-- Put every interrupted responsibility under one confirmed hold. -/
def protectInterrupted (count : ℕ) : Act Bool := do
  match ← activeLease with
  | none => reissueHold count
  | some active =>
    match ← queryHold active with
    | .confirmed => do
      let now ← now
      change fun tables => protectRequired (relinkInterrupted active.holderRef now tables)
      recordCapabilityReady active
      pure true
    | .unknown => do
      recordHoldReconciliationRequired active
      pure false
    | .absent => do
      markHolderLost active
      reissueHold count

/-- The first half of `_ensure_interrupted_protected`: how many interrupted responsibilities still
need a hold once the issued holders are recovered, or none if a holder stays unresolved. -/
def recoverUnresolved : Act (Option ℕ) := do
  let count ← read interruptedCount
  if count = 0 then pure (some 0)
  else do
    let holders ← read unresolvedExactHolders
    if ← recoverExactHolders holders then do
      if holders.isEmpty then pure (some count)
      else do
        let count ← read interruptedCount
        pure (some count)
    else pure none

def ensureInterruptedProtected : Act Bool := do
  match ← recoverUnresolved with
  | none => pure false
  | some 0 => pure true
  | some count => protectInterrupted count

/-! ### Acquisition -/

/-- `_prepare`: record the effect before any hold is requested. -/
def prepareTx (identity : RuntimeEffectIdentity) (incarnation : ℕ) (now : ℤ) (tables : Tables) :
    Except ProtectionError (Unit × Tables) :=
  match tables.responsibilities.insert? {
      identity := identity
      incarnationRef := incarnation
      holderRef := none
      status := .acquiring
      boundary := none
      checkpointRef := none
      reasonCode := none
      createdAt := now
      updatedAt := now
      finishedAt := none } with
  | some responsibilities => .ok ((), { tables with responsibilities := responsibilities })
  | none => .error .integrityError

def prepare (identity : RuntimeEffectIdentity) : Act Unit := do
  let now ← now
  let incarnation ← incarnationRef
  write (prepareTx identity incarnation now)

/-- Make a responsibility of the current incarnation acquire again; it keeps its holder. -/
def reopened (incarnation : ℕ) (now : ℤ) (row : Responsibility) : Responsibility :=
  { row with
    status := .acquiring, boundary := none, checkpointRef := none, reasonCode := none
    incarnationRef := incarnation, updatedAt := now }

def Responsibility.reopenable (row : Responsibility) (ref : String) (holder : Option HolderRef) :
    Bool :=
  row.ref = ref && (row.status = .acquiring || row.status = .waiting) && row.holderRef = holder

def reopenTx (ref : String) (holder : Option HolderRef) (conflict : String) (incarnation : ℕ)
    (now : ℤ) (tables : Tables) : Except ProtectionError (Unit × Tables) :=
  if tables.responsibilities.count (·.reopenable ref holder) = 1 then
    .ok ((), tables.updateResponsibilities (·.reopenable ref holder) ⟨reopened incarnation now, fun _ => rfl⟩)
  else .error (unavailable conflict)

def resetForAcquisition (ref : String) : Act Unit := do
  let now ← now
  let incarnation ← incarnationRef
  write (reopenTx ref none "runtime_responsibility_acquisition_reset_conflict" incarnation now)

def prepareExactResponsibility (ref : String) (holder : HolderRef) : Act Unit := do
  let now ← now
  let incarnation ← incarnationRef
  write (reopenTx ref (some holder) "runtime_responsibility_exact_holder_conflict" incarnation now)

def Epoch.retryable (epoch : Epoch) (holder : HolderRef) : Bool :=
  epoch.holderRef = holder && [.acquiring, .active, .failed, .lost, .released].contains epoch.status

def retrying (incarnation : ℕ) (now : ℤ) : Rewrite Epoch.holderRef where
  apply epoch :=
    { epoch with
      incarnationRef := incarnation, status := .acquiring, failureCode := none
      releasedAt := none, updatedAt := now }
  keeps _ := rfl

def retryEpoch (holder : HolderRef) (incarnation : ℕ) (now : ℤ) (tables : Tables) : Tables :=
  tables.updateEpochs (·.retryable holder) (retrying incarnation now)

/-- The retry transaction of `_resume_exact_acquisition`: the epoch returns to acquiring whatever
else is linked to it. -/
def retryExactTx (ref : String) (holder : HolderRef) (incarnation : ℕ) (now : ℤ) (tables : Tables) :
    Except ProtectionError (Unit × Tables) :=
  if tables.epochs.count (·.retryable holder) = 1 then
    reopenTx ref (some holder) "runtime_responsibility_exact_holder_conflict" incarnation now
      (retryEpoch holder incarnation now tables)
  else .error (unavailable "runtime_responsibility_exact_holder_conflict")

/-- Take the permit over a confirmed lease. -/
def grant (identity : RuntimeEffectIdentity) (lease : InhibitorLease) : Act RuntimeEffectPermit := do
  activate identity lease
  recordCapabilityReady lease
  let incarnation ← incarnationRef
  pure (permit identity lease incarnation)

/-- Ask natively for a holder the responsibility is already linked to. -/
def requestPermit (identity : RuntimeEffectIdentity) (holder : HolderRef) : Act RuntimeEffectPermit := do
  match ← requestHold holder with
  | .confirmed lease => grant identity lease
  | .refused code lease => do
    recordAcquireFailure identity holder code lease
    Prog.raise (.unavailable code)
  | .broken => do
    recordAcquireFailure identity holder "power_inhibitor_acquisition_failed" none
    Prog.raise (unavailable "power_inhibitor_acquisition_failed")

/-- The second half of `_resume_exact_acquisition`. -/
def retryExactAcquisition (identity : RuntimeEffectIdentity) (holder : HolderRef) :
    Act RuntimeEffectPermit := do
  let now ← now
  let incarnation ← incarnationRef
  write (retryExactTx identity.responsibilityRef holder incarnation now)
  requestPermit identity holder

/-- Retry or adopt an issued holder. An active epoch whose hold is answered absent falls through to
the retry. -/
def resumeExactAcquisition (identity : RuntimeEffectIdentity) (holder : HolderRef) :
    Act RuntimeEffectPermit := do
  match ← epochOf holder with
  | none => Prog.raise (unavailable "runtime_responsibility_holder_missing")
  | some epoch =>
    match epoch.status with
    | .active => do
      let lease ← ofExcept (leaseFromEpoch epoch)
      match ← queryHold lease with
      | .confirmed => do
        prepareExactResponsibility identity.responsibilityRef holder
        grant identity lease
      | .unknown => do
        recordHoldReconciliationRequired lease
        Prog.raise (unavailable "power_inhibitor_reconciliation_required")
      | .absent => retryExactAcquisition identity holder
    | .releasing => Prog.raise (unavailable "power_inhibitor_release_pending")
    | .releasePending => Prog.raise (unavailable "power_inhibitor_release_pending")
    | _ => retryExactAcquisition identity holder

/-- Issue a new holder and link the acquiring responsibility to it. -/
def issueHolderTx (ref : String) (holder : HolderRef) (kind : String) (incarnation : ℕ) (now : ℤ)
    (tables : Tables) : Except ProtectionError (Unit × Tables) := do
  let tables ← insertIssuedEpoch tables holder kind incarnation now
  linkAcquiringTx ref holder now tables

def acquireFresh (identity : RuntimeEffectIdentity) : Act RuntimeEffectPermit := do
  if ← pendingAcquisitionExists then
    Prog.raise (unavailable "power_inhibitor_reconciliation_required")
  else do
    let serial ← newRef
    let now ← now
    let kind ← inhibitorKind
    let incarnation ← incarnationRef
    write (issueHolderTx identity.responsibilityRef (.powerHolder serial) kind incarnation now)
    requestPermit identity (.powerHolder serial)

/-- Share the active hold if it is confirmed, or request a new one if it is gone. -/
def acquireShared (identity : RuntimeEffectIdentity) : Act RuntimeEffectPermit := do
  match ← activeLease with
  | none => acquireFresh identity
  | some shared =>
    match ← queryHold shared with
    | .confirmed => do
      linkAcquiringResponsibility identity.responsibilityRef shared.holderRef
      grant identity shared
    | .unknown => do
      recordHoldReconciliationRequired shared
      Prog.raise (unavailable "power_inhibitor_reconciliation_required")
    | .absent => do
      markHolderLost shared
      acquireFresh identity

/-- A responsibility that is already active is permitted again while its hold is confirmed. -/
def reconfirm (identity : RuntimeEffectIdentity) (holder : Option HolderRef) :
    Act RuntimeEffectPermit := do
  match holder with
  | none => Prog.raise (unavailable "power_inhibitor_hold_lost")
  | some holder => do
    let lease ← leaseOf holder
    match ← queryHold lease with
    | .confirmed => do
      recordCapabilityReady lease
      let incarnation ← incarnationRef
      pure (permit identity lease incarnation)
    | .unknown => do
      recordHoldReconciliationRequired lease
      Prog.raise (unavailable "power_inhibitor_reconciliation_required")
    | .absent => do
      markHolderLost lease
      Prog.raise (unavailable "power_inhibitor_hold_lost")

/-- `acquire` once the ledger is settled and every interrupted responsibility is protected. -/
def acquireSettled (identity : RuntimeEffectIdentity) : Act RuntimeEffectPermit := do
  match ← queryResponsibility identity.responsibilityRef with
  | none => do
    prepare identity
    acquireShared identity
  | some existing => do
    ofExcept (assertSameIdentity existing identity)
    match existing.status with
    | .finished => Prog.raise (unavailable "runtime_responsibility_already_finished")
    | .active => reconfirm identity existing.holderRef
    | .interrupted => Prog.raise (unavailable "runtime_reconciliation_required")
    | .acquiring | .waiting =>
      match existing.holderRef with
      | some holder => resumeExactAcquisition identity holder
      | none => do
        resetForAcquisition identity.responsibilityRef
        acquireShared identity

/-- Consume recorded receipts and retry the releases that are pending. -/
def settleLedger : Act Unit := do
  finishRecordedBoundaries
  retryPendingReleases

/-- The part of `acquire` before interrupted responsibilities are protected. -/
def admission (identity : RuntimeEffectIdentity) : Act Unit := do
  ofExcept (validateIdentity identity)
  settleLedger
  if ← pendingReleaseExists then Prog.raise (unavailable "power_inhibitor_release_pending")
  else pure ()

/-- The part of `acquire` before the responsibility itself is looked at. -/
def acquirePreamble (identity : RuntimeEffectIdentity) : Act Unit := do
  admission identity
  if ← ensureInterruptedProtected then pure ()
  else Prog.raise (unavailable "power_inhibitor_reacquisition_failed")

def acquire (identity : RuntimeEffectIdentity) : Act RuntimeEffectPermit := do
  acquirePreamble identity
  acquireSettled identity

end MetaResearch.RuntimeProtection

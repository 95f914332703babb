import MetaResearch.Model.RuntimeProtection.Holds

/-! # Boundaries and the end of a responsibility

`record_runtime_boundary`, `finish` and the replay of receipts whose acknowledgement was lost. A
finish closes exactly one responsibility; it asks for a native release only when the transaction
that closed it sees no unfinished responsibility left on the shared epoch.
-/

namespace MetaResearch.RuntimeProtection

/-- The transaction of `record_runtime_boundary`. The evidence hash is a function of the compared
fields and the identity, so comparing it again decides nothing. -/
def recordBoundaryTx (identity : RuntimeEffectIdentity) (boundary : RuntimeBoundary)
    (ownerEvidenceRef : String) (checkpointRef : Option String) (tables : Tables) :
    Except ProtectionError (Unit × Tables) := do
  validateIdentity identity
  if !safeIdentifier ownerEvidenceRef 128 then .error (.invalid "runtime_owner_evidence_ref_invalid")
  else if !checkpointRef.all (safeIdentifier · 128) then
    .error (.invalid "runtime_checkpoint_ref_invalid")
  else if decide (boundary = .checkpoint) ≠ checkpointRef.isSome then
    .error (.invalid "runtime_checkpoint_boundary_invalid")
  else
    match tables.responsibilities.find? identity.responsibilityRef with
    | none => .error (unavailable "runtime_responsibility_not_found")
    | some row => do
      assertSameIdentity row identity
      let receipt : BoundaryReceipt := {
        responsibilityRef := identity.responsibilityRef
        ownerScope := identity.ownerScope
        rootRunRef := identity.rootRunRef
        attemptRef := identity.attemptRef
        fenceRef := identity.fenceRef
        operationRef := identity.operationRef
        boundary := boundary
        checkpointRef := checkpointRef
        ownerEvidenceRef := ownerEvidenceRef }
      match tables.receipts.find? identity.responsibilityRef with
      | some existing =>
        if existing.boundary = boundary ∧ existing.checkpointRef = checkpointRef ∧
            existing.ownerEvidenceRef = ownerEvidenceRef then .ok ((), tables)
        else .error (unavailable "runtime_boundary_evidence_conflict")
      | none =>
        if row.status = .finished then .error (unavailable "runtime_boundary_evidence_missing")
        else
          match tables.receipts.insert? receipt with
          | some receipts => .ok ((), { tables with receipts := receipts })
          | none => .error .integrityError

def assertCurrentIncarnation (incarnation : ℕ) (tables : Tables) : Except ProtectionError Unit :=
  match tables.instances.find? incarnation with
  | some row =>
    if row.status = .active then .ok () else .error (unavailable "runtime_incarnation_stale")
  | none => .error (unavailable "runtime_incarnation_stale")

def assertFinishReceipt (row : Responsibility) (receipt : Option BoundaryReceipt)
    (boundary : RuntimeBoundary) (checkpointRef : Option String) : Except ProtectionError Unit :=
  match receipt with
  | none => .error (unavailable "runtime_boundary_evidence_missing")
  | some receipt =>
    if receipt.boundary ≠ boundary ∨ receipt.checkpointRef ≠ checkpointRef ∨
        receipt.ownerScope ≠ row.identity.ownerScope ∨ receipt.rootRunRef ≠ row.identity.rootRunRef ∨
        receipt.attemptRef ≠ row.identity.attemptRef ∨ receipt.fenceRef ≠ row.identity.fenceRef ∨
        receipt.operationRef ≠ row.identity.operationRef then
      .error (unavailable "runtime_boundary_evidence_invalid")
    else if row.status = .finished ∧ (row.boundary ≠ some boundary ∨ row.checkpointRef ≠ checkpointRef)
    then .error (.invalid "runtime_responsibility_boundary_conflict")
    else .ok ()

/-- The answer of an exact query, once its shape and its lease are checked. -/
def exactHold (holder : HolderRef) :
    Option (InhibitorHoldStatus × Option InhibitorLease) →
      Option (InhibitorHoldStatus × Option InhibitorLease)
  | none => none
  | some (status, none) => if status = .absent then some (status, none) else none
  | some (status, some lease) => if leaseValid lease holder then some (status, some lease) else none

/-- Resolve an issued native identity before closing work that never had an effect. -/
def resolveNoEffectAcquisition (row : Responsibility) :
    Act (Option (InhibitorHoldStatus × Option InhibitorLease)) :=
  match row.holderRef with
  | none => pure none
  | some holder =>
    if row.status = .acquiring ∨ row.status = .waiting then do
      match ← epochOf holder with
      | none => pure none
      | some epoch =>
        if epoch.status ≠ .acquiring then pure none
        else if epoch.nativeHolderRef = none ∨ epoch.acquiredAt = none then do
          let answer ← Prog.ask fun host serial =>
            if host.canQueryExactHold then exactHold holder (host.queryExactHold serial holder) else none
          match answer with
          | none => do
            recordCapabilityUnavailable holder epoch.backend epoch.scope
              "power_inhibitor_reconciliation_required"
            pure (some (.unknown, none))
          | some (.unknown, some lease) => do
            recordHoldReconciliationRequired lease
            pure (some (.unknown, some lease))
          | some resolved => pure (some resolved)
        else do
          let lease ← ofExcept (leaseFromEpoch epoch)
          let status ← queryHold lease
          if status = .unknown then do
            recordHoldReconciliationRequired lease
            pure (some (status, some lease))
          else pure (some (status, some lease))
    else pure none

/-- Close one responsibility and the interruptions it still answers for. -/
def closeResponsibility (ref : String) (boundary : RuntimeBoundary) (checkpointRef : Option String)
    (now : ℤ) (tables : Tables) : Tables :=
  let tables := tables.updateResponsibilities (fun row => row.ref = ref)
    ⟨fun row => { row with
      status := .finished, boundary := some boundary, checkpointRef := checkpointRef
      reasonCode := none, updatedAt := now, finishedAt := some now },
    fun _ => rfl⟩
  tables.updateInterruptions
    (fun row => row.responsibilityRef = ref &&
      (row.reconciliationStatus = .required || row.reconciliationStatus = .protectedHold))
    fun row => { row with
      reconciliationStatus := if boundary = .terminal then .terminal else .completed
      reconciledAt := some now }

/-- The epoch update of `finish` once nothing unfinished is left on the holder. -/
def closeEpoch (holder : HolderRef)
    (resolution : Option (InhibitorHoldStatus × Option InhibitorLease)) (now : ℤ) (tables : Tables) :
    Except ProtectionError (Option InhibitorLease × Tables) :=
  match tables.epochs.find? holder with
  | none => .ok (none, tables)
  | some epoch =>
    match epoch.status, resolution with
    | .active, _ => do
      let lease ← leaseFromEpoch epoch
      .ok (some lease, tables.updateEpochs
        (fun epoch => epoch.holderRef = holder && epoch.status = .active)
        ⟨fun epoch => { epoch with status := .releasing, updatedAt := now }, fun _ => rfl⟩)
    | .acquiring, some (_, some lease) =>
      .ok (some lease, tables.updateEpochs
        (fun epoch => epoch.holderRef = holder && epoch.status = .acquiring)
        ⟨fun epoch => { epoch.withLease lease with
          status := .releasing, failureCode := none, updatedAt := now },
        fun _ => rfl⟩)
    | .acquiring, some (.absent, none) =>
      .ok (none, tables.updateEpochs
        (fun epoch => epoch.holderRef = holder && epoch.status = .acquiring)
        ⟨fun epoch => { epoch with
          status := .released, failureCode := none, releasedAt := some now, updatedAt := now },
        fun _ => rfl⟩)
    | _, _ => .ok (none, tables)

/-- The transaction of `finish`, returning the lease it decided to release. -/
def finishTx (incarnation : ℕ) (ref : String) (boundary : RuntimeBoundary)
    (checkpointRef : Option String)
    (resolution : Option (InhibitorHoldStatus × Option InhibitorLease)) (now : ℤ) (tables : Tables) :
    Except ProtectionError (Option InhibitorLease × Tables) := do
  assertCurrentIncarnation incarnation tables
  match tables.responsibilities.find? ref with
  | none => .error (.invalid "runtime_responsibility_not_found")
  | some row => do
    assertFinishReceipt row (tables.receipts.find? ref) boundary checkpointRef
    if row.status = .finished then .ok (none, tables)
    else if row.status = .active ∧ row.incarnationRef ≠ incarnation then
      .error (unavailable "runtime_incarnation_stale")
    else
      let closed := closeResponsibility ref boundary checkpointRef now tables
      match row.holderRef with
      | none => .ok (none, closed)
      | some holder =>
        if closed.responsibilities.count (fun row => row.heldBy holder && row.unfinished) = 0 then
          closeEpoch holder resolution now closed
        else .ok (none, closed)

def finish (ref : String) (boundary : RuntimeBoundary) (checkpointRef : Option String) : Act Unit :=
  if !safeIdentifier ref 128 then
    Prog.raise (.invalid "runtime_responsibility_boundary_invalid")
  else if !checkpointRef.all (safeIdentifier · 128) then
    Prog.raise (.invalid "runtime_checkpoint_ref_invalid")
  else if boundary = .checkpoint ∧ checkpointRef = none then
    Prog.raise (.invalid "runtime_checkpoint_ref_required")
  else do
    let now ← now
    let incarnation ← incarnationRef
    let tables ← read id
    ofExcept (assertCurrentIncarnation incarnation tables)
    match tables.responsibilities.find? ref with
    | none => Prog.raise (.invalid "runtime_responsibility_not_found")
    | some row => do
      ofExcept (assertFinishReceipt row (tables.receipts.find? ref) boundary checkpointRef)
      if row.status = .finished then pure ()
      else do
        let resolution ← resolveNoEffectAcquisition row
        match resolution with
        | some (.unknown, _) => Prog.raise (unavailable "power_inhibitor_reconciliation_required")
        | _ => do
          let release ← write (finishTx incarnation ref boundary checkpointRef resolution now)
          match release with
          | some lease => releaseEpoch lease
          | none => pure ()

/-- The unfinished responsibilities that already have an exact Owner receipt. -/
def recordedBoundaries (tables : Tables) : List BoundaryReceipt :=
  (tables.responsibilities.selectBy Responsibility.unfinished Responsibility.createdAt).filterMap
    fun row => tables.receipts.find? row.ref

/-- Replay lost finish acknowledgements; only a pending reconciliation is passed over. -/
def finishRecordedBoundaries : Act Unit := do
  let receipts ← read recordedBoundaries
  Prog.forEach (fun receipt : BoundaryReceipt => do
    match ← (finish receipt.responsibilityRef receipt.boundary receipt.checkpointRef).attempt with
    | .ok _ => pure ()
    | .error error =>
      if error = .unavailable "power_inhibitor_reconciliation_required" then pure ()
      else Prog.raise error) receipts

end MetaResearch.RuntimeProtection

import MetaResearch.ToMathlib.Program
import MetaResearch.ToMathlib.Table

/-! # The power ledger and its surroundings

Rows of the Agent Runtime tables that record durable power responsibility, and the host a daemon
runs on: its native inhibitor, its clock and the moments at which its process dies. A native
answer depends only on the number of the interaction and on the question, so every sequence of
confirmations, losses, refusals and unknown answers is the behaviour of some host. References
minted with a fresh UUID are numbered by the interaction that minted them.
-/

namespace MetaResearch.RuntimeProtection

inductive RuntimeBoundary where
  | checkpoint | permanentFence | terminal
deriving DecidableEq, Repr

inductive InhibitorHoldStatus where
  | confirmed | absent | unknown
deriving DecidableEq, Repr

inductive ResponsibilityStatus where
  | acquiring | active | waiting | interrupted | finished
deriving DecidableEq, Repr

inductive EpochStatus where
  | acquiring | active | releasing | released | failed | lost | releasePending
deriving DecidableEq, Repr

inductive ReconciliationStatus where
  | required | protectedHold | completed | terminal
deriving DecidableEq, Repr

inductive MissingBoundary where
  | inhibitorConfirmation | effectResultOrCheckpoint
deriving DecidableEq, Repr

inductive InstanceStatus where
  | active | interrupted | stopped
deriving DecidableEq, Repr

inductive ProbeStatus where
  | unprobed | probing | ready | unavailable
deriving DecidableEq, Repr

/-- The fixed holder of the capability probe, or one minted for an effect. -/
inductive HolderRef where
  | startupProbe
  | powerHolder (serial : ℕ)
deriving DecidableEq, Repr

structure RuntimeEffectIdentity where
  responsibilityRef : String
  ownerScope : String
  rootRunRef : String
  operationRef : String
  effectKind : String
  attemptRef : Option String := none
  fenceRef : Option String := none
deriving DecidableEq, Repr

structure InhibitorLease where
  holderRef : HolderRef
  backend : String
  scope : String
  acquiredAt : ℤ
  nativeHolderRef : String
deriving DecidableEq, Repr

structure RuntimeEffectPermit where
  responsibilityRef : String
  operationRef : String
  holderRef : HolderRef
  incarnationRef : ℕ
deriving DecidableEq, Repr

/-- A row of `ar_execution_responsibilities`. -/
structure Responsibility where
  identity : RuntimeEffectIdentity
  incarnationRef : ℕ
  holderRef : Option HolderRef
  status : ResponsibilityStatus
  boundary : Option RuntimeBoundary
  checkpointRef : Option String
  reasonCode : Option String
  createdAt : ℤ
  updatedAt : ℤ
  finishedAt : Option ℤ
deriving DecidableEq, Repr

def Responsibility.ref (row : Responsibility) : String := row.identity.responsibilityRef

/-- A row of `ar_power_inhibitor_epochs`. -/
structure Epoch where
  holderRef : HolderRef
  incarnationRef : ℕ
  backend : String
  scope : String
  nativeHolderRef : Option String
  status : EpochStatus
  failureCode : Option String
  acquiredAt : Option ℤ
  releasedAt : Option ℤ
  updatedAt : ℤ
deriving DecidableEq, Repr

/-- A row of `ar_runtime_interruptions`. -/
structure Interruption where
  responsibilityRef : String
  interruptionKind : String
  reasonCode : String
  firstMissingBoundary : MissingBoundary
  reconciliationStatus : ReconciliationStatus
  recordedAt : ℤ
  reconciledAt : Option ℤ
deriving DecidableEq, Repr

/-- A row of `ar_runtime_boundary_receipts`. -/
structure BoundaryReceipt where
  responsibilityRef : String
  ownerScope : String
  rootRunRef : String
  attemptRef : Option String
  fenceRef : Option String
  operationRef : String
  boundary : RuntimeBoundary
  checkpointRef : Option String
  ownerEvidenceRef : String
deriving DecidableEq, Repr

/-- A row of `ar_runtime_instances`. -/
structure RuntimeInstance where
  incarnationRef : ℕ
  status : InstanceStatus
  startedAt : ℤ
deriving DecidableEq, Repr

/-- A row of `ar_power_inhibitor_capabilities`. -/
structure Capability where
  incarnationRef : ℕ
  holderRef : Option HolderRef
  backend : String
  scope : String
  probeStatus : ProbeStatus
  failureCode : Option String
  probedAt : Option ℤ
  updatedAt : ℤ
deriving DecidableEq, Repr

structure Tables where
  responsibilities : Table Responsibility.ref := ∅
  epochs : Table Epoch.holderRef := ∅
  interruptions : List Interruption := []
  receipts : Table BoundaryReceipt.responsibilityRef := ∅
  instances : Table RuntimeInstance.incarnationRef := ∅
  capabilities : Table Capability.incarnationRef := ∅

/-- What one `RuntimeProtection` object keeps in memory. -/
structure Memory where
  incarnationRef : ℕ
  releasedDuringStartup : List HolderRef
deriving DecidableEq, Repr

inductive ProtectionError where
  /-- `RuntimeProtectionUnavailable` -/
  | unavailable (code : String)
  /-- `ValueError` -/
  | invalid (code : String)
  /-- A NULL column converted to a number. -/
  | typeError
  /-- A violated table constraint. -/
  | integrityError
deriving DecidableEq, Repr

/-- How a native call fails: with the typed exception, or with any other one. -/
inductive NativeFailure where
  | unavailable (code : String)
  | other
deriving DecidableEq, Repr

/-- What an adapter says about a hold: the status of `query_hold`, or the truth of `is_confirmed`. -/
inductive HoldAnswer where
  | queried (status : InhibitorHoldStatus)
  | unrecognized
  | isConfirmed (confirmed : Bool)
  | raised
deriving DecidableEq, Repr

/-- The surroundings of a daemon. The failing answer of `queryExactHold` covers an exception and
every answer of the wrong shape. -/
structure Host where
  kind : String
  allowsBackendSupersession : Bool
  canQueryExactHold : Bool
  dies : ℕ → Bool
  clock : ℕ → ℤ
  acquire : ℕ → HolderRef → Except NativeFailure InhibitorLease
  queryHold : ℕ → InhibitorLease → HoldAnswer
  queryExactHold : ℕ → HolderRef → Option (InhibitorHoldStatus × Option InhibitorLease)
  release : ℕ → InhibitorLease → Bool

instance : Mortal Host := ⟨Host.dies⟩

abbrev PowerWorld := World Tables Memory
abbrev Act := Prog Host PowerWorld ProtectionError

/-! ### Identifiers -/

/-- `_safe_identifier`: the pattern `[A-Za-z0-9][A-Za-z0-9._:@-]{0,127}` and a maximal length. -/
def safeIdentifier (value : String) (maximum : ℕ) : Bool :=
  match value.toList with
  | [] => false
  | first :: rest =>
    decide (rest.length + 1 ≤ maximum) && decide (rest.length ≤ 127) && first.isAlphanum &&
      rest.all fun char => char.isAlphanum || ".:_@-".toList.contains char

def logIdentifier (value fallback : String) : String :=
  if safeIdentifier value 128 then value else fallback

/-- The constructor of the typed exception replaces an unsafe code. -/
def unavailable (code : String) : ProtectionError :=
  .unavailable (if safeIdentifier code 96 then code else "runtime_protection_unavailable")

def ownerScopes : List String := ["agent_runtime", "human_collaboration"]

def effectKinds : List String :=
  ["provider_unit", "drafting_claim", "acquisition", "harness_root", "harness_probe",
    "runtime_reconciliation"]

def acquisitionReconciliationCodes : List String :=
  ["power_inhibitor_reconciliation_required", "power_inhibitor_systemd_reconciliation_required",
    "power_inhibitor_windows_guardian_reconciliation_failed"]

def validateIdentity (identity : RuntimeEffectIdentity) : Except ProtectionError Unit :=
  if safeIdentifier identity.responsibilityRef 96 && ownerScopes.contains identity.ownerScope &&
      safeIdentifier identity.rootRunRef 128 && safeIdentifier identity.operationRef 128 &&
      effectKinds.contains identity.effectKind &&
      identity.attemptRef.all (safeIdentifier · 128) &&
      identity.fenceRef.all (safeIdentifier · 128) then
    .ok ()
  else .error (.invalid "runtime_effect_identity_invalid")

/-- `_validate_lease`; holder references are safe identifiers by construction. -/
def leaseValid (lease : InhibitorLease) (holder : HolderRef) : Bool :=
  lease.holderRef = holder && safeIdentifier lease.backend 64 && safeIdentifier lease.scope 64 &&
    safeIdentifier lease.nativeHolderRef 128

def assertSameIdentity (row : Responsibility) (identity : RuntimeEffectIdentity) :
    Except ProtectionError Unit :=
  if row.identity = identity then .ok ()
  else .error (unavailable "runtime_responsibility_identity_conflict")

def permit (identity : RuntimeEffectIdentity) (lease : InhibitorLease) (incarnation : ℕ) :
    RuntimeEffectPermit :=
  ⟨identity.responsibilityRef, identity.operationRef, lease.holderRef, incarnation⟩

/-- `_lease_from_mapping`: a missing native reference reads as the text `None`. -/
def leaseFromEpoch (epoch : Epoch) : Except ProtectionError InhibitorLease :=
  match epoch.acquiredAt with
  | none => .error .typeError
  | some acquiredAt => .ok {
      holderRef := epoch.holderRef
      backend := epoch.backend
      scope := epoch.scope
      acquiredAt := acquiredAt
      nativeHolderRef := epoch.nativeHolderRef.getD "None" }

/-! ### Primitive actions -/

def read {α : Type} (view : Tables → α) : Act α := Prog.observe fun world => view world.durable

def write {α : Type} (transaction : Tables → Except ProtectionError (α × Tables)) : Act α :=
  Prog.commit transaction

/-- A transaction that cannot raise. -/
def change (transaction : Tables → Tables) : Act Unit :=
  Prog.commit fun tables => .ok ((), transaction tables)

def ofExcept {α : Type} : Except ProtectionError α → Act α
  | .ok value => pure value
  | .error error => Prog.raise error

def incarnationRef : Act ℕ := Prog.observe fun world => world.memory.incarnationRef

def now : Act ℤ := Prog.ask Host.clock

def newRef : Act ℕ := Prog.ask fun _ serial => serial

def inhibitorKind : Act String := Prog.ask fun host _ => host.kind

/-! ### Table updates shared by the methods -/

namespace Tables

def updateEpochs (tables : Tables) (chosen : Epoch → Bool) (rewrite : Rewrite Epoch.holderRef) :
    Tables :=
  { tables with epochs := tables.epochs.update chosen rewrite }

def updateResponsibilities (tables : Tables) (chosen : Responsibility → Bool)
    (rewrite : Rewrite Responsibility.ref) : Tables :=
  { tables with responsibilities := tables.responsibilities.update chosen rewrite }

def updateInterruptions (tables : Tables) (chosen : Interruption → Bool)
    (rewrite : Interruption → Interruption) : Tables :=
  { tables with
    interruptions := tables.interruptions.map fun row => if chosen row then rewrite row else row }

def insertEpoch (tables : Tables) (epoch : Epoch) : Except ProtectionError Tables :=
  match tables.epochs.insert? epoch with
  | some epochs => .ok { tables with epochs := epochs }
  | none => .error .integrityError

end Tables

/-- A newly issued epoch, before any native answer. -/
def issuedEpoch (holder : HolderRef) (backend : String) (incarnation : ℕ) (now : ℤ) : Epoch where
  holderRef := holder
  incarnationRef := incarnation
  backend := backend
  scope := "sleep"
  nativeHolderRef := none
  status := .acquiring
  failureCode := none
  acquiredAt := none
  releasedAt := none
  updatedAt := now

def Epoch.withLease (epoch : Epoch) (lease : InhibitorLease) : Epoch :=
  { epoch with
    backend := lease.backend
    scope := lease.scope
    nativeHolderRef := some lease.nativeHolderRef
    acquiredAt := some lease.acquiredAt }

end MetaResearch.RuntimeProtection

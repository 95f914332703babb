import MetaResearch.Soundness.RuntimeProtection.Evolution

/-! # What each program may settle

Every program of the source but `acquire` itself and the registration of a start is framed by a move
of the ledger in which nothing becomes active: a finish closes its own responsibility under its own
receipt, the settlement of the ledger closes what has a receipt, and the others settle nothing. The
programs are taken in the order of the source.
-/

namespace MetaResearch.RuntimeProtection

/-- Which rows a program may settle, by the receipts and the incarnation it started with. -/
abbrev Gains := Table BoundaryReceipt.responsibilityRef → ℕ → Responsibility → Prop

/-- Closed under the exact boundary of one of the receipts. -/
def Closed (receipts : Table BoundaryReceipt.responsibilityRef) (row : Responsibility) : Prop :=
  row.status = .finished ∧ ∃ receipt ∈ receipts, receipt.Closes row

/-- One and the same daemon, later: the ledger has moved. -/
structure Evolves (gains : Gains) (before after : PowerWorld) : Prop where
  tick : before.tick ≤ after.tick
  incarnation : after.memory.incarnationRef = before.memory.incarnationRef
  moves : Moves (gains before.durable.receipts before.memory.incarnationRef) before.durable after.durable

theorem Evolves.refl {gains : Gains} (world : PowerWorld) : Evolves gains world world :=
  ⟨le_rfl, rfl, .refl _⟩

theorem Evolves.trans {gains : Gains} {before middle after : PowerWorld}
    (first : Evolves gains before middle) (second : Evolves gains middle after) :
    Evolves gains before after :=
  ⟨first.tick.trans second.tick, second.incarnation.trans first.incarnation,
    first.moves.trans (first.moves.receipts ▸ first.incarnation ▸ second.moves)⟩

instance (gains : Gains) : IsPreorder PowerWorld (Evolves gains) where
  refl := Evolves.refl
  trans _ _ _ := Evolves.trans

theorem Evolves.mono {gains other : Gains} {before after : PowerWorld} (evolves : Evolves gains before after)
    (weaker : ∀ receipts incarnation row, gains receipts incarnation row → other receipts incarnation row) :
    Evolves other before after :=
  ⟨evolves.tick, evolves.incarnation, evolves.moves.mono (weaker _ _)⟩

/-- The program settles no other rows than it may. -/
abbrev Framed (gains : Gains) {α : Type} (prog : Act α) : Prop := prog.Leaves (Evolves gains)

namespace Framed

variable {gains : Gains} {α β : Type}

/-! ### Rules -/

theorem ofExcept {value : Except ProtectionError α} : Framed gains (ofExcept value) := by
  cases value with
  | ok value => exact .pure
  | error error => exact .raise

theorem ask {answer : Host → ℕ → α} : Framed gains (Prog.ask answer) :=
  Prog.Leaves.ask fun _ => ⟨Nat.le_succ _, rfl, .refl _⟩

theorem remember {change : Memory → Memory} (same : ∀ memory, (change memory).incarnationRef = memory.incarnationRef) :
    Framed gains (Prog.remember change) :=
  Prog.Leaves.remember fun world => ⟨le_rfl, same world.memory, .refl _⟩

theorem write {transaction : Tables → Except ProtectionError (α × Tables)}
    (moves : ∀ {tables value after incarnation}, transaction tables = .ok (value, after) →
      Moves (gains tables.receipts incarnation) tables after) :
    Framed gains (RuntimeProtection.write transaction) :=
  .commit (fun _ => ⟨Nat.le_succ _, rfl, .refl _⟩) fun _ _ _ success => ⟨Nat.le_succ _, rfl, moves success⟩

theorem change {transaction : Tables → Tables}
    (moves : ∀ {tables incarnation}, Moves (gains tables.receipts incarnation) tables (transaction tables)) :
    Framed gains (RuntimeProtection.change transaction) := by
  refine write fun success => ?_
  obtain ⟨_, rfl⟩ := Prod.mk.inj (Except.ok.inj success)
  exact moves

/-! ### Diagnostics, native requests and releases -/

theorem recordCapability {status : ProbeStatus} {holder : HolderRef} {backend scope : String}
    {reason : Option String} : Framed gains (recordCapability status holder backend scope reason) :=
  .bind .observe fun _ => .bind ask fun _ => change ((Moves.refl _).congr rfl rfl rfl rfl)

theorem requestHold {holder : HolderRef} : Framed gains (requestHold holder) := by
  refine .bind ask fun answer => ?_
  split
  · exact .pure
  · exact .pure
  · split_ifs
    · refine .bind (.bind ask fun status => ?_) fun code => ?_
      · cases status <;> exact .pure
      · cases code <;> exact .pure
    · exact .pure

theorem leaseOf {holder : HolderRef} : Framed gains (leaseOf holder) := by
  refine .bind .observe fun epoch => ?_
  split
  · split_ifs
    · exact ofExcept
    · exact .raise
  · exact .raise

theorem activeLease : Framed gains activeLease := by
  refine .bind .observe fun epoch => ?_
  split
  · exact .pure
  · exact .bind ofExcept fun _ => .pure

theorem markHolderLost {lease : InhibitorLease} : Framed gains (markHolderLost lease) :=
  .bind ask fun _ => .bind (change Moves.holderLostTx) fun _ => recordCapability

theorem releaseEpoch {lease : InhibitorLease} : Framed gains (releaseEpoch lease) := by
  refine .bind ask fun released => .bind ask fun _ => .bind (change Moves.updateEpochs) fun _ => ?_
  split_ifs
  · exact .bind (remember fun _ => rfl) fun _ => recordCapability
  · exact recordCapability

theorem retryPendingReleases : Framed gains retryPendingReleases :=
  .bind ask fun _ => .bind (write Moves.retryReleasesTx) fun _ =>
    .forEach fun _ => .bind ofExcept fun _ => releaseEpoch

/-! ### Finishing -/

theorem resolveNoEffectAcquisition {row : Responsibility} :
    Framed gains (resolveNoEffectAcquisition row) := by
  unfold RuntimeProtection.resolveNoEffectAcquisition
  split
  · exact .pure
  split_ifs
  · refine .bind .observe fun epoch => ?_
    split
    · exact .pure
    split_ifs
    · exact .pure
    · refine .bind ask fun answer => ?_
      split
      · exact .bind recordCapability fun _ => .pure
      · exact .bind recordCapability fun _ => .pure
      · exact .pure
    · refine .bind ofExcept fun lease => .bind ask fun status => ?_
      split_ifs
      · exact .bind recordCapability fun _ => .pure
      · exact .pure
  · exact .pure

/-- A finish settles its own responsibility only, by the receipt of exactly its boundary. -/
theorem finish {ref : String} {boundary : RuntimeBoundary} {checkpointRef : Option String} :
    Framed (fun receipts _ => ClosedUnder ref boundary checkpointRef receipts)
      (finish ref boundary checkpointRef) := by
  unfold RuntimeProtection.finish
  split_ifs
  · exact .raise
  · exact .raise
  · exact .raise
  refine .bind ask fun _ => .bind .observe fun _ => .bind .observe fun tables =>
    .bind ofExcept fun _ => ?_
  split
  · exact .raise
  refine .bind ofExcept fun _ => ?_
  split_ifs
  · exact .pure
  refine .bind resolveNoEffectAcquisition fun resolution => ?_
  split
  · exact .raise
  refine .bind (write Moves.finishTx) fun release => ?_
  split
  · exact releaseEpoch
  · exact .pure

theorem finishRecordedBoundaries : Framed (fun receipts _ => Closed receipts) finishRecordedBoundaries := by
  refine .bind .observe fun receipts => .forEach fun receipt => .bind ?_ fun outcome => ?_
  · exact (finish.mono fun _ _ evolves => evolves.mono fun _ _ _ closed =>
      ⟨closed.1, closed.2.2.2.2⟩).attempt
  · split
    · exact .pure
    · split_ifs
      · exact .pure
      · exact .raise

theorem settleLedger : Framed (fun receipts _ => Closed receipts) settleLedger :=
  .bind finishRecordedBoundaries fun _ => retryPendingReleases

/-! ### Protection of interrupted responsibilities -/

theorem recoverExactAcquiringHolder {holder : HolderRef} :
    Framed gains (recoverExactAcquiringHolder holder) := by
  refine .bind requestHold fun request => ?_
  split
  · exact .bind ask fun _ => .bind (change Moves.interruptedReasonTx) fun _ => .bind ask fun _ =>
      .bind recordCapability fun _ => .pure
  · refine .bind ask fun _ => .bind .observe fun _ => .bind (write Moves.recoverHolderTx) fun found => ?_
    split_ifs
    · exact .bind recordCapability fun _ => .pure
    · exact .pure

theorem recoverExactHolders {holders : List HolderRef} : Framed gains (recoverExactHolders holders) := by
  induction holders with
  | nil => exact .pure
  | cons holder rest ih =>
    refine .bind recoverExactAcquiringHolder fun found => ?_
    split_ifs
    · exact ih
    · exact .pure

theorem recoverUnresolved : Framed gains recoverUnresolved := by
  refine .bind .observe fun count => ?_
  split_ifs
  · exact .pure
  refine .bind .observe fun holders => .bind recoverExactHolders fun recovered => ?_
  split_ifs
  · exact .pure
  · exact .bind .observe fun _ => .pure
  · exact .pure

theorem reissueHold {count : ℕ} : Framed gains (reissueHold count) := by
  refine .bind ask fun serial => .bind ask fun _ => .bind ask fun _ => .bind .observe fun _ =>
    .bind (write Moves.reissueTx) fun _ => .bind requestHold fun request => ?_
  split
  · exact .bind ask fun _ => .bind (change Moves.reacquireFailureTx) fun _ => .bind ask fun _ =>
      .bind recordCapability fun _ => .pure
  · exact .bind ask fun _ => .bind (change Moves.reacquiredTx) fun _ =>
      .bind recordCapability fun _ => .pure

theorem protectInterrupted {count : ℕ} : Framed gains (protectInterrupted count) := by
  refine .bind activeLease fun active => ?_
  split
  · exact reissueHold
  refine .bind ask fun status => ?_
  cases status with
  | confirmed =>
    exact .bind ask fun _ => .bind (change (Moves.relinkInterrupted.congr rfl rfl rfl rfl)) fun _ =>
      .bind recordCapability fun _ => .pure
  | unknown => exact .bind recordCapability fun _ => .pure
  | absent => exact .bind markHolderLost fun _ => reissueHold

theorem ensureInterruptedProtected : Framed gains ensureInterruptedProtected := by
  refine .bind recoverUnresolved fun count => ?_
  split
  · exact .pure
  · exact .pure
  · exact protectInterrupted

theorem acquirePreamble {identity : RuntimeEffectIdentity} :
    Framed (fun receipts _ => Closed receipts) (acquirePreamble identity) := by
  have admitted : Framed (fun receipts _ => Closed receipts) (admission identity) := by
    refine .bind ofExcept fun _ => .bind settleLedger fun _ => .bind .observe fun pending => ?_
    split_ifs
    · exact .raise
    · exact .pure
  refine .bind admitted fun _ => .bind ensureInterruptedProtected fun shielded => ?_
  split_ifs
  · exact .pure
  · exact .raise

theorem recordAcquireFailure {identity : RuntimeEffectIdentity} {holder : HolderRef} {reason : String}
    {lease : Option InhibitorLease} : Framed gains (recordAcquireFailure identity holder reason lease) :=
  .bind ask fun _ => .bind (change Moves.acquireFailureTx) fun _ => .bind ask fun _ => recordCapability

/-! ### Starts -/

theorem reviewInterruptedHolder {holder : HolderRef} : Framed gains (reviewInterruptedHolder holder) := by
  refine .bind leaseOf.attempt fun lease => ?_
  split
  · exact .pure
  · exact .raise
  · refine .bind ask fun status => ?_
    cases status with
    | confirmed => exact change ((Moves.refl _).congr rfl rfl rfl rfl)
    | absent => exact markHolderLost
    | unknown => exact recordCapability

theorem supersedeExistingEpochBackends : Framed gains supersedeExistingEpochBackends := by
  refine .bind ask fun able => ?_
  split_ifs
  · refine .bind .observe fun _ => .forEach fun epoch => .bind ask fun kind => ?_
    split_ifs
    · exact .pure
    · refine .bind ask fun answer => ?_
      split
      · split_ifs
        · exact .bind ask fun _ => change Moves.updateEpochs
        · exact .pure
      · exact .pure
  · exact .pure

theorem prepareCapabilityProbeEpoch : Framed gains prepareCapabilityProbeEpoch :=
  .bind ask fun _ => .bind .observe fun _ => .bind ask fun _ =>
    .bind (write Moves.prepareProbeTx) fun _ => recordCapability

theorem attemptCapabilityProbe {recovering : Bool} : Framed gains (attemptCapabilityProbe recovering) := by
  have noted : Framed gains (noteProbing recovering) := by
    unfold noteProbing
    split_ifs
    · refine .bind .observe fun epoch => ?_
      split
      · exact recordCapability
      · exact .pure
    · exact .pure
  have dismissed {code : String} : Framed gains (dismissProbe recovering code) := by
    unfold dismissProbe
    split_ifs
    · exact .pure
    · exact .bind ask fun _ => change Moves.updateEpochs
  refine .bind noted fun _ => .bind requestHold fun request => ?_
  split
  · exact .bind dismissed fun _ => .bind ask fun _ => recordCapability
  · exact .bind dismissed fun _ => .bind ask fun _ => recordCapability
  · exact .bind ask fun _ => .bind .observe fun _ => .bind (change Moves.updateEpochs) fun _ => releaseEpoch

theorem probeEpoch : Framed gains probeEpoch := by
  refine .bind .observe fun memory => .bind .observe fun epoch => ?_
  split <;> split_ifs
  · exact .bind ofExcept fun _ => recordCapability
  · exact attemptCapabilityProbe
  · exact .bind prepareCapabilityProbeEpoch fun _ => attemptCapabilityProbe
  · exact .pure
  · exact .bind prepareCapabilityProbeEpoch fun _ => attemptCapabilityProbe

theorem runStartupProbe {shielded : Bool} : Framed gains (runStartupProbe shielded) := by
  refine .bind .observe fun _ => .bind .observe fun pending => ?_
  split
  · exact recordCapability
  split_ifs
  · exact .bind .observe fun _ => .bind .observe fun _ => .bind ask fun _ => recordCapability
  refine .bind .observe fun epoch => ?_
  split
  · refine .bind ofExcept fun _ => .bind ask fun status => ?_
    cases status with
    | confirmed => exact recordCapability
    | unknown => exact recordCapability
    | absent => exact probeEpoch
  · exact probeEpoch

/-! ### Remaining commands -/

theorem interruptActive {kind code : String} : Framed gains (interruptActive kind code) := by
  unfold RuntimeProtection.interruptActive
  split_ifs
  · exact .bind ask fun _ => change Moves.interruptActiveTx
  · exact .raise

theorem reconcileStartup : Framed gains reconcileStartup := by
  refine .bind activeLease fun lease => ?_
  split
  · exact .pure
  · refine .bind ask fun status => ?_
    cases status with
    | confirmed => exact .pure
    | unknown => exact recordCapability
    | absent => exact markHolderLost

end Framed

end MetaResearch.RuntimeProtection

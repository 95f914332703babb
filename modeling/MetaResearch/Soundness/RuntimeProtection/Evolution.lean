import MetaResearch.Soundness.RuntimeProtection.Ledger
import MetaResearch.ToMathlib.ProgramFrame

/-! # How the ledger evolves

The two settled statuses of a responsibility are active and finished. A move between two ledgers
forgets no responsibility, epoch or receipt and leaves every finished row exactly as it was; a row
that is settled afterwards was there before, or is one that the mover answers for. Every transaction
of the code is such a move, whatever its program was told.
-/

namespace MetaResearch.RuntimeProtection

/-- The statuses that only an own step of the responsibility may reach. -/
def Responsibility.Settled (row : Responsibility) : Prop :=
  row.status = .active ∨ row.status = .finished

/-- The receipt proves exactly the boundary under which the responsibility was closed. -/
structure BoundaryReceipt.Closes (receipt : BoundaryReceipt) (row : Responsibility) : Prop where
  responsibility : receipt.responsibilityRef = row.ref
  boundary : row.boundary = some receipt.boundary
  checkpoint : row.checkpointRef = receipt.checkpointRef
  ownerScope : receipt.ownerScope = row.identity.ownerScope
  rootRun : receipt.rootRunRef = row.identity.rootRunRef
  attempt : receipt.attemptRef = row.identity.attemptRef
  fence : receipt.fenceRef = row.identity.fenceRef
  operation : receipt.operationRef = row.identity.operationRef

/-- From one ledger to a later one, where `gains` tells which rows may have been settled. -/
structure Moves (gains : Responsibility → Prop) (before after : Tables) : Prop where
  instances : after.instances = before.instances
  receipts : after.receipts = before.receipts
  epochs : ∀ epoch ∈ before.epochs, ∃ later ∈ after.epochs, later.holderRef = epoch.holderRef
  identities : ∀ row ∈ before.responsibilities,
    ∃ later ∈ after.responsibilities, later.identity = row.identity
  finished : ∀ row ∈ before.responsibilities, row.status = .finished → row ∈ after.responsibilities
  settled : ∀ row ∈ after.responsibilities, row.Settled → row ∈ before.responsibilities ∨ gains row

namespace Moves

variable {gains : Responsibility → Prop} {tables middle after : Tables}

theorem refl (tables : Tables) : Moves gains tables tables where
  instances := rfl
  receipts := rfl
  epochs epoch member := ⟨epoch, member, rfl⟩
  identities row member := ⟨row, member, rfl⟩
  finished _ member _ := member
  settled _ member _ := .inl member

theorem trans (first : Moves gains tables middle) (second : Moves gains middle after) :
    Moves gains tables after where
  instances := second.instances.trans first.instances
  receipts := second.receipts.trans first.receipts
  epochs epoch member := by
    obtain ⟨next, present, same⟩ := first.epochs epoch member
    obtain ⟨later, found, again⟩ := second.epochs next present
    exact ⟨later, found, again.trans same⟩
  identities row member := by
    obtain ⟨next, present, same⟩ := first.identities row member
    obtain ⟨later, found, again⟩ := second.identities next present
    exact ⟨later, found, again.trans same⟩
  finished row member done := second.finished row (first.finished row member done) done
  settled row member stable := by
    rcases second.settled row member stable with present | gained
    · exact first.settled row present stable
    · exact .inr gained

theorem mono {other : Responsibility → Prop} (moves : Moves gains tables after)
    (weaker : ∀ row, gains row → other row) : Moves other tables after :=
  { moves with settled := fun row member stable => (moves.settled row member stable).imp_right (weaker row) }

/-- Interruptions and capabilities are not looked at. -/
theorem congr (moves : Moves gains tables middle) (responsibilities : after.responsibilities = middle.responsibilities)
    (epochs : after.epochs = middle.epochs) (receipts : after.receipts = middle.receipts)
    (instances : after.instances = middle.instances) : Moves gains tables after := by
  obtain ⟨instances', receipts', epochs', identities, finished, settled⟩ := moves
  constructor <;> simp only [responsibilities, epochs, receipts, instances] <;> assumption

theorem updateEpochs {chosen : Epoch → Bool} {rewrite : Rewrite Epoch.holderRef} :
    Moves gains tables (tables.updateEpochs chosen rewrite) :=
  { refl tables with
    epochs := fun epoch member => Table.exists_key_update.mpr ⟨epoch, member, rfl⟩ }

theorem insertEpoch {epoch : Epoch} (success : tables.insertEpoch epoch = .ok after) :
    Moves gains tables after := by
  obtain ⟨epochs, inserted, rfl⟩ := Tables.insertEpoch_eq_ok success
  exact { refl tables with
    epochs := fun other member => ⟨other, (Table.mem_insert? inserted).mpr (.inl member), rfl⟩ }

/-- An update that keeps identities, chooses no finished row, and answers for what it settles. -/
theorem updateResponsibilities {chosen : Responsibility → Bool} {rewrite : Rewrite Responsibility.ref}
    (identity : ∀ row, (rewrite.apply row).identity = row.identity)
    (unfinished : ∀ row ∈ tables.responsibilities, chosen row = true → row.status ≠ .finished)
    (gained : ∀ row ∈ tables.responsibilities, chosen row = true → (rewrite.apply row).Settled →
      gains (rewrite.apply row)) :
    Moves gains tables (tables.updateResponsibilities chosen rewrite) where
  instances := rfl
  receipts := rfl
  epochs epoch member := ⟨epoch, member, rfl⟩
  identities row member := by
    cases hit : chosen row with
    | true => exact ⟨_, Table.mem_update_of_chosen member hit, identity row⟩
    | false => exact ⟨row, Table.mem_update_of_not member hit, rfl⟩
  finished row member done := by
    refine Table.mem_update_of_not member (Bool.eq_false_iff.mpr fun hit => ?_)
    exact unfinished row member hit done
  settled row member stable := by
    obtain ⟨old, present, ⟨hit, rfl⟩ | ⟨_, rfl⟩⟩ := Table.mem_update.mp member
    · exact .inr (gained old present hit stable)
    · exact .inl present

/-- An update that settles nothing. -/
theorem unsettle {chosen : Responsibility → Bool} {rewrite : Rewrite Responsibility.ref}
    (identity : ∀ row, (rewrite.apply row).identity = row.identity)
    (unfinished : ∀ row, chosen row = true → row.status ≠ .finished)
    (unsettled : ∀ row, chosen row = true → ¬ (rewrite.apply row).Settled) :
    Moves gains tables (tables.updateResponsibilities chosen rewrite) :=
  updateResponsibilities identity (fun row _ => unfinished row)
    fun row _ hit stable => (unsettled row hit stable).elim

/-! ### Holds -/

theorem linkAcquiringTx {ref : String} {holder : HolderRef} {now : ℤ} {done : Unit}
    (success : linkAcquiringTx ref holder now tables = .ok (done, after)) : Moves gains tables after := by
  unfold RuntimeProtection.linkAcquiringTx at success
  dsimp only at success
  split_ifs at success
  obtain ⟨_, rfl⟩ := Prod.mk.inj (Except.ok.inj success)
  refine unsettle (fun _ => rfl) ?_ ?_ <;> intro row hit <;>
    simp only [Bool.and_eq_true, decide_eq_true_eq] at hit <;> simp [Responsibility.Settled, hit]

theorem acquireFailureTx {ref reason : String} {holder : HolderRef} {lease : Option InhibitorLease}
    {now : ℤ} : Moves gains tables (acquireFailureTx ref holder reason lease now tables) := by
  refine updateEpochs.trans (unsettle (fun _ => rfl) ?_ ?_) <;> intro row hit <;>
    simp only [Bool.and_eq_true, decide_eq_true_eq] at hit <;> simp [Responsibility.Settled, hit]

/-- Interrupting rows that are not finished settles nothing. -/
theorem interruptRows {chosen : Responsibility → Bool} {reason : Responsibility → String} {now : ℤ}
    (unfinished : ∀ row, chosen row = true → row.status ≠ .finished) :
    Moves gains tables (interruptRows chosen reason now tables) :=
  unsettle (fun _ => rfl) unfinished fun _ _ stable => by simp [Responsibility.Settled] at stable

theorem holderLostTx {holder : HolderRef} {reason : String} {now : ℤ} :
    Moves gains tables (holderLostTx holder reason now tables) := by
  refine (updateEpochs.trans (interruptRows ?_)).congr rfl rfl rfl rfl
  intro row hit finished
  simp [Responsibility.live, finished] at hit

theorem retryReleasesTx {now : ℤ} {rows : List Epoch}
    (success : retryReleasesTx now tables = .ok (rows, after)) : Moves gains tables after := by
  obtain ⟨_, rfl⟩ := Prod.mk.inj (Except.ok.inj success)
  exact updateEpochs

/-- Only the responsibility named may be settled: it is made active by the given incarnation. -/
theorem activateTx {ref : String} {lease : InhibitorLease} {incarnation : ℕ} {now : ℤ} {done : Unit}
    (success : activateTx ref lease incarnation now tables = .ok (done, after)) :
    Moves (fun row => row.ref = ref ∧ row.status = .active ∧ row.incarnationRef = incarnation)
      tables after := by
  unfold RuntimeProtection.activateTx at success
  dsimp only at success
  split_ifs at success
  obtain ⟨_, rfl⟩ := Prod.mk.inj (Except.ok.inj success)
  refine updateEpochs.trans (updateResponsibilities (fun _ => rfl) ?_ ?_) <;> intro row _ hit <;>
    simp only [Bool.and_eq_true, decide_eq_true_eq] at hit
  · simp [hit]
  · exact fun _ => ⟨hit.1.1, rfl, rfl⟩

/-! ### Interrupted responsibilities -/

theorem interruptedReasonTx {chosen : Responsibility → Bool} {code : String} {now : ℤ} :
    Moves gains tables (interruptedReasonTx chosen code now tables) := by
  refine unsettle (fun _ => rfl) ?_ ?_ <;> intro row hit <;>
    simp only [Responsibility.interrupted, Bool.and_eq_true, decide_eq_true_eq] at hit <;>
    simp [Responsibility.Settled, hit]

theorem relinkInterrupted {holder : HolderRef} {now : ℤ} :
    Moves gains tables (relinkInterrupted holder now tables) := by
  refine unsettle (fun _ => rfl) ?_ ?_ <;> intro row hit <;>
    simp only [Responsibility.interrupted, decide_eq_true_eq] at hit <;>
    simp [Responsibility.Settled, hit]

theorem resumeAwaiting {holder : HolderRef} {incarnation : ℕ} {now : ℤ} :
    Moves gains tables (resumeAwaiting holder incarnation now tables) := by
  refine unsettle (fun _ => rfl) ?_ ?_ <;> intro row hit <;>
    simp only [Responsibility.interrupted, Bool.and_eq_true, decide_eq_true_eq] at hit <;>
    simp [Responsibility.Settled, hit]

theorem recoverHolderTx {lease : InhibitorLease} {incarnation : ℕ} {now : ℤ} {recovered : Bool}
    (success : recoverHolderTx lease incarnation now tables = .ok (recovered, after)) :
    Moves gains tables after := by
  unfold RuntimeProtection.recoverHolderTx at success
  split_ifs at success <;> obtain ⟨_, rfl⟩ := Prod.mk.inj (Except.ok.inj success)
  · exact (updateEpochs.trans resumeAwaiting).congr rfl rfl rfl rfl
  · exact refl tables

theorem reissueTx {holder : HolderRef} {kind : String} {incarnation expected : ℕ} {now : ℤ} {done : Unit}
    (success : reissueTx holder kind incarnation expected now tables = .ok (done, after)) :
    Moves gains tables after := by
  unfold RuntimeProtection.reissueTx insertIssuedEpoch at success
  simp only [bind, Except.bind] at success
  split at success
  · cases success
  rename_i issued inserted
  split_ifs at success
  obtain ⟨_, rfl⟩ := Prod.mk.inj (Except.ok.inj success)
  exact (insertEpoch inserted).trans relinkInterrupted

theorem reacquireFailureTx {holder : HolderRef} {code : String} {now : ℤ} :
    Moves gains tables (reacquireFailureTx holder code now tables) :=
  updateEpochs.trans interruptedReasonTx

theorem reacquiredTx {lease : InhibitorLease} {now : ℤ} :
    Moves gains tables (reacquiredTx lease now tables) :=
  (updateEpochs.trans relinkInterrupted).congr rfl rfl rfl rfl

/-! ### Acquisitions -/

theorem prepareTx {identity : RuntimeEffectIdentity} {incarnation : ℕ} {now : ℤ} {done : Unit}
    (success : prepareTx identity incarnation now tables = .ok (done, after)) :
    Moves gains tables after ∧ ∃ row ∈ after.responsibilities, row.identity = identity := by
  unfold RuntimeProtection.prepareTx at success
  split at success
  · rename_i responsibilities inserted
    obtain ⟨_, rfl⟩ := Prod.mk.inj (Except.ok.inj success)
    have mem {row : Responsibility} : row ∈ responsibilities ↔ row ∈ tables.responsibilities ∨ row = _ :=
      Table.mem_insert? inserted
    refine ⟨{ (refl tables : Moves gains tables tables) with
      identities := fun row member => ⟨row, mem.mpr (.inl member), rfl⟩
      finished := fun row member _ => mem.mpr (.inl member)
      settled := fun row member stable => ?_ }, _, mem.mpr (.inr rfl), rfl⟩
    rcases mem.mp member with old | rfl
    · exact .inl old
    · simp [Responsibility.Settled] at stable
  · cases success

theorem reopenTx {ref conflict : String} {holder : Option HolderRef} {incarnation : ℕ} {now : ℤ}
    {done : Unit} (success : reopenTx ref holder conflict incarnation now tables = .ok (done, after)) :
    Moves gains tables after := by
  unfold RuntimeProtection.reopenTx at success
  split_ifs at success
  obtain ⟨_, rfl⟩ := Prod.mk.inj (Except.ok.inj success)
  refine unsettle (fun _ => rfl) ?_ fun _ _ stable => by simp [Responsibility.Settled, reopened] at stable
  intro row hit finished
  simp [Responsibility.reopenable, finished] at hit

theorem retryExactTx {ref : String} {holder : HolderRef} {incarnation : ℕ} {now : ℤ} {done : Unit}
    (success : retryExactTx ref holder incarnation now tables = .ok (done, after)) :
    Moves gains tables after := by
  unfold RuntimeProtection.retryExactTx at success
  split_ifs at success
  exact updateEpochs.trans (reopenTx success)

theorem issueHolderTx {ref kind : String} {holder : HolderRef} {incarnation : ℕ} {now : ℤ} {done : Unit}
    (success : issueHolderTx ref holder kind incarnation now tables = .ok (done, after)) :
    Moves gains tables after := by
  unfold RuntimeProtection.issueHolderTx insertIssuedEpoch at success
  simp only [bind, Except.bind] at success
  split at success
  · cases success
  rename_i issued inserted
  exact (insertEpoch inserted).trans (linkAcquiringTx success)

/-! ### Starts and interruptions -/

theorem prepareProbeTx {kind : String} {incarnation : ℕ} {now : ℤ} {done : Unit}
    (success : prepareProbeTx kind incarnation now tables = .ok (done, after)) :
    Moves gains tables after := by
  unfold RuntimeProtection.prepareProbeTx insertIssuedEpoch at success
  dsimp only at success
  split at success
  · simp only [bind, Except.bind] at success
    split at success
    · cases success
    · rename_i inserted
      obtain ⟨_, rfl⟩ := Prod.mk.inj (Except.ok.inj success)
      exact insertEpoch inserted
  · obtain ⟨_, rfl⟩ := Prod.mk.inj (Except.ok.inj success)
    exact updateEpochs

theorem interruptActiveTx {kind reason : String} {now : ℤ} :
    Moves gains tables (interruptActiveTx kind reason now tables) := by
  refine (interruptRows ?_).congr rfl rfl rfl rfl
  intro row hit
  simp only [decide_eq_true_eq] at hit
  simp [hit]

end Moves

/-! ### Closing one responsibility -/

theorem closes_of_assertFinishReceipt {row : Responsibility} {receipt : Option BoundaryReceipt}
    {boundary : RuntimeBoundary} {checkpointRef : Option String}
    (proved : assertFinishReceipt row receipt boundary checkpointRef = .ok ()) :
    ∃ found, receipt = some found ∧ found.boundary = boundary ∧ found.checkpointRef = checkpointRef ∧
      found.ownerScope = row.identity.ownerScope ∧ found.rootRunRef = row.identity.rootRunRef ∧
      found.attemptRef = row.identity.attemptRef ∧ found.fenceRef = row.identity.fenceRef ∧
      found.operationRef = row.identity.operationRef := by
  unfold assertFinishReceipt at proved
  split at proved
  · cases proved
  rename_i found
  split_ifs at proved with evidence
  all_goals
    simp only [not_or, not_not, ne_eq] at evidence
    exact ⟨found, rfl, evidence⟩

/-- What a finish under a boundary may settle: its own responsibility, with the exact receipt. -/
def ClosedUnder (ref : String) (boundary : RuntimeBoundary) (checkpointRef : Option String)
    (receipts : Table BoundaryReceipt.responsibilityRef) (row : Responsibility) : Prop :=
  row.status = .finished ∧ row.ref = ref ∧ row.boundary = some boundary ∧
    row.checkpointRef = checkpointRef ∧ ∃ receipt ∈ receipts, receipt.Closes row

namespace Moves

variable {gains : Responsibility → Prop} {tables after : Tables}

theorem closeEpoch {holder : HolderRef} {now : ℤ} {lease : Option InhibitorLease}
    {resolution : Option (InhibitorHoldStatus × Option InhibitorLease)}
    (success : closeEpoch holder resolution now tables = .ok (lease, after)) :
    Moves gains tables after := by
  unfold RuntimeProtection.closeEpoch at success
  split at success
  · obtain ⟨_, rfl⟩ := Prod.mk.inj (Except.ok.inj success)
    exact refl tables
  rename_i epoch _
  split at success
  · cases leased : leaseFromEpoch epoch with
    | error error => simp [leased, bind, Except.bind] at success
    | ok value =>
      simp only [leased, bind, Except.bind, Except.ok.injEq, Prod.mk.injEq] at success
      obtain ⟨_, rfl⟩ := success
      exact updateEpochs
  all_goals obtain ⟨_, rfl⟩ := Prod.mk.inj (Except.ok.inj success)
  · exact updateEpochs
  · exact updateEpochs
  · exact refl tables

theorem finishTx {incarnation : ℕ} {ref : String} {boundary : RuntimeBoundary}
    {checkpointRef : Option String} {now : ℤ} {lease : Option InhibitorLease}
    {resolution : Option (InhibitorHoldStatus × Option InhibitorLease)}
    (success : finishTx incarnation ref boundary checkpointRef resolution now tables =
      .ok (lease, after)) :
    Moves (ClosedUnder ref boundary checkpointRef tables.receipts) tables after := by
  unfold RuntimeProtection.finishTx at success
  simp only [bind, Except.bind] at success
  split at success
  · cases success
  split at success
  · cases success
  rename_i row found
  split at success
  · cases success
  rename_i proved
  split_ifs at success with finished stale
  · obtain ⟨_, rfl⟩ := Prod.mk.inj (Except.ok.inj success)
    exact refl tables
  obtain ⟨member, key⟩ := Table.find?_eq_some_iff.mp found
  have own {other : Responsibility} (present : other ∈ tables.responsibilities)
      (hit : decide (other.ref = ref) = true) : other = row :=
    Table.eq_of_key present member ((of_decide_eq_true hit).trans key.symm)
  have closed : Moves (ClosedUnder ref boundary checkpointRef tables.receipts) tables
      (closeResponsibility ref boundary checkpointRef now tables) := by
    refine (updateResponsibilities (fun _ => rfl) ?_ ?_).congr rfl rfl rfl rfl
    · exact fun other present hit => own present hit ▸ finished
    · intro other present hit _
      obtain rfl := own present hit
      obtain ⟨receipt, stored, rfl, rfl, scope, run, attempt, fence, operation⟩ :=
        closes_of_assertFinishReceipt proved
      obtain ⟨proof, same⟩ := Table.find?_eq_some_iff.mp stored
      exact ⟨rfl, key, rfl, rfl, receipt, proof,
        ⟨same.trans key.symm, rfl, rfl, scope, run, attempt, fence, operation⟩⟩
  split at success
  · obtain ⟨_, rfl⟩ := Prod.mk.inj (Except.ok.inj success)
    exact closed
  split_ifs at success
  · exact closed.trans (closeEpoch success)
  · obtain ⟨_, rfl⟩ := Prod.mk.inj (Except.ok.inj success)
    exact closed

end Moves

end MetaResearch.RuntimeProtection

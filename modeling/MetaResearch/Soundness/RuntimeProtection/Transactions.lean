import MetaResearch.Soundness.RuntimeProtection.Ledger

/-! # Every transaction keeps the power ledger

One lemma for each transaction of the runtime protection. Most hold from any ledger. Four have a
condition on the state they run in: the two epoch updates without a status condition want an idle
holder, and the two updates that move all interrupted responsibilities must not strand an epoch.
-/

namespace MetaResearch.RuntimeProtection

theorem Tables.strands_eq_false_iff {tables : Tables} {holder : HolderRef} :
    tables.strands holder = false ↔
      ∀ epoch ∈ tables.epochs, epoch.status = .active → epoch.holderRef ≠ holder →
        ∃ row ∈ tables.responsibilities, row.holderRef = some epoch.holderRef ∧
          row.interrupted = false ∧ row.status ≠ .finished := by
  simp [Tables.strands, Responsibility.heldBy, Responsibility.unfinished, Table.mem_def, and_assoc]

/-- Every interrupted responsibility is linked to the holder, and some unfinished one is. -/
def Tables.Gathered (tables : Tables) (holder : HolderRef) : Prop :=
  (∀ row ∈ tables.responsibilities, row.interrupted = true → row.holderRef = some holder) ∧
    tables.Supported holder

/-- The epoch of the holder exists and is not active. -/
def Tables.Resting (tables : Tables) (holder : HolderRef) : Prop :=
  ∃ epoch ∈ tables.epochs, epoch.holderRef = holder ∧ epoch.status ≠ .active

namespace PowerLedger

variable {safe tight : Prop} {tick : ℕ} {tables after : Tables}

theorem linkAcquiringTx {ref : String} {holder : HolderRef} {now : ℤ} {done : Unit}
    (ledger : PowerLedger safe tight tick tables) (notProbe : holder ≠ .startupProbe)
    (issued : ∃ epoch ∈ tables.epochs, epoch.holderRef = holder)
    (success : linkAcquiringTx ref holder now tables = .ok (done, after)) :
    PowerLedger safe tight tick after := by
  unfold RuntimeProtection.linkAcquiringTx at success
  dsimp only at success
  split_ifs at success
  obtain ⟨_, rfl⟩ := Prod.mk.inj (Except.ok.inj success)
  refine ledger.relink (fun _ => rfl) notProbe issued (fun _ => rfl) ?_ ?_
  · intro row chosen
    simp only [Bool.and_eq_true, decide_eq_true_eq] at chosen
    simp [chosen.1.2]
  · intro on epoch member active
    obtain ⟨row, present, link, unfinished⟩ := ledger.supported on epoch member active
    refine ⟨row, present, link, unfinished, fun chosen => ?_⟩
    simp [link] at chosen

theorem epochs_of_linkAcquiringTx {ref : String} {holder : HolderRef} {now : ℤ} {done : Unit}
    (success : RuntimeProtection.linkAcquiringTx ref holder now tables = .ok (done, after)) :
    after.epochs = tables.epochs := by
  unfold RuntimeProtection.linkAcquiringTx at success
  dsimp only at success
  split_ifs at success
  obtain ⟨_, rfl⟩ := Prod.mk.inj (Except.ok.inj success)
  rfl

theorem activateTx {ref : String} {lease : InhibitorLease} {incarnation : ℕ} {now : ℤ} {done : Unit}
    (ledger : PowerLedger safe tight tick tables)
    (success : activateTx ref lease incarnation now tables = .ok (done, after)) :
    PowerLedger safe tight tick after := by
  unfold RuntimeProtection.activateTx at success
  dsimp only at success
  split_ifs at success with single
  obtain ⟨_, rfl⟩ := Prod.mk.inj (Except.ok.inj success)
  obtain ⟨row, member, chosen⟩ := Table.exists_of_count_pos (by rw [single]; omega)
  simp only [Bool.and_eq_true, decide_eq_true_eq, Responsibility.heldBy] at chosen
  obtain ⟨notProbe, epoch, issued, same⟩ := ledger.linked row member _ chosen.2
  have activated : PowerLedger safe tight tick (activateEpoch lease now tables) := by
    refine ledger.activateEpochs (fun _ => rfl) ?_
    intro other _ hit
    rw [decide_eq_true_eq] at hit
    rw [hit]
    exact ⟨notProbe, row, member, chosen.2, by simp [chosen.1.2]⟩
  refine activated.activateResponsibilities ?_ (fun _ => by simp) ?_
  · intro other hit
    simp only [Bool.and_eq_true, decide_eq_true_eq, Responsibility.heldBy] at hit
    exact hit.2.symm
  · intro other _ hit
    simp only [Bool.and_eq_true, decide_eq_true_eq, Responsibility.heldBy] at hit
    exact ⟨_, hit.2, _, Table.mem_update_of_chosen issued (decide_eq_true same), same, rfl⟩

/-- The failure of a native request needs a holder without active responsibilities. -/
theorem acquireFailureTx {ref reason : String} {holder : HolderRef} {lease : Option InhibitorLease}
    {now : ℤ} (ledger : PowerLedger safe tight tick tables) (idle : safe → tables.Idle holder) :
    PowerLedger safe tight tick (acquireFailureTx ref holder reason lease now tables) := by
  refine (ledger.updateEpochs ?_ ?_).updateResponsibilities (fun _ => rfl) (by simp) (by simp)
  · intro epoch
    dsimp only
    split_ifs <;> simp
  · intro on epoch _ hit
    rw [decide_eq_true_eq] at hit
    exact hit ▸ idle on

/-- Interrupting responsibilities keeps their holders, so it keeps the ledger. -/
theorem interruptRows {chosen : Responsibility → Bool} {reason : Responsibility → String} {now : ℤ}
    (ledger : PowerLedger safe tight tick tables) :
    PowerLedger safe tight tick (interruptRows chosen reason now tables) :=
  ledger.updateResponsibilities (fun _ => rfl) (by simp) (by simp)

theorem holderLostTx {holder : HolderRef} {reason : String} {now : ℤ}
    (ledger : PowerLedger safe tight tick tables) :
    PowerLedger safe tight tick (holderLostTx holder reason now tables) := by
  let live := fun row : Responsibility => row.heldBy holder && row.live
  have idle : (RuntimeProtection.interruptRows live (fun _ => reason) now tables).Idle holder := by
    intro row member active link
    obtain ⟨old, _, ⟨_, rfl⟩ | ⟨other, rfl⟩⟩ := Table.mem_update.mp member
    · simp at active
    · simp [live, Responsibility.heldBy, Responsibility.live, active, link] at other
  have lost : PowerLedger safe tight tick
      (loseEpoch holder reason now (RuntimeProtection.interruptRows live (fun _ => reason) now tables)) := by
    refine ledger.interruptRows.updateEpochs (by simp) ?_
    intro _ epoch _ hit
    simp only [Bool.and_eq_true, decide_eq_true_eq] at hit
    exact hit.1 ▸ idle
  exact lost.congr rfl rfl

theorem releaseTx {holder : HolderRef} {released : Bool} {now : ℤ}
    (ledger : PowerLedger safe tight tick tables) :
    PowerLedger safe tight tick (releaseTx holder released now tables) := by
  refine ledger.updateEpochs ?_ ?_
  · intro epoch
    dsimp only
    split_ifs <;> simp
  · intro on epoch member hit
    simp only [Bool.and_eq_true, decide_eq_true_eq] at hit
    exact ledger.idle_of_not_active on member (by simp [hit.2])

theorem retryReleasesTx {now : ℤ} {rows : List Epoch} (ledger : PowerLedger safe tight tick tables)
    (success : retryReleasesTx now tables = .ok (rows, after)) :
    PowerLedger safe tight tick after := by
  obtain ⟨_, rfl⟩ := Prod.mk.inj (Except.ok.inj success)
  refine ledger.updateEpochs (by simp) ?_
  intro on epoch member hit
  rw [decide_eq_true_eq] at hit
  exact ledger.idle_of_not_active on member (by simp [hit])

/-! ### Finishing -/

/-- The ledger without the law of supported epochs. -/
theorem forget (ledger : PowerLedger safe tight tick tables) : PowerLedger safe False tick tables :=
  { ledger with supported := False.elim }

theorem closeResponsibility {ref : String} {boundary : RuntimeBoundary}
    {checkpointRef : Option String} {now : ℤ} (ledger : PowerLedger safe tight tick tables) :
    PowerLedger safe False tick (closeResponsibility ref boundary checkpointRef now tables) where
  fresh := ledger.fresh
  linked row member holder link := by
    obtain ⟨old, present, ⟨_, rfl⟩ | ⟨_, rfl⟩⟩ := Table.mem_update.mp member
    · exact ledger.linked old present holder link
    · exact ledger.linked _ present holder link
  probe := ledger.probe
  held on row member active := by
    obtain ⟨old, present, ⟨_, rfl⟩ | ⟨_, rfl⟩⟩ := Table.mem_update.mp member
    · simp at active
    · exact ledger.held on _ present active
  supported := False.elim

/-- Closing a responsibility can only cost its own holder the last support. -/
private theorem supported_of_close {ref : String} {boundary : RuntimeBoundary}
    {checkpointRef : Option String} {now : ℤ} {holder : HolderRef} {closing : Responsibility}
    (found : tables.responsibilities.find? ref = some closing) (other : closing.holderRef ≠ some holder)
    (supported : tables.Supported holder) :
    (RuntimeProtection.closeResponsibility ref boundary checkpointRef now tables).Supported holder := by
  obtain ⟨row, member, link, unfinished⟩ := supported
  refine ⟨row, Table.mem_update_of_not member ?_, link, unfinished⟩
  rw [decide_eq_false_iff_not]
  intro same
  rw [← same, Table.find?_of_mem member] at found
  exact other (Option.some.inj found ▸ link)

/-- Closing an epoch without active responsibilities touches no other epoch, and leaves none of
its holder active. -/
private theorem closeEpoch_spec {holder : HolderRef} {now : ℤ} {lease : Option InhibitorLease}
    {resolution : Option (InhibitorHoldStatus × Option InhibitorLease)}
    (ledger : PowerLedger safe False tick tables) (idle : tables.Idle holder)
    (success : closeEpoch holder resolution now tables = .ok (lease, after)) :
    PowerLedger safe False tick after ∧ after.responsibilities = tables.responsibilities ∧
      ∀ epoch ∈ after.epochs, epoch.status = .active →
        epoch ∈ tables.epochs ∧ epoch.holderRef ≠ holder := by
  have kept {chosen : Epoch → Bool} {rewrite : Rewrite Epoch.holderRef}
      (inactive : ∀ epoch, (rewrite.apply epoch).status ≠ .active)
      (only : ∀ epoch, chosen epoch = true → epoch.holderRef = holder)
      (all : ∀ epoch ∈ tables.epochs, epoch.holderRef = holder → epoch.status = .active →
        chosen epoch = true) :
      PowerLedger safe False tick (tables.updateEpochs chosen rewrite) ∧
        (tables.updateEpochs chosen rewrite).responsibilities = tables.responsibilities ∧
        ∀ epoch ∈ (tables.updateEpochs chosen rewrite).epochs, epoch.status = .active →
          epoch ∈ tables.epochs ∧ epoch.holderRef ≠ holder := by
    refine ⟨ledger.updateEpochs inactive fun _ epoch _ hit => only epoch hit ▸ idle, rfl, ?_⟩
    intro epoch member active
    obtain ⟨old, present, ⟨_, rfl⟩ | ⟨missed, rfl⟩⟩ := Table.mem_update.mp member
    · exact (inactive old active).elim
    · exact ⟨present, fun same => by simp [all _ present same active] at missed⟩
  have unchanged (none_active : ∀ epoch ∈ tables.epochs, epoch.holderRef = holder →
      epoch.status ≠ .active) :
      PowerLedger safe False tick tables ∧ tables.responsibilities = tables.responsibilities ∧
        ∀ epoch ∈ tables.epochs, epoch.status = .active →
          epoch ∈ tables.epochs ∧ epoch.holderRef ≠ holder :=
    ⟨ledger, rfl, fun epoch member active =>
      ⟨member, fun same => none_active epoch member same active⟩⟩
  unfold closeEpoch at success
  split at success
  · rename_i absent
    obtain ⟨_, rfl⟩ := Prod.mk.inj (Except.ok.inj success)
    exact unchanged fun epoch member same => (Table.find?_eq_none_iff.mp absent epoch member same).elim
  · rename_i epoch found
    have unique {other : Epoch} (member : other ∈ tables.epochs) (same : other.holderRef = holder) :
        other = epoch :=
      Table.eq_of_key member (Table.mem_of_find? found) (same.trans (Table.key_of_find? found).symm)
    split at success
    · rename_i active
      cases leased : leaseFromEpoch epoch with
      | error error => simp [leased, bind, Except.bind] at success
      | ok _ =>
        simp only [leased, bind, Except.bind, Except.ok.injEq, Prod.mk.injEq] at success
        obtain ⟨_, rfl⟩ := success
        refine kept (by simp) (fun other hit => ?_) fun other _ same status => ?_
        · simp only [Bool.and_eq_true, decide_eq_true_eq] at hit
          exact hit.1
        · simp [same, status]
    all_goals
      rename_i status
      obtain ⟨_, rfl⟩ := Prod.mk.inj (Except.ok.inj success)
    · refine kept (by simp) (fun other hit => ?_) fun other member same active => ?_
      · simp only [Bool.and_eq_true, decide_eq_true_eq] at hit
        exact hit.1
      · rw [unique member same] at active
        simp [active] at status
    · refine kept (by simp) (fun other hit => ?_) fun other member same active => ?_
      · simp only [Bool.and_eq_true, decide_eq_true_eq] at hit
        exact hit.1
      · rw [unique member same] at active
        simp [active] at status
    · refine unchanged fun other member same active => ?_
      rw [unique member same] at active
      simp_all

theorem finishTx {incarnation : ℕ} {ref : String} {boundary : RuntimeBoundary}
    {checkpointRef : Option String} {now : ℤ} {lease : Option InhibitorLease}
    {resolution : Option (InhibitorHoldStatus × Option InhibitorLease)}
    (ledger : PowerLedger safe tight tick tables)
    (success : finishTx incarnation ref boundary checkpointRef resolution now tables =
      .ok (lease, after)) : PowerLedger safe tight tick after := by
  unfold RuntimeProtection.finishTx at success
  simp only [bind, Except.bind] at success
  split at success
  · cases success
  split at success
  · cases success
  rename_i row found
  split at success
  · cases success
  split_ifs at success with finished stale
  · obtain ⟨_, rfl⟩ := Prod.mk.inj (Except.ok.inj success)
    exact ledger
  have closed : PowerLedger safe False tick
      (RuntimeProtection.closeResponsibility ref boundary checkpointRef now tables) :=
    ledger.closeResponsibility
  split at success
  · rename_i unlinked
    obtain ⟨_, rfl⟩ := Prod.mk.inj (Except.ok.inj success)
    exact { closed with
      supported := fun on epoch member active =>
        supported_of_close found (by simp [unlinked]) (ledger.supported on epoch member active) }
  rename_i holder link
  have others {epoch : Epoch} (other : epoch.holderRef ≠ holder)
      (supported : tables.Supported epoch.holderRef) :
      (RuntimeProtection.closeResponsibility ref boundary checkpointRef now tables).Supported
        epoch.holderRef :=
    supported_of_close found (fun same => other (Option.some.inj (same.symm.trans link))) supported
  split_ifs at success with last
  · have unreferenced := Table.count_eq_zero_iff.mp last
    have idle : (RuntimeProtection.closeResponsibility ref boundary checkpointRef now tables).Idle
        holder := by
      intro other member active toHolder
      have := unreferenced other member
      simp [Responsibility.heldBy, Responsibility.unfinished, toHolder, active] at this
    obtain ⟨kept, responsibilities, rest⟩ := closeEpoch_spec closed idle success
    refine { kept with supported := fun on epoch member active => ?_ }
    obtain ⟨present, other⟩ := rest epoch member active
    have supported := others other (ledger.supported on epoch present active)
    unfold Tables.Supported at supported ⊢
    rwa [responsibilities]
  · obtain ⟨_, rfl⟩ := Prod.mk.inj (Except.ok.inj success)
    refine { closed with supported := fun on epoch member active => ?_ }
    by_cases same : epoch.holderRef = holder
    · obtain ⟨other, present, referenced⟩ := Table.exists_of_count_pos last
      simp only [Responsibility.heldBy, Responsibility.unfinished, Bool.and_eq_true,
        decide_eq_true_eq] at referenced
      exact ⟨other, present, same ▸ referenced.1, referenced.2⟩
    · exact others same (ledger.supported on epoch member active)

/-! ### Recovering and relinking -/

theorem not_probe (ledger : PowerLedger safe tight tick tables) {holder : HolderRef}
    (supported : tables.Supported holder) : holder ≠ .startupProbe := by
  obtain ⟨row, member, link, _⟩ := supported
  exact (ledger.linked row member holder link).1

theorem adoptEpoch {lease : InhibitorLease} {incarnation : Epoch → ℕ} {releasedAt : Epoch → Option ℤ}
    {now : ℤ} (ledger : PowerLedger safe tight tick tables)
    (supported : tables.Supported lease.holderRef) :
    PowerLedger safe tight tick (adoptEpoch lease incarnation releasedAt now tables) := by
  refine ledger.activateEpochs (fun _ => rfl) ?_
  intro epoch _ hit
  simp only [Bool.and_eq_true, decide_eq_true_eq] at hit
  rw [hit.1]
  exact ⟨ledger.not_probe supported, supported⟩

theorem recoverHolderTx {lease : InhibitorLease} {incarnation : ℕ} {now : ℤ} {recovered : Bool}
    (ledger : PowerLedger safe tight tick tables) (supported : tables.Supported lease.holderRef)
    (success : recoverHolderTx lease incarnation now tables = .ok (recovered, after)) :
    PowerLedger safe tight tick after := by
  unfold RuntimeProtection.recoverHolderTx at success
  split_ifs at success
  · obtain ⟨_, rfl⟩ := Prod.mk.inj (Except.ok.inj success)
    have adopted : PowerLedger safe tight tick
        (RuntimeProtection.adoptEpoch lease (fun _ => incarnation) (fun _ => none) now tables) :=
      ledger.adoptEpoch supported
    have resumed : PowerLedger safe tight tick (resumeAwaiting lease.holderRef incarnation now
        (RuntimeProtection.adoptEpoch lease (fun _ => incarnation) (fun _ => none) now tables)) :=
      adopted.updateResponsibilities (fun _ => rfl) (by simp) (by simp)
    exact resumed.congr rfl rfl
  · obtain ⟨_, rfl⟩ := Prod.mk.inj (Except.ok.inj success)
    exact ledger

theorem interruptedReasonTx {chosen : Responsibility → Bool} {code : String} {now : ℤ}
    (ledger : PowerLedger safe tight tick tables) :
    PowerLedger safe tight tick (interruptedReasonTx chosen code now tables) := by
  refine ledger.updateResponsibilities (fun _ => rfl) ?_ ?_ <;>
  · intro row hit
    simp only [Responsibility.interrupted, Bool.and_eq_true, decide_eq_true_eq] at hit
    simp [hit.2]

/-- Moving every interrupted responsibility to one holder must not strand another epoch. -/
theorem relinkInterrupted {holder : HolderRef} {now : ℤ} (ledger : PowerLedger safe tight tick tables)
    (notProbe : holder ≠ .startupProbe) (issued : ∃ epoch ∈ tables.epochs, epoch.holderRef = holder)
    (kept : tight → tables.strands holder = false) :
    PowerLedger safe tight tick (relinkInterrupted holder now tables) := by
  refine ledger.relink (fun _ => rfl) notProbe issued (fun _ => rfl) ?_ ?_
  · intro row interrupted
    simp only [Responsibility.interrupted, decide_eq_true_eq] at interrupted
    simp [interrupted]
  · intro on epoch member active
    by_cases same : epoch.holderRef = holder
    · obtain ⟨row, present, link, unfinished⟩ := ledger.supported on epoch member active
      exact ⟨row, present, link, unfinished, fun _ => same.symm⟩
    · obtain ⟨row, present, link, settled, unfinished⟩ :=
        Tables.strands_eq_false_iff.mp (kept on) epoch member active same
      exact ⟨row, present, link, unfinished, fun interrupted => by simp [settled] at interrupted⟩

/-- A newly issued epoch is not active, so the strands stay as they were. -/
theorem strands_insertEpoch {epoch : Epoch} {holder : HolderRef} (inactive : epoch.status ≠ .active)
    (success : tables.insertEpoch epoch = .ok after) (kept : tables.strands holder = false) :
    after.strands holder = false := by
  obtain ⟨epochs, inserted, rfl⟩ := Tables.insertEpoch_eq_ok success
  rw [Tables.strands_eq_false_iff] at kept ⊢
  intro other member active
  rcases (Table.mem_insert? inserted).mp member with old | rfl
  · exact kept other old active
  · exact (inactive active).elim

/-- The epoch that was just issued is there. -/
theorem issued_of_insertEpoch {epoch : Epoch} (success : tables.insertEpoch epoch = .ok after) :
    epoch ∈ after.epochs := by
  obtain ⟨epochs, inserted, rfl⟩ := Tables.insertEpoch_eq_ok success
  exact (Table.mem_insert? inserted).mpr (.inr rfl)

theorem reissueTx {serial : ℕ} {kind : String} {incarnation expected : ℕ} {now : ℤ} {done : Unit}
    (ledger : PowerLedger safe tight tick tables) (minted : serial < tick) (some_expected : expected ≠ 0)
    (kept : tight → tables.strands (.powerHolder serial) = false)
    (success : reissueTx (.powerHolder serial) kind incarnation expected now tables =
      .ok (done, after)) :
    PowerLedger safe tight tick after ∧ after.Gathered (.powerHolder serial) := by
  unfold RuntimeProtection.reissueTx at success
  simp only [bind, Except.bind] at success
  split at success
  · cases success
  rename_i issued inserted
  split_ifs at success with count
  obtain ⟨_, rfl⟩ := Prod.mk.inj (Except.ok.inj success)
  have inactive : (issuedEpoch (.powerHolder serial) (logIdentifier kind "unsupported") incarnation
      now).status ≠ .active := by simp [issuedEpoch]
  have opened : PowerLedger safe tight tick issued :=
    ledger.insertEpoch (by simpa [issuedEpoch] using minted) inactive inserted
  refine ⟨opened.relinkInterrupted (by simp) ⟨_, issued_of_insertEpoch inserted, rfl⟩ fun on =>
    strands_insertEpoch inactive inserted (kept on), ?_, ?_⟩
  · intro row member interrupted
    obtain ⟨old, _, ⟨_, rfl⟩ | ⟨other, rfl⟩⟩ := Table.mem_update.mp member
    · rfl
    · rw [interrupted] at other
      cases other
  · obtain ⟨row, member, interrupted⟩ := Table.exists_of_count_pos (count ▸ some_expected)
    refine ⟨_, Table.mem_update_of_chosen member interrupted, rfl, ?_⟩
    simp only [Responsibility.interrupted, decide_eq_true_eq] at interrupted
    simp [interrupted]

/-- A holder is only issued for as many interrupted responsibilities as expected. -/
theorem count_of_reissueTx {holder : HolderRef} {kind : String} {incarnation expected : ℕ} {now : ℤ}
    {done : Unit} (success : RuntimeProtection.reissueTx holder kind incarnation expected now tables =
      .ok (done, after)) : interruptedCount tables = expected := by
  unfold RuntimeProtection.reissueTx at success
  simp only [bind, Except.bind] at success
  split at success
  · cases success
  rename_i issued inserted
  obtain ⟨epochs, _, rfl⟩ := Tables.insertEpoch_eq_ok inserted
  split_ifs at success with count
  exact count

theorem reacquireFailureTx {holder : HolderRef} {code : String} {now : ℤ}
    (ledger : PowerLedger safe tight tick tables) :
    PowerLedger safe tight tick (reacquireFailureTx holder code now tables) := by
  refine PowerLedger.interruptedReasonTx (ledger.updateEpochs ?_ ?_)
  · intro epoch
    dsimp only
    split_ifs <;> simp
  · intro on epoch member hit
    simp only [Bool.and_eq_true, decide_eq_true_eq] at hit
    exact ledger.idle_of_not_active on member (by simp [hit.2])

/-- A holder that already has every interrupted responsibility strands no other one. -/
theorem strands_of_gathered {holder : HolderRef} (ledger : PowerLedger safe tight tick tables)
    (gathered : tables.Gathered holder) (on : tight) : tables.strands holder = false := by
  rw [Tables.strands_eq_false_iff]
  intro epoch member active other
  obtain ⟨row, present, link, unfinished⟩ := ledger.supported on epoch member active
  refine ⟨row, present, link, ?_, unfinished⟩
  by_contra interrupted
  have moved := gathered.1 row present (by simpa using interrupted)
  exact other (Option.some.inj (link.symm.trans moved))

theorem reacquiredTx {lease : InhibitorLease} {now : ℤ} (ledger : PowerLedger safe tight tick tables)
    (gathered : tables.Gathered lease.holderRef) :
    PowerLedger safe tight tick (reacquiredTx lease now tables) := by
  have adopted : PowerLedger safe tight tick
      (RuntimeProtection.adoptEpoch lease Epoch.incarnationRef Epoch.releasedAt now tables) :=
    ledger.adoptEpoch gathered.2
  obtain ⟨row, member, link, _⟩ := gathered.2
  obtain ⟨notProbe, issued⟩ := ledger.linked row member _ link
  have relinked : PowerLedger safe tight tick (RuntimeProtection.relinkInterrupted lease.holderRef now
      (RuntimeProtection.adoptEpoch lease Epoch.incarnationRef Epoch.releasedAt now tables)) :=
    adopted.relinkInterrupted notProbe (Table.exists_key_update.mpr issued)
      fun on => strands_of_gathered adopted gathered on
  exact relinked.congr rfl rfl

/-! ### Preparing and retrying -/

theorem prepareTx {identity : RuntimeEffectIdentity} {incarnation : ℕ} {now : ℤ} {done : Unit}
    (ledger : PowerLedger safe tight tick tables)
    (success : prepareTx identity incarnation now tables = .ok (done, after)) :
    PowerLedger safe tight tick after := by
  unfold RuntimeProtection.prepareTx at success
  split at success
  · rename_i responsibilities inserted
    obtain ⟨_, rfl⟩ := Prod.mk.inj (Except.ok.inj success)
    exact ledger.insertResponsibility inserted rfl (by simp)
  · cases success

theorem reopenTx {ref conflict : String} {holder : Option HolderRef} {incarnation : ℕ} {now : ℤ}
    {done : Unit} (ledger : PowerLedger safe tight tick tables)
    (success : reopenTx ref holder conflict incarnation now tables = .ok (done, after)) :
    PowerLedger safe tight tick after ∧ after.epochs = tables.epochs := by
  unfold RuntimeProtection.reopenTx at success
  split_ifs at success
  obtain ⟨_, rfl⟩ := Prod.mk.inj (Except.ok.inj success)
  exact ⟨ledger.updateResponsibilities (fun _ => rfl) (by simp [reopened]) (by simp [reopened]), rfl⟩

/-- The retry needs an idle holder, and leaves its epoch inactive. -/
theorem retryExactTx {ref : String} {holder : HolderRef} {incarnation : ℕ} {now : ℤ} {done : Unit}
    (ledger : PowerLedger safe tight tick tables) (idle : safe → tables.Idle holder)
    (success : retryExactTx ref holder incarnation now tables = .ok (done, after)) :
    PowerLedger safe tight tick after ∧ after.Resting holder := by
  unfold RuntimeProtection.retryExactTx at success
  split_ifs at success with single
  have retried : PowerLedger safe tight tick (retryEpoch holder incarnation now tables) := by
    refine ledger.updateEpochs (by simp [retrying]) fun on epoch _ hit => ?_
    simp only [Epoch.retryable, Bool.and_eq_true, decide_eq_true_eq] at hit
    exact hit.1 ▸ idle on
  obtain ⟨kept, epochs⟩ := retried.reopenTx success
  obtain ⟨epoch, member, hit⟩ := Table.exists_of_count_pos (by rw [single]; omega)
  have moved : (retrying incarnation now).apply epoch ∈ after.epochs :=
    epochs ▸ Table.mem_update_of_chosen member hit
  refine ⟨kept, _, moved, ?_, by simp [retrying]⟩
  simp only [Epoch.retryable, Bool.and_eq_true, decide_eq_true_eq] at hit
  exact hit.1

theorem issueHolderTx {ref kind : String} {serial incarnation : ℕ} {now : ℤ} {done : Unit}
    (ledger : PowerLedger safe tight tick tables) (minted : serial < tick)
    (success : issueHolderTx ref (.powerHolder serial) kind incarnation now tables =
      .ok (done, after)) :
    PowerLedger safe tight tick after ∧ after.Resting (.powerHolder serial) := by
  unfold RuntimeProtection.issueHolderTx at success
  simp only [bind, Except.bind] at success
  split at success
  · cases success
  rename_i issued inserted
  have opened : PowerLedger safe tight tick issued :=
    ledger.insertEpoch (by simpa [issuedEpoch] using minted) (by simp [issuedEpoch]) inserted
  have present := issued_of_insertEpoch inserted
  have notProbe : HolderRef.powerHolder serial ≠ .startupProbe := by simp
  refine ⟨opened.linkAcquiringTx notProbe ⟨_, present, rfl⟩ success, _,
    epochs_of_linkAcquiringTx success ▸ present, rfl, ?_⟩
  simp [issuedEpoch]

/-! ### Starts, probes and interruptions -/

theorem registerTx {incarnation : ℕ} {kind : String} {now : ℤ} {holders : List HolderRef}
    (ledger : PowerLedger safe tight tick tables)
    (success : registerTx incarnation kind now tables = .ok (holders, after)) :
    PowerLedger safe tight tick after := by
  unfold RuntimeProtection.registerTx at success
  dsimp only at success
  split at success
  · obtain ⟨_, rfl⟩ := Prod.mk.inj (Except.ok.inj success)
    exact ledger.interruptRows.congr rfl rfl
  · cases success

theorem supersedeTx {epoch : Epoch} {lease : InhibitorLease} {now : ℤ}
    (ledger : PowerLedger safe tight tick tables) :
    PowerLedger safe tight tick (supersedeTx epoch lease now tables) :=
  ledger.updateEpochs_status fun _ => rfl

theorem prepareProbeTx {kind : String} {incarnation : ℕ} {now : ℤ} {done : Unit}
    (ledger : PowerLedger safe tight tick tables)
    (success : prepareProbeTx kind incarnation now tables = .ok (done, after)) :
    PowerLedger safe tight tick after := by
  unfold RuntimeProtection.prepareProbeTx at success
  dsimp only at success
  split at success
  · simp only [bind, Except.bind] at success
    split at success
    · cases success
    rename_i issued inserted
    obtain ⟨_, rfl⟩ := Prod.mk.inj (Except.ok.inj success)
    exact ledger.insertEpoch (by simp [issuedEpoch]) (by simp [issuedEpoch]) inserted
  · obtain ⟨_, rfl⟩ := Prod.mk.inj (Except.ok.inj success)
    refine ledger.updateEpochs (by simp) fun _ epoch _ hit => ?_
    rw [decide_eq_true_eq] at hit
    exact hit ▸ ledger.idle_probe

theorem probeFailedTx {code : String} {now : ℤ} (ledger : PowerLedger safe tight tick tables) :
    PowerLedger safe tight tick (probeFailedTx code now tables) := by
  refine ledger.updateEpochs (by simp) fun _ epoch _ hit => ?_
  simp only [Bool.and_eq_true, decide_eq_true_eq] at hit
  exact hit.1 ▸ ledger.idle_probe

theorem probeConfirmedTx {lease : InhibitorLease} {incarnation : ℕ} {now : ℤ}
    (ledger : PowerLedger safe tight tick tables) :
    PowerLedger safe tight tick (probeConfirmedTx lease incarnation now tables) := by
  refine ledger.updateEpochs (by simp) fun _ epoch _ hit => ?_
  simp only [Bool.and_eq_true, decide_eq_true_eq] at hit
  exact hit.1 ▸ ledger.idle_probe

theorem interruptActiveTx {kind code : String} {now : ℤ} (ledger : PowerLedger safe tight tick tables) :
    PowerLedger safe tight tick (interruptActiveTx kind code now tables) :=
  ledger.interruptRows.congr rfl rfl

theorem recordBoundaryTx {identity : RuntimeEffectIdentity} {boundary : RuntimeBoundary}
    {evidence : String} {checkpointRef : Option String} {done : Unit}
    (ledger : PowerLedger safe tight tick tables)
    (success : recordBoundaryTx identity boundary evidence checkpointRef tables =
      .ok (done, after)) : PowerLedger safe tight tick after := by
  have receipts : ∃ receipts, after = { tables with receipts := receipts } := by
    unfold RuntimeProtection.recordBoundaryTx at success
    simp only [bind, Except.bind] at success
    repeat' split at success
    all_goals first
      | obtain ⟨_, rfl⟩ := Prod.mk.inj (Except.ok.inj success)
        exact ⟨_, rfl⟩
      | cases success
  obtain ⟨_, rfl⟩ := receipts
  exact ledger.congr rfl rfl

end PowerLedger

end MetaResearch.RuntimeProtection

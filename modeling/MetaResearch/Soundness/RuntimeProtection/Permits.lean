import MetaResearch.Soundness.RuntimeProtection.Protection

/-! # Permits, starts and the remaining commands

The programs behind `acquire` and the constructor. Resuming an issued holder is the only place where
a shared epoch can leave `active` under an active responsibility, so it asks that the hazard is
absent.
-/

namespace MetaResearch.RuntimeProtection

namespace Keeps

variable {safe tight : Prop} {host : Host} {α β : Type} {fact : Tables → Prop}

/-! ### Requesting a permit -/

theorem idle_of_resting {tick : ℕ} {tables : Tables} {holder : HolderRef}
    (ledger : PowerLedger safe tight tick tables) (resting : tables.Resting holder) (on : safe) :
    tables.Idle holder := by
  obtain ⟨epoch, member, rfl, inactive⟩ := resting
  exact ledger.idle_of_not_active on member inactive

theorem grant {identity : RuntimeEffectIdentity} {lease : InhibitorLease} :
    Keeps safe tight host fact (grant identity lease) fun _ => Any := by
  have activated : Keeps safe tight host fact (activate identity lease) fun _ => Any :=
    incarnationRef.bind fun _ => now.bind fun _ => commits fun _ _ _ _ ledger => ledger.activateTx
  exact activated.bind fun _ => (recordCapability fun _ _ => id).bind fun _ =>
    incarnationRef.bind fun _ => pure fun _ => id

theorem recordAcquireFailure {identity : RuntimeEffectIdentity} {holder : HolderRef} {reason : String}
    {lease : Option InhibitorLease} :
    Keeps safe tight host (fun tables => tables.Resting holder)
      (recordAcquireFailure identity holder reason lease) fun _ => Any := by
  have failed {now : ℤ} : Keeps safe tight host (fun tables => tables.Resting holder)
      (RuntimeProtection.change
        (acquireFailureTx identity.responsibilityRef holder reason lease now)) fun _ => Any :=
    change fun _ _ ledger resting =>
      ⟨ledger.acquireFailureTx (idle_of_resting ledger resting), True.intro⟩
  exact now.bind fun _ => failed.bind fun _ => inhibitorKind.bind fun _ =>
    recordCapability fun _ _ => id

/-- A request for a holder whose epoch is not active may fail in any way. -/
theorem requestPermit {identity : RuntimeEffectIdentity} {holder : HolderRef} :
    Keeps safe tight host (fun tables => tables.Resting holder) (requestPermit identity holder)
      fun _ => Any := by
  refine requestHold.bind fun request => given fun _ => ?_
  split
  · exact grant
  · exact recordAcquireFailure.bind fun _ => raise
  · exact recordAcquireFailure.bind fun _ => raise

theorem retryExactAcquisition {identity : RuntimeEffectIdentity} {holder : HolderRef} :
    Keeps safe tight host (fun tables => safe → tables.Idle holder)
      (retryExactAcquisition identity holder) fun _ => Any := by
  have retried {incarnation : ℕ} {now : ℤ} : Keeps safe tight host
      (fun tables => safe → tables.Idle holder)
      (RuntimeProtection.write (retryExactTx identity.responsibilityRef holder incarnation now))
      fun _ tables => tables.Resting holder :=
    write fun _ _ _ _ ledger idle => ledger.retryExactTx idle
  exact now.bind fun _ => incarnationRef.bind fun _ => retried.bind fun _ => requestPermit

theorem acquireFresh {identity : RuntimeEffectIdentity} :
    Keeps safe tight host fact (acquireFresh identity) fun _ => Any := by
  refine anyway (scan.bind fun pending => ?_)
  split_ifs
  · exact raise
  refine mint fun serial now kind incarnation => ?_
  have issued : Triple host (fun world => Sound safe tight Any world ∧ serial < world.tick)
      (RuntimeProtection.write
        (issueHolderTx identity.responsibilityRef (.powerHolder serial) kind incarnation now))
      (fun _ => Sound safe tight fun tables => tables.Resting (.powerHolder serial))
      (Sound safe tight Any) := by
    refine Triple.commit (fun _ start => tick start.1) ?_
    rintro world value durable ⟨⟨ledger, _⟩, minted⟩ success
    obtain ⟨after, resting⟩ := ledger.issueHolderTx minted success
    exact ⟨after.later (Nat.le_succ _), resting⟩
  exact issued.bind fun _ => requestPermit

theorem acquireShared {identity : RuntimeEffectIdentity} :
    Keeps safe tight host fact (acquireShared identity) fun _ => Any := by
  refine Triple.bind (activeLease fun _ => forget) fun shared => ?_
  split
  · exact Triple.assuming acquireFresh fun _ start => start.1
  rename_i lease
  have live : Keeps safe tight host (fun tables => tables.HoldActive lease.holderRef)
      (RuntimeProtection.queryHold lease) fun _ tables => tables.HoldActive lease.holderRef :=
    queryHold
  refine Triple.bind (Triple.assuming live ?_) fun status => ?_
  · rintro world ⟨sound, ⟨other, _⟩ | ⟨epoch, found, same, latest, leased⟩⟩
    · cases other
    · obtain rfl := Option.some.inj same
      obtain ⟨member, active⟩ := Table.mem_of_latest? latest
      exact ⟨sound.1, epoch, member, (holderRef_of_leaseFromEpoch leased).symm, by simpa using active⟩
  cases status with
  | confirmed =>
    have linked {now : ℤ} : Keeps safe tight host (fun tables => tables.HoldActive lease.holderRef)
        (RuntimeProtection.write (linkAcquiringTx identity.responsibilityRef lease.holderRef now))
        fun _ => Any := by
      refine write fun _ tables _ _ ledger live success => ⟨?_, True.intro⟩
      obtain ⟨epoch, member, same, active⟩ := live
      exact ledger.linkAcquiringTx (fun probe => ledger.probe epoch member (same.trans probe) active)
        ⟨epoch, member, same⟩ success
    exact bind (now.bind fun _ => linked) fun _ => grant
  | unknown => exact anyway ((recordCapability fun _ _ => id).bind fun _ => raise)
  | absent => exact markHolderLost.bind fun _ => acquireFresh

theorem reconfirm {identity : RuntimeEffectIdentity} {holder : Option HolderRef} :
    Keeps safe tight host fact (reconfirm identity holder) fun _ => Any := by
  refine anyway ?_
  unfold RuntimeProtection.reconfirm
  split
  · exact raise
  refine leaseOf.bind fun lease => queryHold.bind fun status => ?_
  cases status with
  | confirmed =>
    exact (recordCapability fun _ _ => id).bind fun _ => incarnationRef.bind fun _ => pure fun _ => id
  | unknown => exact (recordCapability fun _ _ => id).bind fun _ => raise
  | absent => exact markHolderLost.bind fun _ => raise

/-- If the hazard is absent, an exact resume whose hold is answered absent has an idle holder. -/
theorem idle_of_not_dropsHold {world : PowerWorld} {epoch : Epoch} {lease : InhibitorLease}
    {holder : HolderRef} (clear : dropsHold host world holder = false)
    (found : world.durable.epochs.find? holder = some epoch) (active : epoch.status = .active)
    (leased : leaseFromEpoch epoch = .ok lease)
    (absent : (host.queryHold world.tick lease).holdStatus = .absent) :
    world.durable.Idle holder := by
  intro row member busy link
  simp only [dropsHold, found, active, leased, absent, decide_true, Bool.and_self, Bool.true_and,
    List.any_eq_false] at clear
  exact clear row member (by simp [Responsibility.heldBy, busy, link])

theorem resumeExactAcquisition {identity : RuntimeEffectIdentity} {holder : HolderRef} :
    Triple host
      (fun world => Sound safe tight Any world ∧ (safe → dropsHold host world holder = false))
      (resumeExactAcquisition identity holder) (fun _ => Sound safe tight Any)
      (Sound safe tight Any) := by
  have looked : Triple host
      (fun world => Sound safe tight Any world ∧ (safe → dropsHold host world holder = false))
      (epochOf holder)
      (fun epoch world => (Sound safe tight Any world ∧
        (safe → dropsHold host world holder = false)) ∧ world.durable.epochs.find? holder = epoch)
      (Sound safe tight Any) :=
    Triple.observe fun world start => ⟨start, rfl⟩
  refine looked.bind fun found => ?_
  cases found with
  | none => exact Triple.raise fun _ start => start.1.1
  | some epoch =>
    have retry (inactive : epoch.status ≠ .active) : Triple host
        (fun world => (Sound safe tight Any world ∧ (safe → dropsHold host world holder = false)) ∧
          world.durable.epochs.find? holder = some epoch)
        (RuntimeProtection.retryExactAcquisition identity holder) (fun _ => Sound safe tight Any)
        (Sound safe tight Any) := by
      refine Triple.assuming retryExactAcquisition ?_
      rintro world ⟨⟨⟨ledger, _⟩, _⟩, found⟩
      refine ⟨ledger, fun on => ?_⟩
      exact Table.key_of_find? found ▸
        ledger.idle_of_not_active on (Table.mem_of_find? found) inactive
    dsimp only
    split
    · rename_i active
      refine (result fun _ start => start.1.1).bind fun lease => ?_
      have queried : Triple host
          (fun world => ((Sound safe tight Any world ∧
            (safe → dropsHold host world holder = false)) ∧
              world.durable.epochs.find? holder = some epoch) ∧ leaseFromEpoch epoch = .ok lease)
          (RuntimeProtection.queryHold lease)
          (fun status => Sound safe tight fun tables =>
            status = .absent → safe → tables.Idle holder) (Sound safe tight Any) := by
        refine Triple.ask fun world start => ?_
        obtain ⟨⟨⟨sound, clear⟩, found⟩, leased⟩ := start
        exact tick ⟨sound.1, fun absent on =>
          idle_of_not_dropsHold (clear on) found active leased absent⟩
      refine queried.bind fun status => ?_
      cases status with
      | confirmed =>
        have prepared {incarnation : ℕ} {now : ℤ} : Keeps safe tight host Any
            (RuntimeProtection.write (reopenTx identity.responsibilityRef (some holder)
              "runtime_responsibility_exact_holder_conflict" incarnation now)) fun _ => Any :=
          commits fun _ _ _ _ ledger success => (ledger.reopenTx success).1
        exact anyway (bind (now.bind fun _ => incarnationRef.bind fun _ => prepared) fun _ => grant)
      | unknown => exact anyway ((recordCapability fun _ _ => id).bind fun _ => raise)
      | absent => exact consequence retryExactAcquisition (fun _ idle => idle rfl) fun _ _ => id
    · exact Triple.raise fun _ start => start.1.1
    · exact Triple.raise fun _ start => start.1.1
    · exact retry ‹_›

theorem acquireSettled {identity : RuntimeEffectIdentity} :
    Triple host
      (fun world => Sound safe tight Any world ∧
        (safe → dropsSharedHold host identity world = false))
      (acquireSettled identity) (fun _ => Sound safe tight Any) (Sound safe tight Any) := by
  have looked : Triple host
      (fun world => Sound safe tight Any world ∧
        (safe → dropsSharedHold host identity world = false))
      (queryResponsibility identity.responsibilityRef)
      (fun row world => (Sound safe tight Any world ∧
        (safe → dropsSharedHold host identity world = false)) ∧
          world.durable.responsibilities.find? identity.responsibilityRef = row)
      (Sound safe tight Any) :=
    Triple.observe fun world start => ⟨start, rfl⟩
  refine looked.bind fun found => ?_
  cases found with
  | none =>
    have prepared {incarnation : ℕ} {now : ℤ} : Keeps safe tight host Any
        (RuntimeProtection.write (prepareTx identity incarnation now)) fun _ => Any :=
      commits fun _ _ _ _ ledger => ledger.prepareTx
    have fresh : Keeps safe tight host Any
        (prepare identity >>= fun _ => RuntimeProtection.acquireShared identity) fun _ => Any :=
      bind (now.bind fun _ => incarnationRef.bind fun _ => prepared) fun _ => acquireShared
    exact Triple.assuming fresh fun _ start => start.1.1
  | some row =>
    refine (result fun _ start => start.1.1).bind fun _ => ?_
    split
    · exact Triple.raise fun _ start => start.1.1.1
    · exact Triple.assuming reconfirm fun _ start => start.1.1.1
    · exact Triple.raise fun _ start => start.1.1.1
    all_goals
      rename_i reopenable
      cases link : row.holderRef with
      | none =>
        have reset {incarnation : ℕ} {now : ℤ} : Keeps safe tight host Any
            (RuntimeProtection.write (reopenTx identity.responsibilityRef none
              "runtime_responsibility_acquisition_reset_conflict" incarnation now)) fun _ => Any :=
          commits fun _ _ _ _ ledger success => (ledger.reopenTx success).1
        have again : Keeps safe tight host Any
            (resetForAcquisition identity.responsibilityRef >>= fun _ =>
              RuntimeProtection.acquireShared identity) fun _ => Any :=
          bind (now.bind fun _ => incarnationRef.bind fun _ => reset) fun _ => acquireShared
        exact Triple.assuming again fun _ start => start.1.1.1
      | some holder =>
        refine Triple.assuming resumeExactAcquisition ?_
        rintro world ⟨⟨⟨sound, clear⟩, found⟩, same⟩
        refine ⟨sound, fun on => ?_⟩
        have identical : row.identity = identity := by
          unfold assertSameIdentity at same
          split_ifs at same with identical
          exact identical
        simpa [dropsSharedHold, found, identical, reopenable, link] using clear on

theorem admission {identity : RuntimeEffectIdentity} :
    Keeps safe tight host fact (admission identity) fun _ => Any := by
  refine (ofExcept fun _ _ _ => id).bind fun _ => settleLedger.bind fun _ => scan.bind fun _ => ?_
  split_ifs
  · exact raise
  · exact pure fun _ => id

/-! ### Starts -/

theorem reviewInterruptedHolder {holder : HolderRef} :
    Keeps safe tight host fact (reviewInterruptedHolder holder) fun _ => Any := by
  refine anyway (leaseOf.attempt.bind fun lease => ?_)
  split
  · exact pure fun _ => id
  · exact raise
  · refine queryHold.bind fun status => ?_
    cases status with
    | confirmed => exact moves fun _ _ ledger => ledger.congr rfl rfl
    | absent => exact markHolderLost
    | unknown => exact recordCapability fun _ _ => id

theorem registerIncarnation : Keeps safe tight host fact registerIncarnation fun _ => Any :=
  now.bind fun _ => incarnationRef.bind fun _ => inhibitorKind.bind fun _ =>
    (commits fun _ _ _ _ ledger => ledger.registerTx).bind fun _ =>
      forEach fun _ _ => reviewInterruptedHolder

theorem supersedeBackend {epoch : Epoch} :
    Keeps safe tight host Any (supersedeBackend epoch) fun _ => Any := by
  refine inhibitorKind.bind fun kind => ?_
  split_ifs
  · exact pure fun _ => id
  · refine ask.bind fun answer => ?_
    split
    · split_ifs
      · exact now.bind fun _ => moves fun _ _ ledger => ledger.supersedeTx
      · exact pure fun _ => id
    · exact pure fun _ => id

theorem supersedeExistingEpochBackends :
    Keeps safe tight host fact supersedeExistingEpochBackends fun _ => Any := by
  refine anyway (ask.bind fun able => ?_)
  split_ifs
  · exact scan.bind fun _ => forEach fun _ _ => supersedeBackend
  · exact pure fun _ => id

theorem prepareCapabilityProbeEpoch :
    Keeps safe tight host fact prepareCapabilityProbeEpoch fun _ => Any :=
  now.bind fun _ => incarnationRef.bind fun _ => inhibitorKind.bind fun _ =>
    (commits fun _ _ _ _ ledger => ledger.prepareProbeTx).bind fun _ =>
      recordCapability fun _ _ => id

theorem noteProbing {recovering : Bool} :
    Keeps safe tight host Any (noteProbing recovering) fun _ => Any := by
  unfold RuntimeProtection.noteProbing
  split_ifs
  · refine bind scan fun epoch => ?_
    split
    · exact recordCapability fun _ _ => id
    · exact pure fun _ => id
  · exact pure fun _ => id

theorem dismissProbe {recovering : Bool} {code : String} :
    Keeps safe tight host fact (dismissProbe recovering code) fun _ => Any := by
  unfold RuntimeProtection.dismissProbe
  split_ifs
  · exact pure fun _ _ => True.intro
  · exact now.bind fun _ => moves fun _ _ ledger => ledger.probeFailedTx

theorem attemptCapabilityProbe {recovering : Bool} :
    Keeps safe tight host Any (attemptCapabilityProbe recovering) fun _ => Any := by
  refine noteProbing.bind fun _ => requestHold.bind fun request => ?_
  split
  · exact dismissProbe.bind fun _ => inhibitorKind.bind fun _ => recordCapability fun _ _ => id
  · exact dismissProbe.bind fun _ => inhibitorKind.bind fun _ => recordCapability fun _ _ => id
  · exact now.bind fun _ => incarnationRef.bind fun _ =>
      (moves fun _ _ ledger => ledger.probeConfirmedTx).bind fun _ => releaseEpoch

theorem probeEpoch : Keeps safe tight host Any probeEpoch fun _ => Any := by
  refine bind scan fun memory => bind scan fun epoch => ?_
  split
  · split_ifs
    · exact (ofExcept fun _ _ _ => id).bind fun _ => recordCapability fun _ _ => id
    · exact attemptCapabilityProbe
    · exact prepareCapabilityProbeEpoch.bind fun _ => attemptCapabilityProbe
  · split_ifs
    · exact pure fun _ => id
    · exact prepareCapabilityProbeEpoch.bind fun _ => attemptCapabilityProbe

theorem runStartupProbe {shielded : Bool} :
    Keeps safe tight host Any (runStartupProbe shielded) fun _ => Any := by
  refine incarnationRef.bind fun _ => scan.bind fun pending => ?_
  split
  · exact recordCapability fun _ _ => id
  split_ifs
  · exact scan.bind fun _ => scan.bind fun _ => inhibitorKind.bind fun _ =>
      recordCapability fun _ _ => id
  refine scan.bind fun epoch => ?_
  split
  · refine (ofExcept fun _ _ _ => id).bind fun _ => queryHold.bind fun status => ?_
    cases status with
    | confirmed => exact recordCapability fun _ _ => id
    | unknown => exact recordCapability fun _ _ => id
    | absent => exact probeEpoch
  · exact probeEpoch

theorem openIncarnation : Keeps safe tight host fact openIncarnation fun _ => Any :=
  ask.bind fun _ => remember.bind fun _ => registerIncarnation.bind fun _ =>
    supersedeExistingEpochBackends.bind fun _ => settleLedger

/-! ### Remaining commands -/

theorem interruptActive {kind code : String} :
    Keeps safe tight host Any (interruptActive kind code) fun _ => Any := by
  unfold RuntimeProtection.interruptActive
  split_ifs
  · exact now.bind fun _ => moves fun _ _ ledger => ledger.interruptActiveTx
  · exact raise

theorem reconcileStartup : Keeps safe tight host Any reconcileStartup fun _ => Any := by
  refine Triple.bind (activeLease fun _ => forget) fun lease => ?_
  refine Triple.assuming ?_ fun _ start => start.1
  split
  · exact pure fun _ => id
  · refine queryHold.bind fun status => ?_
    cases status with
    | confirmed => exact pure fun _ => id
    | unknown => exact recordCapability fun _ _ => id
    | absent => exact markHolderLost

end Keeps

end MetaResearch.RuntimeProtection

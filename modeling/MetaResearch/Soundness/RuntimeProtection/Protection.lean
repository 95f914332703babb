import MetaResearch.Soundness.RuntimeProtection.Programs

/-! # Protecting interrupted responsibilities

The programs behind `_ensure_interrupted_protected`. Recovering an issued holder needs a
responsibility that is still linked to it. Putting all interrupted responsibilities under one hold
is the only place where an active epoch can lose its last support, so it asks that the hazard is
absent.
-/

namespace MetaResearch.RuntimeProtection

namespace Keeps

variable {safe tight : Prop} {host : Host} {α β : Type} {fact : Tables → Prop}

/-- A responsibility that keeps its holder and stays unfinished supports it as before. -/
theorem supported_update {tables : Tables} {chosen : Responsibility → Bool}
    {rewrite : Rewrite Responsibility.ref} {holder : HolderRef}
    (same : ∀ row, (rewrite.apply row).holderRef = row.holderRef)
    (unfinished : ∀ row, row.status ≠ .finished → (rewrite.apply row).status ≠ .finished)
    (supported : tables.Supported holder) :
    (tables.updateResponsibilities chosen rewrite).Supported holder := by
  obtain ⟨row, member, link, status⟩ := supported
  cases hit : chosen row with
  | true =>
    exact ⟨_, Table.mem_update_of_chosen member hit, (same row).trans link, unfinished row status⟩
  | false => exact ⟨row, Table.mem_update_of_not member hit, link, status⟩

theorem supported_of_recoverHolderTx {tables after : Tables} {lease : InhibitorLease} {incarnation : ℕ}
    {now : ℤ} {recovered : Bool} {holder : HolderRef}
    (success : recoverHolderTx lease incarnation now tables = .ok (recovered, after))
    (supported : tables.Supported holder) : after.Supported holder := by
  unfold recoverHolderTx at success
  split_ifs at success <;> obtain ⟨_, rfl⟩ := Prod.mk.inj (Except.ok.inj success)
  · have adopted : (adoptEpoch lease (fun _ => incarnation) (fun _ => none) now tables).Supported
        holder := supported
    exact supported_update (fun _ => rfl) (fun _ _ => by simp) adopted
  · exact supported

/-- Every holder of the list is linked to an unfinished responsibility. -/
def AllSupported (holders : List HolderRef) (tables : Tables) : Prop :=
  ∀ holder ∈ holders, tables.Supported holder

theorem recoverExactAcquiringHolder {holders : List HolderRef} {holder : HolderRef}
    (member : holder ∈ holders) :
    Keeps safe tight host (AllSupported holders) (recoverExactAcquiringHolder holder)
      fun _ => AllSupported holders := by
  have noted {code : String} {now : ℤ} : Keeps safe tight host (AllSupported holders)
      (RuntimeProtection.change (interruptedReasonTx (fun row => row.heldBy holder) code now))
      fun _ => AllSupported holders :=
    change fun _ _ ledger holds => ⟨ledger.interruptedReasonTx, fun other present =>
      supported_update (fun _ => rfl) (fun _ => id) (holds other present)⟩
  have blind : Blind (AllSupported holders) := fun _ _ => id
  refine requestHold.bind fun request => given fun issued => ?_
  split
  · exact now.bind fun _ => noted.bind fun _ => inhibitorKind.bind fun _ =>
      (recordCapability blind).bind fun _ => pure fun _ => id
  · rename_i lease confirmed
    have same := issued lease (outcome_eq_ok_iff.mp confirmed)
    have recovered {incarnation : ℕ} {now : ℤ} : Keeps safe tight host (AllSupported holders)
        (RuntimeProtection.write (recoverHolderTx lease incarnation now))
        fun _ => AllSupported holders :=
      write fun _ _ _ _ ledger holds success =>
        ⟨ledger.recoverHolderTx (same ▸ holds holder member) success, fun other present =>
          supported_of_recoverHolderTx success (holds other present)⟩
    refine now.bind fun _ => incarnationRef.bind fun _ => recovered.bind fun found => ?_
    split_ifs
    · exact (recordCapability blind).bind fun _ => pure fun _ => id
    · exact pure fun _ => id

theorem recoverExactHolders {holders rest : List HolderRef} (subset : rest ⊆ holders) :
    Keeps safe tight host (AllSupported holders) (recoverExactHolders rest) fun _ => Any := by
  induction rest with
  | nil => exact pure fun _ _ => True.intro
  | cons holder rest ih =>
    refine (recoverExactAcquiringHolder (subset List.mem_cons_self)).bind fun found => ?_
    split_ifs
    · exact ih (List.subset_of_cons_subset subset)
    · exact pure fun _ _ => True.intro

theorem allSupported_unresolved {tables : Tables} :
    AllSupported (unresolvedExactHolders tables) tables := by
  intro holder member
  simp only [unresolvedExactHolders, List.mem_map, Table.mem_select, Bool.and_eq_true,
    List.any_eq_true, Responsibility.interrupted, Responsibility.heldBy, decide_eq_true_eq] at member
  obtain ⟨epoch, ⟨_, _, row, present, interrupted, link⟩, rfl⟩ := member
  exact ⟨row, present, link, by simp [interrupted]⟩

/-- The number returned is the number of interrupted responsibilities at the end. -/
theorem recoverUnresolved :
    Keeps safe tight host fact recoverUnresolved
      fun count tables => ∀ n, count = some n → interruptedCount tables = n := by
  refine anyway (read.bind fun count => ?_)
  split_ifs with zero
  · exact pure fun tables counted n same => by rw [counted.2, zero, ← Option.some.inj same]
  refine read.bind fun holders => ?_
  cases holders with
  | nil =>
    have untouched : Keeps safe tight host
        (fun tables => (Any tables ∧ interruptedCount tables = count) ∧
          unresolvedExactHolders tables = [])
        (RuntimeProtection.recoverExactHolders []) fun _ tables => interruptedCount tables = count :=
      pure fun _ counted => counted.1.2
    refine untouched.bind fun recovered => ?_
    split_ifs
    · exact pure fun tables counted n same => counted.trans (Option.some.inj same)
    · exact absurd List.isEmpty_nil ‹_›
    · exact pure fun _ _ _ same => by cases same
  | cons holder rest =>
    refine bind (consequence (recoverExactHolders (List.Subset.refl (holder :: rest))) ?_
      fun _ _ => id) fun recovered => ?_
    · rintro tables ⟨_, unresolved⟩
      exact unresolved ▸ allSupported_unresolved
    · split_ifs with _ empty
      · cases empty
      · exact read.bind fun _ => pure fun _ counted _ same => counted.2.trans (Option.some.inj same)
      · exact pure fun _ _ _ same => by cases same

/-- A holder may be issued for the interrupted responsibilities: they are no longer as many as
expected, or they are the last support of no active epoch. -/
def Reissuable (tight : Prop) (expected : ℕ) (tables : Tables) : Prop :=
  interruptedCount tables = expected → tight → ∀ holder, tables.strands holder = false

theorem reissueHold {count : ℕ} (some_count : count ≠ 0) :
    Keeps safe tight host (Reissuable tight count) (reissueHold count) fun _ => Any := by
  refine mint fun serial now kind incarnation => ?_
  have issued : Triple host
      (fun world => Sound safe tight (Reissuable tight count) world ∧ serial < world.tick)
      (RuntimeProtection.write (reissueTx (.powerHolder serial) kind incarnation count now))
      (fun _ => Sound safe tight fun tables => tables.Gathered (.powerHolder serial))
      (Sound safe tight Any) := by
    refine Triple.commit (fun _ start => tick (forget start.1)) ?_
    rintro world value durable ⟨⟨ledger, reissuable⟩, minted⟩ success
    have kept : tight → world.durable.strands (.powerHolder serial) = false := fun on =>
      reissuable (PowerLedger.count_of_reissueTx success) on _
    obtain ⟨after, gathered⟩ := ledger.reissueTx minted some_count kept success
    exact ⟨after.later (Nat.le_succ _), gathered⟩
  refine issued.bind fun _ => ?_
  refine bind requestHold fun request => given fun named => ?_
  split
  · exact RuntimeProtection.Keeps.now.bind fun _ =>
      (moves fun _ _ ledger => ledger.reacquireFailureTx).bind fun _ =>
        inhibitorKind.bind fun _ => (recordCapability fun _ _ => id).bind fun _ => pure fun _ => id
  · rename_i lease confirmed
    have same := named lease (outcome_eq_ok_iff.mp confirmed)
    have reacquired {now : ℤ} : Keeps safe tight host
        (fun tables => tables.Gathered (.powerHolder serial))
        (RuntimeProtection.change (reacquiredTx lease now)) fun _ => Any :=
      change fun _ _ ledger gathered => ⟨ledger.reacquiredTx (same ▸ gathered), True.intro⟩
    exact RuntimeProtection.Keeps.now.bind fun _ => reacquired.bind fun _ =>
      (recordCapability fun _ _ => id).bind fun _ => pure fun _ => id

theorem holderRef_of_leaseFromEpoch {epoch : Epoch} {lease : InhibitorLease}
    (leased : leaseFromEpoch epoch = .ok lease) : lease.holderRef = epoch.holderRef := by
  unfold leaseFromEpoch at leased
  split at leased
  · cases leased
  · exact (Except.ok.inj leased) ▸ rfl

/-- A value computed without the world is known afterwards. -/
theorem result {pre : PowerWorld → Prop} {value : Except ProtectionError α}
    (sound : ∀ world, pre world → Sound safe tight Any world) :
    Triple host pre (RuntimeProtection.ofExcept value)
      (fun result world => pre world ∧ value = .ok result) (Sound safe tight Any) := by
  cases value with
  | ok result => exact Triple.pure fun world start => ⟨start, rfl⟩
  | error error => exact Triple.raise sound

/-- The active lease belongs to the active epoch acquired last; reading it takes no interaction. -/
theorem activeLease {pre : PowerWorld → Prop}
    (sound : ∀ world, pre world → Sound safe tight Any world) :
    Triple host pre activeLease
      (fun lease world => pre world ∧ ((lease = none ∧ activeEpoch? world.durable = none) ∨
        ∃ epoch found, lease = some found ∧ activeEpoch? world.durable = some epoch ∧
          leaseFromEpoch epoch = .ok found))
      (Sound safe tight Any) := by
  have looked : Triple host pre (RuntimeProtection.read activeEpoch?)
      (fun latest world => pre world ∧ activeEpoch? world.durable = latest) (Sound safe tight Any) :=
    Triple.observe fun world start => ⟨start, rfl⟩
  refine looked.bind fun latest => ?_
  cases latest with
  | none => exact Triple.pure fun world start => ⟨start.1, .inl ⟨rfl, start.2⟩⟩
  | some epoch =>
    refine (result fun world start => sound world start.1).bind fun lease => ?_
    exact Triple.pure fun world start =>
      ⟨start.1.1, .inr ⟨epoch, lease, rfl, start.1.2, start.2⟩⟩

theorem strands_of_no_active {tables : Tables} (none_active : activeEpoch? tables = none)
    (holder : HolderRef) : tables.strands holder = false := by
  rw [Tables.strands_eq_false_iff]
  intro epoch member active
  have inactive := Table.latest?_eq_none_iff.mp none_active epoch member
  simp [active] at inactive

/-- Once the hold of one epoch is lost, no other epoch is stranded if that one stranded none. -/
theorem strands_holderLostTx {tables : Tables} {holder : HolderRef} {reason : String} {now : ℤ}
    (kept : tables.strands holder = false) (target : HolderRef) :
    (holderLostTx holder reason now tables).strands target = false := by
  rw [Tables.strands_eq_false_iff] at kept ⊢
  intro epoch member active _
  obtain ⟨old, present, ⟨_, rfl⟩ | ⟨missed, rfl⟩⟩ := Table.mem_update.mp member
  · simp at active
  have other : epoch.holderRef ≠ holder := fun same => by simp [same, active] at missed
  obtain ⟨row, found, link, settled, unfinished⟩ := kept epoch present active other
  refine ⟨row, Table.mem_update_of_not found ?_, link, settled, unfinished⟩
  simp only [Responsibility.heldBy, link, Bool.and_eq_false_iff, decide_eq_false_iff_not,
    Option.some.injEq]
  exact .inl other

/-- Losing a hold that has active responsibilities adds to the interrupted ones. -/
theorem interruptedCount_holderLostTx {tables : Tables} {holder : HolderRef} {reason : String} {now : ℤ}
    {row : Responsibility} (member : row ∈ tables.responsibilities) (link : row.holderRef = some holder)
    (active : row.status = .active) :
    interruptedCount tables < interruptedCount (holderLostTx holder reason now tables) := by
  refine Table.count_lt_count_update ?_ member ?_ ?_ ?_
  · intro _ _ _ _
    simp [Responsibility.interrupted]
  · simp [Responsibility.heldBy, Responsibility.live, link, active]
  · simp [Responsibility.interrupted, active]
  · simp [Responsibility.interrupted]

/-- The answer about the active hold leaves no epoch stranded by what follows it. -/
structure Unhazarded (tight : Prop) (lease : InhibitorLease) (count : ℕ)
    (status : InhibitorHoldStatus) (tables : Tables) : Prop where
  counted : interruptedCount tables = count
  live : tables.HoldActive lease.holderRef
  confirmed : tight → status = .confirmed → tables.strands lease.holderRef = false
  absent : tight → status = .absent →
    tables.strands lease.holderRef = false ∨ ¬ tables.Idle lease.holderRef

theorem unhazarded {world : PowerWorld} {epoch : Epoch} {lease : InhibitorLease}
    (clear : tight → orphansOther host world = false) (latest : activeEpoch? world.durable = some epoch)
    (leased : leaseFromEpoch epoch = .ok lease) :
    Unhazarded tight lease (interruptedCount world.durable)
      (host.queryHold world.tick lease).holdStatus world.durable := by
  have same := holderRef_of_leaseFromEpoch leased
  obtain ⟨member, active⟩ := Table.mem_of_latest? latest
  constructor
  · rfl
  · exact ⟨epoch, member, same.symm, by simpa using active⟩
  · intro on confirmed
    simpa [orphansOther, latest, leased, confirmed, same] using clear on
  · intro on absent
    have := clear on
    simp only [orphansOther, latest, leased, absent, Bool.and_eq_false_iff] at this
    rcases this with kept | shared
    · exact .inl (same ▸ kept)
    · simp only [List.all_eq_false, Responsibility.heldBy, Bool.or_eq_true, Bool.not_eq_true',
        decide_eq_true_eq, decide_eq_false_iff_not, not_or, not_not, ← Table.mem_def] at shared
      obtain ⟨row, present, busy, link⟩ := shared
      exact .inr fun idle => idle row present busy (same ▸ link)

theorem protectInterrupted {count : ℕ} (some_count : count ≠ 0) :
    Triple host
      (fun world => Sound safe tight (fun tables => interruptedCount tables = count) world ∧
        (tight → orphansOther host world = false))
      (protectInterrupted count) (fun _ => Sound safe tight Any) (Sound safe tight Any) := by
  refine Triple.bind (activeLease fun world start => forget start.1) fun active => ?_
  split
  · refine Triple.assuming (reissueHold some_count) ?_
    rintro world ⟨⟨⟨ledger, _⟩, _⟩, ⟨_, absent⟩ | ⟨_, _, other, _⟩⟩
    · exact ⟨ledger, fun _ _ => strands_of_no_active absent⟩
    · cases other
  rename_i lease
  have queried : Triple host
      (fun world => (Sound safe tight (fun tables => interruptedCount tables = count) world ∧
        (tight → orphansOther host world = false)) ∧
          ((some lease = none ∧ activeEpoch? world.durable = none) ∨
            ∃ epoch found, some lease = some found ∧ activeEpoch? world.durable = some epoch ∧
              leaseFromEpoch epoch = .ok found))
      (RuntimeProtection.queryHold lease)
      (fun status => Sound safe tight fun tables => Unhazarded tight lease count status tables)
      (Sound safe tight Any) := by
    refine Triple.ask fun world start => ?_
    obtain ⟨⟨⟨ledger, counted⟩, clear⟩, ⟨other, _⟩ | ⟨epoch, found, same, latest, leased⟩⟩ := start
    · cases other
    · obtain rfl := Option.some.inj same
      exact tick ⟨ledger, counted ▸ unhazarded clear latest leased⟩
  refine queried.bind fun status => ?_
  cases status with
  | confirmed =>
    have relinked {now : ℤ} : Keeps safe tight host (Unhazarded tight lease count .confirmed)
        (RuntimeProtection.change fun tables =>
          protectRequired (relinkInterrupted lease.holderRef now tables)) fun _ => Any := by
      refine change fun _ tables ledger clear => ⟨?_, True.intro⟩
      obtain ⟨epoch, member, same, active⟩ := clear.live
      have notProbe : lease.holderRef ≠ .startupProbe := fun probe =>
        ledger.probe epoch member (same.trans probe) active
      have moved : PowerLedger safe tight _ (relinkInterrupted lease.holderRef now tables) :=
        ledger.relinkInterrupted notProbe ⟨epoch, member, same⟩ fun on => clear.confirmed on rfl
      exact moved.congr rfl rfl
    exact now.bind fun _ => relinked.bind fun _ => (recordCapability fun _ _ => id).bind fun _ =>
      pure fun _ => id
  | unknown => exact anyway ((recordCapability fun _ _ => id).bind fun _ => pure fun _ => id)
  | absent =>
    have lost {now : ℤ} : Keeps safe tight host (Unhazarded tight lease count .absent)
        (RuntimeProtection.change (holderLostTx lease.holderRef "power_inhibitor_hold_lost" now))
        fun _ => Reissuable tight count := by
      refine change fun _ tables ledger clear => ⟨ledger.holderLostTx, fun counted on holder => ?_⟩
      rcases clear.absent on rfl with kept | shared
      · exact strands_holderLostTx kept holder
      · simp only [Tables.Idle, not_forall, not_not] at shared
        obtain ⟨row, member, active, link⟩ := shared
        have grown : interruptedCount tables <
            interruptedCount (holderLostTx lease.holderRef "power_inhibitor_hold_lost" now tables) :=
          interruptedCount_holderLostTx member link active
        rw [counted, clear.counted] at grown
        exact (Nat.lt_irrefl _ grown).elim
    have marked : Keeps safe tight host (Unhazarded tight lease count .absent)
        (RuntimeProtection.markHolderLost lease) fun _ => Reissuable tight count :=
      now.bind fun _ => lost.bind fun _ => recordCapability fun _ _ => id
    exact marked.bind fun _ => reissueHold some_count

theorem ensureInterruptedProtected :
    Triple host
      (fun world => Sound safe tight Any world ∧
        RuntimeProtection.recoverUnresolved.Returns host world fun count after =>
          tight → clearToProtect host count after)
      ensureInterruptedProtected (fun _ => Sound safe tight Any) (Sound safe tight Any) := by
  refine (Triple.returning recoverUnresolved).bind fun count => ?_
  split
  · exact Triple.pure fun _ start => forget start.1
  · exact Triple.pure fun _ start => forget start.1
  · rename_i count some_count
    refine Triple.assuming (protectInterrupted some_count) ?_
    rintro world ⟨⟨ledger, counted⟩, clear⟩
    obtain ⟨n, rfl⟩ := Nat.exists_eq_succ_of_ne_zero some_count
    exact ⟨⟨ledger, counted _ rfl⟩, clear⟩

end Keeps

end MetaResearch.RuntimeProtection

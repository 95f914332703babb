import MetaResearch.Soundness.RuntimeProtection.Frames
import MetaResearch.Soundness.RuntimeProtection.Runs

/-! # Permits fail closed

A permit is only returned over a hold that was confirmed during the call, and leaves its epoch and
its responsibility active; a call that raises has activated nothing. The proof follows the branches
of `acquire` from a fixed first world: up to the activation the ledger has moved without activating
anything, and after it the program cannot raise any more.
-/

namespace MetaResearch.RuntimeProtection

variable {host : Host}

/-- A native answer between two interactions confirmed the hold of the lease. -/
def Confirmed (host : Host) (first last : ℕ) (lease : InhibitorLease) : Prop :=
  ∃ serial, first ≤ serial ∧ serial < last ∧ (host.queryHold serial lease).holdStatus = .confirmed

theorem Confirmed.later {first last later : ℕ} {lease : InhibitorLease} (confirmed : Confirmed host first last lease)
    (le : last ≤ later) : Confirmed host first later lease := by
  obtain ⟨serial, since, before, answer⟩ := confirmed
  exact ⟨serial, since, before.trans_le le, answer⟩

/-- An epoch is active under the lease. -/
def Tables.LeaseActive (tables : Tables) (lease : InhibitorLease) : Prop :=
  ∃ epoch ∈ tables.epochs, epoch.status = .active ∧ leaseFromEpoch epoch = .ok lease

/-- The responsibility of the identity is active under the holder in an incarnation. -/
def Tables.ActiveUnder (tables : Tables) (identity : RuntimeEffectIdentity) (holder : HolderRef)
    (incarnation : ℕ) : Prop :=
  ∃ row ∈ tables.responsibilities, row.identity = identity ∧ row.status = .active ∧
    row.incarnationRef = incarnation ∧ row.holderRef = some holder

/-- What a permit returned from `before` stands for in the world `after`. -/
structure Permitted (host : Host) (identity : RuntimeEffectIdentity) (before : PowerWorld)
    (permit : RuntimeEffectPermit) (after : PowerWorld) : Prop where
  names : permit.responsibilityRef = identity.responsibilityRef ∧
    permit.operationRef = identity.operationRef ∧ permit.incarnationRef = after.memory.incarnationRef
  held : ∃ lease, lease.holderRef = permit.holderRef ∧ after.durable.LeaseActive lease ∧
    Confirmed host before.tick after.tick lease
  active : after.durable.ActiveUnder identity permit.holderRef after.memory.incarnationRef

/-- A live daemon: its instance is the active one, and active rows are of its incarnation. -/
structure Current (world : PowerWorld) : Prop where
  registered : ∃ row ∈ world.durable.instances,
    row.incarnationRef = world.memory.incarnationRef ∧ row.status = .active
  rows : ∀ row ∈ world.durable.responsibilities, row.status = .active →
    row.incarnationRef = world.memory.incarnationRef

/-! ### From a fixed first world -/

/-- Rows with a receipt may have been closed. -/
def closing : Gains := fun receipts _ => Closed receipts

/-- The named responsibility may also have become active in the current incarnation. -/
def granting (ref : String) : Gains := fun receipts incarnation row =>
  Closed receipts row ∨ (row.ref = ref ∧ row.status = .active ∧ row.incarnationRef = incarnation)

section FirstWorld

variable (host) (start : PowerWorld) (identity : RuntimeEffectIdentity)

/-- Nothing was activated since the first world, and the identity has its row. -/
def Known (world : PowerWorld) : Prop :=
  Evolves closing start world ∧ ∃ row ∈ world.durable.responsibilities, row.identity = identity

/-- The holder has an epoch of its own. -/
def Tables.Issued (tables : Tables) (holder : HolderRef) : Prop :=
  ∃ epoch ∈ tables.epochs, epoch.holderRef = holder

/-- The lease is confirmed and may be activated. -/
def Ready (lease : InhibitorLease) (world : PowerWorld) : Prop :=
  (Known start identity world ∧ world.durable.Issued lease.holderRef) ∧
    Confirmed host start.tick world.tick lease

/-- The lease and the responsibility are active. -/
def Activated (lease : InhibitorLease) (world : PowerWorld) : Prop :=
  Evolves (granting identity.responsibilityRef) start world ∧
    world.durable.ActiveUnder identity lease.holderRef world.memory.incarnationRef ∧
    world.durable.LeaseActive lease ∧ Confirmed host start.tick world.tick lease

/-- A call that raises has activated nothing; one that dies may have activated its responsibility. -/
def Halted : Stop ProtectionError → PowerWorld → Prop
  | .raised _, world => Evolves closing start world
  | .died, world => Evolves (granting identity.responsibilityRef) start world

end FirstWorld

variable {start : PowerWorld} {identity : RuntimeEffectIdentity}

theorem granting_of_closing {before after : PowerWorld} (evolves : Evolves closing before after) (ref : String) :
    Evolves (granting ref) before after :=
  evolves.mono fun _ _ _ => .inl

theorem Known.halted {stop : Stop ProtectionError} {world : PowerWorld} (evolves : Evolves closing start world) :
    Halted start identity stop world := by
  cases stop with
  | raised error => exact evolves
  | died => exact granting_of_closing evolves _

theorem Known.later {before after : PowerWorld} (known : Known start identity before)
    (evolves : Evolves closing before after) : Known start identity after := by
  obtain ⟨row, member, same⟩ := known.2
  obtain ⟨later, present, kept⟩ := evolves.moves.identities row member
  exact ⟨known.1.trans evolves, later, present, kept.trans same⟩

theorem Tables.Issued.later {gains : Responsibility → Prop} {tables after : Tables} {holder : HolderRef}
    (issued : tables.Issued holder) (moves : Moves gains tables after) : after.Issued holder := by
  obtain ⟨epoch, member, same⟩ := issued
  obtain ⟨later, present, kept⟩ := moves.epochs epoch member
  exact ⟨later, present, kept.trans same⟩

/-- A program that activates nothing keeps what is known before the activation. -/
theorem Framed.ends {α : Type} {prog : Act α} {fact : PowerWorld → Prop} (framed : Framed closing prog)
    (kept : ∀ before after, Evolves closing before after → fact before → fact after)
    (evolved : ∀ world, fact world → Evolves closing start world) :
    Ends host fact prog (fun _ => fact) (Halted start identity) :=
  .framed framed kept fun _ world holds => Known.halted (evolved world holds)

theorem Known.ends {α : Type} {prog : Act α} (framed : Framed closing prog) :
    Ends host (Known start identity) prog (fun _ => Known start identity) (Halted start identity) :=
  framed.ends (fun _ _ evolves known => known.later evolves) fun _ known => known.1

theorem Known.ends_issued {α : Type} {prog : Act α} {holder : HolderRef} (framed : Framed closing prog) :
    Ends host (fun world => Known start identity world ∧ world.durable.Issued holder) prog
      (fun _ world => Known start identity world ∧ world.durable.Issued holder)
      (Halted start identity) :=
  framed.ends (fun _ _ evolves known => ⟨known.1.later evolves, known.2.later evolves.moves⟩)
    fun _ known => known.1.1

theorem Ready.ends {α : Type} {prog : Act α} {lease : InhibitorLease} (framed : Framed closing prog) :
    Ends host (Ready host start identity lease) prog (fun _ => Ready host start identity lease)
      (Halted start identity) :=
  framed.ends (fun _ _ evolves ready =>
    ⟨⟨ready.1.1.later evolves, ready.1.2.later evolves.moves⟩, ready.2.later evolves.tick⟩)
    fun _ ready => ready.1.1.1

/-! ### The activation -/

theorem leaseFromEpoch_withLease {epoch : Epoch} {lease : InhibitorLease} (same : epoch.holderRef = lease.holderRef) :
    leaseFromEpoch (epoch.withLease lease) = .ok lease := by
  cases lease
  simp_all [leaseFromEpoch, Epoch.withLease]

/-- The transaction of `_activate` leaves the epoch active under the lease and the row active. -/
theorem active_of_activateTx {lease : InhibitorLease} {incarnation : ℕ} {now : ℤ} {done : Unit}
    {tables after : Tables}
    (known : ∃ row ∈ tables.responsibilities, row.identity = identity) (issued : tables.Issued lease.holderRef)
    (success : activateTx identity.responsibilityRef lease incarnation now tables = .ok (done, after)) :
    after.ActiveUnder identity lease.holderRef incarnation ∧ after.LeaseActive lease := by
  unfold activateTx at success
  dsimp only at success
  split_ifs at success with single
  obtain ⟨_, rfl⟩ := Prod.mk.inj (Except.ok.inj success)
  obtain ⟨row, member, hit⟩ := Table.exists_of_count_pos (by rw [single]; decide)
  have chosen := hit
  simp only [Bool.and_eq_true, decide_eq_true_eq] at chosen
  obtain ⟨other, present, named⟩ := known
  have same : row = other := Table.eq_of_key member present (chosen.1.1.trans (by rw [Responsibility.ref, named]))
  obtain ⟨epoch, found, holder⟩ := issued
  constructor
  · exact ⟨_, Table.mem_update_of_chosen member hit, by rw [same]; exact named, rfl, rfl, rfl⟩
  · refine ⟨_, Table.mem_update_of_chosen found (decide_eq_true holder), rfl, ?_⟩
    exact leaseFromEpoch_withLease holder

theorem activate_ends {lease : InhibitorLease} :
    Ends host (Ready host start identity lease) (activate identity lease)
      (fun _ => Activated host start identity lease) (Halted start identity) := by
  let Current := fun (incarnation : ℕ) (world : PowerWorld) =>
    Ready host start identity lease world ∧ world.memory.incarnationRef = incarnation
  have later {world : PowerWorld} (ready : Ready host start identity lease world) :
      Ready host start identity lease { world with tick := world.tick + 1 } :=
    have evolves : Evolves closing world { world with tick := world.tick + 1 } :=
      ⟨Nat.le_succ _, rfl, .refl _⟩
    ⟨⟨ready.1.1.later evolves, ready.1.2⟩, ready.2.later evolves.tick⟩
  have asked {incarnation : ℕ} : Ends host (Current incarnation) now (fun _ => Current incarnation)
      (Halted start identity) :=
    .ask fun _ current => ⟨later current.1, current.2⟩
  refine Ends.reads.bind fun incarnation => asked.bind fun now =>
    .commit (fun _ _ current => Known.halted (later current.1).1.1.1) ?_
  rintro world done durable ⟨ready, rfl⟩ success
  have activated := active_of_activateTx ready.1.1.2 ready.1.2 success
  refine ⟨(granting_of_closing ready.1.1.1 _).trans ⟨Nat.le_succ _, rfl, ?_⟩,
    activated.1, activated.2, ready.2.later (Nat.le_succ _)⟩
  exact (Moves.activateTx success).mono fun _ => .inr

/-- Diagnostics leave what is active as it is. -/
theorem Activated.later {lease : InhibitorLease} {world : PowerWorld} {capabilities : Table Capability.incarnationRef}
    (activated : Activated host start identity lease world) :
    Activated host start identity lease { world with
      durable := { world.durable with capabilities := capabilities }, tick := world.tick + 1 } :=
  ⟨activated.1.trans ⟨Nat.le_succ _, rfl, (Moves.refl _).congr rfl rfl rfl rfl⟩,
    activated.2.1, activated.2.2.1, activated.2.2.2.later (Nat.le_succ _)⟩

/-- Once the responsibility is active, the rest of the call cannot raise. -/
theorem permit_ends {lease : InhibitorLease} :
    Ends host (Activated host start identity lease)
      (recordCapabilityReady lease >>= fun _ => incarnationRef >>= fun incarnation =>
        pure (permit identity lease incarnation))
      (fun permit world => Evolves (granting identity.responsibilityRef) start world ∧
        Permitted host identity start permit world) (Halted start identity) := by
  have scanned : Ends host (Activated host start identity lease) incarnationRef
      (fun _ => Activated host start identity lease) (Halted start identity) :=
    .observe fun _ => id
  have asked : Ends host (Activated host start identity lease) now
      (fun _ => Activated host start identity lease) (Halted start identity) :=
    .ask fun _ activated => activated.later
  have recorded : Ends host (Activated host start identity lease) (recordCapabilityReady lease)
      (fun _ => Activated host start identity lease) (Halted start identity) :=
    scanned.bind fun _ => asked.bind fun _ =>
      .commit_total (fun _ activated => activated.later.1) fun _ activated => activated.later
  refine recorded.bind fun _ => Ends.reads.bind fun incarnation => .pure ?_
  rintro world ⟨⟨evolves, active, held, confirmed⟩, same⟩
  exact ⟨evolves, ⟨rfl, rfl, same.symm⟩, ⟨lease, rfl, held, confirmed⟩, active⟩

theorem grant_ends {lease : InhibitorLease} :
    Ends host (Ready host start identity lease) (grant identity lease)
      (fun permit world => Evolves (granting identity.responsibilityRef) start world ∧
        Permitted host identity start permit world) (Halted start identity) :=
  activate_ends.bind fun _ => permit_ends

/-! ### The branches of `acquire` -/

/-- What every branch returns. -/
def Granted (host : Host) (start : PowerWorld) (identity : RuntimeEffectIdentity)
    (permit : RuntimeEffectPermit) (world : PowerWorld) : Prop :=
  Evolves (granting identity.responsibilityRef) start world ∧
    Permitted host identity start permit world

/-- A program that activates nothing, and then raises. -/
theorem refuses {prog : Act Unit} {error : ProtectionError} (framed : Framed closing prog) :
    Ends host (Evolves closing start) (prog >>= fun _ => Prog.raise error)
      (Granted host start identity) (Halted start identity) :=
  (framed.ends (fun _ _ second first => first.trans second) fun _ => id).bind fun _ => .raise fun _ => id

theorem confirmed_of_query {lease : InhibitorLease} {world : PowerWorld} (since : start.tick ≤ world.tick)
    (answer : (host.queryHold world.tick lease).holdStatus = .confirmed) :
    Confirmed host start.tick (world.tick + 1) lease :=
  ⟨world.tick, since, Nat.lt_succ_self _, answer⟩

/-- Asking about a hold: a confirmed answer makes the lease ready. -/
theorem queryHold_ends {lease : InhibitorLease} :
    Ends host (fun world => Known start identity world ∧ world.durable.Issued lease.holderRef)
      (queryHold lease)
      (fun status world => (Known start identity world ∧ world.durable.Issued lease.holderRef) ∧
        (status = .confirmed → Confirmed host start.tick world.tick lease)) (Halted start identity) := by
  refine .ask fun world known => ⟨⟨known.1.later ⟨Nat.le_succ _, rfl, .refl _⟩, known.2⟩, ?_⟩
  exact confirmed_of_query known.1.1.tick

theorem requestHold_ends {holder : HolderRef} :
    Ends host (fun world => Known start identity world ∧ world.durable.Issued holder) (requestHold holder)
      (fun request world => (Known start identity world ∧ world.durable.Issued holder) ∧
        ∀ lease, request = .confirmed lease → lease.holderRef = holder ∧
          Confirmed host start.tick world.tick lease) (Halted start identity) := by
  have done {request : HoldRequest} (other : ∀ lease, request ≠ .confirmed lease) :
      Ends host (fun world => Known start identity world ∧ world.durable.Issued holder)
        (pure request : Act HoldRequest)
        (fun request world => (Known start identity world ∧ world.durable.Issued holder) ∧
          ∀ lease, request = .confirmed lease → lease.holderRef = holder ∧
            Confirmed host start.tick world.tick lease) (Halted start identity) :=
    .pure fun _ known => ⟨known, fun lease same => (other lease same).elim⟩
  refine (Known.ends_issued Framed.ask).bind fun answer => ?_
  split
  · exact done (by simp)
  · exact done (by simp)
  · rename_i lease
    split_ifs with valid
    · have same : lease.holderRef = holder := by
        simp only [leaseValid, Bool.and_eq_true, decide_eq_true_eq] at valid
        exact valid.1.1.1
      subst same
      have asked : Ends host
          (fun world => Known start identity world ∧ world.durable.Issued lease.holderRef)
          (confirmationFailureCode lease)
          (fun code world => (Known start identity world ∧ world.durable.Issued lease.holderRef) ∧
            (code = none → Confirmed host start.tick world.tick lease)) (Halted start identity) := by
        refine queryHold_ends.bind fun status => ?_
        cases status with
        | confirmed => exact .pure fun _ answer => ⟨answer.1, fun _ => answer.2 rfl⟩
        | absent => exact .pure fun _ answer => ⟨answer.1, fun impossible => by cases impossible⟩
        | unknown => exact .pure fun _ answer => ⟨answer.1, fun impossible => by cases impossible⟩
      refine asked.bind fun code => ?_
      cases code with
      | none =>
        refine .pure fun world answer => ⟨answer.1, fun other same => ?_⟩
        obtain rfl := HoldRequest.confirmed.inj same
        exact ⟨rfl, answer.2 rfl⟩
      | some code => exact (done (by simp)).assuming fun _ answer => answer.1
    · exact done (by simp)

theorem requestPermit_ends {holder : HolderRef} :
    Ends host (fun world => Known start identity world ∧ world.durable.Issued holder)
      (requestPermit identity holder) (Granted host start identity) (Halted start identity) := by
  refine requestHold_ends.bind fun request => ?_
  cases request with
  | confirmed lease =>
    refine grant_ends.assuming ?_
    rintro world ⟨⟨known, issued⟩, asked⟩
    obtain ⟨rfl, confirmed⟩ := asked lease rfl
    exact ⟨⟨known, issued⟩, confirmed⟩
  | refused code lease =>
    exact (refuses Framed.recordAcquireFailure).assuming fun _ asked => asked.1.1.1
  | broken => exact (refuses Framed.recordAcquireFailure).assuming fun _ asked => asked.1.1.1

theorem retryExactAcquisition_ends {holder : HolderRef} :
    Ends host (fun world => Known start identity world ∧ world.durable.Issued holder)
      (retryExactAcquisition identity holder) (Granted host start identity) (Halted start identity) :=
  (Known.ends_issued Framed.ask).bind fun _ => (Known.ends_issued .observe).bind fun _ =>
    (Known.ends_issued (Framed.write Moves.retryExactTx)).bind fun _ => requestPermit_ends

/-- A value computed without the world is known afterwards. -/
theorem ofExcept_ends {α : Type} {fact : PowerWorld → Prop} {value : Except ProtectionError α}
    (evolved : ∀ world, fact world → Evolves closing start world) :
    Ends host fact (ofExcept value) (fun result world => fact world ∧ value = .ok result)
      (Halted start identity) := by
  cases value with
  | ok result => exact .pure fun _ holds => ⟨holds, rfl⟩
  | error error => exact .raise evolved

/-- The lease of an epoch is asked about; a confirmed one is granted after `prog`. -/
theorem share_ends {lease : InhibitorLease} {prog : Act Unit} {absent : Act RuntimeEffectPermit}
    (framed : Framed closing prog)
    (gone : Ends host (fun world => Known start identity world ∧ world.durable.Issued lease.holderRef)
      absent (Granted host start identity) (Halted start identity)) :
    Ends host (fun world => Known start identity world ∧ world.durable.Issued lease.holderRef)
      (queryHold lease >>= fun status => match status with
        | .confirmed => prog >>= fun _ => grant identity lease
        | .unknown => recordHoldReconciliationRequired lease >>= fun _ =>
            Prog.raise (unavailable "power_inhibitor_reconciliation_required")
        | .absent => absent) (Granted host start identity) (Halted start identity) := by
  refine queryHold_ends.bind fun status => ?_
  cases status with
  | confirmed =>
    exact ((Ready.ends framed).bind fun _ => grant_ends).assuming fun _ answer => ⟨answer.1, answer.2 rfl⟩
  | unknown => exact (refuses Framed.recordCapability).assuming fun _ answer => answer.1.1.1
  | absent => exact gone.assuming fun _ answer => answer.1

theorem resumeExactAcquisition_ends {holder : HolderRef} :
    Ends host (Known start identity) (resumeExactAcquisition identity holder)
      (Granted host start identity) (Halted start identity) := by
  refine Ends.reads.bind fun found => ?_
  cases found with
  | none => exact .raise fun _ read => read.1.1
  | some epoch =>
    have issued {world : PowerWorld}
        (read : Known start identity world ∧ world.durable.epochs.find? holder = some epoch) :
        Known start identity world ∧ world.durable.Issued holder :=
      ⟨read.1, epoch, Table.mem_of_find? read.2, Table.key_of_find? read.2⟩
    dsimp only
    split
    · refine (ofExcept_ends fun _ read => read.1.1).bind fun lease => ?_
      rintro world ⟨read, leased⟩
      obtain rfl : lease.holderRef = holder :=
        (Keeps.holderRef_of_leaseFromEpoch leased).trans (Table.key_of_find? read.2)
      exact share_ends (.bind Framed.ask fun _ => .bind .observe fun _ => Framed.write Moves.reopenTx)
        retryExactAcquisition_ends world (issued read)
    · exact .raise fun _ read => read.1.1
    · exact .raise fun _ read => read.1.1
    · exact retryExactAcquisition_ends.assuming fun _ => issued

theorem issued_of_issueHolderTx {ref kind : String} {holder : HolderRef} {incarnation : ℕ} {now : ℤ}
    {done : Unit} {tables after : Tables}
    (success : issueHolderTx ref holder kind incarnation now tables = .ok (done, after)) :
    after.Issued holder := by
  unfold issueHolderTx insertIssuedEpoch at success
  simp only [bind, Except.bind] at success
  split at success
  · cases success
  rename_i issued inserted
  obtain ⟨epochs, placed, rfl⟩ := Tables.insertEpoch_eq_ok inserted
  have linked : Moves (fun _ => False) _ after := Moves.linkAcquiringTx success
  exact linked.epochs _ ((Table.mem_insert? placed).mpr (.inr rfl))

theorem acquireFresh_ends :
    Ends host (Known start identity) (acquireFresh identity) (Granted host start identity)
      (Halted start identity) := by
  refine (Known.ends .observe).bind fun pending => ?_
  split_ifs
  · exact .raise fun _ known => known.1
  refine (Known.ends Framed.ask).bind fun serial => (Known.ends Framed.ask).bind fun now =>
    (Known.ends Framed.ask).bind fun kind => (Known.ends .observe).bind fun incarnation => ?_
  have issued : Ends host (Known start identity)
      (write (issueHolderTx identity.responsibilityRef (.powerHolder serial) kind incarnation now))
      (fun _ world => Known start identity world ∧ world.durable.Issued (.powerHolder serial))
      (Halted start identity) := by
    refine .commit (fun _ _ known => Known.halted (known.1.trans ⟨Nat.le_succ _, rfl, .refl _⟩)) ?_
    intro world _ durable known success
    exact ⟨known.later ⟨Nat.le_succ _, rfl, Moves.issueHolderTx success⟩, issued_of_issueHolderTx success⟩
  exact issued.bind fun _ => requestPermit_ends

theorem acquireShared_ends :
    Ends host (Known start identity) (acquireShared identity) (Granted host start identity)
      (Halted start identity) := by
  have looked : Ends host (Known start identity) activeLease
      (fun shared world => Known start identity world ∧
        ∀ lease, shared = some lease → world.durable.Issued lease.holderRef) (Halted start identity) := by
    refine Ends.reads.bind fun found => ?_
    cases found with
    | none => exact .pure fun _ read => ⟨read.1, fun _ impossible => by cases impossible⟩
    | some epoch =>
      refine (ofExcept_ends fun _ read => read.1.1).bind fun lease => .pure ?_
      rintro world ⟨⟨known, latest⟩, leased⟩
      refine ⟨known, fun other same => ?_⟩
      obtain rfl := Option.some.inj same
      exact ⟨epoch, (Table.mem_of_latest? latest).1, (Keeps.holderRef_of_leaseFromEpoch leased).symm⟩
  refine looked.bind fun shared => ?_
  cases shared with
  | none => exact acquireFresh_ends.assuming fun _ found => found.1
  | some lease =>
    refine (share_ends (.bind Framed.ask fun _ => Framed.write Moves.linkAcquiringTx)
      (((Known.ends Framed.markHolderLost).bind fun _ => acquireFresh_ends).assuming
        fun _ known => known.1)).assuming fun _ found => ⟨found.1, found.2 lease rfl⟩

/-- An active row is permitted again; the daemon being current, it is of the current incarnation. -/
theorem reconfirm_ends {row : Responsibility} (current : Current start) (same : row.identity = identity)
    (active : row.status = .active) :
    Ends host (fun world => Evolves closing start world ∧ row ∈ world.durable.responsibilities)
      (reconfirm identity row.holderRef) (Granted host start identity) (Halted start identity) := by
  unfold reconfirm
  split
  · exact .raise fun _ known => known.1
  rename_i holder link
  let Held := fun (lease : InhibitorLease) (world : PowerWorld) =>
    (Evolves closing start world ∧ row ∈ world.durable.responsibilities) ∧ lease.holderRef = holder ∧
      world.durable.LeaseActive lease
  have leased : Ends host (fun world => Evolves closing start world ∧ row ∈ world.durable.responsibilities)
      (leaseOf holder) Held (Halted start identity) := by
    refine Ends.reads.bind fun found => ?_
    split
    · rename_i epoch
      split_ifs with live
      · refine (ofExcept_ends fun _ read => read.1.1).concluding ?_
        rintro lease world ⟨⟨known, found⟩, leased⟩
        have own := (Keeps.holderRef_of_leaseFromEpoch leased).trans (Table.key_of_find? found)
        exact ⟨known, own, epoch, Table.mem_of_find? found, live, leased⟩
      · exact .raise fun _ read => read.1.1
    · exact .raise fun _ read => read.1.1
  refine leased.bind fun lease => ?_
  have asked : Ends host (Held lease) (queryHold lease)
      (fun status world => Held lease world ∧
        (status = .confirmed → Confirmed host start.tick world.tick lease)) (Halted start identity) := by
    refine .ask fun world held => ⟨⟨⟨held.1.1.trans ⟨Nat.le_succ _, rfl, .refl _⟩, held.1.2⟩, held.2⟩, ?_⟩
    exact confirmed_of_query held.1.1.tick
  refine asked.bind fun status => ?_
  cases status with
  | confirmed =>
    refine permit_ends.assuming ?_
    rintro world ⟨⟨⟨evolves, member⟩, rfl, held⟩, confirmed⟩
    have earlier : row.incarnationRef = start.memory.incarnationRef := by
      rcases evolves.moves.settled row member (.inl active) with before | closed
      · exact current.rows row before active
      · exact absurd (active.symm.trans closed.1) (by decide)
    exact ⟨granting_of_closing evolves _,
      ⟨row, member, same, active, earlier.trans evolves.incarnation.symm, link⟩, held, confirmed rfl⟩
  | unknown => exact (refuses Framed.recordCapability).assuming fun _ held => held.1.1.1
  | absent => exact (refuses Framed.markHolderLost).assuming fun _ held => held.1.1.1

theorem prepare_ends :
    Ends host (Evolves closing start) (prepare identity) (fun _ => Known start identity)
      (Halted start identity) := by
  have kept {α : Type} {prog : Act α} (framed : Framed closing prog) :
      Ends host (Evolves closing start) prog (fun _ => Evolves closing start) (Halted start identity) :=
    framed.ends (fun _ _ second first => first.trans second) fun _ => id
  refine (kept Framed.ask).bind fun now => (kept .observe).bind fun incarnation =>
    .commit (fun _ _ evolves => Known.halted (evolves.trans ⟨Nat.le_succ _, rfl, .refl _⟩)) ?_
  intro world _ durable evolves success
  obtain ⟨moves, prepared⟩ := Moves.prepareTx success
  exact ⟨evolves.trans ⟨Nat.le_succ _, rfl, moves⟩, prepared⟩

theorem acquireSettled_ends (current : Current start) :
    Ends host (Evolves closing start) (acquireSettled identity) (Granted host start identity)
      (Halted start identity) := by
  refine Ends.reads.bind fun found => ?_
  cases found with
  | none => exact (prepare_ends.assuming fun _ read => read.1).bind fun _ => acquireShared_ends
  | some row =>
    refine (ofExcept_ends fun _ read => read.1).bind fun _ => ?_
    have known {world : PowerWorld}
        (read : (Evolves closing start world ∧
          world.durable.responsibilities.find? identity.responsibilityRef = some row) ∧
            assertSameIdentity row identity = .ok ()) :
        row.identity = identity ∧ Known start identity world := by
      have same : row.identity = identity := by
        have identical := read.2
        unfold assertSameIdentity at identical
        split_ifs at identical with same
        exact same
      exact ⟨same, read.1.1, row, Table.mem_of_find? read.1.2, same⟩
    split
    · exact .raise fun _ read => read.1.1
    · rename_i active
      intro world read
      exact reconfirm_ends current (known read).1 active world ⟨read.1.1, Table.mem_of_find? read.1.2⟩
    · exact .raise fun _ read => read.1.1
    all_goals
      cases row.holderRef with
      | some holder => exact resumeExactAcquisition_ends.assuming fun _ read => (known read).2
      | none =>
        have reset : Framed closing (resetForAcquisition identity.responsibilityRef) :=
          .bind Framed.ask fun _ => .bind .observe fun _ => Framed.write Moves.reopenTx
        exact ((Known.ends reset).bind fun _ => acquireShared_ends).assuming fun _ read => (known read).2

/-- From the world of a current daemon: every way in which `acquire` can end. -/
theorem acquire_ends (current : Current start) :
    Ends host (Evolves closing start) (acquire identity) (Granted host start identity)
      (Halted start identity) :=
  (Framed.acquirePreamble.ends (fun _ _ second first => first.trans second) fun _ => id).bind
    fun _ => acquireSettled_ends current

end MetaResearch.RuntimeProtection

import MetaResearch.Model.RuntimeProtection.Hazards

/-! # The power ledger invariant

Two laws tie responsibilities to epochs: an active responsibility is held by an active epoch, and
an active epoch is referenced by an unfinished responsibility. Each can be broken by one branch of
the code only, so the invariant takes the two laws behind separate switches and both are carried
through the same proofs. The remaining fields are unconditional: references point at existing
epochs, never at the capability probe, whose epoch is never active.

Every transaction of the code is an instance of one of the few ledger moves proved here.
-/

namespace MetaResearch.RuntimeProtection

/-- An active epoch of the given holder. -/
def Tables.HoldActive (tables : Tables) (holder : HolderRef) : Prop :=
  ∃ epoch ∈ tables.epochs, epoch.holderRef = holder ∧ epoch.status = .active

/-- No active responsibility is linked to the holder. -/
def Tables.Idle (tables : Tables) (holder : HolderRef) : Prop :=
  ∀ row ∈ tables.responsibilities, row.status = .active → row.holderRef ≠ some holder

/-- An unfinished responsibility is linked to the holder. -/
def Tables.Supported (tables : Tables) (holder : HolderRef) : Prop :=
  ∃ row ∈ tables.responsibilities, row.holderRef = some holder ∧ row.status ≠ .finished

theorem Tables.insertEpoch_eq_ok {tables after : Tables} {epoch : Epoch}
    (success : tables.insertEpoch epoch = .ok after) :
    ∃ epochs, tables.epochs.insert? epoch = some epochs ∧ after = { tables with epochs := epochs } := by
  unfold Tables.insertEpoch at success
  split at success
  · rename_i epochs inserted
    exact ⟨epochs, inserted, (Except.ok.inj success).symm⟩
  · cases success

/-- The invariant before interaction `tick`, with the first law under `safe` and the second under
`tight`. -/
structure PowerLedger (safe tight : Prop) (tick : ℕ) (tables : Tables) : Prop where
  fresh : ∀ epoch ∈ tables.epochs, ∀ serial, epoch.holderRef = .powerHolder serial → serial < tick
  linked : ∀ row ∈ tables.responsibilities, ∀ holder, row.holderRef = some holder →
    holder ≠ .startupProbe ∧ ∃ epoch ∈ tables.epochs, epoch.holderRef = holder
  probe : ∀ epoch ∈ tables.epochs, epoch.holderRef = .startupProbe → epoch.status ≠ .active
  held : safe → ∀ row ∈ tables.responsibilities, row.status = .active →
    ∃ holder, row.holderRef = some holder ∧ tables.HoldActive holder
  supported : tight → ∀ epoch ∈ tables.epochs, epoch.status = .active →
    tables.Supported epoch.holderRef

namespace PowerLedger

variable {safe tight : Prop} {tick : ℕ} {tables : Tables}

theorem empty : PowerLedger safe tight tick {} where
  fresh _ member := (Table.not_mem_empty _ member).elim
  linked _ member := (Table.not_mem_empty _ member).elim
  probe _ member := (Table.not_mem_empty _ member).elim
  held _ _ member := (Table.not_mem_empty _ member).elim
  supported _ _ member := (Table.not_mem_empty _ member).elim

theorem later (ledger : PowerLedger safe tight tick tables) {tick' : ℕ} (le : tick ≤ tick') :
    PowerLedger safe tight tick' tables :=
  { ledger with
    fresh := fun epoch member serial same => (ledger.fresh epoch member serial same).trans_le le }

/-- Only the responsibilities and the epochs matter. -/
theorem congr (ledger : PowerLedger safe tight tick tables) {after : Tables}
    (responsibilities : after.responsibilities = tables.responsibilities)
    (epochs : after.epochs = tables.epochs) : PowerLedger safe tight tick after := by
  obtain ⟨fresh, linked, probe, held, supported⟩ := ledger
  constructor <;>
    simp only [Tables.HoldActive, Tables.Supported, responsibilities, epochs] at * <;> assumption

/-- Keys being distinct, an epoch that is not active holds no active responsibility. -/
theorem idle_of_not_active (ledger : PowerLedger safe tight tick tables) (on : safe) {epoch : Epoch}
    (member : epoch ∈ tables.epochs) (other : epoch.status ≠ .active) :
    tables.Idle epoch.holderRef := by
  intro row present active link
  obtain ⟨holder, toHolder, live, hold, same, status⟩ := ledger.held on row present active
  obtain rfl := Option.some.inj (toHolder.symm.trans link)
  rw [Table.eq_of_key hold member same] at status
  exact other status

/-- The probe holds no responsibility at all. -/
theorem idle_probe (ledger : PowerLedger safe tight tick tables) : tables.Idle .startupProbe := by
  intro row member _ link
  exact (ledger.linked row member _ link).1 rfl

/-! ### Moves of the epochs -/

private theorem fresh_update (ledger : PowerLedger safe tight tick tables) {chosen : Epoch → Bool}
    {rewrite : Rewrite Epoch.holderRef} :
    ∀ epoch ∈ (tables.updateEpochs chosen rewrite).epochs, ∀ serial,
      epoch.holderRef = .powerHolder serial → serial < tick := by
  intro epoch member serial same
  obtain ⟨old, present, key⟩ := Table.exists_key_update.mp ⟨epoch, member, same⟩
  exact ledger.fresh old present serial key

/-- Epochs may leave `active`, or be rewritten while inactive, as long as the holder is idle. -/
theorem updateEpochs (ledger : PowerLedger safe tight tick tables) {chosen : Epoch → Bool}
    {rewrite : Rewrite Epoch.holderRef}
    (inactive : ∀ epoch, (rewrite.apply epoch).status ≠ .active)
    (idle : safe → ∀ epoch ∈ tables.epochs, chosen epoch = true → tables.Idle epoch.holderRef) :
    PowerLedger safe tight tick (tables.updateEpochs chosen rewrite) where
  fresh := ledger.fresh_update
  linked row member holder link :=
    (ledger.linked row member holder link).imp_right Table.exists_key_update.mpr
  probe epoch member same := by
    obtain ⟨old, present, ⟨_, rfl⟩ | ⟨_, rfl⟩⟩ := Table.mem_update.mp member
    · exact inactive old
    · exact ledger.probe _ present same
  held on row member active := by
    obtain ⟨holder, link, old, present, same, status⟩ := ledger.held on row member active
    cases hit : chosen old with
    | true => exact (idle on old present hit row member active (same ▸ link)).elim
    | false => exact ⟨holder, link, old, Table.mem_update_of_not present hit, same, status⟩
  supported on epoch member active := by
    obtain ⟨old, present, ⟨_, rfl⟩ | ⟨_, rfl⟩⟩ := Table.mem_update.mp member
    · exact (inactive old active).elim
    · exact ledger.supported on _ present active

/-- Epochs whose status does not change keep the ledger. -/
theorem updateEpochs_status (ledger : PowerLedger safe tight tick tables) {chosen : Epoch → Bool}
    {rewrite : Rewrite Epoch.holderRef}
    (same : ∀ epoch, (rewrite.apply epoch).status = epoch.status) :
    PowerLedger safe tight tick (tables.updateEpochs chosen rewrite) where
  fresh := ledger.fresh_update
  linked row member holder link :=
    (ledger.linked row member holder link).imp_right Table.exists_key_update.mpr
  probe epoch member key := by
    obtain ⟨old, present, ⟨_, rfl⟩ | ⟨_, rfl⟩⟩ := Table.mem_update.mp member
    · rw [same]
      exact ledger.probe old present ((rewrite.keeps old).symm.trans key)
    · exact ledger.probe _ present key
  held on row member active := by
    obtain ⟨holder, link, old, present, key, status⟩ := ledger.held on row member active
    refine ⟨holder, link, ?_⟩
    cases hit : chosen old with
    | true =>
      exact ⟨_, Table.mem_update_of_chosen present hit, (rewrite.keeps old).trans key, (same old).trans status⟩
    | false => exact ⟨old, Table.mem_update_of_not present hit, key, status⟩
  supported on epoch member active := by
    obtain ⟨old, present, ⟨_, rfl⟩ | ⟨_, rfl⟩⟩ := Table.mem_update.mp member
    · rw [rewrite.keeps]
      exact ledger.supported on old present ((same old).symm.trans active)
    · exact ledger.supported on _ present active

/-- Epochs of one supported holder may become active. -/
theorem activateEpochs (ledger : PowerLedger safe tight tick tables) {chosen : Epoch → Bool}
    {rewrite : Rewrite Epoch.holderRef}
    (active : ∀ epoch, (rewrite.apply epoch).status = .active)
    (supports : ∀ epoch ∈ tables.epochs, chosen epoch = true →
      epoch.holderRef ≠ .startupProbe ∧ tables.Supported epoch.holderRef) :
    PowerLedger safe tight tick (tables.updateEpochs chosen rewrite) where
  fresh := ledger.fresh_update
  linked row member holder link :=
    (ledger.linked row member holder link).imp_right Table.exists_key_update.mpr
  probe epoch member key := by
    obtain ⟨old, present, ⟨hit, rfl⟩ | ⟨_, rfl⟩⟩ := Table.mem_update.mp member
    · exact ((supports old present hit).1 ((rewrite.keeps old).symm.trans key)).elim
    · exact ledger.probe _ present key
  held on row member status := by
    obtain ⟨holder, link, old, present, key, status⟩ := ledger.held on row member status
    refine ⟨holder, link, ?_⟩
    cases hit : chosen old with
    | true =>
      exact ⟨_, Table.mem_update_of_chosen present hit, (rewrite.keeps old).trans key, active old⟩
    | false => exact ⟨old, Table.mem_update_of_not present hit, key, status⟩
  supported on epoch member status := by
    obtain ⟨old, present, ⟨hit, rfl⟩ | ⟨_, rfl⟩⟩ := Table.mem_update.mp member
    · rw [rewrite.keeps]
      exact (supports old present hit).2
    · exact ledger.supported on _ present status

/-- A new epoch starts inactive and unreferenced. -/
theorem insertEpoch (ledger : PowerLedger safe tight tick tables) {epoch : Epoch} {after : Tables}
    (bound : ∀ serial, epoch.holderRef = .powerHolder serial → serial < tick)
    (inactive : epoch.status ≠ .active) (success : tables.insertEpoch epoch = .ok after) :
    PowerLedger safe tight tick after := by
  obtain ⟨epochs, inserted, rfl⟩ := Tables.insertEpoch_eq_ok success
  have mem {other : Epoch} : other ∈ epochs ↔ other ∈ tables.epochs ∨ other = epoch :=
    Table.mem_insert? inserted
  constructor
  · intro other member serial same
    rcases mem.mp member with old | rfl
    · exact ledger.fresh other old serial same
    · exact bound serial same
  · intro row member holder link
    obtain ⟨notProbe, other, present, same⟩ := ledger.linked row member holder link
    exact ⟨notProbe, other, mem.mpr (.inl present), same⟩
  · intro other member same
    rcases mem.mp member with old | rfl
    · exact ledger.probe other old same
    · exact inactive
  · intro on row member active
    obtain ⟨holder, link, other, present, same, status⟩ := ledger.held on row member active
    exact ⟨holder, link, other, mem.mpr (.inl present), same, status⟩
  · intro on other member active
    rcases mem.mp member with old | rfl
    · exact ledger.supported on other old active
    · exact (inactive active).elim

/-! ### Moves of the responsibilities -/

/-- Responsibilities that keep their holder and neither wake up nor finish keep the ledger. -/
theorem updateResponsibilities (ledger : PowerLedger safe tight tick tables)
    {chosen : Responsibility → Bool} {rewrite : Rewrite Responsibility.ref}
    (holder : ∀ row, (rewrite.apply row).holderRef = row.holderRef)
    (inactive : ∀ row, chosen row = true → (rewrite.apply row).status ≠ .active)
    (unfinished : ∀ row, chosen row = true → (rewrite.apply row).status ≠ .finished) :
    PowerLedger safe tight tick (tables.updateResponsibilities chosen rewrite) where
  fresh := ledger.fresh
  linked row member link := by
    obtain ⟨old, present, ⟨_, rfl⟩ | ⟨_, rfl⟩⟩ := Table.mem_update.mp member
    · rw [holder]
      exact ledger.linked old present link
    · exact ledger.linked _ present link
  probe := ledger.probe
  held on row member active := by
    obtain ⟨old, present, ⟨hit, rfl⟩ | ⟨_, rfl⟩⟩ := Table.mem_update.mp member
    · exact (inactive old hit active).elim
    · exact ledger.held on _ present active
  supported on epoch member active := by
    obtain ⟨row, present, link, status⟩ := ledger.supported on epoch member active
    cases hit : chosen row with
    | true =>
      exact ⟨_, Table.mem_update_of_chosen present hit, (holder row).trans link, unfinished row hit⟩
    | false => exact ⟨row, Table.mem_update_of_not present hit, link, status⟩

/-- Responsibilities linked to one active epoch may become active. -/
theorem activateResponsibilities (ledger : PowerLedger safe tight tick tables)
    {chosen : Responsibility → Bool} {rewrite : Rewrite Responsibility.ref}
    (holder : ∀ row, chosen row = true → (rewrite.apply row).holderRef = row.holderRef)
    (unfinished : ∀ row, (rewrite.apply row).status ≠ .finished)
    (active : ∀ row ∈ tables.responsibilities, chosen row = true →
      ∃ holder, row.holderRef = some holder ∧ tables.HoldActive holder) :
    PowerLedger safe tight tick (tables.updateResponsibilities chosen rewrite) where
  fresh := ledger.fresh
  linked row member link := by
    obtain ⟨old, present, ⟨hit, rfl⟩ | ⟨_, rfl⟩⟩ := Table.mem_update.mp member
    · rw [holder old hit]
      exact ledger.linked old present link
    · exact ledger.linked _ present link
  probe := ledger.probe
  held on row member status := by
    obtain ⟨old, present, ⟨hit, rfl⟩ | ⟨_, rfl⟩⟩ := Table.mem_update.mp member
    · rw [holder old hit]
      exact active old present hit
    · exact ledger.held on _ present status
  supported on epoch member status := by
    obtain ⟨row, present, link, other⟩ := ledger.supported on epoch member status
    cases hit : chosen row with
    | true =>
      exact ⟨_, Table.mem_update_of_chosen present hit, (holder row hit).trans link, unfinished row⟩
    | false => exact ⟨row, Table.mem_update_of_not present hit, link, other⟩

/-- Inactive unfinished responsibilities may move to another holder if no active epoch loses its
last support. -/
theorem relink (ledger : PowerLedger safe tight tick tables) {chosen : Responsibility → Bool}
    {rewrite : Rewrite Responsibility.ref}
    {holder : HolderRef} (target : ∀ row, (rewrite.apply row).holderRef = some holder)
    (notProbe : holder ≠ .startupProbe) (exists_epoch : ∃ epoch ∈ tables.epochs, epoch.holderRef = holder)
    (status : ∀ row, (rewrite.apply row).status = row.status)
    (inactive : ∀ row, chosen row = true → row.status ≠ .active)
    (support : tight → ∀ epoch ∈ tables.epochs, epoch.status = .active →
      (∃ row ∈ tables.responsibilities, row.holderRef = some epoch.holderRef ∧
        row.status ≠ .finished ∧ (chosen row = true → holder = epoch.holderRef))) :
    PowerLedger safe tight tick (tables.updateResponsibilities chosen rewrite) where
  fresh := ledger.fresh
  linked row member other link := by
    obtain ⟨old, present, ⟨_, rfl⟩ | ⟨_, rfl⟩⟩ := Table.mem_update.mp member
    · obtain rfl := Option.some.inj ((target old).symm.trans link)
      exact ⟨notProbe, exists_epoch⟩
    · exact ledger.linked _ present other link
  probe := ledger.probe
  held on row member active := by
    obtain ⟨old, present, ⟨hit, rfl⟩ | ⟨_, rfl⟩⟩ := Table.mem_update.mp member
    · exact (inactive old hit ((status old).symm.trans active)).elim
    · exact ledger.held on _ present active
  supported on epoch member active := by
    obtain ⟨row, present, link, unfinished, moves⟩ := support on epoch member active
    cases hit : chosen row with
    | true =>
      exact ⟨_, Table.mem_update_of_chosen present hit, (target row).trans (congrArg some (moves hit)),
        (status row).trans_ne unfinished⟩
    | false => exact ⟨row, Table.mem_update_of_not present hit, link, unfinished⟩

/-- A new responsibility starts acquiring and without a holder. -/
theorem insertResponsibility (ledger : PowerLedger safe tight tick tables) {row : Responsibility}
    {responsibilities : Table Responsibility.ref}
    (inserted : tables.responsibilities.insert? row = some responsibilities)
    (unlinked : row.holderRef = none) (inactive : row.status ≠ .active) :
    PowerLedger safe tight tick { tables with responsibilities := responsibilities } where
  fresh := ledger.fresh
  linked other member holder link := by
    rcases (Table.mem_insert? inserted).mp member with old | rfl
    · exact ledger.linked other old holder link
    · simp [unlinked] at link
  probe := ledger.probe
  held on other member active := by
    rcases (Table.mem_insert? inserted).mp member with old | rfl
    · exact ledger.held on other old active
    · exact (inactive active).elim
  supported on epoch member active := by
    obtain ⟨other, present, link, status⟩ := ledger.supported on epoch member active
    exact ⟨other, (Table.mem_insert? inserted).mpr (.inl present), link, status⟩

end PowerLedger

end MetaResearch.RuntimeProtection

import MetaResearch.Soundness.RuntimeProtection.Transactions

/-! # Every program keeps the power ledger

`Keeps` is the triple of a program that runs from the ledger and a fact about the tables: it
returns in the ledger and another fact, and wherever it stops the ledger still holds. The programs
are taken in the order of the source, each by the rules for its parts; here are the rules, and the
programs that settle the ledger.
-/

namespace MetaResearch.RuntimeProtection

/-- The ledger together with a fact about the tables. -/
def Sound (safe tight : Prop) (fact : Tables → Prop) (world : PowerWorld) : Prop :=
  PowerLedger safe tight world.tick world.durable ∧ fact world.durable

/-- The fact that asks nothing. -/
abbrev Any : Tables → Prop := fun _ => True

/-- A fact that the capability rows do not enter. -/
def Blind (fact : Tables → Prop) : Prop :=
  ∀ tables capabilities, fact tables → fact { tables with capabilities := capabilities }

/-- From the ledger and a fact, a program keeps the ledger and returns in another fact. -/
def Keeps (safe tight : Prop) (host : Host) {α : Type} (fact : Tables → Prop) (prog : Act α)
    (post : α → Tables → Prop) : Prop :=
  Triple host (Sound safe tight fact) prog (fun value => Sound safe tight (post value))
    (Sound safe tight Any)

namespace Keeps

variable {safe tight : Prop} {host : Host} {α β : Type} {fact : Tables → Prop}

theorem forget {world : PowerWorld} (sound : Sound safe tight fact world) :
    Sound safe tight Any world :=
  ⟨sound.1, True.intro⟩

theorem tick {world : PowerWorld} (sound : Sound safe tight fact world) :
    Sound safe tight fact { world with tick := world.tick + 1 } :=
  ⟨sound.1.later (Nat.le_succ _), sound.2⟩

/-! ### Rules -/

theorem pure {post : α → Tables → Prop} {value : α} (holds : ∀ tables, fact tables → post value tables) :
    Keeps safe tight host fact (Pure.pure value) post :=
  Triple.pure fun _ sound => ⟨sound.1, holds _ sound.2⟩

theorem raise {post : α → Tables → Prop} {error : ProtectionError} :
    Keeps safe tight host fact (Prog.raise error : Act α) post :=
  Triple.raise fun _ => forget

theorem bind {prog : Act α} {next : α → Act β} {mid : α → Tables → Prop} {post : β → Tables → Prop}
    (first : Keeps safe tight host fact prog mid)
    (rest : ∀ value, Keeps safe tight host (mid value) (next value) post) :
    Keeps safe tight host fact (prog >>= next) post :=
  Triple.bind first rest

theorem consequence {prog : Act α} {fact' : Tables → Prop} {post post' : α → Tables → Prop}
    (keeps : Keeps safe tight host fact prog post) (stronger : ∀ tables, fact' tables → fact tables)
    (weaker : ∀ value tables, post value tables → post' value tables) :
    Keeps safe tight host fact' prog post' :=
  Triple.consequence keeps (fun _ sound => ⟨sound.1, stronger _ sound.2⟩)
    (fun _ _ sound => ⟨sound.1, weaker _ _ sound.2⟩) (fun _ => id)

/-- A program that needs nothing may start from any fact. -/
theorem anyway {prog : Act α} {post : α → Tables → Prop} (keeps : Keeps safe tight host Any prog post) :
    Keeps safe tight host fact prog post :=
  keeps.consequence (fun _ _ => True.intro) (fun _ _ => id)

/-- What does not mention the tables can be used outside the run. -/
theorem given {prog : Act α} {known : Prop} {post : α → Tables → Prop}
    (keeps : known → Keeps safe tight host fact prog post) :
    Keeps safe tight host (fun tables => fact tables ∧ known) prog post :=
  fun world sound => keeps sound.2.2 world ⟨sound.1, sound.2.1⟩

theorem ofExcept {post : α → Tables → Prop} {value : Except ProtectionError α}
    (holds : ∀ result tables, value = .ok result → fact tables → post result tables) :
    Keeps safe tight host fact (ofExcept value) post := by
  cases value with
  | ok result => exact pure fun tables => holds result tables rfl
  | error error => exact raise

theorem ask {answer : Host → ℕ → α} :
    Keeps safe tight host fact (Prog.ask answer) fun _ => fact :=
  Triple.ask fun _ => tick

theorem observe {view : PowerWorld → α} {post : α → Tables → Prop}
    (holds : ∀ world, fact world.durable → post (view world) world.durable) :
    Keeps safe tight host fact (Prog.observe view) post :=
  Triple.observe fun world sound => ⟨sound.1, holds world sound.2⟩

theorem read {view : Tables → α} :
    Keeps safe tight host fact (read view) fun value tables => fact tables ∧ view tables = value :=
  observe fun _ holds => ⟨holds, rfl⟩

/-- A reading whose value nobody relies on. -/
theorem scan {view : PowerWorld → α} : Keeps safe tight host fact (Prog.observe view) fun _ => fact :=
  observe fun _ => id

theorem now : Keeps safe tight host fact now fun _ => fact := ask

theorem inhibitorKind : Keeps safe tight host fact inhibitorKind fun _ => fact := ask

theorem incarnationRef : Keeps safe tight host fact incarnationRef fun _ => fact :=
  observe fun _ => id

theorem remember {change : Memory → Memory} :
    Keeps safe tight host fact (Prog.remember change) fun _ => fact :=
  Triple.remember fun _ => id

theorem write {transaction : Tables → Except ProtectionError (α × Tables)}
    {post : α → Tables → Prop}
    (keeps : ∀ tick tables value after, PowerLedger safe tight tick tables → fact tables →
      transaction tables = .ok (value, after) →
        PowerLedger safe tight tick after ∧ post value after) :
    Keeps safe tight host fact (write transaction) post := by
  refine Triple.commit (fun _ sound => tick (forget sound)) ?_
  intro world value durable sound success
  obtain ⟨ledger, holds⟩ := keeps world.tick world.durable value durable sound.1 sound.2 success
  exact ⟨ledger.later (Nat.le_succ _), holds⟩

theorem change {transaction : Tables → Tables} {post : Unit → Tables → Prop}
    (keeps : ∀ tick tables, PowerLedger safe tight tick tables → fact tables →
      PowerLedger safe tight tick (transaction tables) ∧ post () (transaction tables)) :
    Keeps safe tight host fact (change transaction) post := by
  refine write fun tick tables _ _ ledger holds success => ?_
  obtain ⟨_, rfl⟩ := Prod.mk.inj (Except.ok.inj success)
  exact keeps tick tables ledger holds

/-- A transaction whose result nobody relies on. -/
theorem commits {transaction : Tables → Except ProtectionError (α × Tables)}
    (keeps : ∀ tick tables value after, PowerLedger safe tight tick tables →
      transaction tables = .ok (value, after) → PowerLedger safe tight tick after) :
    Keeps safe tight host fact (RuntimeProtection.write transaction) fun _ => Any :=
  write fun tick tables value after ledger _ success =>
    ⟨keeps tick tables value after ledger success, True.intro⟩

theorem moves {transaction : Tables → Tables}
    (keeps : ∀ tick tables, PowerLedger safe tight tick tables →
      PowerLedger safe tight tick (transaction tables)) :
    Keeps safe tight host fact (RuntimeProtection.change transaction) fun _ => Any :=
  change fun tick tables ledger _ => ⟨keeps tick tables ledger, True.intro⟩

theorem forEach {body : α → Act Unit} {items : List α}
    (round : ∀ item ∈ items, Keeps safe tight host fact (body item) fun _ => fact) :
    Keeps safe tight host fact (Prog.forEach body items) fun _ => fact :=
  Triple.forEach round

/-- A caught program leaves the ledger, whether or not it raised. -/
theorem attempt {prog : Act α} {post : α → Tables → Prop}
    (keeps : Keeps safe tight host fact prog post) :
    Keeps safe tight host fact prog.attempt fun _ => Any :=
  Triple.attempt (keeps.consequence (fun _ => id) fun _ _ _ => True.intro) fun _ _ => id

/-- The common beginning of the programs that issue a holder: its number is below the tick. -/
theorem mint {next : ℕ → ℤ → String → ℕ → Act α} {post : α → Tables → Prop}
    (rest : ∀ serial now kind incarnation,
      Triple host (fun world => Sound safe tight fact world ∧ serial < world.tick)
        (next serial now kind incarnation) (fun value => Sound safe tight (post value))
        (Sound safe tight Any)) :
    Keeps safe tight host fact
      (newRef >>= fun serial => RuntimeProtection.now >>= fun now =>
        RuntimeProtection.inhibitorKind >>= fun kind =>
          RuntimeProtection.incarnationRef >>= fun incarnation => next serial now kind incarnation)
      post := by
  let Minted := fun (serial : ℕ) (world : PowerWorld) => Sound safe tight fact world ∧ serial < world.tick
  have later {serial : ℕ} {world : PowerWorld} (minted : Minted serial world) :
      Minted serial { world with tick := world.tick + 1 } :=
    ⟨tick minted.1, Nat.lt_succ_of_lt minted.2⟩
  have step {γ : Type} {serial : ℕ} {answer : Host → ℕ → γ} :
      Triple host (Minted serial) (Prog.ask answer : Act γ) (fun _ => Minted serial)
        (Sound safe tight Any) :=
    Triple.ask fun _ => later
  have issue : Triple host (Sound safe tight fact) newRef Minted (Sound safe tight Any) :=
    Triple.ask fun world sound => ⟨tick sound, Nat.lt_succ_self _⟩
  have current {serial : ℕ} : Triple host (Minted serial) RuntimeProtection.incarnationRef
      (fun _ => Minted serial) (Sound safe tight Any) :=
    Triple.observe fun _ => id
  exact issue.bind fun serial => step.bind fun now => step.bind fun kind =>
    current.bind fun incarnation => rest serial now kind incarnation

/-! ### Diagnostics, native requests and releases -/

theorem recordCapability {status : ProbeStatus} {holder : HolderRef} {backend scope : String}
    {reason : Option String} (blind : Blind fact) :
    Keeps safe tight host fact (recordCapability status holder backend scope reason)
      fun _ => fact :=
  incarnationRef.bind fun _ => now.bind fun _ =>
    change fun _ tables ledger holds => ⟨ledger.congr rfl rfl, blind tables _ holds⟩

theorem confirmationFailureCode {lease : InhibitorLease} :
    Keeps safe tight host fact (confirmationFailureCode lease) fun _ => fact := by
  refine ask.bind fun status => ?_
  cases status <;> exact pure fun _ => id

theorem queryHold {lease : InhibitorLease} :
    Keeps safe tight host fact (queryHold lease) fun _ => fact :=
  ask

theorem leaseOf {holder : HolderRef} : Keeps safe tight host fact (leaseOf holder) fun _ => fact := by
  refine bind scan fun epoch => ?_
  split
  · split_ifs
    · exact ofExcept fun _ _ _ => id
    · exact raise
  · exact raise

/-- A confirmed request returns a lease of the holder it asked for. -/
theorem requestHold {holder : HolderRef} :
    Keeps safe tight host fact (requestHold holder) fun request tables =>
      fact tables ∧ ∀ lease, request = .confirmed lease → lease.holderRef = holder := by
  have done {request : HoldRequest} (other : ∀ lease, request ≠ .confirmed lease) :
      Keeps safe tight host fact (Pure.pure request) fun request tables =>
        fact tables ∧ ∀ lease, request = .confirmed lease → lease.holderRef = holder :=
    pure fun _ holds => ⟨holds, fun lease same => (other lease same).elim⟩
  refine bind ask fun answer => ?_
  split
  · exact done (by simp)
  · exact done (by simp)
  · rename_i lease
    split_ifs with valid
    · refine confirmationFailureCode.bind fun code => ?_
      cases code with
      | none =>
        refine pure fun _ holds => ⟨holds, fun other same => ?_⟩
        obtain rfl := HoldRequest.confirmed.inj same
        simp only [leaseValid, Bool.and_eq_true, decide_eq_true_eq] at valid
        exact valid.1.1.1
      | some code => exact done (by simp)
    · exact done (by simp)

theorem outcome_eq_ok_iff {request : HoldRequest} {code : String} {lease : InhibitorLease} :
    request.outcome code = .ok lease ↔ request = .confirmed lease := by
  cases request <;> simp [HoldRequest.outcome]

theorem markHolderLost {lease : InhibitorLease} :
    Keeps safe tight host fact (markHolderLost lease) fun _ => Any :=
  now.bind fun _ => (moves fun _ _ ledger => ledger.holderLostTx).bind fun _ =>
    recordCapability fun _ _ => id

theorem releaseEpoch {lease : InhibitorLease} :
    Keeps safe tight host fact (releaseEpoch lease) fun _ => Any := by
  refine ask.bind fun released => now.bind fun _ =>
    (moves fun _ _ ledger => ledger.releaseTx).bind fun _ => ?_
  split_ifs
  · exact remember.bind fun _ => recordCapability fun _ _ => id
  · exact recordCapability fun _ _ => id

theorem retryPendingReleases : Keeps safe tight host fact retryPendingReleases fun _ => Any :=
  now.bind fun _ => (commits fun _ _ _ _ ledger => ledger.retryReleasesTx).bind fun _ =>
    forEach fun _ _ => (ofExcept fun _ _ _ => id).bind fun _ => releaseEpoch

/-! ### Finishing -/

theorem resolveNoEffectAcquisition {row : Responsibility} (blind : Blind fact) :
    Keeps safe tight host fact (resolveNoEffectAcquisition row) fun _ => fact := by
  have done {resolution : Option (InhibitorHoldStatus × Option InhibitorLease)} :
      Keeps safe tight host fact (Pure.pure resolution) fun _ => fact :=
    pure fun _ => id
  unfold RuntimeProtection.resolveNoEffectAcquisition
  split
  · exact done
  split_ifs
  · refine bind scan fun epoch => ?_
    split
    · exact done
    split_ifs
    · exact done
    · refine ask.bind fun answer => ?_
      split
      · exact (recordCapability blind).bind fun _ => done
      · exact (recordCapability blind).bind fun _ => done
      · exact done
    · refine (ofExcept fun _ _ _ => id).bind fun lease => queryHold.bind fun status => ?_
      split_ifs
      · exact (recordCapability blind).bind fun _ => done
      · exact done
  · exact done

theorem finish {ref : String} {boundary : RuntimeBoundary} {checkpointRef : Option String} :
    Keeps safe tight host fact (finish ref boundary checkpointRef) fun _ => Any := by
  refine anyway ?_
  unfold RuntimeProtection.finish
  split_ifs
  · exact raise
  · exact raise
  · exact raise
  refine now.bind fun _ => incarnationRef.bind fun _ => scan.bind fun tables =>
    (ofExcept fun _ _ _ => id).bind fun _ => ?_
  split
  · exact raise
  refine (ofExcept fun _ _ _ => id).bind fun _ => ?_
  split_ifs
  · exact pure fun _ _ => True.intro
  refine (resolveNoEffectAcquisition fun _ _ => id).bind fun resolution => ?_
  split
  · exact raise
  refine (commits fun _ _ _ _ ledger => ledger.finishTx).bind fun release => ?_
  split
  · exact releaseEpoch
  · exact pure fun _ => id

theorem finishRecordedBoundaries : Keeps safe tight host fact finishRecordedBoundaries fun _ => Any := by
  refine anyway (scan.bind fun receipts => forEach fun receipt _ => finish.attempt.bind fun outcome => ?_)
  split
  · exact pure fun _ => id
  split_ifs
  · exact pure fun _ => id
  · exact raise

theorem settleLedger : Keeps safe tight host fact settleLedger fun _ => Any :=
  finishRecordedBoundaries.bind fun _ => retryPendingReleases

end Keeps

end MetaResearch.RuntimeProtection

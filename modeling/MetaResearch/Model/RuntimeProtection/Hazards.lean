import MetaResearch.Model.RuntimeProtection.Startup

/-! # The two branches that lose track of a hold

Conditions on the state before a step under which one branch of the code breaks a law of the
ledger. An exact resume whose hold is answered absent returns the epoch to acquiring without
relabelling the other responsibilities that share it. Putting all interrupted responsibilities
under one hold takes the last support from any other active epoch they were linked to.
-/

namespace MetaResearch.RuntimeProtection

/-- The epoch is active, its hold is answered absent now, and an active responsibility shares it. -/
def dropsHold (host : Host) (world : PowerWorld) (holder : HolderRef) : Bool :=
  match world.durable.epochs.find? holder with
  | none => false
  | some epoch =>
    epoch.status = .active &&
      (match leaseFromEpoch epoch with
        | .ok lease => (host.queryHold world.tick lease).holdStatus = .absent
        | .error _ => false) &&
      world.durable.responsibilities.rows.any fun row => row.status = .active && row.heldBy holder

/-- The responsibility about to be resumed would take a shared epoch back to acquiring. -/
def dropsSharedHold (host : Host) (identity : RuntimeEffectIdentity) (world : PowerWorld) : Bool :=
  match world.durable.responsibilities.find? identity.responsibilityRef with
  | none => false
  | some row =>
    row.identity = identity && (row.status = .acquiring || row.status = .waiting) &&
      row.holderRef.any (dropsHold host world)

/-- An active epoch of another holder would lose all its unfinished responsibilities if the
interrupted ones moved to the given holder. -/
def Tables.strands (tables : Tables) (holder : HolderRef) : Bool :=
  tables.epochs.rows.any fun epoch => epoch.status = .active && epoch.holderRef ≠ holder &&
    tables.responsibilities.rows.all fun row =>
      !row.heldBy epoch.holderRef || row.interrupted || !row.unfinished

/-- Putting the interrupted responsibilities under the hold that is active now, or under a new one
if it is absent, would strand another active epoch. An absent hold with active responsibilities
does not: they are interrupted first, and the changed number stops the new hold. -/
def orphansOther (host : Host) (world : PowerWorld) : Bool :=
  match activeEpoch? world.durable with
  | none => false
  | some epoch =>
    world.durable.strands epoch.holderRef &&
      match leaseFromEpoch epoch with
      | .error _ => false
      | .ok lease =>
        match (host.queryHold world.tick lease).holdStatus with
        | .confirmed => true
        | .unknown => false
        | .absent => world.durable.responsibilities.rows.all fun row =>
          row.status ≠ .active || !row.heldBy epoch.holderRef

/-- No hazard at the number of responsibilities that are left to protect. -/
def clearToProtect (host : Host) : Option ℕ → PowerWorld → Prop
  | some (_ + 1), world => orphansOther host world = false
  | _, _ => True

instance {host : Host} {count : Option ℕ} {world : PowerWorld} :
    Decidable (clearToProtect host count world) :=
  match count with
  | some (_ + 1) => inferInstanceAs (Decidable (_ = _))
  | some 0 => isTrue True.intro
  | none => isTrue True.intro

/-- The call does not reach an exact resume that drops a shared hold. -/
def Call.KeepsSharedHold (host : Host) (world : PowerWorld) : Call → Prop
  | .acquire identity =>
    (acquirePreamble identity).Returns host world fun _ after =>
      dropsSharedHold host identity after = false
  | _ => True

/-- The call does not put the interrupted responsibilities under a hold that strands another. -/
def Call.KeepsSupport (host : Host) (world : PowerWorld) : Call → Prop
  | .acquire identity =>
    (admission identity >>= fun _ => recoverUnresolved).Returns host world (clearToProtect host)
  | .start _ => (openIncarnation >>= fun _ => recoverUnresolved).Returns host world (clearToProtect host)
  | _ => True

instance {host : Host} {world : PowerWorld} : ∀ {call : Call},
    Decidable (call.KeepsSharedHold host world)
  | .acquire _ => inferInstanceAs (Decidable (Prog.Returns ..))
  | .start _ | .finish .. | .interruptActive .. | .reconcileStartup | .recordBoundary .. =>
    isTrue True.intro

instance {host : Host} {world : PowerWorld} : ∀ {call : Call},
    Decidable (call.KeepsSupport host world)
  | .acquire _ => inferInstanceAs (Decidable (Prog.Returns ..))
  | .start _ => inferInstanceAs (Decidable (Prog.Returns ..))
  | .finish .. | .interruptActive .. | .reconcileStartup | .recordBoundary .. => isTrue True.intro

/-- Calls served by a daemon keep shared holds. -/
def System.KeepsSharedHold (system : System) (input : Host × Call) : Prop :=
  (system.live || input.2.isStart) = true → input.2.KeepsSharedHold input.1 system.world

/-- Calls served by a daemon, and starts, keep every active epoch supported. -/
def System.KeepsSupport (system : System) (input : Host × Call) : Prop :=
  (system.live || input.2.isStart) = true → input.2.KeepsSupport input.1 system.world

instance (system : System) (input : Host × Call) : Decidable (system.KeepsSharedHold input) :=
  inferInstanceAs (Decidable (_ → _))

instance (system : System) (input : Host × Call) : Decidable (system.KeepsSupport input) :=
  inferInstanceAs (Decidable (_ → _))

end MetaResearch.RuntimeProtection

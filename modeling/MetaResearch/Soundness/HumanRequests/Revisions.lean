import MetaResearch.Model.HumanRequests.Commands

/-! # The revisions of a HumanRequest

What a write leaves of the rows, and the lineage of the revisions: a first revision starts one, a next
revision takes it over.
-/

namespace MetaResearch.HumanRequests

open Datasets (Uuid newRef)

/-! ### Writes -/

section

variable {κ ρ : Type} [DecidableEq κ] {key : ρ → κ} {table after : Table key} {row : ρ}

theorem insert?_of_insertRow (success : insertRow table row = .ok after) :
    table.insert? row = some after := by
  unfold insertRow at success
  split at success
  · rename_i inserted
    cases success
    exact inserted
  · cases success

theorem mem_insertRow (success : insertRow table row = .ok after) {other : ρ} :
    other ∈ after ↔ other ∈ table ∨ other = row :=
  Table.mem_insert? (insert?_of_insertRow success)

theorem find?_insertRow (success : insertRow table row = .ok after) (k : κ) :
    after.find? k = if key row = k then some row else table.find? k :=
  Table.find?_insert? (insert?_of_insertRow success) k

theorem find?_insertRow_of_some (success : insertRow table row = .ok after) {k : κ} {other : ρ}
    (found : table.find? k = some other) : after.find? k = some other := by
  rw [Table.find?_eq_some_iff] at found ⊢
  exact ⟨(mem_insertRow success).mpr (.inl found.1), found.2⟩

theorem key_ne_of_insertRow (success : insertRow table row = .ok after) {other : ρ}
    (member : other ∈ table) : key other ≠ key row :=
  (Table.insert?_eq_some_iff.mp (insert?_of_insertRow success)).1 other member

theorem select_insertRow (success : insertRow table row = .ok after) (keep : ρ → Bool) :
    after.select keep = table.select keep ++ if keep row then [row] else [] :=
  Table.select_insert? (insert?_of_insertRow success) keep

omit [DecidableEq κ] in
/-- The rows after an update are images of the rows before it. -/
theorem mem_update_iff {chosen : ρ → Bool} {rewrite : Rewrite key} :
    row ∈ table.update chosen rewrite ↔
      ∃ old ∈ table, row = if chosen old then rewrite.apply old else old := by
  rw [Table.mem_def, Table.update, List.mem_map]
  simp only [eq_comm, Table.mem_def]

end

/-! ### Columns that never change -/

/-- A request but for its status. -/
def RequestRow.core (row : RequestRow) : RequestRow := { row with status := .opened, isCurrent := true }

section

variable {row other : RequestRow}

theorem RequestRow.requestRef_of_core (same : row.core = other.core) :
    row.requestRef = other.requestRef := (congrArg RequestRow.requestRef same :)

theorem RequestRow.requestId_of_core (same : row.core = other.core) :
    row.requestId = other.requestId := (congrArg RequestRow.requestId same :)

theorem RequestRow.revision_of_core (same : row.core = other.core) :
    row.revision = other.revision := (congrArg RequestRow.revision same :)

theorem RequestRow.kind_of_core (same : row.core = other.core) : row.kind = other.kind :=
  (congrArg RequestRow.kind same :)

theorem RequestRow.predecessor_of_core (same : row.core = other.core) :
    row.predecessorRequestRef = other.predecessorRequestRef :=
  (congrArg RequestRow.predecessorRequestRef same :)

theorem RequestRow.expiresAt_of_core (same : row.core = other.core) :
    row.expiresAt = other.expiresAt := (congrArg RequestRow.expiresAt same :)

end

/-- An update of one request that keeps its core. -/
def Rewrite.KeepsCore (rewrite : Rewrite RequestRow.requestRef) : Prop :=
  ∀ row, (rewrite.apply row).core = row.core

theorem keepsCore_setStatus (status : Status) : Rewrite.KeepsCore (setStatus status) := fun _ => rfl

theorem keepsCore_supersede : Rewrite.KeepsCore supersede := fun _ => rfl

theorem keepsCore_retire : Rewrite.KeepsCore retire := fun _ => rfl

/-! ### Lineage -/

/-- The revisions of each request are numbered from one, the highest is the current one, and the
earlier ones are superseded or satisfied requests for help with a system operation. -/
structure Lineage (requests : Table RequestRow.requestRef) : Prop where
  named : ∀ row ∈ requests, row.requestRef = requestRefOf row.requestId row.revision
  positive : ∀ row ∈ requests, 1 ≤ row.revision
  below : ∀ row ∈ requests, 1 < row.revision →
    ∃ other ∈ requests, other.requestId = row.requestId ∧ other.revision + 1 = row.revision
  above : ∀ row ∈ requests, row.isCurrent = false →
    ∃ other ∈ requests, other.requestId = row.requestId ∧ other.revision = row.revision + 1
  top : ∀ row ∈ requests, row.isCurrent = true → ∀ other ∈ requests,
    other.requestId = row.requestId → other.revision ≤ row.revision
  past : ∀ row ∈ requests, row.isCurrent = false → row.status = .closed .superseded ∨
    row.kind = .systemOperationHelp ∧ row.status = .closed .satisfied
  successor : ∀ row ∈ requests, ∀ other ∈ requests, row.predecessorRequestRef.isSome →
    row.predecessorRequestRef = other.predecessorRequestRef → row = other

namespace Lineage

variable {requests after : Table RequestRow.requestRef} {row other new : RequestRow}

theorem unique (lineage : Lineage requests) (member : row ∈ requests) (present : other ∈ requests)
    (id : row.requestId = other.requestId) (revision : row.revision = other.revision) : row = other :=
  Table.eq_of_key member present (by
    rw [lineage.named row member, lineage.named other present, id, revision])

theorem exists_first (lineage : Lineage requests) (member : row ∈ requests) :
    ∃ first ∈ requests, first.requestId = row.requestId ∧ first.revision = 1 := by
  induction count : row.revision using Nat.strong_induction_on generalizing row with
  | _ count ih =>
    have positive := lineage.positive row member
    by_cases single : row.revision = 1
    · exact ⟨row, member, rfl, single⟩
    · obtain ⟨other, present, id, revision⟩ := lineage.below row member (by omega)
      obtain ⟨first, found, same, one⟩ := ih other.revision (by omega) present rfl
      exact ⟨first, found, same.trans id, one⟩

/-- Every request has a current revision. -/
theorem exists_current (lineage : Lineage requests) (member : row ∈ requests) :
    ∃ current ∈ requests, current.requestId = row.requestId ∧ current.isCurrent = true := by
  have listed : row ∈ requests.select (·.requestId = row.requestId) :=
    Table.mem_select.mpr ⟨member, by simp⟩
  cases found : (requests.select (·.requestId = row.requestId)).argmax (·.revision) with
  | none => simp [List.argmax_eq_none.mp found] at listed
  | some top =>
    obtain ⟨topMember, topId⟩ := Table.mem_select.mp (List.argmax_mem found)
    rw [decide_eq_true_iff] at topId
    refine ⟨top, topMember, topId, ?_⟩
    by_contra retired
    obtain ⟨higher, there, id, revision⟩ := lineage.above top topMember (by simpa using retired)
    have bounded := List.le_of_mem_argmax (Table.mem_select.mpr ⟨there, by simp [id, topId]⟩) found
    simp only [revision] at bounded
    omega

/-- There is one current revision of a request. -/
theorem eq_of_current (lineage : Lineage requests) (member : row ∈ requests)
    (present : other ∈ requests) (id : row.requestId = other.requestId)
    (current : row.isCurrent = true) (currentToo : other.isCurrent = true) : row = other :=
  lineage.unique member present id (le_antisymm
    (lineage.top other present currentToo row member id)
    (lineage.top row member current other present id.symm))

/-- An update that keeps which revision is current keeps the lineage. -/
theorem update (lineage : Lineage requests) {ref : String} {rewrite : Rewrite RequestRow.requestRef}
    (core : Rewrite.KeepsCore rewrite) (current : ∀ row, (rewrite.apply row).isCurrent = row.isCurrent)
    (past : ∀ row ∈ requests, row.requestRef = ref → row.isCurrent = true) :
    Lineage (requests.update (·.requestRef = ref) rewrite) := by
  have image : ∀ old : RequestRow, ∃ new : RequestRow,
      new = (if decide (old.requestRef = ref) then rewrite.apply old else old) ∧
        new.core = old.core ∧ new.isCurrent = old.isCurrent := by
    intro old
    refine ⟨_, rfl, ?_⟩
    split
    · exact ⟨core old, current old⟩
    · exact ⟨rfl, rfl⟩
  have pull : ∀ row ∈ requests.update (·.requestRef = ref) rewrite, ∃ old ∈ requests,
      row.core = old.core ∧ row.isCurrent = old.isCurrent ∧
        (row.isCurrent = false → row = old) := by
    intro row member
    obtain ⟨old, present, rfl⟩ := mem_update_iff.mp member
    obtain ⟨new, rfl, sameCore, sameCurrent⟩ := image old
    refine ⟨old, present, sameCore, sameCurrent, fun retired => ?_⟩
    rw [sameCurrent] at retired
    split
    · rename_i chosen
      rw [past old present (of_decide_eq_true chosen)] at retired
      cases retired
    · rfl
  have push : ∀ old ∈ requests, ∃ row ∈ requests.update (·.requestRef = ref) rewrite,
      row.core = old.core ∧ row.isCurrent = old.isCurrent := by
    intro old present
    obtain ⟨new, rfl, sameCore, sameCurrent⟩ := image old
    exact ⟨_, mem_update_iff.mpr ⟨old, present, rfl⟩, sameCore, sameCurrent⟩
  constructor
  case named =>
    intro row member
    obtain ⟨old, present, same, -, -⟩ := pull row member
    rw [RequestRow.requestRef_of_core same, RequestRow.requestId_of_core same,
      RequestRow.revision_of_core same, lineage.named old present]
  case positive =>
    intro row member
    obtain ⟨old, present, same, -, -⟩ := pull row member
    rw [RequestRow.revision_of_core same]
    exact lineage.positive old present
  case below =>
    intro row member later
    obtain ⟨old, present, same, -, -⟩ := pull row member
    rw [RequestRow.revision_of_core same] at later ⊢
    obtain ⟨lower, found, id, revision⟩ := lineage.below old present later
    obtain ⟨shown, here, lowerSame, -⟩ := push lower found
    exact ⟨shown, here, by rw [RequestRow.requestId_of_core lowerSame, id,
      RequestRow.requestId_of_core same], by rw [RequestRow.revision_of_core lowerSame, revision]⟩
  case above =>
    intro row member retired
    obtain ⟨old, present, same, kept, -⟩ := pull row member
    obtain ⟨higher, found, id, revision⟩ := lineage.above old present (kept.symm.trans retired)
    obtain ⟨shown, here, higherSame, -⟩ := push higher found
    exact ⟨shown, here, by rw [RequestRow.requestId_of_core higherSame, id,
      RequestRow.requestId_of_core same], by rw [RequestRow.revision_of_core higherSame, revision,
        RequestRow.revision_of_core same]⟩
  case top =>
    intro row member isCurrent other present id
    obtain ⟨old, found, same, kept, -⟩ := pull row member
    obtain ⟨oldOther, foundOther, sameOther, -, -⟩ := pull other present
    rw [RequestRow.revision_of_core same, RequestRow.revision_of_core sameOther]
    exact lineage.top old found (kept.symm.trans isCurrent) oldOther foundOther (by
      rw [← RequestRow.requestId_of_core same, ← RequestRow.requestId_of_core sameOther, id])
  case past =>
    intro row member retired
    obtain ⟨old, present, -, -, unchanged⟩ := pull row member
    obtain rfl := unchanged retired
    exact lineage.past row present retired
  case successor =>
    intro row member other present some same
    obtain ⟨old, here, rfl⟩ := mem_update_iff.mp member
    obtain ⟨oldOther, there, rfl⟩ := mem_update_iff.mp present
    obtain ⟨_, rfl, core, -⟩ := image old
    obtain ⟨_, rfl, coreOther, -⟩ := image oldOther
    rw [RequestRow.predecessor_of_core core] at some same
    rw [RequestRow.predecessor_of_core coreOther] at same
    rw [lineage.successor old here oldOther there some same]

/-- What has to be true of a revision that is added. -/
structure Fits (requests : Table RequestRow.requestRef) (new : RequestRow) : Prop where
  named : new.requestRef = requestRefOf new.requestId new.revision
  current : new.isCurrent = true
  unnumbered : ∀ other ∈ requests, other.requestId = new.requestId → other.revision ≠ new.revision
  unclaimed : ∀ other ∈ requests, new.predecessorRequestRef.isSome →
    other.predecessorRequestRef ≠ new.predecessorRequestRef

/-- A request without a first revision has none. -/
theorem apart (lineage : Lineage requests) {requestId : String}
    (unnumbered : ∀ other ∈ requests, other.requestId = requestId → other.revision ≠ 1) :
    ∀ other ∈ requests, other.requestId ≠ requestId := by
  intro other present same
  obtain ⟨first, found, id, revision⟩ := lineage.exists_first present
  exact unnumbered first found (id.trans same) revision

/-- A first revision starts a lineage of its own. -/
theorem first (lineage : Lineage requests) (fits : Fits requests new) (one : new.revision = 1)
    (inserted : insertRow requests new = .ok after) : Lineage after := by
  have apart := lineage.apart fun other present same => one ▸ fits.unnumbered other present same
  have mem : ∀ other, other ∈ after ↔ other ∈ requests ∨ other = new := fun other =>
    mem_insertRow inserted
  constructor
  case named =>
    intro row member
    rcases (mem row).mp member with member | rfl
    · exact lineage.named row member
    · exact fits.named
  case positive =>
    intro row member
    rcases (mem row).mp member with member | rfl
    · exact lineage.positive row member
    · exact one.ge
  case below =>
    intro row member later
    rcases (mem row).mp member with member | rfl
    · obtain ⟨other, present, id, revision⟩ := lineage.below row member later
      exact ⟨other, (mem other).mpr (.inl present), id, revision⟩
    · omega
  case above =>
    intro row member retired
    rcases (mem row).mp member with member | rfl
    · obtain ⟨other, present, id, revision⟩ := lineage.above row member retired
      exact ⟨other, (mem other).mpr (.inl present), id, revision⟩
    · rw [fits.current] at retired
      cases retired
  case top =>
    intro row member isCurrent other present id
    rcases (mem row).mp member with member | rfl <;> rcases (mem other).mp present with present | rfl
    · exact lineage.top row member isCurrent other present id
    · exact (apart row member id.symm).elim
    · exact (apart other present id).elim
    · exact le_rfl
  case past =>
    intro row member retired
    rcases (mem row).mp member with member | rfl
    · exact lineage.past row member retired
    · rw [fits.current] at retired
      cases retired
  case successor =>
    intro row member other present some same
    rcases (mem row).mp member with member | rfl <;> rcases (mem other).mp present with present | rfl
    · exact lineage.successor row member other present some same
    · exact (fits.unclaimed row member (same ▸ some) same).elim
    · exact (fits.unclaimed other present some same.symm).elim
    · rfl

/-- A next revision takes over from the current one, once that is settled. -/
theorem advance (lineage : Lineage requests) {rewrite : Rewrite RequestRow.requestRef}
    (core : Rewrite.KeepsCore rewrite) (member : row ∈ requests) (current : row.isCurrent = true)
    (retired : (rewrite.apply row).isCurrent = false)
    (settled : (rewrite.apply row).status = .closed .superseded ∨
      row.kind = .systemOperationHelp ∧ (rewrite.apply row).status = .closed .satisfied)
    (fits : Fits requests new) (id : new.requestId = row.requestId)
    (next : new.revision = row.revision + 1)
    (inserted : insertRow (requests.update (·.requestRef = row.requestRef) rewrite) new = .ok after) :
    Lineage after := by
  -- The rows afterwards: the others as they were, the current one retired, and the new one.
  have mem : ∀ shown, shown ∈ after ↔
      (shown ∈ requests ∧ shown ≠ row) ∨ shown = rewrite.apply row ∨ shown = new := by
    intro shown
    rw [mem_insertRow inserted, mem_update_iff, ← or_assoc]
    refine or_congr_left ⟨?_, ?_⟩
    · rintro ⟨old, present, rfl⟩
      by_cases same : old.requestRef = row.requestRef
      · rw [Table.eq_of_key present member same]
        exact .inr (by simp)
      · rw [if_neg (by simpa using same)]
        exact .inl ⟨present, fun equal => same (congrArg RequestRow.requestRef equal)⟩
    · rintro (⟨present, apart⟩ | rfl)
      · exact ⟨shown, present, by rw [if_neg fun same =>
          apart (Table.eq_of_key present member (of_decide_eq_true same))]⟩
      · exact ⟨row, member, by simp⟩
  have rowCore := core row
  have stays : ∀ old ∈ requests, ∃ shown ∈ after, shown.core = old.core := by
    intro old present
    by_cases same : old = row
    · exact ⟨_, (mem _).mpr (.inr (.inl rfl)), by rw [rowCore, same]⟩
    · exact ⟨old, (mem _).mpr (.inl ⟨present, same⟩), rfl⟩
  have comes : ∀ shown ∈ after, shown = new ∨ ∃ old ∈ requests, shown.core = old.core := by
    intro shown present
    rcases (mem shown).mp present with ⟨old, -⟩ | rfl | rfl
    · exact .inr ⟨shown, old, rfl⟩
    · exact .inr ⟨row, member, rowCore⟩
    · exact .inl rfl
  have others : ∀ other ∈ requests, other.requestId = row.requestId → other ≠ row →
      other.isCurrent = false := by
    intro other present same apart
    by_contra isCurrent
    exact apart (lineage.eq_of_current present member same (by simpa using isCurrent) current)
  constructor
  case named =>
    intro shown present
    rcases comes shown present with rfl | ⟨old, found, same⟩
    · exact fits.named
    · rw [RequestRow.requestRef_of_core same, RequestRow.requestId_of_core same,
        RequestRow.revision_of_core same, lineage.named old found]
  case positive =>
    intro shown present
    rcases comes shown present with rfl | ⟨old, found, same⟩
    · omega
    · rw [RequestRow.revision_of_core same]
      exact lineage.positive old found
  case below =>
    intro shown present later
    rcases comes shown present with rfl | ⟨old, found, same⟩
    · obtain ⟨before, here, beforeCore⟩ := stays row member
      exact ⟨before, here, (RequestRow.requestId_of_core beforeCore).trans id.symm, by
        rw [RequestRow.revision_of_core beforeCore, next]⟩
    · rw [RequestRow.revision_of_core same] at later ⊢
      obtain ⟨lower, there, lowerId, revision⟩ := lineage.below old found later
      obtain ⟨before, here, beforeCore⟩ := stays lower there
      exact ⟨before, here, by rw [RequestRow.requestId_of_core beforeCore, lowerId,
        RequestRow.requestId_of_core same], by rw [RequestRow.revision_of_core beforeCore, revision]⟩
  case above =>
    intro shown present notCurrent
    rcases (mem shown).mp present with ⟨found, -⟩ | rfl | rfl
    · obtain ⟨higher, there, higherId, revision⟩ := lineage.above shown found notCurrent
      obtain ⟨before, here, beforeCore⟩ := stays higher there
      exact ⟨before, here, by rw [RequestRow.requestId_of_core beforeCore, higherId],
        by rw [RequestRow.revision_of_core beforeCore, revision]⟩
    · exact ⟨new, (mem new).mpr (.inr (.inr rfl)), by
        rw [id, RequestRow.requestId_of_core rowCore], by
          rw [next, RequestRow.revision_of_core rowCore]⟩
    · rw [fits.current] at notCurrent
      cases notCurrent
  case top =>
    intro shown present isCurrent other there sameId
    have bounded : ∀ old ∈ requests, old.requestId = row.requestId → old.revision ≤ row.revision :=
      lineage.top row member current
    rcases (mem shown).mp present with ⟨found, apart⟩ | rfl | rfl
    · have foreign : shown.requestId ≠ row.requestId := fun same => by
        rw [others shown found same apart] at isCurrent
        cases isCurrent
      rcases comes other there with rfl | ⟨old, oldThere, same⟩
      · exact (foreign (sameId.symm.trans id)).elim
      · rw [RequestRow.revision_of_core same]
        exact lineage.top shown found isCurrent old oldThere
          ((RequestRow.requestId_of_core same).symm.trans sameId)
    · rw [retired] at isCurrent
      cases isCurrent
    · rcases comes other there with rfl | ⟨old, oldThere, same⟩
      · exact le_rfl
      · rw [RequestRow.revision_of_core same, next]
        have := bounded old oldThere
          ((RequestRow.requestId_of_core same).symm.trans (sameId.trans id))
        omega
  case past =>
    intro shown present notCurrent
    rcases (mem shown).mp present with ⟨found, -⟩ | rfl | rfl
    · exact lineage.past shown found notCurrent
    · rw [RequestRow.kind_of_core rowCore]
      exact settled
    · rw [fits.current] at notCurrent
      cases notCurrent
  case successor =>
    intro shown present other there some same
    have claim : ∀ shown ∈ after, shown ≠ new → shown.predecessorRequestRef.isSome →
        shown.predecessorRequestRef ≠ new.predecessorRequestRef := by
      intro shown present apart some same
      rcases comes shown present with rfl | ⟨old, found, sameCore⟩
      · exact apart rfl
      · rw [RequestRow.predecessor_of_core sameCore] at some same
        exact fits.unclaimed old found (same ▸ some) same
    by_cases isNew : shown = new
    · by_cases otherNew : other = new
      · rw [isNew, otherNew]
      · exact (claim other there otherNew (same ▸ some) (same.symm.trans (by rw [isNew]))).elim
    · by_cases otherNew : other = new
      · exact (claim shown present isNew some (same.trans (by rw [otherNew]))).elim
      · rcases (mem shown).mp present with ⟨found, apart⟩ | rfl | rfl
        · rcases (mem other).mp there with ⟨otherFound, -⟩ | rfl | rfl
          · exact lineage.successor shown found other otherFound some same
          · rw [RequestRow.predecessor_of_core rowCore] at same
            exact (apart (lineage.successor shown found row member some same)).elim
          · exact (otherNew rfl).elim
        · rcases (mem other).mp there with ⟨otherFound, apart⟩ | rfl | rfl
          · rw [RequestRow.predecessor_of_core rowCore] at some same
            exact (apart (lineage.successor row member other otherFound some same).symm).elim
          · rfl
          · exact (otherNew rfl).elim
        · exact (isNew rfl).elim

end Lineage

end MetaResearch.HumanRequests

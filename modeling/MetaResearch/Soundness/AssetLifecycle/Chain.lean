import MetaResearch.Model.AssetLifecycle.Owner
import Mathlib.Data.List.Pairwise

/-! # The changes of an asset as a chain

A chain grows at its end: the next change is genuine, carries the next revision and is admitted by what
the chain amounts to so far; what it creates is new to the chain, and what it retires is not retired.
The replay of the full reader goes through on a chain, and what it finds for one version or as the
current version can be read off the changes that concern it.
-/

namespace MetaResearch.AssetLifecycle

variable {digest : String → String} {known : String → Bool} {change : Change} {rows : List Change}

/-! ### One change -/

/-- A genuine row passes `_accepted_change`. -/
def Change.Genuine (digest : String → String) (change : Change) : Prop :=
  acceptedChange digest change = .ok ()

theorem UpdateKind.changeKind_ne (kind : UpdateKind) : kind.changeKind ≠ .retirement := by
  cases kind <;> decide

/-- A genuine row repeats the kind and the predecessor of its payload. -/
theorem Change.Genuine.of_payload (genuine : change.Genuine digest) :
    change.payload.kind = change.kind ∧ change.payload.predecessor = change.predecessorVersionRef := by
  unfold Change.Genuine acceptedChange at genuine
  simp only [check_then_eq_ok_iff, require_eq_ok_iff, Bool.and_eq_true, decide_eq_true_eq] at genuine
  exact genuine.2.2

/-- A retirement names no predecessor. -/
theorem Change.Genuine.predecessor (genuine : change.Genuine digest) (retires : change.kind = .retirement) :
    change.predecessorVersionRef = none := by
  obtain ⟨kind, predecessor⟩ := genuine.of_payload
  rw [← predecessor]
  cases payload : change.payload with
  | initial origin => rfl
  | change accepted =>
    rw [payload, retires] at kind
    exact (UpdateKind.changeKind_ne _ kind).elim
  | retirement accepted => rfl

/-- What a change makes of a replay. -/
def Replay.next (replay : Replay) (change : Change) : Replay where
  states versionRef := touchedState versionRef (replay.states versionRef) change
  current :=
    if change.kind = .retirement then
      if replay.current = some change.versionRef then none else replay.current
    else some change.versionRef

/-- The replay takes the change. -/
structure Replay.Admits (replay : Replay) (known : String → Bool) (change : Change) : Prop where
  version : known change.versionRef = true
  predecessor : ∀ ref, change.predecessorVersionRef = some ref →
    known ref = true ∧ replay.states ref ≠ .retired ∧
      (replay.current = none ∨ replay.current = some ref)

theorem Replay.step_of_admits {replay : Replay} {revision : ℕ} (genuine : change.Genuine digest)
    (numbered : change.revision = revision) (admitted : replay.Admits known change) :
    replay.step known revision change = .ok (replay.next change) := by
  unfold Replay.step
  rw [check_then_eq_ok_iff, require_eq_ok_iff]
  refine ⟨by simp [numbered, admitted.version], ?_⟩
  by_cases retires : change.kind = .retirement
  · rw [if_pos retires]
    have apart := genuine.predecessor retires
    refine congrArg Except.ok (congrArg₂ Replay.mk ?_ (by rw [if_pos retires]))
    funext versionRef
    by_cases same : versionRef = change.versionRef
    · simp [touchedState, retires, same]
    · simp [touchedState, retires, apart, same, Ne.symm same]
  · rw [if_neg retires]
    cases named : change.predecessorVersionRef with
    | none =>
      refine congrArg Except.ok (congrArg₂ Replay.mk ?_ (by rw [if_neg retires]))
      funext versionRef
      simp [touchedState, retires, named]
    | some ref =>
      obtain ⟨there, usable, current⟩ := admitted.predecessor ref named
      dsimp only
      rw [check_then_eq_ok_iff, require_eq_ok_iff]
      refine ⟨by simp [there, usable, current], ?_⟩
      refine congrArg Except.ok (congrArg₂ Replay.mk ?_ (by rw [if_neg retires]))
      funext versionRef
      by_cases same : versionRef = ref
      · simp [touchedState, retires, named, same]
      · simp [touchedState, retires, named, same, Ne.symm same]

/-! ### Chains -/

/-- What the changes amount to. -/
def replayOf (rows : List Change) : Replay := rows.foldl Replay.next {}

@[simp] theorem replayOf_nil : replayOf [] = {} := rfl

@[simp] theorem replayOf_concat : replayOf (rows ++ [change]) = (replayOf rows).next change := by
  rw [replayOf, List.foldl_append]
  rfl

/-- The revision that a change was decided on. -/
def Payload.expectedRevision : Payload → ℕ
  | .initial _ => 0
  | .change accepted => accepted.expectedRevision
  | .retirement accepted => accepted.expectedRevision

/-- The change may follow the rows. -/
structure Follows (digest : String → String) (known : String → Bool) (rows : List Change)
    (change : Change) : Prop where
  genuine : change.Genuine digest
  revision : change.revision = rows.length + 1
  decided : change.payload.expectedRevision = rows.length
  admitted : (replayOf rows).Admits known change
  /-- A creation is new. -/
  fresh : change.kind ≠ .retirement → ∀ row ∈ rows, row.touches change.versionRef = false
  apart : change.predecessorVersionRef ≠ some change.versionRef
  /-- A retirement is the first one of its version. -/
  usable : change.kind = .retirement → (replayOf rows).states change.versionRef ≠ .retired

inductive Chain (digest : String → String) (known : String → Bool) : List Change → Prop
  | nil : Chain digest known []
  | concat {rows : List Change} {change : Change} (earlier : Chain digest known rows)
      (follows : Follows digest known rows change) : Chain digest known (rows ++ [change])

theorem Chain.mono {more : String → Bool} (chain : Chain digest known rows)
    (grows : ∀ ref, known ref = true → more ref = true) : Chain digest more rows := by
  induction chain with
  | nil => exact .nil
  | concat earlier follows ih =>
    exact .concat ih { follows with
      admitted.version := grows _ follows.admitted.version
      admitted.predecessor := fun ref named =>
        have ⟨there, rest⟩ := follows.admitted.predecessor ref named
        ⟨grows ref there, rest⟩ }

theorem Chain.genuine (chain : Chain digest known rows) : ∀ row ∈ rows, row.Genuine digest := by
  induction chain with
  | nil => exact List.forall_mem_nil _
  | concat earlier follows ih =>
    simp only [List.forall_mem_append, List.forall_mem_singleton]
    exact ⟨ih, follows.genuine⟩

/-- A chain mentions versions that are known, only. -/
theorem Chain.known_of_touches (chain : Chain digest known rows) :
    ∀ row ∈ rows, ∀ ref, row.touches ref = true → known ref = true := by
  induction chain with
  | nil => exact List.forall_mem_nil _
  | concat earlier follows ih =>
    simp only [List.forall_mem_append, List.forall_mem_singleton]
    refine ⟨ih, fun ref touched => ?_⟩
    simp only [Change.touches, Bool.or_eq_true, decide_eq_true_eq] at touched
    rcases touched with rfl | named
    · exact follows.admitted.version
    · exact (follows.admitted.predecessor ref named).1

theorem Chain.revisions (chain : Chain digest known rows) :
    rows.map Change.revision = List.range' 1 rows.length := by
  induction chain with
  | nil => rfl
  | concat earlier follows ih =>
    rw [List.map_append, ih, List.map_singleton, follows.revision, List.length_append,
      List.length_singleton, List.range'_concat]
    simp [Nat.add_comm]

/-- The changes stand in the strict order of their revisions. -/
theorem Chain.sorted (chain : Chain digest known rows) :
    rows.Pairwise fun row other => (row.revision : ℤ) < other.revision := by
  have increasing : (rows.map Change.revision).Pairwise (· < ·) := by
    rw [chain.revisions]
    exact List.pairwise_lt_range' 1
  exact (List.pairwise_map.mp increasing).imp fun below => by exact_mod_cast below

theorem Chain.of_concat (chain : Chain digest known (rows ++ [change])) :
    Chain digest known rows ∧ Follows digest known rows change := by
  generalize whole : rows ++ [change] = all at chain
  cases chain with
  | nil => simp at whole
  | concat earlier follows =>
    obtain ⟨rfl, last⟩ := List.append_inj' whole rfl
    cases last
    exact ⟨earlier, follows⟩

theorem Chain.of_append {before rest : List Change} (chain : Chain digest known (before ++ rest)) :
    Chain digest known before := by
  induction rest using List.reverseRecOn with
  | nil => exact (List.append_nil before) ▸ chain
  | append_singleton rest last ih =>
    rw [← List.append_assoc] at chain
    exact ih chain.of_concat.1

/-- Each change follows the ones before it. -/
theorem Chain.follows {before rest : List Change} (chain : Chain digest known (before ++ change :: rest)) :
    Follows digest known before change := by
  induction rest using List.reverseRecOn with
  | nil => exact chain.of_concat.2
  | append_singleton rest last ih =>
    rw [← List.cons_append, ← List.append_assoc] at chain
    exact ih chain.of_concat.1

theorem replayChanges_concat {revision : ℕ} {replay result next : Replay}
    (replayed : replayChanges known revision replay rows = .ok result)
    (stepped : result.step known (revision + rows.length) change = .ok next) :
    replayChanges known revision replay (rows ++ [change]) = .ok next := by
  induction rows generalizing revision replay with
  | nil =>
    cases replayed
    rw [List.nil_append, replayChanges, bind_eq_ok_iff]
    exact ⟨next, stepped, rfl⟩
  | cons row rest ih =>
    rw [replayChanges, bind_eq_ok_iff] at replayed
    obtain ⟨between, first, later⟩ := replayed
    rw [List.cons_append, replayChanges, bind_eq_ok_iff]
    refine ⟨between, first, ih later ?_⟩
    rw [List.length_cons] at stepped
    rwa [show revision + 1 + rest.length = revision + (rest.length + 1) by omega]

/-- The full reader gets through a chain. -/
theorem Chain.replayChanges_eq (chain : Chain digest known rows) :
    replayChanges known 1 {} rows = .ok (replayOf rows) := by
  induction chain with
  | nil => rfl
  | concat earlier follows ih =>
    rw [replayOf_concat]
    exact replayChanges_concat ih (Replay.step_of_admits follows.genuine
      (follows.revision.trans (Nat.add_comm _ 1)) follows.admitted)

/-! ### One version -/

theorem touchedState_of_not_touches {versionRef : String} {state : VersionState}
    (apart : change.touches versionRef = false) : touchedState versionRef state change = state := by
  simp only [Change.touches, Bool.or_eq_false_iff, decide_eq_false_iff_not] at apart
  simp [touchedState, apart.1, apart.2]

/-- The state of a version comes from the changes that touch it. -/
theorem replayOf_states_touching (rows : List Change) (versionRef : String) :
    (replayOf rows).states versionRef =
      (rows.filter (·.touches versionRef)).foldl (touchedState versionRef) .unselected := by
  induction rows using List.reverseRecOn with
  | nil => rfl
  | append_singleton rows change ih =>
    rw [replayOf_concat, List.filter_append, List.foldl_append, ← ih, List.filter_singleton]
    cases touched : change.touches versionRef with
    | true => rfl
    | false => exact touchedState_of_not_touches touched

theorem states_of_untouched {versionRef : String}
    (untouched : ∀ row ∈ rows, row.touches versionRef = false) :
    (replayOf rows).states versionRef = .unselected := by
  rw [replayOf_states_touching, List.filter_eq_nil_iff.mpr fun row member => by simp [untouched row member]]
  rfl

/-- A retired version has been retired by a change. -/
theorem exists_of_retired {versionRef : String} (retired : (replayOf rows).states versionRef = .retired) :
    ∃ row ∈ rows, row.kind = .retirement ∧ row.versionRef = versionRef := by
  induction rows using List.reverseRecOn with
  | nil => cases retired
  | append_singleton rows change ih =>
    by_cases here : change.kind = .retirement ∧ change.versionRef = versionRef
    · exact ⟨change, by simp, here⟩
    · have before : (replayOf rows).states versionRef = .retired := by
        rw [replayOf_concat] at retired
        simp only [Replay.next, touchedState, Bool.and_eq_true, decide_eq_true_eq, if_neg here] at retired
        split_ifs at retired
        exact retired
      obtain ⟨row, member, found⟩ := ih before
      exact ⟨row, List.mem_append_left _ member, found⟩

/-- Once a version is retired, no change touches it. -/
theorem Follows.not_touches (follows : Follows digest known rows change) {versionRef : String}
    (retired : (replayOf rows).states versionRef = .retired) : change.touches versionRef = false := by
  obtain ⟨row, member, retires, same⟩ := exists_of_retired retired
  simp only [Change.touches, Bool.or_eq_false_iff, decide_eq_false_iff_not]
  constructor
  · rintro rfl
    by_cases again : change.kind = .retirement
    · exact follows.usable again retired
    · have touched := follows.fresh again row member
      simp [Change.touches, same] at touched
  · intro named
    exact (follows.admitted.predecessor versionRef named).2.1 retired

theorem Follows.states_of_retired (follows : Follows digest known rows change) {versionRef : String}
    (retired : (replayOf rows).states versionRef = .retired) :
    (replayOf (rows ++ [change])).states versionRef = .retired := by
  rw [replayOf_concat]
  exact (touchedState_of_not_touches (follows.not_touches retired)).trans retired

/-- A retired version stays retired, and no later change touches it. -/
theorem Chain.retired_append {more : List Change} {versionRef : String}
    (retired : (replayOf rows).states versionRef = .retired) (chain : Chain digest known (rows ++ more)) :
    (replayOf (rows ++ more)).states versionRef = .retired ∧ ∀ row ∈ more, row.touches versionRef = false := by
  induction more using List.reverseRecOn with
  | nil => exact ⟨(List.append_nil rows).symm ▸ retired, List.forall_mem_nil _⟩
  | append_singleton more change ih =>
    rw [← List.append_assoc] at chain ⊢
    obtain ⟨earlier, follows⟩ := chain.of_concat
    obtain ⟨still, untouched⟩ := ih earlier
    refine ⟨follows.states_of_retired still, ?_⟩
    simp only [List.forall_mem_append, List.forall_mem_singleton]
    exact ⟨untouched, follows.not_touches still⟩

/-- A retirement among the changes of a chain has retired its version. -/
theorem Chain.retired_of_mem (chain : Chain digest known rows) :
    ∀ row ∈ rows, row.kind = .retirement → (replayOf rows).states row.versionRef = .retired := by
  induction chain with
  | nil => exact List.forall_mem_nil _
  | concat earlier follows ih =>
    simp only [List.forall_mem_append, List.forall_mem_singleton]
    refine ⟨fun row member retires => follows.states_of_retired (ih row member retires), fun retires => ?_⟩
    simp [Replay.next, touchedState, retires]

/-! ### The current version -/

/-- The latest creation. -/
def creationOf (rows : List Change) : Option Change := (rows.filter (·.kind ≠ .retirement)).getLast?

theorem creationOf_concat : creationOf (rows ++ [change]) =
    if change.kind = .retirement then creationOf rows else some change := by
  unfold creationOf
  rw [List.filter_append, List.filter_singleton]
  by_cases retires : change.kind = .retirement
  · simp [retires]
  · simp [retires]

theorem mem_of_creationOf {creation : Change} (found : creationOf rows = some creation) :
    creation ∈ rows ∧ creation.kind ≠ .retirement := by
  have member := List.mem_of_getLast? found
  simpa using member

/-- The latest creation is current until it is retired. -/
theorem Chain.current_eq (chain : Chain digest known rows) :
    (replayOf rows).current = (creationOf rows).bind fun creation =>
      if (replayOf rows).states creation.versionRef = .retired then none else some creation.versionRef := by
  induction chain with
  | nil => rfl
  | @concat rows change earlier follows ih =>
    rw [creationOf_concat]
    by_cases retires : change.kind = .retirement
    · rw [if_pos retires, replayOf_concat]
      cases created : creationOf rows with
      | none => simp [Replay.next, retires, ih, created]
      | some creation =>
        rw [created] at ih
        by_cases same : change.versionRef = creation.versionRef
        · have usable := follows.usable retires
          rw [same] at usable
          simp [Replay.next, touchedState, retires, ih, usable, same]
        · have apart : change.touches creation.versionRef = false := by
            simp [Change.touches, same, follows.genuine.predecessor retires]
          have kept : ((replayOf rows).next change).states creation.versionRef =
              (replayOf rows).states creation.versionRef := touchedState_of_not_touches apart
          rw [Option.bind_some, kept]
          by_cases retired : (replayOf rows).states creation.versionRef = .retired
          · simp [Replay.next, retires, ih, retired]
          · simp [Replay.next, retires, ih, retired, Ne.symm same]
    · have untouched := states_of_untouched (follows.fresh retires)
      rw [if_neg retires, replayOf_concat]
      simp [Replay.next, touchedState, retires, untouched, follows.apart]

/-- A creation after others supersedes the latest one, unless that has been retired. -/
theorem Follows.supersedes (chain : Chain digest known rows) (follows : Follows digest known rows change)
    (creates : change.kind ≠ .retirement) {creation : Change} (found : creationOf rows = some creation)
    (unretired : (replayOf rows).states creation.versionRef ≠ .retired) :
    change.predecessorVersionRef = some creation.versionRef := by
  have current : (replayOf rows).current = some creation.versionRef := by
    rw [chain.current_eq, found, Option.bind_some, if_neg unretired]
  obtain ⟨kind, predecessor⟩ := follows.genuine.of_payload
  cases payload : change.payload with
  | initial origin =>
    have alone := follows.decided
    rw [payload, eq_comm, Payload.expectedRevision, List.length_eq_zero_iff] at alone
    rw [alone] at found
    cases found
  | change accepted =>
    rw [payload] at predecessor
    have agreed := (follows.admitted.predecessor accepted.predecessorVersionRef predecessor.symm).2.2
    rw [current] at agreed
    rw [← predecessor]
    exact (agreed.resolve_left (Option.some_ne_none _)).symm
  | retirement accepted =>
    rw [payload] at kind
    exact (creates kind.symm).elim

theorem Chain.current_not_retired (chain : Chain digest known rows) {versionRef : String}
    (current : (replayOf rows).current = some versionRef) :
    (replayOf rows).states versionRef ≠ .retired := by
  rw [chain.current_eq, Option.bind_eq_some_iff] at current
  obtain ⟨creation, _, chosen⟩ := current
  split_ifs at chosen with retired
  cases chosen
  exact retired

end MetaResearch.AssetLifecycle

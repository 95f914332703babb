import Mathlib.Data.List.Forall2
import MetaResearch.Model.Bundle.BatchView

/-! # A delta loses no record

The bodies of a delta are the records that the session cannot find by itself. Each record is found again by
its digest, among the bodies or in the baseline.
-/

namespace MetaResearch.Bundle.BatchView

open Json (Fields get isText)

variable {digest : String → String} {key : Key} {records base : List (Record key)}
  {readers : List (String × Fields)} {record : Record key}

/-! ### What is sent -/

/-- The session finds the record by itself: its reference is unique on both sides, the baseline has its
content, and the reader reads that content. -/
structure Omitted (digest : String → String) (records base : List (Record key))
    (readers : List (String × Fields)) (record : Record key) : Prop where
  current : countRef records record.ref = 1
  baseline : countRef base record.ref = 1
  held : ∃ old ∈ base, old.ref = record.ref ∧ canonicalHash digest old = canonicalHash digest record
  reader : ∃ reader, readers.lookup record.ref = some reader ∧
    get reader "content_hash" = .text (canonicalHash digest record)

/-- The condition of the loop. -/
def isSent (digest : String → String) (records base : List (Record key)) (readers : List (String × Fields))
    (record : Record key) : Bool :=
  !heldBy digest base record.ref (canonicalHash digest record) ||
    (retainedReason digest records base readers record.ref (canonicalHash digest record)).isSome

theorem heldBy_iff {ref hash : String} :
    heldBy digest base ref hash = true ↔
      ∃ old ∈ base, old.ref = ref ∧ canonicalHash digest old = hash := by
  simp [heldBy]

theorem one_le_countRef (member : record ∈ records) : 1 ≤ countRef records record.ref :=
  List.one_le_count_iff.mpr (List.mem_map_of_mem member)

theorem isText_iff {value : Json} {text : String} : value.isText text = true ↔ value = .text text := by
  cases value <;> simp [isText, Json.text?]

theorem matchedReader_isSome_iff {ref hash : String} :
    (matchedReader readers ref hash).isSome = true ↔
      ∃ reader, readers.lookup ref = some reader ∧ get reader "content_hash" = .text hash := by
  unfold matchedReader
  cases readers.lookup ref <;> simp [Option.filter, isText_iff]

theorem retainedReason_eq_none_iff {ref hash : String} (held : heldBy digest base ref hash = true) :
    retainedReason digest records base readers ref hash = none ↔
      countRef records ref ≤ 1 ∧ countRef base ref ≤ 1 ∧ (matchedReader readers ref hash).isSome = true := by
  have absent : (readers.lookup ref).isNone = true → (matchedReader readers ref hash).isSome = false := by
    intro none
    rw [matchedReader, Option.isNone_iff_eq_none.mp none]
    rfl
  unfold retainedReason
  rw [if_pos held]
  split_ifs with current baseline missing mismatch
  · simp [Nat.not_le.mpr current]
  · simp [Nat.not_le.mpr baseline]
  · simp [absent missing]
  · simp [Option.isNone_iff_eq_none.mp mismatch]
  · simpa [Option.isSome_iff_ne_none] using ⟨Nat.not_lt.mp current, Nat.not_lt.mp baseline, by simpa using mismatch⟩

/-- A record is not sent exactly when the session finds it by itself. -/
theorem isSent_eq_false_iff (member : record ∈ records) :
    isSent digest records base readers record = false ↔ Omitted digest records base readers record := by
  rw [isSent, Bool.or_eq_false_iff, Bool.not_eq_false', Option.isSome_eq_false_iff,
    Option.isNone_iff_eq_none]
  have present := one_le_countRef member
  constructor
  · rintro ⟨held, nothing⟩
    obtain ⟨current, baseline, reader⟩ := (retainedReason_eq_none_iff held).mp nothing
    obtain ⟨old, oldIn, same, hash⟩ := heldBy_iff.mp held
    have oldPresent := one_le_countRef oldIn
    rw [same] at oldPresent
    exact ⟨by omega, by omega, ⟨old, oldIn, same, hash⟩, matchedReader_isSome_iff.mp reader⟩
  · rintro ⟨current, baseline, held, reader⟩
    have held := heldBy_iff.mpr held
    exact ⟨held, (retainedReason_eq_none_iff held).mpr
      ⟨current.le, baseline.le, matchedReader_isSome_iff.mpr reader⟩⟩

/-! ### The loop -/

/-- The entry of a record in the index. -/
def entryOf (digest : String → String) (readers : List (String × Fields)) (record : Record key) : IndexEntry where
  ref := record.ref
  contentHash := canonicalHash digest record
  status := record.fields.lookup "status"
  state := record.fields.lookup "state"
  reader := matchedReader readers record.ref (canonicalHash digest record)

/-- One run of the loop: an entry for each record, and a body for each that is sent, in their order. -/
theorem partitionRecord_run {rest : List (Record key)} {delta : Delta key} :
    (rest.foldl (partitionRecord digest records base readers) delta).bodies =
        delta.bodies ++ rest.filter (isSent digest records base readers) ∧
      (rest.foldl (partitionRecord digest records base readers) delta).index =
        delta.index ++ rest.map (entryOf digest readers) := by
  induction rest generalizing delta with
  | nil => simp
  | cons record rest ih =>
    rw [List.foldl_cons]
    obtain ⟨bodies, index⟩ := @ih (partitionRecord digest records base readers delta record)
    rw [bodies, index, List.filter_cons, List.map_cons]
    constructor
    · cases sent : isSent digest records base readers record
      · have kept := sent
        rw [isSent] at kept
        simp [partitionRecord, kept]
      · have kept := sent
        rw [isSent] at kept
        simp [partitionRecord, kept]
    · simp [partitionRecord, entryOf]

/-! ### Finding the records again -/

/-- What a session finds for the entries of the index, among the bodies that it was sent and its baseline. -/
def reconstruct (digest : String → String) (bodies base : List (Record key)) (index : List IndexEntry) :
    List (Option (Record key)) :=
  index.map fun entry => (bodies ++ base).find? fun record =>
    record.ref = entry.ref && canonicalHash digest record = entry.contentHash

/-- Records of one digest are the same value. -/
theorem same_of_canonicalHash (injective : Function.Injective digest) {first second : Record key}
    (same : canonicalHash digest first = canonicalHash digest second) :
    (Json.object first.fields).Same (.object second.fields) :=
  Json.same_of_dumps_eq first.formed second.formed (injective same)

theorem partition_eq (digest : String → String) (records : List (Record key))
    (baseline : Option (List (Record key))) (readers : Option (List (String × Fields))) :
    (partitionBatchRecords digest records baseline readers).bodies =
        records.filter (isSent digest records (baseline.getD []) (readers.getD [])) ∧
      (partitionBatchRecords digest records baseline readers).index =
        records.map (entryOf digest (readers.getD [])) := by
  obtain ⟨bodies, index⟩ := @partitionRecord_run digest key records (baseline.getD []) (readers.getD [])
    records ⟨[], [], []⟩
  exact ⟨bodies, index⟩

/-- A record that is not among the bodies is in the baseline. -/
theorem exists_same_record (member : record ∈ records) :
    ∃ same ∈ records.filter (isSent digest records base readers) ++ base,
      same.ref = record.ref ∧ canonicalHash digest same = canonicalHash digest record := by
  cases sent : isSent digest records base readers record with
  | true => exact ⟨record, List.mem_append_left _ (List.mem_filter.mpr ⟨member, sent⟩), rfl, rfl⟩
  | false =>
    obtain ⟨old, oldIn, facts⟩ := ((isSent_eq_false_iff member).mp sent).held
    exact ⟨old, List.mem_append_right _ oldIn, facts⟩

/-- What is found is the record. -/
def Recovers (found : Option (Record key)) (record : Record key) : Prop :=
  ∃ same : Record key, found = some same ∧ same.ref = record.ref ∧
    (Json.object same.fields).Same (.object record.fields)

theorem reconstruct_recovers (injective : Function.Injective digest) :
    List.Forall₂ Recovers (reconstruct digest (records.filter (isSent digest records base readers)) base
      (records.map (entryOf digest readers))) records := by
  rw [reconstruct, List.map_map, List.forall₂_map_left_iff, List.forall₂_same]
  intro record member
  obtain ⟨other, otherIn, named, hash⟩ := @exists_same_record digest key records base readers record member
  have present : ((records.filter (isSent digest records base readers) ++ base).find? fun same =>
      same.ref = record.ref && canonicalHash digest same = canonicalHash digest record).isSome = true :=
    List.find?_isSome.mpr ⟨other, otherIn, by simp [named, hash]⟩
  obtain ⟨same, found⟩ := Option.isSome_iff_exists.mp present
  have facts := List.find?_some found
  simp only [Bool.and_eq_true, decide_eq_true_eq] at facts
  exact ⟨same, found, facts.1, same_of_canonicalHash injective facts.2⟩

/-- A delta is lossless. The bodies are the records, in their order, that the session cannot find by itself;
a record with a reference that is not unique is among them; and the session finds every record again. -/
theorem partition_lossless (injective : Function.Injective digest) (records : List (Record key))
    (baseline : Option (List (Record key))) (readers : Option (List (String × Fields))) :
    let delta := partitionBatchRecords digest records baseline readers
    let base := baseline.getD []
    (∃ sent : Record key → Bool, delta.bodies = records.filter sent ∧
      (∀ record ∈ records, sent record = false ↔ Omitted digest records base (readers.getD []) record) ∧
      ∀ record ∈ records, 1 < countRef records record.ref ∨ 1 < countRef base record.ref →
        sent record = true) ∧
      List.Forall₂ Recovers (reconstruct digest delta.bodies base delta.index) records := by
  obtain ⟨bodies, index⟩ := partition_eq digest records baseline readers
  refine ⟨⟨isSent digest records (baseline.getD []) (readers.getD []), bodies,
    fun record member => isSent_eq_false_iff member, fun record member duplicated => ?_⟩, ?_⟩
  · by_contra kept
    have omitted := (isSent_eq_false_iff member).mp (Bool.eq_false_iff.mpr kept)
    have current := omitted.current
    have baseline := omitted.baseline
    omega
  · rw [bodies, index]
    exact reconstruct_recovers injective

/-- A record of one field besides its name. -/
def sampleRecord (ref status : String) : Record .targetRef where
  fields := [("target_ref", .text ref), ("status", .text status)]
  ref := ref
  named := rfl
  formed := rfl

/-- One record that the baseline holds, and one whose reference the baseline holds twice. -/
theorem partition_two_records :
    let records := [sampleRecord "a" "done", sampleRecord "b" "done"]
    let base := [sampleRecord "a" "done", sampleRecord "b" "done", sampleRecord "b" "open"]
    let readers := [("a", [("content_hash", Json.text (canonicalHash id (sampleRecord "a" "done")))])]
    let delta := partitionBatchRecords id records (some base) (some readers)
    (∃ sent : Record .targetRef → Bool, delta.bodies = records.filter sent ∧
      (∀ record ∈ records, sent record = false ↔ Omitted id records base readers record) ∧
      ∀ record ∈ records, 1 < countRef records record.ref ∨ 1 < countRef base record.ref →
        sent record = true) ∧
      List.Forall₂ Recovers (reconstruct id delta.bodies base delta.index) records :=
  partition_lossless Function.injective_id _ _ _

end MetaResearch.Bundle.BatchView

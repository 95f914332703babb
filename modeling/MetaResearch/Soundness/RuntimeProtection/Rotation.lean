import MetaResearch.Model.RuntimeProtection.EventLog
import Mathlib.Data.Set.Card

/-! # Rotation of the runtime event log

Read from the oldest generation to the current file, the log is the end of what was written, after every
single operation. A rename moves a file over a generation that is vacant, so that nothing between two files
is lost; only the oldest generation is removed.
-/

namespace MetaResearch.RuntimeProtection.EventLog

/-- The records of the generations up to this one, oldest first. -/
def chronicle (files : Files) : ℕ → List Record
  | 0 => (files 0).getD []
  | generation + 1 => (files (generation + 1)).getD [] ++ chronicle files generation

/-- A file within the limit, or one record that is over it. -/
def Fits (limits : Limits) (file : LogFile) : Prop := size file ≤ limits.maxBytes ∨ ∃ encoded, file = [encoded]

/-- What holds of the files at any moment. -/
structure IsSuffix (limits : Limits) (log : Log) : Prop where
  suffix : chronicle log.files limits.backupCount <:+ log.written
  few : {generation | (log.files generation).isSome = true}.encard ≤ limits.backupCount + 1
  fits : ∀ generation file, log.files generation = some file → Fits limits file

/-- The generations that there may be, and their files. -/
structure Bounded (limits : Limits) (files : Files) : Prop where
  none_above : ∀ generation, limits.backupCount < generation → files generation = none
  fits : ∀ generation file, files generation = some file → Fits limits file

theorem Bounded.few {limits : Limits} {files : Files} (bounded : Bounded limits files) :
    {generation | (files generation).isSome = true}.encard ≤ limits.backupCount + 1 := by
  have within : {generation | (files generation).isSome = true} ⊆ Finset.range (limits.backupCount + 1) := by
    intro generation present
    by_contra above
    rw [Finset.mem_coe, Finset.mem_range] at above
    rw [Set.mem_ofPred_eq, bounded.none_above generation (by omega)] at present
    cases present
  refine (Set.encard_le_encard within).trans ?_
  rw [Set.encard_coe_eq_coe_finsetCard, Finset.card_range]
  exact le_refl _

theorem Bounded.update {limits : Limits} {files : Files} (bounded : Bounded limits files) {generation : ℕ}
    (inside : generation ≤ limits.backupCount) {file : Option LogFile}
    (fits : ∀ held, file = some held → Fits limits held) :
    Bounded limits (Function.update files generation file) := by
  refine ⟨fun other above => ?_, fun other held found => ?_⟩
  · rw [Function.update_of_ne (by omega)]
    exact bounded.none_above other above
  · by_cases same : other = generation
    · subst same
      rw [Function.update_self] at found
      exact fits held found
    · rw [Function.update_of_ne same] at found
      exact bounded.fits other held found

structure Kept (limits : Limits) (log : Log) : Prop where
  suffix : chronicle log.files limits.backupCount <:+ log.written
  bounded : Bounded limits log.files

theorem Kept.isSuffix {limits : Limits} {log : Log} (kept : Kept limits log) : IsSuffix limits log :=
  ⟨kept.suffix, kept.bounded.few, kept.bounded.fits⟩

theorem Kept.empty (limits : Limits) : Kept limits Log.empty := by
  have nothing : ∀ generation, chronicle Log.empty.files generation = [] := by
    intro generation
    induction generation with
    | zero => rfl
    | succ generation ih => rw [chronicle, ih]; rfl
  exact ⟨by rw [nothing]; exact List.nil_suffix, fun _ _ => rfl, nofun⟩

/-! ### Changing one generation -/

/-- A generation above is not read. -/
theorem chronicle_update_above (files : Files) {generation other : ℕ} (above : generation < other)
    (file : Option LogFile) : chronicle (Function.update files other file) generation = chronicle files generation := by
  induction generation with
  | zero => rw [chronicle, chronicle, Function.update_of_ne (by omega)]
  | succ generation ih => rw [chronicle, chronicle, Function.update_of_ne (by omega), ih (by omega)]

/-- The current file comes last. -/
theorem chronicle_update_current (files : Files) (file : LogFile) (generation : ℕ) (more : List Record)
    (current : file = (files 0).getD [] ++ more) :
    chronicle (Function.update files 0 (some file)) generation = chronicle files generation ++ more := by
  induction generation with
  | zero => rw [chronicle, chronicle, Function.update_self, current]; rfl
  | succ generation ih => rw [chronicle, chronicle, Function.update_of_ne (by omega), ih, List.append_assoc]

theorem replace_eq (files : Files) {generation : ℕ} (vacant : files (generation + 1) = none) :
    Operation.apply files (.replace generation) =
      Function.update (Function.update files (generation + 1) (files generation)) generation none := by
  cases found : files generation with
  | some file => simp only [Operation.apply, found]
  | none =>
    have unmoved : Function.update files (generation + 1) none = files := Function.update_eq_self_iff.mpr vacant.symm
    have unchanged : Function.update files generation none = files := Function.update_eq_self_iff.mpr found.symm
    simp only [Operation.apply, found, unmoved, unchanged]

/-- A rename to a vacant generation moves records, and nothing else. -/
theorem chronicle_replace (files : Files) {generation last : ℕ} (inside : generation < last)
    (vacant : files (generation + 1) = none) :
    chronicle (Operation.apply files (.replace generation)) last = chronicle files last := by
  rw [replace_eq files vacant]
  induction last, Nat.succ_le_of_lt inside using Nat.le_induction with
  | base =>
    rw [chronicle, chronicle, vacant, Function.update_of_ne (by omega), Function.update_self, Option.getD_none,
      List.nil_append]
    cases generation with
    | zero => rw [chronicle, chronicle, Function.update_self, Option.getD_none, List.append_nil]
    | succ generation =>
      rw [chronicle, chronicle, Function.update_self, chronicle_update_above _ (by omega),
        chronicle_update_above _ (by omega), Option.getD_none, List.nil_append]
  | succ last above ih =>
    rw [chronicle, chronicle, ih (by omega), Function.update_of_ne (by omega), Function.update_of_ne (by omega)]

/-! ### One operation -/

variable {limits : Limits} {log : Log}

theorem Kept.unlink (kept : Kept limits log) : Kept limits (log.perform (.unlink limits.backupCount)) := by
  refine ⟨?_, kept.bounded.update (le_refl _) nofun⟩
  obtain ⟨last, oldest⟩ := Nat.exists_eq_add_one.mpr (show 0 < limits.backupCount by have := limits.admitted; omega)
  have before : chronicle log.files limits.backupCount =
      (log.files limits.backupCount).getD [] ++ chronicle log.files last := by rw [oldest, chronicle]
  have after : chronicle (log.perform (.unlink limits.backupCount)).files limits.backupCount =
      chronicle log.files last := by
    change chronicle (Function.update log.files limits.backupCount none) limits.backupCount = _
    rw [oldest, chronicle, Function.update_self, chronicle_update_above _ (by omega)]
    rfl
  rw [after]
  exact (List.suffix_append _ _).trans (before ▸ kept.suffix)

theorem Kept.replace {generation : ℕ} (kept : Kept limits log) (inside : generation < limits.backupCount)
    (vacant : log.files (generation + 1) = none) : Kept limits (log.perform (.replace generation)) := by
  constructor
  · change chronicle (Operation.apply log.files (.replace generation)) limits.backupCount <:+ log.written
    rw [chronicle_replace log.files inside vacant]
    exact kept.suffix
  · change Bounded limits (Operation.apply log.files (.replace generation))
    rw [replace_eq log.files vacant]
    exact (kept.bounded.update inside (kept.bounded.fits generation)).update (Nat.le_of_lt inside) nofun

theorem Kept.create (kept : Kept limits log) : Kept limits (log.perform .create) := by
  constructor
  · change chronicle (Function.update log.files 0 _) limits.backupCount <:+ log.written
    rw [chronicle_update_current log.files _ _ [] (List.append_nil _).symm, List.append_nil]
    exact kept.suffix
  · refine kept.bounded.update (Nat.zero_le _) fun file same => ?_
    obtain rfl := Option.some.inj same
    cases current : log.files 0 with
    | none => exact .inl (Nat.zero_le _)
    | some file => exact kept.bounded.fits 0 file current

@[simp] theorem size_concat (file : LogFile) (record : Record) :
    size (file ++ [record]) = size file + record.bytes.length := by
  simp [size]

theorem size_eq_zero_iff (file : LogFile) : size file = 0 ↔ file = [] := by
  cases file with
  | nil => simp [size]
  | cons record rest =>
    have bytes := record.nonempty
    simp [size, bytes]

/-- There is room for the record, or it will be alone. -/
def Admits (limits : Limits) (files : Files) (encoded : Record) : Prop :=
  size ((files 0).getD []) + encoded.bytes.length ≤ limits.maxBytes ∨ (files 0).getD [] = []

theorem Kept.write {encoded : Record} (kept : Kept limits log) (admits : Admits limits log.files encoded) :
    Kept limits (log.perform (.write encoded)) := by
  constructor
  · change chronicle (Function.update log.files 0 _) limits.backupCount <:+ log.written ++ [encoded]
    rw [chronicle_update_current log.files _ _ [encoded] rfl]
    obtain ⟨front, whole⟩ := kept.suffix
    exact ⟨front, by rw [← List.append_assoc, whole]⟩
  · refine kept.bounded.update (Nat.zero_le _) fun file same => ?_
    obtain rfl := Option.some.inj same
    rcases admits with room | alone
    · exact .inl ((size_concat _ _).trans_le room)
    · exact .inr ⟨encoded, by rw [alone]; rfl⟩

/-! ### One record -/

/-- A property of every moment of a list of operations: of the log as it is, and after each of them. -/
def Throughout (holds : Log → Prop) : Log → List Operation → Prop
  | log, [] => holds log
  | log, operation :: rest => holds log ∧ Throughout holds (log.perform operation) rest

theorem Throughout.take {holds : Log → Prop} {log : Log} {operations : List Operation}
    (throughout : Throughout holds log operations) (performed : ℕ) :
    holds ((operations.take performed).foldl Log.perform log) := by
  induction operations generalizing log performed with
  | nil => rw [List.take_nil]; exact throughout
  | cons operation rest ih =>
    cases performed with
    | zero => exact throughout.1
    | succ performed => exact ih throughout.2 performed

/-- The generations are renamed one after another, each to the one that was vacated before it. What follows meets
a log without a current file. -/
theorem throughout_renames {rest : List Operation} {count : ℕ} (kept : Kept limits log)
    (inside : count ≤ limits.backupCount) (vacant : log.files count = none)
    (after : ∀ log, Kept limits log → log.files 0 = none → Throughout (Kept limits) log rest) :
    Throughout (Kept limits) log (renames count ++ rest) := by
  induction count generalizing log with
  | zero => exact after log kept vacant
  | succ count ih =>
    refine ⟨kept, ih (kept.replace inside vacant) (by omega) ?_⟩
    change Operation.apply log.files (.replace count) count = none
    rw [replace_eq log.files vacant, Function.update_self]

theorem throughout_write {encoded : Record} (kept : Kept limits log) (admits : Admits limits log.files encoded) :
    Throughout (Kept limits) log [.create, .write encoded] := by
  refine ⟨kept, kept.create, kept.create.write ?_⟩
  change Admits limits (Function.update log.files 0 _) encoded
  rw [Admits, Function.update_self, Option.getD_some]
  exact admits

theorem throughout_operations (kept : Kept limits log) (encoded : Record) :
    Throughout (Kept limits) log (operations limits log.files encoded) := by
  unfold operations rotation
  cases current : log.files 0 with
  | none => exact throughout_write kept (.inr (by rw [current]; rfl))
  | some file =>
    simp only
    split_ifs with room
    · refine throughout_write kept ?_
      rw [Admits, current, Option.getD_some]
      exact room.symm.imp_right (size_eq_zero_iff file).mp
    · refine ⟨kept, throughout_renames kept.unlink (le_refl _) (Function.update_self _ _ _) ?_⟩
      intro log kept vacant
      exact throughout_write kept (.inr (by rw [vacant]; rfl))

/-- An attempt keeps the log, wherever it stops. -/
theorem Kept.attempt (kept : Kept limits log) (attempt : Attempt) : Kept limits (log.attempt limits attempt) :=
  (throughout_operations kept attempt.encoded).take attempt.performed

private theorem written_foldl {operations : List Operation} {log : Log}
    (quiet : ∀ operation ∈ operations, ∀ encoded, operation ≠ .write encoded) :
    (operations.foldl Log.perform log).written = log.written := by
  induction operations generalizing log with
  | nil => rfl
  | cons operation rest ih =>
    obtain ⟨first, later⟩ := List.forall_mem_cons.mp quiet
    rw [List.foldl_cons, ih later]
    cases operation with
    | write encoded => exact absurd rfl (first encoded)
    | unlink generation => rfl
    | replace generation => rfl
    | create => rfl

private theorem renames_quiet (count : ℕ) :
    ∀ operation ∈ renames count, ∀ encoded, operation ≠ .write encoded := by
  induction count with
  | zero => exact List.forall_mem_nil _
  | succ count ih => exact List.forall_mem_cons.mpr ⟨nofun, ih⟩

private theorem rotation_quiet (limits : Limits) (files : Files) (incoming : ℕ) :
    ∀ operation ∈ rotation limits files incoming, ∀ encoded, operation ≠ .write encoded := by
  unfold rotation
  cases files 0 with
  | none => exact List.forall_mem_nil _
  | some file =>
    simp only
    split_ifs
    · exact List.forall_mem_nil _
    · exact List.forall_mem_cons.mpr ⟨nofun, renames_quiet _⟩

/-- A record that is not cut short is the last that was written. -/
theorem written_record (limits : Limits) (log : Log) (event : Event) :
    (log.attempt limits (.record limits log event)).written = log.written ++ [encode event] := by
  simp only [Log.attempt, Attempt.record, List.take_length, operations, List.foldl_append]
  change (List.foldl Log.perform log (rotation limits log.files _)).written ++ [encode event] = _
  rw [written_foldl (rotation_quiet limits log.files _)]

end MetaResearch.RuntimeProtection.EventLog

import Mathlib.Data.List.Nodup
import Mathlib.Data.List.Sort

/-! # Keyed tables

A table is a list of rows, oldest first, whose keys are pairwise distinct. The distinctness is a
field, so a table with a repeated primary key cannot be built: an insertion of a known key is
refused, and an update has to keep the key of every row it rewrites. Reading is by key, by
predicate, or by predicate in the order of a numeric column.
-/

namespace MetaResearch

variable {κ ρ : Type*}

/-- Rows with pairwise distinct keys, in insertion order. -/
structure Table (key : ρ → κ) where
  rows : List ρ := []
  distinct : (rows.map key).Nodup := by decide

/-- A change of a row that keeps its key. -/
structure Rewrite (key : ρ → κ) where
  apply : ρ → ρ
  keeps : ∀ row, key (apply row) = key row

namespace Table

variable {key : ρ → κ}

instance : EmptyCollection (Table key) := ⟨⟨[], List.nodup_nil⟩⟩

@[simp] theorem rows_empty : (∅ : Table key).rows = [] := rfl

instance : Membership ρ (Table key) := ⟨fun table row => row ∈ table.rows⟩

theorem mem_def {table : Table key} {row : ρ} : row ∈ table ↔ row ∈ table.rows := Iff.rfl

@[simp] theorem not_mem_empty (row : ρ) : row ∉ (∅ : Table key) := List.not_mem_nil

/-- Two rows with one key are one row. -/
theorem eq_of_key {table : Table key} {row other : ρ} (member : row ∈ table)
    (present : other ∈ table) (same : key row = key other) : row = other :=
  List.inj_on_of_nodup_map table.distinct member present same

section Lookup

variable [DecidableEq κ]

/-- The row stored under a key. -/
def find? (table : Table key) (k : κ) : Option ρ :=
  table.rows.find? fun row => key row = k

theorem mem_of_find? {table : Table key} {k : κ} {row : ρ} (found : table.find? k = some row) :
    row ∈ table :=
  List.mem_of_find?_eq_some found

theorem key_of_find? {table : Table key} {k : κ} {row : ρ} (found : table.find? k = some row) :
    key row = k := by
  simpa using List.find?_some found

theorem find?_eq_some_iff {table : Table key} {k : κ} {row : ρ} :
    table.find? k = some row ↔ row ∈ table ∧ key row = k := by
  constructor
  · exact fun found => ⟨mem_of_find? found, key_of_find? found⟩
  · rintro ⟨member, same⟩
    cases found : table.find? k with
    | none =>
      have absent := List.find?_eq_none.mp found row member
      simp [same] at absent
    | some other =>
      rw [eq_of_key (mem_of_find? found) member ((key_of_find? found).trans same.symm)]

theorem find?_eq_none_iff {table : Table key} {k : κ} :
    table.find? k = none ↔ ∀ row ∈ table, key row ≠ k := by
  simp [find?, List.find?_eq_none, mem_def]

theorem find?_of_mem {table : Table key} {row : ρ} (member : row ∈ table) :
    table.find? (key row) = some row :=
  find?_eq_some_iff.mpr ⟨member, rfl⟩

end Lookup

/-- The rows satisfying a predicate, oldest first. -/
def select (table : Table key) (keep : ρ → Bool) : List ρ := table.rows.filter keep

@[simp] theorem mem_select {table : Table key} {keep : ρ → Bool} {row : ρ} :
    row ∈ table.select keep ↔ row ∈ table ∧ keep row = true :=
  List.mem_filter

/-- The number of rows satisfying a predicate. -/
def count (table : Table key) (keep : ρ → Bool) : ℕ := (table.select keep).length

theorem count_eq_zero_iff {table : Table key} {keep : ρ → Bool} :
    table.count keep = 0 ↔ ∀ row ∈ table, keep row = false := by
  simp [count, select, mem_def]

theorem exists_of_count_pos {table : Table key} {keep : ρ → Bool}
    (positive : table.count keep ≠ 0) : ∃ row ∈ table, keep row = true := by
  obtain ⟨row, member⟩ := List.exists_mem_of_length_pos (Nat.pos_of_ne_zero positive)
  exact ⟨row, mem_select.mp member⟩

/-- A predicate that one key has only holds of one row. -/
theorem count_eq_one {table : Table key} {keep : ρ → Bool} {row : ρ} (member : row ∈ table)
    (kept : keep row = true) (alone : ∀ other ∈ table, keep other = true → key other = key row) :
    table.count keep = 1 := by
  have nodup : (table.select keep).Nodup := (List.Nodup.of_map key table.distinct).filter _
  have same : table.select keep = List.replicate (table.count keep) row :=
    List.eq_replicate_of_mem fun other chosen => by
      obtain ⟨present, holds⟩ := mem_select.mp chosen
      exact eq_of_key present member (alone other present holds)
  have positive : 0 < table.count keep := List.length_pos_of_mem (mem_select.mpr ⟨member, kept⟩)
  rw [same, List.nodup_replicate] at nodup
  omega

/-- The rows satisfying a predicate, in the increasing order of a numeric column. -/
def selectBy (table : Table key) (keep : ρ → Bool) (column : ρ → ℤ) : List ρ :=
  (table.select keep).insertionSort fun row other => column row ≤ column other

@[simp] theorem mem_selectBy {table : Table key} {keep : ρ → Bool} {column : ρ → ℤ} {row : ρ} :
    row ∈ table.selectBy keep column ↔ row ∈ table ∧ keep row = true := by
  rw [selectBy, List.mem_insertionSort, mem_select]

/-- The row with the greatest value of a numeric column among those satisfying a predicate. -/
def latest? (table : Table key) (keep : ρ → Bool) (column : ρ → ℤ) : Option ρ :=
  (table.selectBy keep fun row => -column row).head?

theorem mem_of_latest? {table : Table key} {keep : ρ → Bool} {column : ρ → ℤ} {row : ρ}
    (found : table.latest? keep column = some row) : row ∈ table ∧ keep row = true :=
  mem_selectBy.mp (List.mem_of_head? found)

theorem latest?_eq_none_iff {table : Table key} {keep : ρ → Bool} {column : ρ → ℤ} :
    table.latest? keep column = none ↔ ∀ row ∈ table, keep row = false := by
  have empty : table.latest? keep column = none ↔
      ∀ row, row ∉ table.selectBy keep fun row => -column row := by
    rw [latest?, List.head?_eq_none_iff, List.eq_nil_iff_forall_not_mem]
  rw [empty]
  simp only [mem_selectBy, not_and, Bool.not_eq_true]

/-- Rows that already stand in the order of a column are selected as they stand. -/
theorem selectBy_of_sorted {table : Table key} {keep : ρ → Bool} {column : ρ → ℤ}
    (sorted : (table.select keep).Pairwise fun row other => column row ≤ column other) :
    table.selectBy keep column = table.select keep :=
  sorted.insertionSort_eq

/-- The row with the greatest value is at least every other one. -/
theorem le_of_latest? {table : Table key} {keep : ρ → Bool} {column : ρ → ℤ} {row other : ρ}
    (found : table.latest? keep column = some row) (member : other ∈ table.select keep) :
    column other ≤ column row := by
  have total : Std.Total fun row other : ρ => -column row ≤ -column other :=
    ⟨fun row other => le_total (-column row) (-column other)⟩
  have transitive : IsTrans ρ fun row other : ρ => -column row ≤ -column other :=
    ⟨fun _ _ _ => le_trans⟩
  have sorted := List.pairwise_insertionSort (fun row other => -column row ≤ -column other)
    (table.select keep)
  obtain ⟨rest, split⟩ := List.head?_eq_some_iff.mp found
  unfold selectBy at split
  have listed : other ∈ row :: rest := by
    rw [← split, List.mem_insertionSort]
    exact member
  rw [split] at sorted
  rcases List.mem_cons.mp listed with rfl | later
  · exact le_rfl
  · have := List.rel_of_pairwise_cons sorted later
    omega

/-- Of rows in the strict order of a column, the last one has the greatest value. -/
theorem latest?_of_sorted {table : Table key} {keep : ρ → Bool} {column : ρ → ℤ}
    (sorted : (table.select keep).Pairwise fun row other => column row < column other) :
    table.latest? keep column = (table.select keep).getLast? := by
  cases found : table.latest? keep column with
  | none =>
    have empty : table.select keep = [] := List.filter_eq_nil_iff.mpr fun row member =>
      Bool.not_eq_true _ ▸ latest?_eq_none_iff.mp found row member
    rw [empty, List.getLast?_nil]
  | some row =>
    have member := mem_select.mpr (mem_of_latest? found)
    obtain ⟨front, last, split⟩ := (List.eq_nil_or_concat' (table.select keep)).resolve_left
      (List.ne_nil_of_mem member)
    have greatest : column last ≤ column row := le_of_latest? found (by simp [split])
    rw [split] at member sorted ⊢
    rw [List.getLast?_concat]
    rcases List.mem_append.mp member with early | late
    · have below := (List.pairwise_append.mp sorted).2.2 row early last (List.mem_singleton_self last)
      omega
    · rw [List.mem_singleton.mp late]

/-- Append a row, refusing a key that is already there. -/
def insert? [DecidableEq κ] (table : Table key) (row : ρ) : Option (Table key) :=
  if fresh : key row ∈ table.rows.map key then none
  else some ⟨table.rows ++ [row], by
    rw [List.map_append, List.map_singleton]
    exact List.nodup_append'.mpr ⟨table.distinct, List.nodup_singleton _,
      List.disjoint_singleton.mpr fresh⟩⟩

theorem insert?_eq_some_iff [DecidableEq κ] {table inserted : Table key} {row : ρ} :
    table.insert? row = some inserted ↔
      (∀ other ∈ table, key other ≠ key row) ∧ inserted.rows = table.rows ++ [row] := by
  unfold insert?
  have absent : key row ∉ table.rows.map key ↔ ∀ other ∈ table, key other ≠ key row := by
    simp [mem_def]
  split
  · rename_i present
    constructor
    · intro impossible
      cases impossible
    · rintro ⟨fresh, _⟩
      exact (absent.mpr fresh present).elim
  · rename_i fresh
    constructor
    · rintro ⟨rfl⟩
      exact ⟨absent.mp fresh, rfl⟩
    · rintro ⟨_, same⟩
      cases inserted
      cases same
      rfl

theorem insert?_eq_none_iff [DecidableEq κ] {table : Table key} {row : ρ} :
    table.insert? row = none ↔ ∃ other ∈ table, key other = key row := by
  unfold insert?
  split
  · rename_i present
    simpa [mem_def] using present
  · rename_i fresh
    simpa [mem_def] using fresh

theorem mem_insert? [DecidableEq κ] {table inserted : Table key} {row other : ρ}
    (success : table.insert? row = some inserted) :
    other ∈ inserted ↔ other ∈ table ∨ other = row := by
  rw [mem_def, (insert?_eq_some_iff.mp success).2, List.mem_append, List.mem_singleton, mem_def]

theorem select_insert? [DecidableEq κ] {table inserted : Table key} {row : ρ}
    (success : table.insert? row = some inserted) (keep : ρ → Bool) :
    inserted.select keep = table.select keep ++ if keep row then [row] else [] := by
  rw [select, (insert?_eq_some_iff.mp success).2, List.filter_append, List.filter_singleton]
  cases keep row <;> rfl

theorem find?_insert? [DecidableEq κ] {table inserted : Table key} {row : ρ}
    (success : table.insert? row = some inserted) (k : κ) :
    inserted.find? k = if key row = k then some row else table.find? k := by
  split_ifs with same
  · exact find?_eq_some_iff.mpr ⟨(mem_insert? success).mpr (.inr rfl), same⟩
  · rw [find?, (insert?_eq_some_iff.mp success).2, List.find?_append]
    simp [find?, same]

/-- Rewrite the rows satisfying a predicate, each under its own key. -/
def update (table : Table key) (chosen : ρ → Bool) (rewrite : Rewrite key) : Table key where
  rows := table.rows.map fun row => if chosen row then rewrite.apply row else row
  distinct := by
    have same : (fun row => key (if chosen row then rewrite.apply row else row)) = key := by
      funext row
      split
      · exact rewrite.keeps row
      · rfl
    rw [List.map_map, Function.comp_def, same]
    exact table.distinct

variable {table : Table key} {chosen : ρ → Bool} {rewrite : Rewrite key}

theorem mem_update {row : ρ} :
    row ∈ table.update chosen rewrite ↔
      ∃ old ∈ table, (chosen old = true ∧ row = rewrite.apply old) ∨
        (chosen old = false ∧ row = old) := by
  rw [mem_def, update, List.mem_map]
  apply exists_congr
  intro old
  apply and_congr_right
  intro _
  cases chosen old <;> simp [eq_comm]

/-- A row that an update does not choose stays. -/
theorem mem_update_of_not {row : ρ} (member : row ∈ table) (other : chosen row = false) :
    row ∈ table.update chosen rewrite :=
  mem_update.mpr ⟨row, member, .inr ⟨other, rfl⟩⟩

/-- A row that an update chooses is there as rewritten. -/
theorem mem_update_of_chosen {row : ρ} (member : row ∈ table) (hit : chosen row = true) :
    rewrite.apply row ∈ table.update chosen rewrite :=
  mem_update.mpr ⟨row, member, .inl ⟨hit, rfl⟩⟩

/-- An update keeps the set of keys. -/
theorem exists_key_update {k : κ} :
    (∃ row ∈ table.update chosen rewrite, key row = k) ↔ ∃ row ∈ table, key row = k := by
  constructor
  · rintro ⟨row, member, same⟩
    obtain ⟨old, present, ⟨_, rfl⟩ | ⟨_, rfl⟩⟩ := mem_update.mp member
    · exact ⟨old, present, (rewrite.keeps old).symm.trans same⟩
    · exact ⟨row, present, same⟩
  · rintro ⟨row, member, same⟩
    cases hit : chosen row with
    | true => exact ⟨_, mem_update_of_chosen member hit, (rewrite.keeps row).trans same⟩
    | false => exact ⟨row, mem_update_of_not member hit, same⟩

/-- A count grows when an update keeps the counted rows and adds one. -/
theorem count_lt_count_update {keep : ρ → Bool} {row : ρ}
    (kept : ∀ row ∈ table, chosen row = true → keep row = true → keep (rewrite.apply row) = true)
    (member : row ∈ table) (hit : chosen row = true) (before : keep row = false)
    (after : keep (rewrite.apply row) = true) :
    table.count keep < (table.update chosen rewrite).count keep := by
  have mono : ∀ other ∈ table.rows, keep other = true →
      keep (if chosen other then rewrite.apply other else other) = true := by
    intro other present counted
    split
    · exact kept other present ‹_› counted
    · exact counted
  simp only [count, select, update, ← List.countP_eq_length_filter, List.countP_map]
  obtain ⟨first, last, split⟩ := List.append_of_mem (mem_def.mp member)
  rw [split] at mono ⊢
  have front := List.countP_mono_left (p := keep)
    (q := keep ∘ fun row => if chosen row then rewrite.apply row else row)
    fun other present => mono other (List.mem_append_left _ present)
  have back := List.countP_mono_left (p := keep)
    (q := keep ∘ fun row => if chosen row then rewrite.apply row else row)
    fun other present => mono other (List.mem_append_right _ (List.mem_cons_of_mem _ present))
  simp only [List.countP_append, List.countP_cons, before, Function.comp_apply, hit, after, if_true]
  simp
  omega

theorem find?_update [DecidableEq κ] {k : κ} :
    (table.update chosen rewrite).find? k =
      (table.find? k).map fun row => if chosen row then rewrite.apply row else row := by
  cases found : table.find? k with
  | none =>
    rw [find?_eq_none_iff] at found
    rw [Option.map_none, find?_eq_none_iff]
    intro row member same
    obtain ⟨old, present, key⟩ := exists_key_update.mp ⟨row, member, same⟩
    exact found old present key
  | some row =>
    obtain ⟨member, same⟩ := find?_eq_some_iff.mp found
    rw [Option.map_some, find?_eq_some_iff]
    cases hit : chosen row with
    | true => exact ⟨mem_update_of_chosen member hit, (rewrite.keeps row).trans same⟩
    | false => exact ⟨mem_update_of_not member hit, same⟩

end Table

end MetaResearch

import Mathlib.Algebra.GroupWithZero.Nat
import Mathlib.Data.List.Nodup

/-! # Dictionaries in insertion order

A key that is set again keeps its place and takes the new value. The values of a dictionary whose keys each
stand for one value are those that were put in.
-/

namespace MetaResearch.Dict

variable {κ ν : Type*} [DecidableEq κ]

/-- `entries[key] = value` -/
def set (key : κ) (value : ν) : List (κ × ν) → List (κ × ν)
  | [] => [(key, value)]
  | entry :: rest => if entry.1 = key then (key, value) :: rest else entry :: set key value rest

/-- `entries.update(others)` -/
def update (entries others : List (κ × ν)) : List (κ × ν) :=
  others.foldl (fun entries entry => set entry.1 entry.2 entries) entries

@[simp] theorem update_nil (entries : List (κ × ν)) : update entries [] = entries := rfl

theorem update_cons (entries others : List (κ × ν)) (entry : κ × ν) :
    update entries (entry :: others) = update (set entry.1 entry.2 entries) others := rfl

theorem lookup_set_self (key : κ) (value : ν) (entries : List (κ × ν)) :
    (set key value entries).lookup key = some value := by
  induction entries with
  | nil => simp [set]
  | cons entry rest ih =>
    rw [set]
    split_ifs with same
    · rw [List.lookup_cons_self]
    · rw [List.lookup_cons, beq_false_of_ne (Ne.symm same), ih]

theorem lookup_set_of_ne {key other : κ} (different : other ≠ key) (value : ν) (entries : List (κ × ν)) :
    (set key value entries).lookup other = entries.lookup other := by
  induction entries with
  | nil => rw [set, List.lookup_cons, beq_false_of_ne different]
  | cons entry rest ih =>
    rw [set]
    split_ifs with same
    · rw [List.lookup_cons, List.lookup_cons, same, beq_false_of_ne different]
    · rw [List.lookup_cons, List.lookup_cons, ih]

theorem lookup_set_cases {key other : κ} {value found : ν} {entries : List (κ × ν)}
    (there : (set key value entries).lookup other = some found) :
    (other = key ∧ found = value) ∨ entries.lookup other = some found := by
  by_cases same : other = key
  · rw [same, lookup_set_self] at there
    exact .inl ⟨same, (Option.some.inj there).symm⟩
  · exact .inr ((lookup_set_of_ne same value entries).symm.trans there)

theorem mem_of_lookup {key : κ} {value : ν} {entries : List (κ × ν)}
    (found : entries.lookup key = some value) : (key, value) ∈ entries := by
  obtain ⟨front, back, rfl, _⟩ := List.lookup_eq_some_iff.mp found
  simp

theorem mem_iff_lookup {key : κ} {value : ν} {entries : List (κ × ν)}
    (nodup : (entries.map Prod.fst).Nodup) : (key, value) ∈ entries ↔ entries.lookup key = some value := by
  refine ⟨fun member => ?_, mem_of_lookup⟩
  induction entries with
  | nil => cases member
  | cons entry rest ih =>
    obtain ⟨new, nodup⟩ := List.nodup_cons.mp nodup
    rcases List.mem_cons.mp member with rfl | member
    · exact List.lookup_cons_self
    · have apart : key ≠ entry.1 := fun same => new (same ▸ List.mem_map_of_mem member)
      rw [List.lookup_cons, beq_false_of_ne apart, ih nodup member]

theorem mem_keys_set (key other : κ) (value : ν) (entries : List (κ × ν)) :
    other ∈ (set key value entries).map Prod.fst ↔ other = key ∨ other ∈ entries.map Prod.fst := by
  induction entries with
  | nil => simp [set]
  | cons entry rest ih =>
    rw [set]
    split_ifs with same
    · simp [same]
    · rw [List.map_cons, List.mem_cons, ih, List.map_cons, List.mem_cons, or_left_comm]

theorem nodup_keys_set {key : κ} {value : ν} {entries : List (κ × ν)} (nodup : (entries.map Prod.fst).Nodup) :
    ((set key value entries).map Prod.fst).Nodup := by
  induction entries with
  | nil => exact List.nodup_singleton key
  | cons entry rest ih =>
    obtain ⟨new, nodup⟩ := List.nodup_cons.mp nodup
    rw [set]
    split_ifs with same
    · exact List.nodup_cons.mpr ⟨same ▸ new, nodup⟩
    · refine List.nodup_cons.mpr ⟨fun member => ?_, ih nodup⟩
      rcases (mem_keys_set key entry.1 value rest).mp member with same' | member
      · exact same same'
      · exact new member

/-- A new key comes last. -/
theorem set_of_lookup_eq_none {key : κ} {entries : List (κ × ν)} (new : entries.lookup key = none) (value : ν) :
    set key value entries = entries ++ [(key, value)] := by
  induction entries with
  | nil => rfl
  | cons entry rest ih =>
    rw [List.lookup_cons] at new
    by_cases same : key = entry.1
    · rw [same, beq_self_eq_true] at new
      cases new
    · rw [beq_false_of_ne same] at new
      rw [set, if_neg (Ne.symm same), ih new, List.cons_append]

/-- A value takes the place of the previous one: a sum over the values changes by the difference. -/
theorem sum_set_of_lookup_eq_some {key : κ} {previous : ν} {entries : List (κ × ν)}
    (found : entries.lookup key = some previous) (measure : ν → ℕ) (value : ν) :
    ((set key value entries).map fun entry => measure entry.2).sum + measure previous =
        (entries.map fun entry => measure entry.2).sum + measure value ∧
      (set key value entries).length = entries.length := by
  induction entries with
  | nil => cases found
  | cons entry rest ih =>
    rw [List.lookup_cons] at found
    by_cases same : key = entry.1
    · rw [same, beq_self_eq_true] at found
      rw [set, if_pos same.symm]
      simp only [List.map_cons, List.sum_cons, List.length_cons, and_true, ← Option.some.inj found]
      omega
    · rw [beq_false_of_ne same] at found
      obtain ⟨sum, length⟩ := ih found
      rw [set, if_neg (Ne.symm same)]
      simp only [List.map_cons, List.sum_cons, List.length_cons, length, and_true]
      omega

section Names

variable {Names : κ → ν → Prop}

/-- Every key stands for its value. -/
def Named (Names : κ → ν → Prop) (entries : List (κ × ν)) : Prop := ∀ entry ∈ entries, Names entry.1 entry.2

theorem Named.set {key : κ} {value : ν} {entries : List (κ × ν)} (named : Named Names entries)
    (names : Names key value) : Named Names (set key value entries) := by
  induction entries with
  | nil => exact List.forall_mem_singleton.mpr names
  | cons entry rest ih =>
    obtain ⟨first, later⟩ := List.forall_mem_cons.mp named
    rw [Dict.set]
    split_ifs
    · exact List.forall_mem_cons.mpr ⟨names, later⟩
    · exact List.forall_mem_cons.mpr ⟨first, ih later⟩

theorem Named.update {entries others : List (κ × ν)} (named : Named Names entries)
    (also : Named Names others) : Named Names (update entries others) := by
  induction others generalizing entries with
  | nil => exact named
  | cons entry rest ih =>
    obtain ⟨first, later⟩ := List.forall_mem_cons.mp also
    exact ih (named.set first) later

/-- No value is lost when a key is set that stands for its value alone. -/
theorem Named.mem_values_set (functional : ∀ key value other, Names key value → Names key other → value = other)
    {key : κ} {value : ν} {entries : List (κ × ν)} (named : Named Names entries) (names : Names key value)
    (found : ν) : found ∈ (Dict.set key value entries).map Prod.snd ↔
      found = value ∨ found ∈ entries.map Prod.snd := by
  induction entries with
  | nil => simp [Dict.set]
  | cons entry rest ih =>
    obtain ⟨first, later⟩ := List.forall_mem_cons.mp named
    rw [Dict.set]
    split_ifs with same
    · have known : entry.2 = value := functional _ _ _ (same ▸ first) names
      simp [known]
    · rw [List.map_cons, List.mem_cons, ih later, List.map_cons, List.mem_cons, or_left_comm]

theorem Named.mem_values_update
    (functional : ∀ key value other, Names key value → Names key other → value = other)
    {entries others : List (κ × ν)} (named : Named Names entries) (also : Named Names others) (found : ν) :
    found ∈ (Dict.update entries others).map Prod.snd ↔
      found ∈ entries.map Prod.snd ∨ found ∈ others.map Prod.snd := by
  induction others generalizing entries with
  | nil => simp
  | cons entry rest ih =>
    obtain ⟨first, later⟩ := List.forall_mem_cons.mp also
    rw [update_cons, ih (named.set first) later, named.mem_values_set functional first, List.map_cons,
      List.mem_cons]
    tauto

end Names

end MetaResearch.Dict

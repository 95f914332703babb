import MetaResearch.ToMathlib.JsonValue

/-! # Dictionaries that are written to

A key keeps its place when it is written again; a new key comes last.
-/

namespace MetaResearch

namespace Json

/-- `fields[name] = value` -/
def set : Fields → String → Json → Fields
  | [], name, value => [(name, value)]
  | (key, old) :: rest, name, value =>
    if key = name then (key, value) :: rest else (key, old) :: set rest name value

variable {fields : Fields} {name other : String} {value : Json}

theorem get_of_lookup (held : fields.lookup name = some value) : get fields name = value := by
  rw [get, held, Option.getD_some]

theorem same_texts (values : List String) : same (texts values) (texts values) = true := by
  have items : sameItems (values.map text) (values.map text) = true := by
    induction values with
    | nil => rfl
    | cons first rest ih => simp [sameItems, same, ih]
  exact items

@[simp] theorem lookup_set : (set fields name value).lookup name = some value := by
  induction fields with
  | nil => simp [set]
  | cons field rest ih =>
    unfold set
    split_ifs with same
    · rw [same, List.lookup_cons_self]
    · rw [List.lookup_cons, beq_eq_false_iff_ne.mpr (Ne.symm same)]
      exact ih

theorem lookup_set_of_ne (apart : other ≠ name) :
    (set fields name value).lookup other = fields.lookup other := by
  induction fields with
  | nil => simp [set, List.lookup_cons, beq_eq_false_iff_ne.mpr apart]
  | cons field rest ih =>
    unfold set
    split_ifs with same
    · rw [same, List.lookup_cons, List.lookup_cons]
      simp [same, beq_eq_false_iff_ne.mpr apart]
    · rw [List.lookup_cons, List.lookup_cons, ih]

@[simp] theorem get_set : get (set fields name value) name = value :=
  get_of_lookup lookup_set

theorem get_set_of_ne (apart : other ≠ name) : get (set fields name value) other = get fields other := by
  rw [get, lookup_set_of_ne apart, get]

/-- The dictionary without some of its keys. -/
def outside (fields : Fields) (names : List String) : Fields :=
  fields.filter fun field => !names.contains field.1

/-- Only the key itself is changed. -/
theorem outside_set {names : List String} (inside : name ∈ names) :
    outside (set fields name value) names = outside fields names := by
  have left : (!names.contains name) = false := by simp [inside]
  induction fields with
  | nil => simp [set, outside, inside]
  | cons field rest ih =>
    unfold set
    split_ifs with same
    · rw [← same] at left
      simp only [outside, List.filter_cons, left, Bool.false_eq_true, if_false]
    · simp only [outside, List.filter_cons] at ih ⊢
      rw [ih]

/-- What a key already holds is written without a change. -/
theorem set_eq_self (held : fields.lookup name = some value) : set fields name value = fields := by
  induction fields with
  | nil => cases held
  | cons field rest ih =>
    unfold set
    split_ifs with same
    · rw [← same, List.lookup_cons_self] at held
      rw [← Option.some.inj held]
    · rw [List.lookup_cons, beq_eq_false_iff_ne.mpr (Ne.symm same)] at held
      rw [ih held]

theorem set_append {front back : Fields} {old : Json} (new : name ∉ front.map Prod.fst) :
    set (front ++ (name, old) :: back) name value = front ++ (name, value) :: back := by
  induction front with
  | nil => simp [set]
  | cons field rest ih =>
    have apart : field.1 ≠ name := fun same => new (by simp [same])
    have later : name ∉ rest.map Prod.fst := fun listed => new (List.mem_cons_of_mem _ listed)
    rw [List.cons_append, set, if_neg apart, ih later, List.cons_append]

/-- A key that is new comes last. -/
theorem names_set :
    (set fields name value).map Prod.fst =
      if name ∈ fields.map Prod.fst then fields.map Prod.fst else fields.map Prod.fst ++ [name] := by
  induction fields with
  | nil => simp [set]
  | cons field rest ih =>
    unfold set
    split_ifs with same present present
    · rfl
    · exact (present (by simp [same])).elim
    · have later : name ∈ rest.map Prod.fst :=
        (List.mem_cons.mp present).resolve_left fun here => same here.symm
      rw [List.map_cons, ih, if_pos later, List.map_cons]
    · have missing : name ∉ rest.map Prod.fst := fun later => present (List.mem_cons_of_mem _ later)
      rw [List.map_cons, ih, if_neg missing, List.map_cons, List.cons_append]

theorem mem_of_mem_set {field : String × Json} (member : field ∈ set fields name value) :
    field = (name, value) ∨ field ∈ fields := by
  induction fields with
  | nil => exact .inl (List.mem_singleton.mp member)
  | cons first rest ih =>
    unfold set at member
    split_ifs at member with same
    · rcases List.mem_cons.mp member with rfl | later
      · exact .inl (Prod.ext same rfl)
      · exact .inr (List.mem_cons_of_mem _ later)
    · rcases List.mem_cons.mp member with rfl | later
      · exact .inr (by simp)
      · exact (ih later).imp id (List.mem_cons_of_mem _)

end Json

end MetaResearch

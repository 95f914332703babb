import MetaResearch.ToMathlib.JsonText
import MetaResearch.ToMathlib.JsonValue
import Mathlib.Data.String.Basic

/-! # Dictionaries that are read back from their JSON text

A dictionary has each name once, and so have the dictionaries in it. Reading the canonical text of such
a value gives the value with its names sorted, and writing that again gives the same text.
-/

namespace MetaResearch

namespace Json

mutual

/-- Every object has each of its names once. -/
def distinct : Json → Bool
  | array items => itemsDistinct items
  | object fields => decide (fields.map Prod.fst).Nodup && fieldsDistinct fields
  | null | bool _ | integer _ | number _ | text _ => true
  termination_by structural value => value

def itemsDistinct : List Json → Bool
  | [] => true
  | item :: rest => distinct item && itemsDistinct rest
  termination_by structural items => items

def fieldsDistinct : List (String × Json) → Bool
  | [] => true
  | (_, value) :: rest => distinct value && fieldsDistinct rest
  termination_by structural fields => fields

end

theorem itemsDistinct_eq_all (items : List Json) : itemsDistinct items = items.all distinct := by
  induction items with
  | nil => rfl
  | cons item rest ih => rw [itemsDistinct, ih, List.all_cons]

theorem fieldsDistinct_eq_all (fields : Fields) :
    fieldsDistinct fields = fields.all fun field => field.2.distinct := by
  induction fields with
  | nil => rfl
  | cons field rest ih => rw [fieldsDistinct, ih, List.all_cons]

theorem distinct_texts (values : List String) : (texts values).distinct = true := by
  rw [texts, distinct, itemsDistinct_eq_all, List.all_map]
  exact List.all_eq_true.mpr fun _ _ => rfl

theorem distinct_object_iff {fields : Fields} :
    (object fields).distinct = true ↔
      (fields.map Prod.fst).Nodup ∧ ∀ field ∈ fields, field.2.distinct = true := by
  rw [distinct, fieldsDistinct_eq_all, Bool.and_eq_true, decide_eq_true_iff, List.all_eq_true]

theorem distinct_get {fields : Fields} (distinct : (object fields).distinct = true) (name : String) :
    (get fields name).distinct = true := by
  unfold get
  cases found : fields.lookup name with
  | none => rfl
  | some value =>
    obtain ⟨front, back, rfl, _⟩ := List.lookup_eq_some_iff.mp found
    exact (distinct_object_iff.mp distinct).2 (name, value) (by simp)

/-! ### Sorting sorted fields -/

section

variable {α : Type}

private theorem insertNamed_front {field : String × α} {fields : List (String × α)}
    (least : ∀ other ∈ fields, field.1 < other.1) : insertNamed field fields = field :: fields := by
  cases fields with
  | nil => rfl
  | cons other rest => rw [insertNamed, if_pos (least other (by simp))]

private theorem insertNamed_sorted {field : String × α} {fields : List (String × α)}
    (sorted : fields.Pairwise (·.1 < ·.1)) (new : ∀ other ∈ fields, field.1 ≠ other.1) :
    (insertNamed field fields).Pairwise (·.1 < ·.1) := by
  induction fields with
  | nil => exact List.pairwise_singleton _ _
  | cons other rest ih =>
    obtain ⟨head, tail⟩ := List.pairwise_cons.mp sorted
    rw [insertNamed]
    split_ifs with before
    · refine List.pairwise_cons.mpr ⟨?_, sorted⟩
      intro later member
      rcases List.mem_cons.mp member with rfl | member
      · exact before
      · exact before.trans (head later member)
    · refine List.pairwise_cons.mpr ⟨?_, ih tail fun later member => new later (by simp [member])⟩
      intro later member
      rcases List.mem_cons.mp ((insertNamed_perm field rest).subset member) with rfl | member
      · exact lt_of_le_of_ne (not_lt.mp before) (new other (by simp)).symm
      · exact head later member

theorem sortNamed_sorted {fields : List (String × α)} (nodup : (fields.map Prod.fst).Nodup) :
    (sortNamed fields).Pairwise (·.1 < ·.1) := by
  induction fields with
  | nil => exact .nil
  | cons field rest ih =>
    obtain ⟨new, nodup⟩ := List.nodup_cons.mp nodup
    refine insertNamed_sorted (ih nodup) fun other member same => new ?_
    rw [same]
    exact List.mem_map_of_mem ((sortNamed_perm rest).subset member)

theorem sortNamed_of_sorted {fields : List (String × α)} (sorted : fields.Pairwise (·.1 < ·.1)) :
    sortNamed fields = fields := by
  induction fields with
  | nil => rfl
  | cons field rest ih =>
    obtain ⟨head, tail⟩ := List.pairwise_cons.mp sorted
    have step : sortNamed (field :: rest) = insertNamed field (sortNamed rest) := rfl
    rw [step, ih tail, insertNamed_front head]

/-- Sorting does not depend on the order of fields with distinct names. -/
theorem sortNamed_eq_of_perm {fields others : List (String × α)} (nodup : (fields.map Prod.fst).Nodup)
    (permuted : fields.Perm others) : sortNamed fields = sortNamed others := by
  have sorted : (sortNamed fields).Perm (sortNamed others) :=
    (sortNamed_perm fields).trans (permuted.trans (sortNamed_perm others).symm)
  exact sorted.eq_of_pairwise (fun _ _ _ _ less more => absurd less more.asymm) (sortNamed_sorted nodup)
    (sortNamed_sorted ((permuted.map Prod.fst).nodup_iff.mp nodup))

end

/-! ### Reading a canonical text -/

private theorem names_canonicalFields (fields : Fields) :
    (canonicalFields fields).map Prod.fst = fields.map Prod.fst := by
  rw [canonicalFields_eq_map, List.map_map]
  rfl

private theorem names_sortNamed (fields : Fields) :
    ((sortNamed (canonicalFields fields)).map Prod.fst).Perm (fields.map Prod.fst) := by
  have permuted := (sortNamed_perm (canonicalFields fields)).map Prod.fst
  rwa [names_canonicalFields] at permuted

mutual

theorem distinct_canonical : ∀ value : Json, value.canonical.distinct = value.distinct
  | array items => by
    rw [canonical, distinct, distinct, itemsDistinct_canonicalItems items]
  | object fields => by
    rw [canonical, distinct, distinct, fieldsDistinct_eq_all,
      (sortNamed_perm (canonicalFields fields)).all_eq, ← fieldsDistinct_eq_all,
      fieldsDistinct_canonicalFields fields,
      decide_eq_decide.mpr (names_sortNamed fields).nodup_iff]
  | null => rfl
  | bool _ => rfl
  | integer _ => rfl
  | number _ => rfl
  | text _ => rfl
  termination_by structural value => value

theorem itemsDistinct_canonicalItems : ∀ items : List Json,
    itemsDistinct (canonicalItems items) = itemsDistinct items
  | [] => rfl
  | item :: rest => by
    rw [canonicalItems, itemsDistinct, itemsDistinct, distinct_canonical item,
      itemsDistinct_canonicalItems rest]
  termination_by structural items => items

theorem fieldsDistinct_canonicalFields : ∀ fields : List (String × Json),
    fieldsDistinct (canonicalFields fields) = fieldsDistinct fields
  | [] => rfl
  | (name, value) :: rest => by
    rw [canonicalFields, fieldsDistinct, fieldsDistinct, distinct_canonical value,
      fieldsDistinct_canonicalFields rest]
  termination_by structural fields => fields

end

mutual

/-- What is read back from a canonical text is canonical. -/
theorem canonical_canonical : ∀ value : Json, value.distinct = true →
    value.canonical.canonical = value.canonical
  | array items, distinct => by
    rw [Json.distinct] at distinct
    rw [canonical, canonical, canonicalItems_canonicalItems items distinct]
  | object fields, distinct => by
    obtain ⟨nodup, each⟩ := (Bool.and_eq_true _ _).mp (by simpa only [Json.distinct] using distinct)
    have sorted : (sortNamed (canonicalFields fields)).Pairwise (·.1 < ·.1) := sortNamed_sorted
      (by rw [names_canonicalFields]; exact of_decide_eq_true nodup)
    have moved := sortNamed_map (fun _ value => canonical value) (canonicalFields fields)
    rw [canonical, canonical, canonicalFields_eq_map (sortNamed _), ← moved,
      ← canonicalFields_eq_map, canonicalFields_canonicalFields fields each,
      sortNamed_of_sorted sorted]
  | null, _ => rfl
  | bool _, _ => rfl
  | integer _, _ => rfl
  | number _, _ => rfl
  | text _, _ => rfl
  termination_by structural value => value

theorem canonicalItems_canonicalItems : ∀ items : List Json, itemsDistinct items = true →
    canonicalItems (canonicalItems items) = canonicalItems items
  | [], _ => rfl
  | item :: rest, distinct => by
    obtain ⟨here, later⟩ := (Bool.and_eq_true _ _).mp (by simpa only [itemsDistinct] using distinct)
    rw [canonicalItems, canonicalItems, canonical_canonical item here,
      canonicalItems_canonicalItems rest later]
  termination_by structural items => items

theorem canonicalFields_canonicalFields : ∀ fields : List (String × Json),
    fieldsDistinct fields = true →
      canonicalFields (canonicalFields fields) = canonicalFields fields
  | [], _ => rfl
  | (name, value) :: rest, distinct => by
    obtain ⟨here, later⟩ := (Bool.and_eq_true _ _).mp (by simpa only [fieldsDistinct] using distinct)
    rw [canonicalFields, canonicalFields, canonical_canonical value here,
      canonicalFields_canonicalFields rest later]
  termination_by structural fields => fields

end

/-- Writing what was read back gives the same text. -/
theorem dumps_canonical {value : Json} (distinct : value.distinct = true) :
    value.canonical.dumps = value.dumps :=
  dumps_eq_of_same (canonical_canonical value distinct)

end Json

namespace Json

/-! ### Objects that are the same -/

/-- Objects with distinct names are the same when their fields are, in some order. -/
theorem same_object_iff {fields others : Fields} (nodup : (fields.map Prod.fst).Nodup) :
    (object fields).Same (object others) ↔ (canonicalFields fields).Perm (canonicalFields others) := by
  unfold Same
  rw [canonical, canonical]
  constructor
  · intro same
    rw [object.injEq] at same
    exact (sortNamed_perm _).symm.trans (same ▸ sortNamed_perm _)
  · intro permuted
    rw [sortNamed_eq_of_perm (by rwa [names_canonicalFields]) permuted]

/-- Sorting and leaving a name out can be done in either order. -/
theorem sortNamed_without {fields : Fields} (nodup : (fields.map Prod.fst).Nodup) (name : String) :
    sortNamed (without fields name) = without (sortNamed fields) name := by
  have permuted : (without fields name).Perm (without (sortNamed fields) name) :=
    (sortNamed_perm fields).symm.filter _
  have fewer : ((without fields name).map Prod.fst).Nodup :=
    nodup.sublist (List.filter_sublist.map Prod.fst)
  rw [sortNamed_eq_of_perm fewer permuted]
  exact sortNamed_of_sorted ((sortNamed_sorted nodup).sublist List.filter_sublist)

theorem canonicalFields_without (fields : Fields) (name : String) :
    canonicalFields (without fields name) = without (canonicalFields fields) name := by
  simp only [canonicalFields_eq_map, without, List.filter_map]
  rfl

end Json

/-- The value is `None`. -/
def Json.isNull : Json → Bool
  | .null => true
  | _ => false

/-- The value is this integer and not a truth value. -/
def Json.isInteger (value : Json) (expected : ℤ) : Bool :=
  match value with
  | .integer actual => actual = expected
  | _ => false

/-- A dictionary of JSON values. -/
structure Dict where
  fields : Json.Fields
  distinct : (Json.object fields).distinct = true

namespace Dict

def json (dict : Dict) : Json := .object dict.fields

/-- `json.loads(canonical_json(dict))` -/
def reload (dict : Dict) : Dict where
  fields := Json.sortNamed (Json.canonicalFields dict.fields)
  distinct := (Json.distinct_canonical (.object dict.fields)).trans dict.distinct

/-- `dict.get(name)` -/
def get (dict : Dict) (name : String) : Json := Json.get dict.fields name

theorem distinct_get (dict : Dict) (name : String) : (dict.get name).distinct = true :=
  Json.distinct_get dict.distinct name

theorem get_eq_of_mem {fields : Json.Fields} (nodup : (fields.map Prod.fst).Nodup) {name : String}
    {value : Json} (member : (name, value) ∈ fields) : Json.get fields name = value := by
  unfold Json.get
  induction fields with
  | nil => cases member
  | cons field rest ih =>
    obtain ⟨new, nodup⟩ := List.nodup_cons.mp nodup
    rcases List.mem_cons.mp member with rfl | member
    · simp
    · have apart : name ≠ field.1 := fun same => new (same ▸ List.mem_map_of_mem member)
      rw [List.lookup_cons, beq_eq_false_iff_ne.mpr apart]
      exact ih nodup member

/-- Reading back a dictionary reads back its values. -/
theorem get_reload (dict : Dict) (name : String) : dict.reload.get name = (dict.get name).canonical := by
  have nodup := (Json.distinct_object_iff.mp dict.reload.distinct).1
  unfold Dict.get
  by_cases present : ∃ value, (name, value) ∈ dict.fields
  · obtain ⟨value, member⟩ := present
    rw [get_eq_of_mem (Json.distinct_object_iff.mp dict.distinct).1 member]
    apply get_eq_of_mem nodup
    refine (Json.sortNamed_perm _).mem_iff.mpr ?_
    rw [Json.canonicalFields_eq_map]
    exact List.mem_map.mpr ⟨(name, value), member, rfl⟩
  · have absent : ∀ fields : Json.Fields, (∀ value, (name, value) ∉ fields) →
        Json.get fields name = .null := by
      intro fields missing
      unfold Json.get
      cases found : fields.lookup name with
      | none => rfl
      | some value =>
        obtain ⟨front, back, same, -⟩ := List.lookup_eq_some_iff.mp found
        exact (missing value (by simp [same])).elim
    rw [absent dict.fields fun value member => present ⟨value, member⟩, absent]
    · rfl
    · intro value member
      have listed := (Json.sortNamed_perm _).mem_iff.mp member
      rw [Json.canonicalFields_eq_map] at listed
      obtain ⟨field, there, same⟩ := List.mem_map.mp listed
      obtain ⟨rfl, -⟩ := Prod.ext_iff.mp same
      exact present ⟨field.2, there⟩

theorem dumps_canonical (dict : Dict) : dict.json.canonical.dumps = dict.json.dumps :=
  Json.dumps_canonical dict.distinct

/-- Dictionaries of one text hold the same values. -/
theorem same_get {first second : Dict} (same : first.json.Same second.json) (name : String) :
    (first.get name).Same (second.get name) := by
  have fields : first.reload.fields = second.reload.fields := Json.object.inj same
  have shown (dict : Dict) : (dict.get name).canonical = Json.get dict.reload.fields name :=
    (dict.get_reload name).symm
  rw [Json.Same, shown, shown, fields]

@[simp] theorem json_reload (dict : Dict) : dict.reload.json = dict.json.canonical := rfl

end Dict

end MetaResearch

import MetaResearch.Model.Bundle.Protocol

/-! # What the validator of closed projections accepts

The validator adds nodes and bytes up as it visits. It accepts a projection exactly when every scalar
and tuple is within its own bound and the sums are within budget, so it accepts the parts of what it
accepts.
-/

namespace MetaResearch.Bundle

variable {budget : Budget}

theorem exceeds_mono {limit : Option ℕ} {small large : ℕ} (le : small ≤ large)
    (within : exceeds limit large = false) : exceeds limit small = false := by
  cases limit with
  | none => rfl
  | some most =>
    simp only [exceeds, Option.any_some, decide_eq_false_iff_not] at within ⊢
    omega

theorem exceeds_zero {limit : Option ℕ} : exceeds limit 0 = false := by
  cases limit <;> simp [exceeds]

namespace Projection

mutual

/-- The number of nodes of a projection. -/
def nodes : Projection → ℕ
  | record fields => 1 + nodesOfFields fields
  | tuple items => 1 + nodesOfItems items
  | _ => 1
  termination_by structural value => value

def nodesOfItems : List Projection → ℕ
  | [] => 0
  | item :: rest => nodes item + nodesOfItems rest
  termination_by structural items => items

def nodesOfFields : List (String × Projection) → ℕ
  | [] => 0
  | (_, value) :: rest => nodes value + nodesOfFields rest
  termination_by structural fields => fields

end

mutual

/-- The bytes of the scalars of a projection. -/
def bytes : Projection → ℕ
  | record fields => bytesOfFields fields
  | tuple items => bytesOfItems items
  | text value => (Text.quote value).utf8ByteSize
  | planText value => (Text.quote value).utf8ByteSize
  | integer value => (toString value).length
  | bool value => if value then 4 else 5
  termination_by structural value => value

def bytesOfItems : List Projection → ℕ
  | [] => 0
  | item :: rest => bytes item + bytesOfItems rest
  termination_by structural items => items

def bytesOfFields : List (String × Projection) → ℕ
  | [] => 0
  | (_, value) :: rest => bytes value + bytesOfFields rest
  termination_by structural fields => fields

end

mutual

/-- Every scalar and every tuple is within its own bound. -/
def fits (budget : Budget) : Projection → Bool
  | record fields => fieldsFit budget fields
  | tuple items => !exceeds budget.tupleItems items.length && itemsFit budget items
  | text value => !exceeds budget.textBytes value.utf8ByteSize
  | planText value => value.length ≤ planTextMaxChars
  | integer value => value.natAbs ≤ canonicalIntegerMaxAbs
  | bool _ => true
  termination_by structural value => value

def itemsFit (budget : Budget) : List Projection → Bool
  | [] => true
  | item :: rest => fits budget item && itemsFit budget rest
  termination_by structural items => items

def fieldsFit (budget : Budget) : List (String × Projection) → Bool
  | [] => true
  | (_, value) :: rest => fits budget value && fieldsFit budget rest
  termination_by structural fields => fields

end

/-- The counters are within budget. -/
def Usage.Within (budget : Budget) (usage : Usage) : Prop :=
  exceeds budget.nodes usage.nodes = false ∧ exceeds budget.rootBytes usage.scalarBytes = false

/-- The counters after so many more nodes and bytes. -/
def Usage.add (usage : Usage) (nodes bytes : ℕ) : Usage :=
  ⟨usage.nodes + nodes, usage.scalarBytes + bytes⟩

theorem Usage.Within.of_add {usage : Usage} {nodes bytes : ℕ}
    (within : (usage.add nodes bytes).Within budget) : usage.Within budget :=
  ⟨exceeds_mono (Nat.le_add_right _ _) within.1, exceeds_mono (Nat.le_add_right _ _) within.2⟩

theorem Usage.add_add {usage : Usage} {nodes bytes moreNodes moreBytes : ℕ} :
    (usage.add nodes bytes).add moreNodes moreBytes =
      usage.add (nodes + moreNodes) (bytes + moreBytes) := by
  simp [Usage.add, Nat.add_assoc]

private theorem addNode_eq_ok_iff {name : String} {usage after : Usage} (within : usage.Within budget) :
    addNode budget name usage = .ok after ↔
      (usage.add 1 0).Within budget ∧ after = usage.add 1 0 := by
  simp only [addNode, check_then_eq_ok_iff, require_eq_ok_iff, Bool.not_eq_true', pure, Except.pure,
    Except.ok.injEq]
  constructor
  · rintro ⟨checked, rfl⟩
    exact ⟨⟨checked, within.2⟩, rfl⟩
  · rintro ⟨checked, rfl⟩
    exact ⟨checked.1, rfl⟩

private theorem addScalarBytes_eq_ok_iff {name : String} {size : ℕ} {usage after : Usage}
    (within : usage.Within budget) :
    addScalarBytes budget name size usage = .ok after ↔
      (usage.add 0 size).Within budget ∧ after = usage.add 0 size := by
  simp only [addScalarBytes, check_then_eq_ok_iff, require_eq_ok_iff, Bool.not_eq_true', pure,
    Except.pure, Except.ok.injEq]
  constructor
  · rintro ⟨checked, rfl⟩
    exact ⟨⟨within.1, checked⟩, rfl⟩
  · rintro ⟨checked, rfl⟩
    exact ⟨checked.2, rfl⟩

/-- A node followed by its own bound and the bytes of the scalar. -/
private theorem scalar_eq_ok_iff {name error : String} {bound : Bool} {size : ℕ} {usage after : Usage}
    (within : usage.Within budget) :
    (addNode budget name usage >>= fun usage =>
      require bound error >>= fun _ => addScalarBytes budget name size usage) = .ok after ↔
      bound = true ∧ (usage.add 1 size).Within budget ∧ after = usage.add 1 size := by
  simp only [bind_eq_ok_iff (α := Usage), check_then_eq_ok_iff, require_eq_ok_iff,
    addNode_eq_ok_iff within]
  constructor
  · rintro ⟨_, ⟨node, rfl⟩, bounded, scalar⟩
    rw [addScalarBytes_eq_ok_iff node, Usage.add_add] at scalar
    exact ⟨bounded, by simpa using scalar⟩
  · rintro ⟨bounded, all, rfl⟩
    have node : (usage.add 1 0).Within budget := by
      have : usage.add 1 size = (usage.add 1 0).add 0 size := by simp [Usage.add_add]
      exact (this ▸ all).of_add
    refine ⟨_, ⟨node, rfl⟩, bounded, (addScalarBytes_eq_ok_iff node).mpr ?_⟩
    rw [Usage.add_add]
    exact ⟨by simpa using all, by simp⟩

mutual

/-- The visit accepts what fits, if the counters stay within budget. -/
theorem visit_eq_ok_iff {name : String} : ∀ (value : Projection) (usage after : Usage),
    usage.Within budget → (value.visit budget name usage = .ok after ↔
      value.fits budget = true ∧ (usage.add value.nodes value.bytes).Within budget ∧
        after = usage.add value.nodes value.bytes)
  | record fields, usage, after, within => by
    simp only [visit, fits, nodes, bytes, bind_eq_ok_iff (α := Usage), addNode_eq_ok_iff within]
    constructor
    · rintro ⟨_, ⟨node, rfl⟩, visited⟩
      rw [visitFields_eq_ok_iff fields _ _ node, Usage.add_add, Nat.zero_add] at visited
      exact visited
    · rintro ⟨fit, all, rfl⟩
      have split : usage.add (1 + nodesOfFields fields) (bytesOfFields fields) =
          (usage.add 1 0).add (nodesOfFields fields) (bytesOfFields fields) := by
        rw [Usage.add_add, Nat.zero_add]
      rw [split] at all ⊢
      exact ⟨_, ⟨all.of_add, rfl⟩, (visitFields_eq_ok_iff fields _ _ all.of_add).mpr ⟨fit, all, rfl⟩⟩
  | tuple items, usage, after, within => by
    simp only [visit, fits, nodes, bytes, bind_eq_ok_iff (α := Usage), addNode_eq_ok_iff within,
      check_then_eq_ok_iff, require_eq_ok_iff, Bool.and_eq_true]
    constructor
    · rintro ⟨_, ⟨node, rfl⟩, short, visited⟩
      rw [visitItems_eq_ok_iff items _ _ node, Usage.add_add, Nat.zero_add] at visited
      exact ⟨⟨short, visited.1⟩, visited.2⟩
    · rintro ⟨⟨short, fit⟩, all, rfl⟩
      have split : usage.add (1 + nodesOfItems items) (bytesOfItems items) =
          (usage.add 1 0).add (nodesOfItems items) (bytesOfItems items) := by
        rw [Usage.add_add, Nat.zero_add]
      rw [split] at all ⊢
      exact ⟨_, ⟨all.of_add, rfl⟩, short, (visitItems_eq_ok_iff items _ _ all.of_add).mpr ⟨fit, all, rfl⟩⟩
  | text _, _, _, within => scalar_eq_ok_iff within
  | planText _, _, _, within => scalar_eq_ok_iff within
  | integer _, _, _, within => scalar_eq_ok_iff within
  | bool _, usage, after, within => @scalar_eq_ok_iff budget name "" true _ usage after within
  termination_by structural value => value

theorem visitItems_eq_ok_iff {name : String} : ∀ (items : List Projection) (usage after : Usage),
    usage.Within budget → (visitItems budget name items usage = .ok after ↔
      itemsFit budget items = true ∧ (usage.add (nodesOfItems items) (bytesOfItems items)).Within budget ∧
        after = usage.add (nodesOfItems items) (bytesOfItems items))
  | [], usage, after, within => by
    constructor
    · intro visited
      exact ⟨rfl, within, (Except.ok.inj visited).symm⟩
    · rintro ⟨_, _, rfl⟩
      rfl
  | item :: rest, usage, after, within => by
    simp only [visitItems, itemsFit, nodesOfItems, bytesOfItems, bind_eq_ok_iff (α := Usage),
      Bool.and_eq_true, visit_eq_ok_iff item usage _ within]
    constructor
    · rintro ⟨_, ⟨fit, first, rfl⟩, visited⟩
      rw [visitItems_eq_ok_iff rest _ _ first, Usage.add_add] at visited
      exact ⟨⟨fit, visited.1⟩, visited.2⟩
    · rintro ⟨⟨fit, fits⟩, all, rfl⟩
      rw [← Usage.add_add] at all ⊢
      exact ⟨_, ⟨fit, all.of_add, rfl⟩, (visitItems_eq_ok_iff rest _ _ all.of_add).mpr ⟨fits, all, rfl⟩⟩
  termination_by structural items => items

theorem visitFields_eq_ok_iff {name : String} :
    ∀ (fields : List (String × Projection)) (usage after : Usage), usage.Within budget →
      (visitFields budget name fields usage = .ok after ↔ fieldsFit budget fields = true ∧
        (usage.add (nodesOfFields fields) (bytesOfFields fields)).Within budget ∧
          after = usage.add (nodesOfFields fields) (bytesOfFields fields))
  | [], usage, after, within => by
    constructor
    · intro visited
      exact ⟨rfl, within, (Except.ok.inj visited).symm⟩
    · rintro ⟨_, _, rfl⟩
      rfl
  | (_, value) :: rest, usage, after, within => by
    simp only [visitFields, fieldsFit, nodesOfFields, bytesOfFields, bind_eq_ok_iff (α := Usage),
      Bool.and_eq_true, visit_eq_ok_iff value usage _ within]
    constructor
    · rintro ⟨_, ⟨fit, first, rfl⟩, visited⟩
      rw [visitFields_eq_ok_iff rest _ _ first, Usage.add_add] at visited
      exact ⟨⟨fit, visited.1⟩, visited.2⟩
    · rintro ⟨⟨fit, fits⟩, all, rfl⟩
      rw [← Usage.add_add] at all ⊢
      exact ⟨_, ⟨fit, all.of_add, rfl⟩, (visitFields_eq_ok_iff rest _ _ all.of_add).mpr ⟨fits, all, rfl⟩⟩
  termination_by structural fields => fields

end

variable (budget) in
private theorem size_items_le (item : Projection) {items : List Projection} (member : item ∈ items) :
    item.nodes ≤ nodesOfItems items ∧ item.bytes ≤ bytesOfItems items ∧
      (itemsFit budget items = true → item.fits budget = true) := by
  induction items with
  | nil => cases member
  | cons first rest ih =>
    simp only [nodesOfItems, bytesOfItems, itemsFit, Bool.and_eq_true]
    rcases List.mem_cons.mp member with rfl | later
    · exact ⟨Nat.le_add_right _ _, Nat.le_add_right _ _, And.left⟩
    · obtain ⟨nodes, bytes, fit⟩ := ih later
      exact ⟨by omega, by omega, fun fits => fit fits.2⟩

variable (budget) in
private theorem size_fields_le {name : String} (value : Projection) {fields : List (String × Projection)}
    (member : (name, value) ∈ fields) :
    value.nodes ≤ nodesOfFields fields ∧ value.bytes ≤ bytesOfFields fields ∧
      (fieldsFit budget fields = true → value.fits budget = true) := by
  induction fields with
  | nil => cases member
  | cons first rest ih =>
    obtain ⟨firstName, firstValue⟩ := first
    simp only [nodesOfFields, bytesOfFields, fieldsFit, Bool.and_eq_true]
    rcases List.mem_cons.mp member with same | later
    · obtain ⟨rfl, rfl⟩ := Prod.mk.inj same
      exact ⟨Nat.le_add_right _ _, Nat.le_add_right _ _, And.left⟩
    · obtain ⟨nodes, bytes, fit⟩ := ih later
      exact ⟨by omega, by omega, fun fits => fit fits.2⟩

/-- A projection occurs inside another one. -/
inductive Part (part : Projection) : Projection → Prop
  | itself : Part part part
  | field {name : String} {value : Projection} {fields : List (String × Projection)}
      (member : (name, value) ∈ fields) (inside : Part part value) : Part part (record fields)
  | item {value : Projection} {items : List Projection} (member : value ∈ items)
      (inside : Part part value) : Part part (tuple items)

private theorem plainItems_eq_map (items : List Projection) : plainItems items = items.map plainValue := by
  induction items with
  | nil => rfl
  | cons item rest ih => rw [plainItems, ih, List.map_cons]

private theorem plainFields_eq_map (fields : List (String × Projection)) :
    plainFields fields = fields.map fun field => (field.1, field.2.plainValue) := by
  induction fields with
  | nil => rfl
  | cons field rest ih => rw [plainFields, ih, List.map_cons]

variable (budget) in
/-- A part is not larger than the whole. -/
theorem Part.smaller {part whole : Projection} (inside : Part part whole) :
    part.nodes ≤ whole.nodes ∧ part.bytes ≤ whole.bytes ∧
      part.plainValue.dumps.utf8ByteSize ≤ whole.plainValue.dumps.utf8ByteSize ∧
        (whole.fits budget = true → part.fits budget = true) := by
  induction inside with
  | itself => exact ⟨Nat.le_refl _, Nat.le_refl _, Nat.le_refl _, id⟩
  | field member _ ih =>
    obtain ⟨nodes, bytes, dumps, fit⟩ := ih
    obtain ⟨fieldNodes, fieldBytes, fieldFit⟩ := size_fields_le budget _ member
    have text := Json.size_dumps_field_le (List.mem_map_of_mem
      (f := fun field : String × Projection => (field.1, field.2.plainValue)) member)
    rw [← plainFields_eq_map] at text
    simp only [Projection.nodes, Projection.bytes, plainValue, fits]
    exact ⟨by omega, by omega, Nat.le_trans dumps text, fun all => fit (fieldFit all)⟩
  | item member _ ih =>
    obtain ⟨nodes, bytes, dumps, fit⟩ := ih
    obtain ⟨itemNodes, itemBytes, itemFit⟩ := size_items_le budget _ member
    have text := Json.size_dumps_item_le (List.mem_map_of_mem (f := plainValue) member)
    rw [← plainItems_eq_map] at text
    simp only [Projection.nodes, Projection.bytes, plainValue, fits, Bool.and_eq_true]
    exact ⟨by omega, by omega, Nat.le_trans dumps text, fun all => fit (itemFit all.2)⟩

end Projection

/-- The sums that the validator compares with the budgets. -/
theorem validateClosedBundleProjection_eq_ok_iff {name : String} {value : Projection} {done : Unit} :
    validateClosedBundleProjection budget name value = .ok done ↔
      value.fits budget = true ∧ exceeds budget.nodes value.nodes = false ∧
        exceeds budget.rootBytes value.bytes = false ∧
          exceeds budget.rootBytes value.plainValue.dumps.utf8ByteSize = false := by
  have start : Projection.Usage.Within budget ⟨0, 0⟩ := ⟨exceeds_zero, exceeds_zero⟩
  simp only [validateClosedBundleProjection, bind_eq_ok_iff, Projection.visit_eq_ok_iff value _ _ start,
    require_eq_ok_iff, Bool.not_eq_true', Projection.Usage.Within, Projection.Usage.add, Nat.zero_add]
  constructor
  · rintro ⟨_, ⟨fit, ⟨nodes, bytes⟩, _⟩, short⟩
    exact ⟨fit, nodes, bytes, short⟩
  · rintro ⟨fit, nodes, bytes, short⟩
    exact ⟨_, ⟨fit, ⟨nodes, bytes⟩, rfl⟩, short⟩

/-- The parts of an accepted projection are accepted, under any name. -/
theorem validateClosedBundleProjection_part {name partName : String} {part whole : Projection}
    (inside : Projection.Part part whole)
    (accepted : validateClosedBundleProjection budget name whole = .ok ()) :
    validateClosedBundleProjection budget partName part = .ok () := by
  obtain ⟨fit, nodes, bytes, short⟩ := validateClosedBundleProjection_eq_ok_iff.mp accepted
  obtain ⟨fewer, less, shorter, fits⟩ := inside.smaller budget
  exact validateClosedBundleProjection_eq_ok_iff.mpr
    ⟨fits fit, exceeds_mono fewer nodes, exceeds_mono less bytes, exceeds_mono shorter short⟩

end MetaResearch.Bundle

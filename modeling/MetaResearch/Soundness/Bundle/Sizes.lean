import MetaResearch.Model.Bundle.Handoff
import MetaResearch.Soundness.Bundle.Projections
import MetaResearch.ToMathlib.JsonSize

/-! # Values within the root budget

The root budget counts the bytes of the canonical text. The visit counts the bytes of the scalars on its
way, which are never more. So a value that passes every other check is accepted just if its text is
within the root budget, and it is if its weight is.
-/

namespace MetaResearch.Bundle

open Projection (Usage addNode addScalarBytes)

/-- The budget without its root bytes. -/
def Budget.unrooted (budget : Budget) : Budget := { budget with rootBytes := none }

/-- The budget with these root bytes. -/
def Budget.rooted (budget : Budget) (root : ℕ) : Budget := { budget with rootBytes := some root }

/-! ### Runs of the visitor -/

def rootExceeded (name : String) : String := name ++ " exceeds the root projection byte budget"

/-- The run counts exactly so many scalar bytes, and the root budget stops it just if they are more. -/
def Counts (budget : Budget) (name : String) (size : ℕ) (run : Budget → Usage → Except String Usage) :
    Prop :=
  ∀ usage after, run budget.unrooted usage = .ok after →
    after.scalarBytes = usage.scalarBytes + size ∧
      ∀ root, usage.scalarBytes ≤ root → run (budget.rooted root) usage =
        if after.scalarBytes ≤ root then .ok after else .error (rootExceeded name)

namespace Counts

variable {budget : Budget} {name : String} {size other : ℕ} {run next : Budget → Usage → Except String Usage}

theorem of_eq (counts : Counts budget name size run) (same : size = other) :
    Counts budget name other run := same ▸ counts

theorem nothing : Counts budget name 0 fun _ usage => .ok usage := by
  intro usage after success
  obtain rfl := Except.ok.inj success
  exact ⟨rfl, fun root within => (if_pos within).symm⟩

theorem refused {error : String} : Counts budget name size fun _ _ => .error error := by
  intro usage after success
  cases success

theorem bind (first : Counts budget name size run) (second : Counts budget name other next) :
    Counts budget name (size + other) fun budget usage => run budget usage >>= next budget := by
  intro usage after success
  obtain ⟨middle, here, there⟩ := bind_eq_ok_iff.mp success
  obtain ⟨firstCount, firstRooted⟩ := first usage middle here
  obtain ⟨secondCount, secondRooted⟩ := second middle after there
  refine ⟨by omega, fun root within => ?_⟩
  show (run (budget.rooted root) usage >>= next (budget.rooted root)) = _
  rw [firstRooted root within]
  by_cases reached : middle.scalarBytes ≤ root
  · rw [if_pos reached]
    exact secondRooted root reached
  · rw [if_neg reached, if_neg (by omega)]
    rfl

/-- A check that does not read the root budget. -/
theorem check {test : Budget → Except String Unit}
    (same : ∀ root, test (budget.rooted root) = test budget.unrooted)
    (counts : Counts budget name size run) :
    Counts budget name size fun budget usage => test budget >>= fun _ => run budget usage := by
  intro usage after success
  obtain ⟨passed, here⟩ := check_then_eq_ok_iff.mp success
  obtain ⟨count, rooted⟩ := counts usage after here
  refine ⟨count, fun root within => ?_⟩
  show (test (budget.rooted root) >>= fun _ => run (budget.rooted root) usage) = _
  rw [same root, passed, ← rooted root within]
  rfl

theorem node : Counts budget name 0 fun budget usage => addNode budget name usage := by
  intro usage after success
  have counted := success
  simp only [addNode, check_then_eq_ok_iff, pure, Except.pure, Except.ok.injEq] at counted
  obtain ⟨_, rfl⟩ := counted
  exact ⟨rfl, fun root within => by rw [if_pos within, ← success]; rfl⟩

theorem scalarBytes : Counts budget name size fun budget usage => addScalarBytes budget name size usage := by
  intro usage after success
  simp only [addScalarBytes, check_then_eq_ok_iff, pure, Except.pure, Except.ok.injEq] at success
  obtain ⟨_, rfl⟩ := success
  refine ⟨rfl, fun root _ => ?_⟩
  have test : exceeds (budget.rooted root).rootBytes (usage.scalarBytes + size) =
      decide (root < usage.scalarBytes + size) := rfl
  simp only [addScalarBytes, test, rootExceeded, require]
  split_ifs with beyond fits
  · rfl
  · simp only [Bool.not_eq_true', decide_eq_false_iff_not] at beyond
    omega
  · simp only [Bool.not_eq_true', decide_eq_false_iff_not] at beyond
    omega
  · rfl

theorem scalar {error : String} (bounded : Budget → Bool)
    (same : ∀ root, bounded (budget.rooted root) = bounded budget.unrooted) :
    Counts budget name size fun budget usage =>
      Value.visitScalar budget name (bounded budget) error size usage := by
  have inner : Counts budget name size fun budget usage =>
      require (bounded budget) (name ++ error) >>= fun _ => addScalarBytes budget name size usage :=
    scalarBytes.check fun root => by rw [same root]
  exact (node.bind inner).of_eq (Nat.zero_add size)

end Counts

/-! ### Weights -/

/-- A bound for the name of a field in JSON, with its marks. -/
def fieldWeight : ℕ := 250

namespace Value

mutual

/-- A bound on the size of the canonical text, and on the scalar bytes of a visit. -/
def weight : Value → ℕ
  | null => 4
  | bool _ => 5
  | integer value => (toString value).utf8ByteSize + (toString value).length
  | float value => value.literal.utf8ByteSize + value.literal.length
  | nonFinite => 0
  | text value => 6 * value.utf8ByteSize + 2
  | tuple items => itemsWeight items + 2
  | list items => itemsWeight items + 2
  | dict entries => entriesWeight entries + 2
  | record _ fields => itemsWeight fields + fieldWeight * fields.length + 2
  | other => 0
  termination_by structural value => value

def itemsWeight : List Value → ℕ
  | [] => 0
  | item :: rest => weight item + 1 + itemsWeight rest
  termination_by structural items => items

def entriesWeight : List (String × Value) → ℕ
  | [] => 0
  | (name, value) :: rest => (6 * name.utf8ByteSize + 2) + weight value + 2 + entriesWeight rest
  termination_by structural entries => entries

end

/-! ### The canonical text -/

mutual

theorem weight_of_json : ∀ (value : Value) {json : Json}, value.json? = some json →
    json.weight ≤ value.weight
  | null, json, written => by
    obtain rfl := Option.some.inj written
    exact Nat.le_refl _
  | bool _, json, written => by
    obtain rfl := Option.some.inj written
    exact Nat.le_refl _
  | integer _, json, written => by
    obtain rfl := Option.some.inj written
    exact Nat.le_add_right _ _
  | float _, json, written => by
    obtain rfl := Option.some.inj written
    exact Nat.le_add_right _ _
  | nonFinite, json, written => by simp [json?] at written
  | text _, json, written => by
    obtain rfl := Option.some.inj written
    exact Nat.le_refl _
  | tuple items, json, written => by
    obtain ⟨parts, inner, rfl⟩ := Option.map_eq_some_iff.mp written
    exact Nat.add_le_add_right (weight_of_jsonItems items inner) 2
  | list items, json, written => by
    obtain ⟨parts, inner, rfl⟩ := Option.map_eq_some_iff.mp written
    exact Nat.add_le_add_right (weight_of_jsonItems items inner) 2
  | dict entries, json, written => by
    obtain ⟨parts, inner, rfl⟩ := Option.map_eq_some_iff.mp written
    exact Nat.add_le_add_right (weight_of_jsonEntries entries inner) 2
  | record _ _, json, written => by simp [json?] at written
  | other, json, written => by simp [json?] at written
  termination_by structural value => value

theorem weight_of_jsonItems : ∀ (items : List Value) {parts : List Json},
    jsonItems? items = some parts → Json.itemsWeight parts ≤ itemsWeight items
  | [], parts, written => by
    obtain rfl := Option.some.inj written
    exact Nat.le_refl _
  | item :: rest, parts, written => by
    obtain ⟨first, here, remaining⟩ := Option.bind_eq_some_iff.mp written
    obtain ⟨others, there, same⟩ := Option.bind_eq_some_iff.mp remaining
    obtain rfl := Option.some.inj same
    have firstWeight := weight_of_json item here
    have othersWeight := weight_of_jsonItems rest there
    rw [Json.itemsWeight, itemsWeight]
    omega
  termination_by structural items => items

theorem weight_of_jsonEntries : ∀ (entries : List (String × Value)) {parts : List (String × Json)},
    jsonEntries? entries = some parts → Json.fieldsWeight parts ≤ entriesWeight entries
  | [], parts, written => by
    obtain rfl := Option.some.inj written
    exact Nat.le_refl _
  | (name, value) :: rest, parts, written => by
    obtain ⟨first, here, remaining⟩ := Option.bind_eq_some_iff.mp written
    obtain ⟨others, there, same⟩ := Option.bind_eq_some_iff.mp remaining
    obtain rfl := Option.some.inj same
    have firstWeight := weight_of_json value here
    have othersWeight := weight_of_jsonEntries rest there
    rw [Json.fieldsWeight, entriesWeight]
    omega
  termination_by structural entries => entries

end

/-- The names of all fields are short. -/
private theorem name_size_le (type : RecordType) :
    ∀ name ∈ type.fields.map Prod.fst, name.utf8ByteSize ≤ 41 := by
  cases type <;> decide +kernel

mutual

theorem weight_of_plainValue : ∀ (value : Value) {json : Json}, value.plainValue? = some json →
    json.weight ≤ value.weight
  | null, json, written => by
    obtain rfl := Option.some.inj written
    exact Nat.le_refl _
  | bool _, json, written => by
    obtain rfl := Option.some.inj written
    exact Nat.le_refl _
  | integer _, json, written => by
    obtain rfl := Option.some.inj written
    exact Nat.le_add_right _ _
  | float _, json, written => by
    obtain rfl := Option.some.inj written
    exact Nat.le_add_right _ _
  | nonFinite, json, written => by simp [plainValue?] at written
  | text _, json, written => by
    obtain rfl := Option.some.inj written
    exact Nat.le_refl _
  | tuple items, json, written => by
    obtain ⟨parts, inner, rfl⟩ := Option.map_eq_some_iff.mp written
    exact Nat.add_le_add_right (weight_of_plainItems items inner) 2
  | list items, json, written => by
    obtain ⟨parts, inner, rfl⟩ := Option.map_eq_some_iff.mp written
    exact Nat.add_le_add_right (weight_of_jsonItems items inner) 2
  | dict entries, json, written => by
    obtain ⟨parts, inner, rfl⟩ := Option.map_eq_some_iff.mp written
    exact Nat.add_le_add_right (weight_of_jsonEntries entries inner) 2
  | record type fields, json, written => by
    obtain ⟨parts, inner, rfl⟩ := Option.map_eq_some_iff.mp written
    exact Nat.add_le_add_right (weight_of_plainFields type _ fields (name_size_le type) inner) 2
  | other, json, written => by simp [plainValue?] at written
  termination_by structural value => value

theorem weight_of_plainItems : ∀ (items : List Value) {parts : List Json},
    plainItems? items = some parts → Json.itemsWeight parts ≤ itemsWeight items
  | [], parts, written => by
    obtain rfl := Option.some.inj written
    exact Nat.le_refl _
  | item :: rest, parts, written => by
    obtain ⟨first, here, remaining⟩ := Option.bind_eq_some_iff.mp written
    obtain ⟨others, there, same⟩ := Option.bind_eq_some_iff.mp remaining
    obtain rfl := Option.some.inj same
    have firstWeight := weight_of_plainValue item here
    have othersWeight := weight_of_plainItems rest there
    rw [Json.itemsWeight, itemsWeight]
    omega
  termination_by structural items => items

theorem weight_of_plainFields (type : RecordType) : ∀ (names : List String) (fields : List Value)
    {parts : List (String × Json)}, (∀ name ∈ names, name.utf8ByteSize ≤ 41) →
    plainFields? type names fields = some parts →
      Json.fieldsWeight parts ≤ itemsWeight fields + fieldWeight * fields.length
  | [], [], parts, _, written => by
    obtain rfl := Option.some.inj written
    exact Nat.zero_le _
  | name :: names, value :: rest, parts, short, written => by
    obtain ⟨shortName, shortRest⟩ := List.forall_mem_cons.mp short
    obtain ⟨first, here, remaining⟩ := Option.bind_eq_some_iff.mp written
    obtain ⟨others, there, rfl⟩ := Option.map_eq_some_iff.mp remaining
    have othersWeight := weight_of_plainFields type names rest shortRest there
    have firstWeight : first.weight ≤ value.weight := by
      split_ifs at here
      · exact weight_of_json value here
      · exact weight_of_plainValue value here
    rw [itemsWeight, List.length_cons, fieldWeight] at *
    split_ifs
    · omega
    · rw [Json.fieldsWeight]
      omega
  | [], _ :: _, parts, _, written => by simp [plainFields?] at written
  | _ :: _, [], parts, _, written => by simp [plainFields?] at written
  termination_by structural _ fields => fields

end

/-! ### Scalar bytes -/

mutual

/-- The bytes of all scalars of a value, and of the keys of its dictionaries. -/
def scalarBytes : Value → ℕ
  | null => 4
  | bool value => if value then 4 else 5
  | integer value => (toString value).length
  | float value => value.literal.length
  | nonFinite => 0
  | text value => (Text.quote value).utf8ByteSize
  | tuple items => itemsBytes items
  | list items => itemsBytes items
  | dict entries => entriesBytes entries
  | record _ fields => itemsBytes fields
  | other => 0
  termination_by structural value => value

def itemsBytes : List Value → ℕ
  | [] => 0
  | item :: rest => scalarBytes item + itemsBytes rest
  termination_by structural items => items

def entriesBytes : List (String × Value) → ℕ
  | [] => 0
  | (name, value) :: rest => (Text.quote name).utf8ByteSize + scalarBytes value + entriesBytes rest
  termination_by structural entries => entries

end

mutual

theorem scalarBytes_le_json : ∀ (value : Value) {json : Json}, value.json? = some json →
    value.scalarBytes ≤ json.dumps.utf8ByteSize
  | null, json, written => by
    obtain rfl := Option.some.inj written
    decide
  | bool value, json, written => by
    obtain rfl := Option.some.inj written
    cases value <;> decide
  | integer _, json, written => by
    obtain rfl := Option.some.inj written
    exact Text.length_le_size _
  | float _, json, written => by
    obtain rfl := Option.some.inj written
    exact Text.length_le_size _
  | nonFinite, json, written => by simp [json?] at written
  | text _, json, written => by
    obtain rfl := Option.some.inj written
    exact Nat.le_refl _
  | tuple items, json, written => by
    obtain ⟨parts, inner, rfl⟩ := Option.map_eq_some_iff.mp written
    exact Nat.le_trans (itemsBytes_le_jsonItems items inner) (Json.itemsSize_le parts)
  | list items, json, written => by
    obtain ⟨parts, inner, rfl⟩ := Option.map_eq_some_iff.mp written
    exact Nat.le_trans (itemsBytes_le_jsonItems items inner) (Json.itemsSize_le parts)
  | dict entries, json, written => by
    obtain ⟨parts, inner, rfl⟩ := Option.map_eq_some_iff.mp written
    exact Nat.le_trans (entriesBytes_le_jsonEntries entries inner) (Json.fieldsSize_le parts)
  | record _ _, json, written => by simp [json?] at written
  | other, json, written => by simp [json?] at written
  termination_by structural value => value

theorem itemsBytes_le_jsonItems : ∀ (items : List Value) {parts : List Json},
    jsonItems? items = some parts → itemsBytes items ≤ Json.itemsSize parts
  | [], parts, written => Nat.zero_le _
  | item :: rest, parts, written => by
    obtain ⟨first, here, remaining⟩ := Option.bind_eq_some_iff.mp written
    obtain ⟨others, there, same⟩ := Option.bind_eq_some_iff.mp remaining
    obtain rfl := Option.some.inj same
    have firstBytes := scalarBytes_le_json item here
    have othersBytes := itemsBytes_le_jsonItems rest there
    rw [Json.itemsSize_cons, itemsBytes]
    exact Nat.add_le_add firstBytes othersBytes
  termination_by structural items => items

theorem entriesBytes_le_jsonEntries : ∀ (entries : List (String × Value)) {parts : List (String × Json)},
    jsonEntries? entries = some parts → entriesBytes entries ≤ Json.fieldsSize parts
  | [], parts, written => Nat.zero_le _
  | (name, value) :: rest, parts, written => by
    obtain ⟨first, here, remaining⟩ := Option.bind_eq_some_iff.mp written
    obtain ⟨others, there, same⟩ := Option.bind_eq_some_iff.mp remaining
    obtain rfl := Option.some.inj same
    have firstBytes := scalarBytes_le_json value here
    have othersBytes := entriesBytes_le_jsonEntries rest there
    rw [Json.fieldsSize_cons, entriesBytes]
    omega
  termination_by structural entries => entries

end

/-- The names of the field that a record may leave out. -/
def optionalNames (type : RecordType) (names : List String) : ℕ :=
  if type = .acceptedMeasurementClosure then names.count "root_completion_receipt" else 0

/-- The marks of the written fields outweigh a field that is left out. -/
private theorem optionalNames_le (type : RecordType) :
    7 * optionalNames type (type.fields.map Prod.fst) ≤ 3 * (type.fields.map Prod.fst).length := by
  by_cases same : type = .acceptedMeasurementClosure
  · subst same
    decide +kernel
  · rw [optionalNames, if_neg same]
    exact Nat.zero_le _

mutual

/-- What a visit counts is never more than the canonical text. -/
theorem scalarBytes_le_plainValue : ∀ (value : Value) {json : Json}, value.plainValue? = some json →
    value.scalarBytes ≤ json.dumps.utf8ByteSize
  | null, json, written => scalarBytes_le_json null written
  | bool value, json, written => scalarBytes_le_json (bool value) written
  | integer value, json, written => scalarBytes_le_json (integer value) written
  | float value, json, written => scalarBytes_le_json (float value) written
  | nonFinite, json, written => by simp [plainValue?] at written
  | text value, json, written => scalarBytes_le_json (text value) written
  | tuple items, json, written => by
    obtain ⟨parts, inner, rfl⟩ := Option.map_eq_some_iff.mp written
    exact Nat.le_trans (itemsBytes_le_plainItems items inner) (Json.itemsSize_le parts)
  | list items, json, written => scalarBytes_le_json (list items) written
  | dict entries, json, written => scalarBytes_le_json (dict entries) written
  | record type fields, json, written => by
    obtain ⟨parts, inner, rfl⟩ := Option.map_eq_some_iff.mp written
    have whole := itemsBytes_le_plainFields type _ fields inner
    have marks := optionalNames_le type
    refine Nat.le_trans ?_ (Json.fieldsSize_le parts)
    rw [scalarBytes]
    omega
  | other, json, written => by simp [plainValue?] at written
  termination_by structural value => value

theorem itemsBytes_le_plainItems : ∀ (items : List Value) {parts : List Json},
    plainItems? items = some parts → itemsBytes items ≤ Json.itemsSize parts
  | [], parts, written => Nat.zero_le _
  | item :: rest, parts, written => by
    obtain ⟨first, here, remaining⟩ := Option.bind_eq_some_iff.mp written
    obtain ⟨others, there, same⟩ := Option.bind_eq_some_iff.mp remaining
    obtain rfl := Option.some.inj same
    have firstBytes := scalarBytes_le_plainValue item here
    have othersBytes := itemsBytes_le_plainItems rest there
    rw [Json.itemsSize_cons, itemsBytes]
    exact Nat.add_le_add firstBytes othersBytes
  termination_by structural items => items

/-- A written field has three bytes of marks at least; one that is left out is a null. -/
theorem itemsBytes_le_plainFields (type : RecordType) : ∀ (names : List String) (fields : List Value)
    {parts : List (String × Json)}, plainFields? type names fields = some parts →
      itemsBytes fields + 3 * names.length ≤ Json.fieldsSize parts + 7 * optionalNames type names
  | [], [], parts, written => Nat.zero_le _
  | name :: names, value :: rest, parts, written => by
    obtain ⟨first, here, remaining⟩ := Option.bind_eq_some_iff.mp written
    obtain ⟨others, there, rfl⟩ := Option.map_eq_some_iff.mp remaining
    have othersBytes := itemsBytes_le_plainFields type names rest there
    have firstBytes : value.scalarBytes ≤ first.dumps.utf8ByteSize := by
      split_ifs at here
      · exact scalarBytes_le_json value here
      · exact scalarBytes_le_plainValue value here
    rw [itemsBytes, List.length_cons]
    split_ifs with left
    · cases value with
      | null =>
        simp only [omitted, Bool.and_eq_true, decide_eq_true_eq] at left
        obtain ⟨rfl, rfl⟩ := left
        simp only [optionalNames, if_true, List.count_cons_self, scalarBytes] at othersBytes ⊢
        omega
      | _ => simp [omitted] at left
    · have marks := Json.two_le_size_quote name
      have more : optionalNames type names ≤ optionalNames type (name :: names) := by
        unfold optionalNames
        split_ifs
        · exact List.count_le_count_cons
        · exact Nat.le_refl _
      rw [Json.fieldsSize_cons]
      omega
  | [], _ :: _, parts, written => by simp [plainFields?] at written
  | _ :: _, [], parts, written => by simp [plainFields?] at written
  termination_by structural _ fields => fields

end

/-! ### The visit -/

mutual

private theorem metricNodes_rooted (budget : Budget) (root : ℕ) : ∀ (value : Value) (depth nodes : ℕ),
    metricNodes (budget.rooted root) value depth nodes = metricNodes budget.unrooted value depth nodes
  | null, _, _ | bool _, _, _ | integer _, _, _ | float _, _, _ | text _, _, _ | nonFinite, _, _
  | tuple _, _, _ | record _ _, _, _ | other, _, _ => rfl
  | list items, depth, nodes => by
    rw [metricNodes, metricNodes]
    exact congrArg _ (funext fun nodes => metricItems_rooted budget root items (depth + 1) nodes)
  | dict entries, depth, nodes => by
    rw [metricNodes, metricNodes]
    exact congrArg _ (funext fun nodes => metricEntries_rooted budget root entries (depth + 1) nodes)
  termination_by structural value => value

private theorem metricItems_rooted (budget : Budget) (root : ℕ) :
    ∀ (items : List Value) (depth nodes : ℕ),
      metricItems (budget.rooted root) items depth nodes = metricItems budget.unrooted items depth nodes
  | [], _, _ => rfl
  | item :: rest, depth, nodes => by
    rw [metricItems, metricItems, metricNodes_rooted budget root item]
    exact congrArg _ (funext fun nodes => metricItems_rooted budget root rest depth nodes)
  termination_by structural items => items

private theorem metricEntries_rooted (budget : Budget) (root : ℕ) :
    ∀ (entries : List (String × Value)) (depth nodes : ℕ),
      metricEntries (budget.rooted root) entries depth nodes =
        metricEntries budget.unrooted entries depth nodes
  | [], _, _ => rfl
  | (name, value) :: rest, depth, nodes => by
    rw [metricEntries, metricEntries]
    refine congrArg _ (funext fun nodes => ?_)
    rw [metricNodes_rooted budget root value]
    exact congrArg _ (funext fun nodes => metricEntries_rooted budget root rest depth nodes)
  termination_by structural entries => entries

end

private theorem validMetricValues_rooted (budget : Budget) (root : ℕ) (value : Value) :
    validMetricValues (budget.rooted root) value = validMetricValues budget.unrooted value := by
  cases value with
  | tuple items =>
    rw [validMetricValues, validMetricValues]
    refine congrArg _ (funext fun item => ?_)
    rw [validTargetMetricValue, validTargetMetricValue, metricNodes_rooted]
  | _ => rfl

mutual

/-- A visit counts the scalar bytes of the value. -/
theorem counts_visit (budget : Budget) (name : String) : ∀ (value : Value) (mode : Mode),
    Counts budget name value.scalarBytes fun budget usage => visit budget name value mode usage
  | record type fields, mode => by
    simp only [visit]
    exact (Counts.node.bind (counts_visitFields budget name type type.fields fields)).of_eq (Nat.zero_add _)
  | tuple items, mode => by
    simp only [visit]
    exact (Counts.node.bind ((counts_visitItems budget name [] items mode).check fun _ => rfl)).of_eq (Nat.zero_add _)
  | list items, mode => by
    simp only [visit]
    exact (Counts.node.bind ((counts_visitMetricItems budget name items).check fun _ => rfl)).of_eq (Nat.zero_add _)
  | dict entries, mode => by
    simp only [visit]
    exact (Counts.node.bind ((counts_visitMetricEntries budget name entries).check fun _ => rfl)).of_eq (Nat.zero_add _)
  | text value, mode => by
    simp only [visit]
    exact Counts.scalar (fun budget => if mode.planText then value.length ≤ planTextMaxChars
      else !exceeds budget.textBytes value.utf8ByteSize) fun _ => rfl
  | integer value, mode => by
    simp only [visit]
    exact Counts.scalar (fun _ => value.natAbs ≤ canonicalIntegerMaxAbs) fun _ => rfl
  | float value, mode => by
    simp only [visit]
    exact Counts.scalar (fun _ => true) fun _ => rfl
  | nonFinite, mode => by
    simp only [visit]
    exact Counts.scalar (fun _ => false) fun _ => rfl
  | bool value, mode => by
    simp only [visit]
    exact Counts.scalar (fun _ => true) fun _ => rfl
  | null, mode => by
    simp only [visit]
    exact Counts.scalar (fun _ => true) fun _ => rfl
  | other, mode => by
    simp only [visit]
    exact Counts.scalar (fun _ => false) fun _ => rfl
  termination_by structural value => value

theorem counts_visitItems (budget : Budget) (name : String) (seen : List Value) :
    ∀ (items : List Value) (mode : Mode), Counts budget name (itemsBytes items)
      fun budget usage => visitItems budget name seen items mode usage
  | [], mode => Counts.nothing
  | item :: rest, mode => by
    simp only [visitItems]
    exact (counts_visit budget name item mode).bind
      ((counts_visitItems budget name _ rest mode).check fun _ => rfl)
  termination_by structural items => items

theorem counts_visitMetricItems (budget : Budget) (name : String) :
    ∀ items : List Value, Counts budget name (itemsBytes items)
      fun budget usage => visitMetricItems budget name items usage
  | [] => Counts.nothing
  | item :: rest => by
    simp only [visitMetricItems]
    exact (counts_visit budget name item { metric := true }).bind
      (counts_visitMetricItems budget name rest)
  termination_by structural items => items

theorem counts_visitMetricEntries (budget : Budget) (name : String) :
    ∀ entries : List (String × Value), Counts budget name (entriesBytes entries)
      fun budget usage => visitMetricEntries budget name entries usage
  | [] => Counts.nothing
  | (key, value) :: rest => by
    simp only [visitMetricEntries]
    have named : Counts budget name (Text.quote key).utf8ByteSize fun budget usage =>
        visitScalar budget name (!exceeds budget.textBytes key.utf8ByteSize) " contains oversized text"
          (Text.quote key).utf8ByteSize usage := Counts.scalar _ fun _ => rfl
    exact (named.bind ((counts_visit budget name value { metric := true }).bind
      (counts_visitMetricEntries budget name rest))).of_eq (Nat.add_assoc _ _ _).symm
  termination_by structural entries => entries

theorem counts_visitFields (budget : Budget) (name : String) (type : RecordType) :
    ∀ (declared : List (String × Annotation)) (fields : List Value),
      Counts budget name (itemsBytes fields)
        fun budget usage => visitFields budget name type declared fields usage
  | (fieldName, hint) :: declared, value :: rest => by
    simp only [visitFields]
    have parts := (counts_visit budget name value
      ⟨isMetricValues type fieldName, inheritsPlanText type fieldName⟩).bind
        (counts_visitFields budget name type declared rest)
    refine Counts.check (fun root => ?_) parts
    rw [validMetricValues_rooted]
  | [], [] => Counts.nothing
  | [], _ :: _ => Counts.refused
  | _ :: _, [] => Counts.refused
  termination_by structural _ fields => fields

end

/-- The verdict under a root budget on a value that passes every other check: the size decides. -/
theorem validateClosed_rooted {budget : Budget} {name : String} {value : Value} {after : Usage}
    {json : Json} (visited : value.visit budget.unrooted name {} ⟨0, 0⟩ = .ok after)
    (written : value.plainValue? = some json) (root : ℕ) :
    value.validateClosed (budget.rooted root) name =
      if json.dumps.utf8ByteSize ≤ root then .ok json.dumps else .error (rootExceeded name) := by
  obtain ⟨count, rooted⟩ := counts_visit budget name value {} ⟨0, 0⟩ after visited
  have counted : after.scalarBytes ≤ json.dumps.utf8ByteSize := by
    have start : after.scalarBytes = 0 + value.scalarBytes := count
    have least := scalarBytes_le_plainValue value written
    omega
  have test : exceeds (budget.rooted root).rootBytes json.dumps.utf8ByteSize =
      decide (root < json.dumps.utf8ByteSize) := rfl
  simp only [validateClosed, rooted root (Nat.zero_le _), canonicalProjection, written]
  split_ifs with early fits fits
  · have within : ¬ root < json.dumps.utf8ByteSize := by omega
    simp [bind, Except.bind, test, require, within, pure, Except.pure]
  · have beyond : root < json.dumps.utf8ByteSize := by omega
    simp [bind, Except.bind, test, require, beyond, rootExceeded]
  · omega
  · rfl

/-- A light value that passes without the root budget passes with it. -/
theorem validateClosed_of_light {budget : Budget} {root : ℕ} {name : String} {value : Value}
    (visited : (value.visit budget.unrooted name {} ⟨0, 0⟩).isOk = true)
    (plain : value.plainValue?.isSome = true) (light : value.weight ≤ root) :
    ∃ serialized, value.validateClosed (budget.rooted root) name = .ok serialized := by
  cases visit : value.visit budget.unrooted name {} ⟨0, 0⟩ with
  | error error => simp [visit, Except.isOk, Except.toBool] at visited
  | ok after =>
    obtain ⟨json, written⟩ := Option.isSome_iff_exists.mp plain
    have text : json.dumps.utf8ByteSize ≤ root :=
      Nat.le_trans (Json.size_dumps_le json) (Nat.le_trans (weight_of_plainValue value written) light)
    exact ⟨json.dumps, by rw [validateClosed_rooted visit written, if_pos text]⟩

end Value

/-! ### Records of short texts -/

theorem Value.weight_texts_le {values : List String} {size : ℕ}
    (short : ∀ value ∈ values, value.utf8ByteSize ≤ size) :
    (Value.texts values).weight ≤ values.length * (6 * size + 3) + 2 := by
  have items : Value.itemsWeight (values.map .text) ≤ values.length * (6 * size + 3) := by
    induction values with
    | nil => exact Nat.le_of_eq (Nat.zero_mul _).symm
    | cons value rest ih =>
      obtain ⟨here, later⟩ := List.forall_mem_cons.mp short
      have others := ih later
      rw [List.map_cons, List.length_cons, Nat.succ_mul, Value.itemsWeight, Value.weight]
      omega
  rw [Value.texts, Value.weight]
  omega

theorem Value.plainValue_texts (values : List String) :
    (Value.texts values).plainValue? = some (.array (values.map .text)) := by
  have items : Value.plainItems? (values.map .text) = some (values.map .text) := by
    induction values with
    | nil => rfl
    | cons value rest ih =>
      rw [List.map_cons, Value.plainItems?, ih]
      rfl
  rw [Value.texts, Value.plainValue?, items]
  rfl

/-- The standard budget without root bytes accepts these fields after so many nodes. -/
def FieldsPass (name : String) (type : RecordType) (declared : List (String × Annotation))
    (fields : List Value) (nodes : ℕ) : Prop :=
  ∀ bytes, (Value.visitFields Budget.standard.unrooted name type declared fields ⟨nodes, bytes⟩).isOk = true

namespace FieldsPass

variable {name field : String} {type : RecordType} {declared : List (String × Annotation)}
  {hint : Annotation} {value : Value} {rest : List Value} {nodes more : ℕ}

theorem nil : FieldsPass name type [] [] nodes := fun _ => rfl

theorem cons (plain : (Value.isMetricValues type field || Value.inheritsPlanText type field) = false)
    (typed : Value.matchesAnnotation hint value = true)
    (visited : ∀ bytes, ∃ total, value.visit Budget.standard.unrooted name {} ⟨nodes, bytes⟩ =
      .ok ⟨nodes + more, total⟩)
    (others : FieldsPass name type declared rest (nodes + more)) :
    FieldsPass name type ((field, hint) :: declared) (value :: rest) nodes := by
  intro bytes
  obtain ⟨metric, planText⟩ := Bool.or_eq_false_iff.mp plain
  obtain ⟨total, visit⟩ := visited bytes
  have next := others total
  simpa [Value.visitFields, metric, planText, typed, visit, require, bind, Except.bind] using next

theorem node (few : nodes < 65536) (bytes : ℕ) :
    addNode Budget.standard.unrooted name ⟨nodes, bytes⟩ = .ok ⟨nodes + 1, bytes⟩ := by
  have counted : exceeds Budget.standard.unrooted.nodes (nodes + 1) = false := by
    simp only [exceeds, Budget.unrooted, Budget.standard, Option.any_some, decide_eq_false_iff_not]
    omega
  simp only [addNode, counted, require, bind, Except.bind, pure, Except.pure, Bool.not_false, if_true]

theorem scalar {bounded : Bool} {error : String} {size : ℕ} (bound : bounded = true)
    (few : nodes < 65536) (bytes : ℕ) :
    ∃ total, Value.visitScalar Budget.standard.unrooted name bounded error size ⟨nodes, bytes⟩ =
      .ok ⟨nodes + 1, total⟩ := by
  have counted : exceeds Budget.standard.unrooted.rootBytes (bytes + size) = false := rfl
  refine ⟨bytes + size, ?_⟩
  simp only [Value.visitScalar, node few bytes, addScalarBytes, counted, bound, require, bind, Except.bind,
    pure, Except.pure, Bool.not_false, if_true]

theorem text {text : String} (few : nodes < 65536) (short : text.utf8ByteSize ≤ 4096) (bytes : ℕ) :
    ∃ total, (Value.text text).visit Budget.standard.unrooted name {} ⟨nodes, bytes⟩ =
      .ok ⟨nodes + 1, total⟩ := by
  rw [Value.visit]
  exact scalar (by simpa [exceeds, Budget.unrooted, Budget.standard] using short) few bytes

theorem integer {value : ℤ} (few : nodes < 65536) (small : value.natAbs ≤ canonicalIntegerMaxAbs)
    (bytes : ℕ) :
    ∃ total, (Value.integer value).visit Budget.standard.unrooted name {} ⟨nodes, bytes⟩ =
      .ok ⟨nodes + 1, total⟩ := by
  rw [Value.visit]
  exact scalar (decide_eq_true small) few bytes

private theorem textItems (values : List String) (seen : List Value)
    (few : nodes + values.length ≤ 65536) (short : ∀ value ∈ values, value.utf8ByteSize ≤ 4096) (bytes : ℕ) :
    ∃ total, Value.visitItems Budget.standard.unrooted name seen (values.map .text) {} ⟨nodes, bytes⟩ =
      .ok ⟨nodes + values.length, total⟩ := by
  induction values generalizing nodes bytes with
  | nil => exact ⟨bytes, rfl⟩
  | cons value rest ih =>
    obtain ⟨here, later⟩ := List.forall_mem_cons.mp short
    rw [List.length_cons] at few
    obtain ⟨middle, visited⟩ := @text name nodes value (by omega) here bytes
    obtain ⟨total, others⟩ := @ih (nodes + 1) (by omega) later middle
    refine ⟨total, ?_⟩
    rw [List.length_cons, Nat.add_comm rest.length 1, ← Nat.add_assoc, ← others]
    simp only [List.map_cons, Value.visitItems, visited, require, bind, Except.bind, Value.duplicateSensitive,
      Bool.false_and, Bool.not_false, Bool.false_eq_true, if_false, if_true]

theorem texts {values : List String} (count : values.length ≤ 1024)
    (few : nodes + 1 + values.length ≤ 65536) (short : ∀ value ∈ values, value.utf8ByteSize ≤ 4096)
    (bytes : ℕ) :
    ∃ total, (Value.texts values).visit Budget.standard.unrooted name {} ⟨nodes, bytes⟩ =
      .ok ⟨nodes + (1 + values.length), total⟩ := by
  obtain ⟨total, visited⟩ := @textItems name (nodes + 1) values [] few short bytes
  have fits : exceeds Budget.standard.unrooted.tupleItems values.length = false := by
    simp only [exceeds, Budget.unrooted, Budget.standard, Option.any_some, decide_eq_false_iff_not]
    exact Nat.not_lt.mpr count
  refine ⟨total, ?_⟩
  rw [← Nat.add_assoc, ← visited]
  simp only [Value.texts, Value.visit.eq_2, node (show nodes < 65536 by omega) bytes, fits, List.length_map,
    require, bind, Except.bind, Bool.not_false, if_true]

/-- The last field only has to pass. -/
theorem last (plain : (Value.isMetricValues type field || Value.inheritsPlanText type field) = false)
    (typed : Value.matchesAnnotation hint value = true)
    (visited : ∀ bytes, (value.visit Budget.standard.unrooted name {} ⟨nodes, bytes⟩).isOk = true) :
    FieldsPass name type [(field, hint)] [value] nodes := by
  intro bytes
  obtain ⟨metric, planText⟩ := Bool.or_eq_false_iff.mp plain
  have visited := visited bytes
  cases visit : value.visit Budget.standard.unrooted name {} ⟨nodes, bytes⟩ with
  | error error => simp [visit, Except.isOk, Except.toBool] at visited
  | ok after => simp [Value.visitFields, metric, planText, typed, visit, require, bind, Except.bind,
      pure, Except.pure, Except.isOk, Except.toBool]

/-- A tuple of one record passes with the fields of the record. -/
theorem lone {fields : List Value} (few : nodes + 2 ≤ 65536) (duplicable : type.duplicateSensitive = false)
    (pass : FieldsPass name type type.fields fields (nodes + 2)) (bytes : ℕ) :
    ((Value.tuple [.record type fields]).visit Budget.standard.unrooted name {} ⟨nodes, bytes⟩).isOk = true := by
  have pass := pass bytes
  have fits : exceeds Budget.standard.unrooted.tupleItems 1 = false := rfl
  cases visit : Value.visitFields Budget.standard.unrooted name type type.fields fields ⟨nodes + 2, bytes⟩ with
  | error error => simp [visit, Except.isOk, Except.toBool] at pass
  | ok after =>
    simp only [Value.visit, Value.visitItems, node (show nodes < 65536 by omega) bytes,
      node (show nodes + 1 < 65536 by omega) bytes, fits, List.length_singleton, require, bind, Except.bind, visit,
      Value.duplicateSensitive, duplicable, Bool.false_and, Bool.not_false, if_true]
    rfl

theorem record {fields : List Value} (pass : FieldsPass name type type.fields fields 1) :
    ((Value.record type fields).visit Budget.standard.unrooted name {} ⟨0, 0⟩).isOk = true := by
  rw [Value.visit, node (by omega)]
  exact pass 0

end FieldsPass

/-- A light value passes the standard budget. -/
theorem Completion.validateProjection_of_light {name : String} {value : Value}
    (visited : (value.visit Budget.standard.unrooted name {} ⟨0, 0⟩).isOk = true)
    (plain : value.plainValue?.isSome = true) (light : value.weight ≤ 8 * 1024 * 1024) :
    Completion.validateProjection .standard name value = .ok () := by
  obtain ⟨serialized, passed⟩ := Value.validateClosed_of_light visited plain light
  exact bind_eq_ok_iff.mpr ⟨serialized, passed, rfl⟩

/-! ### Projections -/

namespace Projection

mutual

theorem bytes_le_weight : ∀ value : Projection, value.bytes ≤ value.plainValue.weight
  | record fields => by
    have inner := bytesOfFields_le_weight fields
    rw [bytes, plainValue, Json.weight]
    omega
  | tuple items => by
    have inner := bytesOfItems_le_weight items
    rw [bytes, plainValue, Json.weight]
    omega
  | text value => Text.size_quote_le value
  | planText value => Text.size_quote_le value
  | integer value => Text.length_le_size _
  | bool true => by decide
  | bool false => by decide
  termination_by structural value => value

theorem bytesOfItems_le_weight : ∀ items : List Projection,
    bytesOfItems items ≤ Json.itemsWeight (plainItems items)
  | [] => Nat.le_refl _
  | item :: rest => by
    have first := bytes_le_weight item
    have others := bytesOfItems_le_weight rest
    rw [bytesOfItems, plainItems, Json.itemsWeight]
    omega
  termination_by structural items => items

theorem bytesOfFields_le_weight : ∀ fields : List (String × Projection),
    bytesOfFields fields ≤ Json.fieldsWeight (plainFields fields)
  | [] => Nat.le_refl _
  | (name, value) :: rest => by
    have first := bytes_le_weight value
    have others := bytesOfFields_le_weight rest
    rw [bytesOfFields, plainFields, Json.fieldsWeight]
    omega
  termination_by structural fields => fields

end

end Projection

/-- A light projection that fits passes. -/
theorem validateClosedBundleProjection_of_light {budget : Budget} {name : String} {value : Projection}
    (fits : value.fits budget = true) (few : exceeds budget.nodes value.nodes = false)
    (light : exceeds budget.rootBytes value.plainValue.weight = false) :
    validateClosedBundleProjection budget name value = .ok () :=
  validateClosedBundleProjection_eq_ok_iff.mpr ⟨fits, few,
    exceeds_mono value.bytes_le_weight light, exceeds_mono (Json.size_dumps_le _) light⟩

/-- A light JSON root that passes its visit is accepted. -/
theorem validateJsonRoot_of_light {budget : Budget} {value : Json} {name : String} {planProjection : Bool}
    (visited : (visitJson budget name planProjection value 0 false 0).toOption.isSome = true)
    (light : exceeds budget.rootBytes value.weight = false) :
    validateJsonRoot budget value name planProjection = .ok value.dumps := by
  have fits : exceeds budget.rootBytes value.dumps.utf8ByteSize = false :=
    exceeds_mono (Json.size_dumps_le value) light
  cases visit : visitJson budget name planProjection value 0 false 0 with
  | error error => simp [visit, Except.toOption] at visited
  | ok nodes => simp [validateJsonRoot, visit, fits, require, bind, Except.bind, pure, Except.pure]

/-- A receipt of short references that is verified and current for its subject passes. -/
theorem validateReceiptProof_of_short {receipt : ReceiptProof} {subjectRef : String}
    (present : Text.isBlank receipt.receiptRef = false) (subject : receipt.subjectRef = subjectRef)
    (current : receipt.verified ∧ receipt.currentnessKnown ∧ receipt.current)
    (short : receipt.receiptRef.utf8ByteSize ≤ 4096 ∧ receipt.subjectRef.utf8ByteSize ≤ 4096) :
    validateReceiptProof .standard receipt subjectRef = .ok () := by
  obtain ⟨verified, known, current⟩ := current
  have names : ("receipt_ref").utf8ByteSize + ("subject_ref").utf8ByteSize + ("verified").utf8ByteSize +
      ("currentness_known").utf8ByteSize + ("current").utf8ByteSize = 54 := by decide +kernel
  have light : receipt.projection.plainValue.weight ≤ 8 * 1024 * 1024 := by
    simp only [ReceiptProof.projection, Projection.plainValue, Projection.plainFields, Json.weight,
      Json.fieldsWeight]
    omega
  have projection : validateClosedBundleProjection .standard "ReceiptProof" receipt.projection = .ok () := by
    refine validateClosedBundleProjection_of_light ?_ (by rfl) ?_
    · simpa [ReceiptProof.projection, Projection.fits, Projection.fieldsFit, exceeds, Budget.standard]
        using short
    · simpa [exceeds, Budget.standard] using light
  rw [validateReceiptProof, check_then_eq_ok_iff, require_eq_ok_iff]
  exact ⟨projection, by simp [present, subject, verified, known, current]⟩

end MetaResearch.Bundle

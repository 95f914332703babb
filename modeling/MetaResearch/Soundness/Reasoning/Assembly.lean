import MetaResearch.Model.Reasoning.Metadata
import MetaResearch.Soundness.Bundle.ResultSets

/-! # Assembling the authoritative metadata

The assembler binds references that the context froze: they are texts without duplicates, so a second
assembly binds the same ones, and the validator finds them where it looks for them.
-/

namespace MetaResearch.Reasoning

open Json (Fields get set outside)
open MetaResearch.Bundle (isSortedSet)

/-! ### Texts -/

/-- References as the system writes them. -/
structure Bindable (refs : List String) : Prop where
  texts : ∀ ref ∈ refs, Text.isBlank ref = false
  nodup : refs.Nodup

theorem requireText_eq_ok_iff {value : Json} {code text : String} :
    requireText value code = .ok text ↔ value = .text text ∧ Text.isBlank text = false := by
  cases value with
  | text actual =>
    by_cases blank : Text.isBlank actual = true
    · constructor
      · simp [requireText, blank]
      · rintro ⟨⟨⟩, solid⟩
        rw [blank] at solid
        cases solid
    · simp only [requireText, blank, Bool.false_eq_true, if_false, Except.ok.injEq, Json.text.injEq]
      constructor
      · rintro rfl
        exact ⟨rfl, Bool.eq_false_iff.mpr blank⟩
      · exact And.left
  | _ => simp [requireText]

theorem object_eq_ok_iff {value : Json} {code : String} {fields : Fields} :
    object value code = .ok fields ↔ value = .object fields := by
  cases value <;> simp [object]

theorem list_eq_ok_iff {value : Json} {code : String} {items : List Json} :
    list value code = .ok items ↔ value = .array items := by
  cases value <;> simp [list]

theorem mapM_requireText_eq_ok_iff {items : List Json} {code : String} {refs : List String} :
    items.mapM (requireText · code) = .ok refs ↔
      items = refs.map Json.text ∧ ∀ ref ∈ refs, Text.isBlank ref = false := by
  induction items generalizing refs with
  | nil =>
    constructor
    · rintro ⟨⟩
      exact ⟨rfl, by simp⟩
    · rintro ⟨same, _⟩
      rw [List.map_eq_nil_iff.mp same.symm]
      rfl
  | cons item rest ih =>
    rw [List.mapM_cons, bind_eq_ok_iff]
    constructor
    · rintro ⟨ref, here, later⟩
      obtain ⟨refs, there, ⟨⟩⟩ := bind_eq_ok_iff.mp later
      obtain ⟨rfl, solid⟩ := requireText_eq_ok_iff.mp here
      obtain ⟨rfl, others⟩ := ih.mp there
      exact ⟨rfl, List.forall_mem_cons.mpr ⟨solid, others⟩⟩
    · rintro ⟨same, solid⟩
      cases refs with
      | nil => cases same
      | cons ref refs =>
        obtain ⟨rfl, rfl⟩ := List.cons.inj same
        obtain ⟨here, others⟩ := List.forall_mem_cons.mp solid
        exact ⟨ref, requireText_eq_ok_iff.mpr ⟨rfl, here⟩,
          bind_eq_ok_iff.mpr ⟨refs, ih.mpr ⟨rfl, others⟩, rfl⟩⟩

theorem requireTextList_eq_ok_iff {value : Json} {code : String} {refs : List String} :
    requireTextList value code = .ok refs ↔
      value = Json.texts refs ∧ ∀ ref ∈ refs, Text.isBlank ref = false := by
  rw [requireTextList, bind_eq_ok_iff]
  constructor
  · rintro ⟨items, listed, each⟩
    obtain ⟨rfl, solid⟩ := mapM_requireText_eq_ok_iff.mp each
    exact ⟨list_eq_ok_iff.mp listed, solid⟩
  · rintro ⟨rfl, solid⟩
    exact ⟨refs.map Json.text, rfl, mapM_requireText_eq_ok_iff.mpr ⟨rfl, solid⟩⟩

theorem nodup_of_isSortedSet {refs : List String} (sorted : isSortedSet refs = true) : refs.Nodup := by
  have same : refs = Bundle.Completion.sortedSet refs := of_decide_eq_true sorted
  rw [same]
  exact (List.perm_insertionSort (· ≤ ·) refs.dedup).nodup_iff.mpr (List.nodup_dedup _)

/-! ### What a frozen context expects -/

/-- The references that a context froze can be bound. -/
structure Frozen (expected : ExpectedContext) : Prop where
  fields : expected.causalContext.map Prod.fst = causalFields
  causal : ∀ entry ∈ expected.causalContext, Bindable entry.2
  prior : Bindable expected.priorOutcomeRefs
  parents : Bindable expected.parentQuestionRefs

theorem bindable_append {refs : List String} {ref : String} (bindable : Bindable refs)
    (solid : Text.isBlank ref = false) (new : refs.contains ref = false) : Bindable (refs ++ [ref]) where
  texts := by
    simp only [List.mem_append, List.mem_singleton]
    rintro other (member | rfl)
    · exact bindable.texts other member
    · exact solid
  nodup := by
    refine List.nodup_append.mpr ⟨bindable.nodup, List.nodup_singleton _, ?_⟩
    simp only [List.mem_singleton]
    rintro other member _ rfl rfl
    simp [member] at new

theorem bindable_foldlM {step : List String → Json → Except String (List String)}
    (keeps : ∀ {refs value next}, Bindable refs → step refs value = .ok next → Bindable next)
    {values : List Json} {refs result : List String} (bindable : Bindable refs)
    (folded : values.foldlM step refs = .ok result) : Bindable result := by
  induction values generalizing refs with
  | nil =>
    cases folded
    exact bindable
  | cons value rest ih =>
    obtain ⟨next, here, later⟩ := bind_eq_ok_iff.mp folded
    exact ih (keeps bindable here) later

theorem bindable_collectParent {graph : Fields} {active refs next : List String} {value : Json}
    (bindable : Bindable refs) (collected : collectParent graph active refs value = .ok next) :
    Bindable next := by
  simp only [collectParent, check_then_eq_ok_iff, bind_eq_ok_iff (α := Fields),
    bind_eq_ok_iff (α := String), require_eq_ok_iff, Bool.and_eq_true, Bool.not_eq_true'] at collected
  obtain ⟨_, _, _, ref, named, _, _, _, ⟨new, _⟩, ⟨⟩⟩ := collected
  exact bindable_append bindable (requireText_eq_ok_iff.mp named).2 new

theorem bindable_collectPrior {refs next : List String} {value : Json} (bindable : Bindable refs)
    (collected : collectPrior refs value = .ok next) : Bindable next := by
  simp only [collectPrior, check_then_eq_ok_iff, bind_eq_ok_iff (α := Fields),
    bind_eq_ok_iff (α := String), require_eq_ok_iff, Bool.not_eq_true'] at collected
  obtain ⟨_, _, _, _, _, _, _, ref, named, _, _, _, new, ⟨⟩⟩ := collected
  exact bindable_append bindable (requireText_eq_ok_iff.mp named).2 new

theorem causal_of_mapM {causal : Fields} {fields : List String} {entries : List (String × List String)}
    (mapped : fields.mapM (causalOf causal) = .ok entries) :
    entries.map Prod.fst = fields ∧ ∀ entry ∈ entries, Bindable entry.2 := by
  induction fields generalizing entries with
  | nil =>
    cases mapped
    exact ⟨rfl, by simp⟩
  | cons field rest ih =>
    rw [List.mapM_cons, bind_eq_ok_iff] at mapped
    obtain ⟨entry, here, later⟩ := mapped
    obtain ⟨others, there, ⟨⟩⟩ := bind_eq_ok_iff.mp later
    obtain ⟨names, bindable⟩ := ih there
    obtain ⟨refs, listed, sorted⟩ := bind_eq_ok_iff.mp here
    obtain ⟨passed, ⟨⟩⟩ := check_then_eq_ok_iff.mp sorted
    refine ⟨by rw [List.map_cons, names], List.forall_mem_cons.mpr ⟨?_, bindable⟩⟩
    exact ⟨(requireTextList_eq_ok_iff.mp listed).2, nodup_of_isSortedSet (require_eq_ok_iff.mp passed)⟩

theorem frozen_of_validated {context : Fields} {identities : Identities} {expected : ExpectedContext}
    (validated : validateFrozenResearchContext context identities = .ok expected) : Frozen expected := by
  simp only [validateFrozenResearchContext, check_then_eq_ok_iff, bind_eq_ok_iff (α := Fields),
    bind_eq_ok_iff (α := String), bind_eq_ok_iff (α := List String), bind_eq_ok_iff (α := List Json),
    bind_eq_ok_iff (α := List (String × List String))] at validated
  obtain ⟨_, _, _, graph, _, _, _, _, _, _, _, active, _, _, parents, _, prior, _, _, causal, _, _,
    causalContext, causals, parentRefs, folded, priorRefs, priors, _, _, _, ⟨⟩⟩ := validated
  obtain ⟨fields, bindable⟩ := causal_of_mapM causals
  have empty : Bindable [] := ⟨by simp, List.nodup_nil⟩
  exact ⟨fields, bindable, bindable_foldlM bindable_collectPrior empty priors,
    bindable_foldlM bindable_collectParent empty folded⟩

/-! ### Binding references -/

variable {place field code : String} {holder bound : Fields} {refs : List String}

theorem bindRefs_eq_ok (done : bindRefs place field holder refs = .ok bound) :
    bound = set holder field (Json.texts refs) := by
  obtain ⟨_, ⟨⟩⟩ := check_then_eq_ok_iff.mp done
  rfl

theorem validateSupplied_of_frozen (bindable : Bindable refs) :
    validateSuppliedAuthoritativeRefs (Json.texts refs) refs code = .ok () := by
  refine bind_eq_ok_iff.mpr ⟨refs, requireTextList_eq_ok_iff.mpr ⟨rfl, bindable.texts⟩, ?_⟩
  have clean : (refs.filter fun ref => !refs.contains ref || decide (1 < refs.count ref)) = [] := by
    refine List.filter_eq_nil_iff.mpr fun ref member => ?_
    have once := List.nodup_iff_count_le_one.mp bindable.nodup ref
    simp [member]
    omega
  rw [clean]
  rfl

/-- References that are bound already are bound without a change. -/
theorem bindRefs_of_held (bindable : Bindable refs) (held : holder.lookup field = some (Json.texts refs)) :
    bindRefs place field holder refs = .ok holder := by
  refine check_then_eq_ok_iff.mpr ⟨?_, ?_⟩
  · simp only [checkHeld, held]
    exact validateSupplied_of_frozen bindable
  · rw [Json.set_eq_self held]
    rfl

/-- The dictionary holds the references of each entry. -/
def Holds (causal : Fields) (entries : List (String × List String)) : Prop :=
  ∀ entry ∈ entries, causal.lookup entry.1 = some (Json.texts entry.2)

/-- One run of the loop over the causal fields: each field is bound, and nothing else is changed. -/
theorem bindCausal_run {entries : List (String × List String)} {causal : Fields}
    (nodup : (entries.map Prod.fst).Nodup) (done : entries.foldlM bindCausal causal = .ok bound) :
    Holds bound entries ∧
      (∀ name, name ∉ entries.map Prod.fst → bound.lookup name = causal.lookup name) ∧
      ∀ names, (∀ entry ∈ entries, entry.1 ∈ names) → outside bound names = outside causal names := by
  induction entries generalizing causal with
  | nil =>
    cases done
    exact ⟨List.forall_mem_nil _, fun _ _ => rfl, fun _ _ => rfl⟩
  | cons entry rest ih =>
    obtain ⟨next, here, later⟩ := bind_eq_ok_iff.mp done
    obtain rfl := bindRefs_eq_ok here
    obtain ⟨new, nodup⟩ := List.nodup_cons.mp nodup
    obtain ⟨holds, others, framed⟩ := ih nodup later
    refine ⟨List.forall_mem_cons.mpr ⟨?_, holds⟩, fun name absent => ?_, fun names inside => ?_⟩
    · rw [others entry.1 new, Json.lookup_set]
    · rw [List.map_cons, List.mem_cons, not_or] at absent
      obtain ⟨apart, absent⟩ := absent
      rw [others name absent, Json.lookup_set_of_ne apart]
    · obtain ⟨first, inside⟩ := List.forall_mem_cons.mp inside
      rw [framed names inside, Json.outside_set first]

theorem bindCausal_again {entries : List (String × List String)} {causal : Fields}
    (bindable : ∀ entry ∈ entries, Bindable entry.2) (holds : Holds causal entries) :
    entries.foldlM bindCausal causal = .ok causal := by
  induction entries with
  | nil => rfl
  | cons entry rest ih =>
    obtain ⟨here, bindable⟩ := List.forall_mem_cons.mp bindable
    obtain ⟨held, holds⟩ := List.forall_mem_cons.mp holds
    exact bind_eq_ok_iff.mpr ⟨causal, bindRefs_of_held here held, ih bindable holds⟩

/-! ### The order of the parents -/

/-- The value is a parent with this reference. -/
def Names (ref : String) (value : Json) : Prop :=
  ∃ parent, value = .object parent ∧ get parent "question_ref" = .text ref ∧ Text.isBlank ref = false

/-- What is found for a reference. -/
def lookupIn (refs : List String) (values : List Json) (ref : String) : Json :=
  ((refs.zip values).lookup ref).getD .null

theorem lookup_zip_isNone_iff {values : List Json} (aligned : refs.length = values.length) {ref : String} :
    ((refs.zip values).lookup ref).isNone = true ↔ ref ∉ refs := by
  rw [Option.isNone_iff_eq_none, List.lookup_eq_none_iff, ← not_iff_not]
  constructor
  · intro found
    push Not at found ⊢
    obtain ⟨entry, member, same⟩ := found
    have : ref = entry.1 := by simpa using same
    rw [this]
    exact (List.of_mem_zip member).1
  · intro member
    push Not at member ⊢
    rw [← List.map_fst_zip aligned.le] at member
    obtain ⟨entry, there, rfl⟩ := List.mem_map.mp member
    exact ⟨entry, there, by simp⟩

theorem lookupIn_cons_of_ne {values : List Json} {first ref : String} {value : Json} (apart : ref ≠ first) :
    lookupIn (first :: refs) (value :: values) ref = lookupIn refs values ref := by
  rw [lookupIn, List.zip_cons_cons, List.lookup_cons, beq_eq_false_iff_ne.mpr apart]
  rfl

theorem lookupIn_cons_self {values : List Json} {first : String} {value : Json} :
    lookupIn (first :: refs) (value :: values) first = value := by
  rw [lookupIn, List.zip_cons_cons, List.lookup_cons_self]
  rfl

theorem map_lookupIn {values : List Json} (nodup : refs.Nodup) (aligned : refs.length = values.length) :
    refs.map (lookupIn refs values) = values := by
  induction refs generalizing values with
  | nil => exact (List.length_eq_zero_iff.mp aligned.symm).symm
  | cons first rest ih =>
    cases values with
    | nil => cases aligned
    | cons value values =>
      obtain ⟨new, nodup⟩ := List.nodup_cons.mp nodup
      have others : rest.map (lookupIn (first :: rest) (value :: values)) =
          rest.map (lookupIn rest values) :=
        List.map_congr_left fun ref member =>
          lookupIn_cons_of_ne fun same => new (same ▸ member)
      rw [List.map_cons, lookupIn_cons_self, others, ih nodup (Nat.succ.inj aligned)]

theorem names_lookupIn {values : List Json} (named : List.Forall₂ Names refs values) {ref : String}
    (member : ref ∈ refs) : Names ref (lookupIn refs values ref) := by
  induction named with
  | nil => cases member
  | @cons first value rest values here _ ih =>
    by_cases same : ref = first
    · rw [same, lookupIn_cons_self]
      exact here
    · rw [lookupIn_cons_of_ne same]
      exact ih (List.mem_of_ne_of_mem same member)

theorem lookup_snoc_isNone_iff {entries : List (String × Json)} {key ref : String} {value : Json} :
    ((entries ++ [(key, value)]).lookup ref).isNone = true ↔
      (entries.lookup ref).isNone = true ∧ ref ≠ key := by
  rw [List.lookup_append, Option.isNone_or, Bool.and_eq_true]
  refine and_congr_right fun _ => ?_
  rw [Option.isNone_iff_eq_none, List.lookup_eq_none_iff]
  simp

theorem collectByParentRef_eq_ok_iff {parentRefs : List String} {collected next : List (String × Json)}
    {value : Json} :
    collectByParentRef parentRefs collected value = .ok next ↔
      ∃ ref, Names ref value ∧ ref ∈ parentRefs ∧ (collected.lookup ref).isNone = true ∧
        next = collected ++ [(ref, value)] := by
  simp only [collectByParentRef, bind_eq_ok_iff (α := Fields), bind_eq_ok_iff (α := String),
    check_then_eq_ok_iff, require_eq_ok_iff, Bool.and_eq_true, List.contains_iff_mem]
  constructor
  · rintro ⟨parent, shape, ref, named, ⟨known, new⟩, ⟨⟩⟩
    obtain rfl := object_eq_ok_iff.mp shape
    obtain ⟨named, solid⟩ := requireText_eq_ok_iff.mp named
    exact ⟨ref, ⟨parent, rfl, named, solid⟩, known, new, rfl⟩
  · rintro ⟨ref, ⟨parent, rfl, named, solid⟩, known, new, rfl⟩
    exact ⟨parent, rfl, ref, requireText_eq_ok_iff.mpr ⟨named, solid⟩, ⟨known, new⟩, rfl⟩

/-- The loop over the parents collects each of them under its own reference. -/
theorem collect_eq_ok_iff {parentRefs : List String} {parents : List Json}
    {collected result : List (String × Json)} :
    parents.foldlM (collectByParentRef parentRefs) collected = .ok result ↔
      ∃ refs, List.Forall₂ Names refs parents ∧ refs.Nodup ∧
        (∀ ref ∈ refs, ref ∈ parentRefs ∧ (collected.lookup ref).isNone = true) ∧
        result = collected ++ refs.zip parents := by
  induction parents generalizing collected with
  | nil =>
    constructor
    · rintro ⟨⟩
      exact ⟨[], .nil, List.nodup_nil, by simp, by simp⟩
    · rintro ⟨refs, named, _, _, rfl⟩
      cases named
      simp [pure, Except.pure]
  | cons value rest ih =>
    rw [List.foldlM_cons, bind_eq_ok_iff]
    constructor
    · rintro ⟨next, here, later⟩
      obtain ⟨ref, named, known, new, rfl⟩ := collectByParentRef_eq_ok_iff.mp here
      obtain ⟨refs, others, nodup, fresh, rfl⟩ := ih.mp later
      have apart : ref ∉ refs := fun member => (lookup_snoc_isNone_iff.mp (fresh ref member).2).2 rfl
      refine ⟨ref :: refs, .cons named others, List.nodup_cons.mpr ⟨apart, nodup⟩,
        List.forall_mem_cons.mpr ⟨⟨known, new⟩, fun other member => ?_⟩, by simp⟩
      exact ⟨(fresh other member).1, (lookup_snoc_isNone_iff.mp (fresh other member).2).1⟩
    · rintro ⟨refs, named, nodup, fresh, rfl⟩
      obtain ⟨⟩ := named
      rename_i ref refs named others
      obtain ⟨apart, nodup⟩ := List.nodup_cons.mp nodup
      obtain ⟨⟨known, new⟩, fresh⟩ := List.forall_mem_cons.mp fresh
      refine ⟨_, collectByParentRef_eq_ok_iff.mpr ⟨ref, named, known, new, rfl⟩,
        ih.mpr ⟨refs, others, nodup, fun other member => ?_, by simp⟩⟩
      refine ⟨(fresh other member).1, lookup_snoc_isNone_iff.mpr ⟨(fresh other member).2, ?_⟩⟩
      exact fun same => apart (same ▸ member)

/-- The parents are ordered exactly when they are named by the references, each once. -/
theorem orderParents_eq_ok_iff {parents ordered : List Json} {parentRefs : List String} :
    orderParents parents parentRefs = .ok ordered ↔
      ∃ refs, List.Forall₂ Names refs parents ∧ refs.Nodup ∧ (∀ ref, ref ∈ refs ↔ ref ∈ parentRefs) ∧
        ordered = parentRefs.map (lookupIn refs parents) := by
  rw [orderParents, bind_eq_ok_iff]
  simp only [check_then_eq_ok_iff, require_eq_ok_iff, List.isEmpty_iff, List.filter_eq_nil_iff,
    collect_eq_ok_iff, List.nil_append]
  constructor
  · rintro ⟨_, ⟨refs, named, nodup, known, rfl⟩, complete, ⟨⟩⟩
    refine ⟨refs, named, nodup, fun ref => ⟨fun member => (known ref member).1, fun member => ?_⟩, rfl⟩
    exact not_not.mp (mt (lookup_zip_isNone_iff named.length_eq).mpr (complete ref member))
  · rintro ⟨refs, named, nodup, same, rfl⟩
    refine ⟨_, ⟨refs, named, nodup, fun ref member => ⟨(same ref).mp member, rfl⟩, rfl⟩,
      fun ref member missing => ?_, rfl⟩
    exact (lookup_zip_isNone_iff named.length_eq).mp missing ((same ref).mpr member)

variable {parents ordered : List Json} {parentRefs : List String}

/-- Ordering loses no parent and adds none. -/
theorem orderParents_perm (nodup : parentRefs.Nodup)
    (done : orderParents parents parentRefs = .ok ordered) : ordered.Perm parents := by
  obtain ⟨refs, named, each, same, rfl⟩ := orderParents_eq_ok_iff.mp done
  have perm : parentRefs.Perm refs :=
    (List.perm_ext_iff_of_nodup nodup each).mpr fun ref => (same ref).symm
  have reordered := perm.map (lookupIn refs parents)
  rwa [map_lookupIn each named.length_eq] at reordered

theorem names_orderParents (done : orderParents parents parentRefs = .ok ordered) :
    List.Forall₂ Names parentRefs ordered := by
  obtain ⟨refs, named, _, same, rfl⟩ := orderParents_eq_ok_iff.mp done
  rw [List.forall₂_map_right_iff, List.forall₂_same]
  exact fun ref member => names_lookupIn named ((same ref).mpr member)

/-- Parents in the order of the references keep it. -/
theorem orderParents_of_names (nodup : parentRefs.Nodup) (named : List.Forall₂ Names parentRefs ordered) :
    orderParents ordered parentRefs = .ok ordered :=
  orderParents_eq_ok_iff.mpr ⟨parentRefs, named, nodup, fun _ => Iff.rfl,
    (map_lookupIn nodup named.length_eq).symm⟩

theorem parentRefsOf_of_names (named : List.Forall₂ Names parentRefs ordered) :
    parentRefsOf ordered = .ok parentRefs := by
  induction named with
  | nil => rfl
  | @cons ref value refs values here _ ih =>
    rw [parentRefsOf, List.mapM_cons]
    refine bind_eq_ok_iff.mpr ⟨ref, ?_, bind_eq_ok_iff.mpr ⟨refs, ih, rfl⟩⟩
    obtain ⟨parent, rfl, named, solid⟩ := here
    exact requireText_eq_ok_iff.mpr ⟨named, solid⟩

/-! ### The assembled outcome -/

variable {expected : ExpectedContext}

/-- The synthesis is unchanged but for the prior outcomes and the order of the parents. -/
structure SynthesisFramed (before after : Fields) : Prop where
  other : outside after ["current_question", "parent_questions"] =
    outside before ["current_question", "parent_questions"]
  current : ∃ old new, get before "current_question" = .object old ∧
    get after "current_question" = .object new ∧
    outside new ["prior_accepted_outcome_refs"] = outside old ["prior_accepted_outcome_refs"]
  parents : ∃ old new, get before "parent_questions" = .array old ∧
    get after "parent_questions" = .array new ∧ new.Perm old

/-- The outcome is unchanged but for the causal fields and the synthesis. -/
structure OutcomeFramed (before after : Fields) : Prop where
  other : outside after ["causal_interpretation", "research_synthesis"] =
    outside before ["causal_interpretation", "research_synthesis"]
  causal : ∃ old new, get before "causal_interpretation" = .object old ∧
    get after "causal_interpretation" = .object new ∧ outside new causalFields = outside old causalFields
  synthesis : ∃ old new, get before "research_synthesis" = .object old ∧
    get after "research_synthesis" = .object new ∧ SynthesisFramed old new

/-- The output is unchanged but for the outcome. -/
structure Framed (output result : Fields) : Prop where
  other : outside result ["scientific_outcome"] = outside output ["scientific_outcome"]
  outcome : ∃ before after, get output "scientific_outcome" = .object before ∧
    get result "scientific_outcome" = .object after ∧ OutcomeFramed before after

/-- The validator finds what it compares with the context. -/
structure Agrees (outcome : Fields) (expected : ExpectedContext) : Prop where
  causal : ∃ causal, get outcome "causal_interpretation" = .object causal ∧
    checkCausalContext causal expected = .ok ()
  synthesis : ∃ synthesis current parents, get outcome "research_synthesis" = .object synthesis ∧
    get synthesis "current_question" = .object current ∧
    get synthesis "parent_questions" = .array parents ∧
    checkPriorOutcomes current expected = .ok () ∧ checkParents parents expected = .ok ()

theorem checkCausalContext_of_holds {causal : Fields} (holds : Holds causal expected.causalContext) :
    checkCausalContext causal expected = .ok () := by
  refine checkAll_eq_ok_iff.mpr fun entry member => require_eq_ok_iff.mpr ?_
  rw [Json.get_of_lookup (holds entry member)]
  exact Json.same_texts entry.2

theorem checkPriorOutcomes_of_held {current : Fields} (frozen : Frozen expected)
    (held : current.lookup "prior_accepted_outcome_refs" = some (Json.texts expected.priorOutcomeRefs)) :
    checkPriorOutcomes current expected = .ok () := by
  refine bind_eq_ok_iff.mpr ⟨expected.priorOutcomeRefs, requireTextList_eq_ok_iff.mpr ⟨?_, ?_⟩, by simp⟩
  · exact Json.get_of_lookup held
  · exact frozen.prior.texts

theorem checkParents_of_names (named : List.Forall₂ Names expected.parentQuestionRefs ordered) :
    checkParents ordered expected = .ok () :=
  bind_eq_ok_iff.mpr ⟨expected.parentQuestionRefs, parentRefsOf_of_names named, by simp⟩

/-- What the synthesis is after it was assembled. -/
structure Assembled (synthesis : Fields) (expected : ExpectedContext) : Prop where
  current : ∃ current, synthesis.lookup "current_question" = some (.object current) ∧
    current.lookup "prior_accepted_outcome_refs" = some (Json.texts expected.priorOutcomeRefs)
  parents : ∃ parents, synthesis.lookup "parent_questions" = some (.array parents) ∧
    List.Forall₂ Names expected.parentQuestionRefs parents

theorem assembleSynthesis_spec {synthesis assembled : Fields} (frozen : Frozen expected)
    (done : assembleSynthesis synthesis expected = .ok assembled) :
    Assembled assembled expected ∧ SynthesisFramed synthesis assembled := by
  simp only [assembleSynthesis, bind_eq_ok_iff (α := Fields), bind_eq_ok_iff (α := List Json),
    object_eq_ok_iff, list_eq_ok_iff] at done
  obtain ⟨current, currentAt, bound, binding, parents, parentsAt, ordered, ordering, ⟨⟩⟩ := done
  obtain rfl := bindRefs_eq_ok binding
  have apart : "current_question" ≠ "parent_questions" := by decide
  have heldCurrent : ∀ value, (set (set synthesis "current_question" value) "parent_questions"
      (.array ordered)).lookup "current_question" = some value := fun value => by
    rw [Json.lookup_set_of_ne apart, Json.lookup_set]
  refine ⟨⟨⟨_, heldCurrent _, Json.lookup_set⟩, ⟨ordered, Json.lookup_set, names_orderParents ordering⟩⟩, ?_⟩
  refine ⟨?_, ⟨current, _, currentAt, Json.get_of_lookup (heldCurrent _), ?_⟩,
    ⟨parents, ordered, parentsAt, Json.get_set, orderParents_perm frozen.parents.nodup ordering⟩⟩
  · rw [Json.outside_set (by simp), Json.outside_set (by simp)]
  · exact Json.outside_set (List.mem_singleton_self _)

theorem assembleSynthesis_again {synthesis : Fields} (frozen : Frozen expected)
    (assembled : Assembled synthesis expected) :
    assembleSynthesis synthesis expected = .ok synthesis := by
  obtain ⟨⟨current, currentAt, held⟩, ⟨parents, parentsAt, named⟩⟩ := assembled
  simp only [assembleSynthesis, bind_eq_ok_iff (α := Fields), bind_eq_ok_iff (α := List Json),
    object_eq_ok_iff, list_eq_ok_iff]
  refine ⟨current, Json.get_of_lookup currentAt, current, bindRefs_of_held frozen.prior held, parents,
    Json.get_of_lookup parentsAt, parents, orderParents_of_names frozen.parents.nodup named, ?_⟩
  rw [Json.set_eq_self currentAt, Json.set_eq_self parentsAt]
  rfl

theorem agrees_of_assembled {outcome causal synthesis : Fields} (frozen : Frozen expected)
    (causalAt : get outcome "causal_interpretation" = .object causal)
    (holds : Holds causal expected.causalContext)
    (synthesisAt : get outcome "research_synthesis" = .object synthesis)
    (assembled : Assembled synthesis expected) : Agrees outcome expected := by
  obtain ⟨⟨current, currentAt, held⟩, ⟨parents, parentsAt, named⟩⟩ := assembled
  exact ⟨⟨causal, causalAt, checkCausalContext_of_holds holds⟩, ⟨synthesis, current, parents, synthesisAt,
    Json.get_of_lookup currentAt, Json.get_of_lookup parentsAt, checkPriorOutcomes_of_held frozen held,
    checkParents_of_names named⟩⟩

/-- What an outcome is after one assembly: a second one changes nothing. -/
theorem assembleOutcome_spec {outcome assembled : Fields} (frozen : Frozen expected)
    (done : assembleOutcome outcome expected = .ok assembled) :
    assembleOutcome assembled expected = .ok assembled ∧ OutcomeFramed outcome assembled ∧
      Agrees assembled expected ∧
      ∀ name, name ≠ "causal_interpretation" → name ≠ "research_synthesis" →
        get assembled name = get outcome name := by
  simp only [assembleOutcome, bind_eq_ok_iff (α := Fields), object_eq_ok_iff] at done
  obtain ⟨causal, causalAt, bound, binding, synthesis, synthesisAt, whole, built, ⟨⟩⟩ := done
  have names : (expected.causalContext.map Prod.fst).Nodup := by
    rw [frozen.fields]
    decide
  obtain ⟨holds, _, causalFramed⟩ := bindCausal_run names binding
  obtain ⟨complete, synthesisFramed⟩ := assembleSynthesis_spec frozen built
  have apart : "causal_interpretation" ≠ "research_synthesis" := by decide
  have causalHeld : (set (set outcome "causal_interpretation" (.object bound)) "research_synthesis"
      (.object whole)).lookup "causal_interpretation" = some (.object bound) := by
    rw [Json.lookup_set_of_ne apart, Json.lookup_set]
  have synthesisHeld : (set (set outcome "causal_interpretation" (.object bound)) "research_synthesis"
      (.object whole)).lookup "research_synthesis" = some (.object whole) := Json.lookup_set
  refine ⟨?_, ?_, ?_, ?_⟩
  · simp only [assembleOutcome, bind_eq_ok_iff (α := Fields), object_eq_ok_iff]
    refine ⟨bound, Json.get_of_lookup causalHeld, bound, bindCausal_again frozen.causal holds, whole,
      Json.get_of_lookup synthesisHeld, whole, assembleSynthesis_again frozen complete, ?_⟩
    rw [Json.set_eq_self causalHeld, Json.set_eq_self synthesisHeld]
    rfl
  · refine ⟨?_, ⟨causal, bound, causalAt, Json.get_of_lookup causalHeld, ?_⟩,
      ⟨synthesis, whole, synthesisAt, Json.get_of_lookup synthesisHeld, synthesisFramed⟩⟩
    · rw [Json.outside_set (by simp), Json.outside_set (by simp)]
    · refine causalFramed causalFields fun entry member => ?_
      rw [← frozen.fields]
      exact List.mem_map_of_mem member
  · exact agrees_of_assembled frozen (Json.get_of_lookup causalHeld) holds
      (Json.get_of_lookup synthesisHeld) complete
  · intro name first second
    rw [Json.get_set_of_ne second, Json.get_set_of_ne first]

/-- Assembling again changes nothing; only the authoritative fields and the order of the parents differ
from the output; and the validator cannot find them different from the context. -/
theorem assemble_idempotent_framed_sufficient {shown : Json → String} {output context result : Fields}
    (authoritative : (get context "schema_ref").isText reasoningAuthoritativeResearchContext = true)
    (done : assembleReasoningAuthoritativeMetadata shown output context = .ok result) :
    assembleReasoningAuthoritativeMetadata shown result context = .ok result ∧
      Framed output result ∧
      ∃ outcome expected, get result "scientific_outcome" = .object outcome ∧
        validateFrozenResearchContext context (identitiesOf outcome) = .ok expected ∧
        Agrees outcome expected := by
  simp only [assembleReasoningAuthoritativeMetadata, authoritative, if_true, check_then_eq_ok_iff,
    bind_eq_ok_iff (α := Fields), bind_eq_ok_iff (α := ExpectedContext), object_eq_ok_iff] at done ⊢
  obtain ⟨outcome, outcomeAt, identity, expected, validated, assembled, built, ⟨⟩⟩ := done
  obtain ⟨again, framed, agrees, others⟩ := assembleOutcome_spec (frozen_of_validated validated) built
  have same : ∀ field ∈ ["cycle_ref", "question_ref", "quest_ref", "goal_revision_ref"],
      get assembled field = get outcome field := by
    intro field member
    apply others field
    · rintro rfl
      exact absurd member (by decide)
    · rintro rfl
      exact absurd member (by decide)
  have identities : identitiesOf assembled = identitiesOf outcome := by
    simp only [identitiesOf]
    rw [same "cycle_ref" (by simp), same "question_ref" (by simp), same "quest_ref" (by simp),
      same "goal_revision_ref" (by simp)]
  refine ⟨⟨assembled, Json.get_set, ?_, expected, identities ▸ validated, assembled, again, ?_⟩, ?_,
    assembled, expected, Json.get_set, identities ▸ validated, agrees⟩
  · refine checkAll_eq_ok_iff.mpr fun field member => ?_
    rw [checkIdentity, same field member]
    exact checkAll_eq_ok_iff.mp identity field member
  · rw [Json.set_eq_self Json.lookup_set]
    rfl
  · exact ⟨Json.outside_set (List.mem_singleton_self _), outcome, assembled, outcomeAt, Json.get_set, framed⟩

/-! ### An outcome with two parents -/

/-- A context with two parents and one earlier outcome. -/
def sampleContext : Fields :=
  [("schema_ref", .text reasoningAuthoritativeResearchContext), ("cycle_ref", .text "cycle"),
    ("quest_ref", .text "quest"), ("question_ref", .text "q"), ("goal_revision_ref", .text "goal"),
    ("quest_goal_revision", .object [("kind", .text "QuestGoalRevision"), ("quest_ref", .text "quest"),
      ("goal_revision_ref", .text "goal")]),
    ("graph_binding", .object [("schema_ref", .text reasoningGraphContextV1),
      ("issuer", .text "research_graph"), ("quest_ref", .text "quest"), ("question_ref", .text "q"),
      ("graph_revision_ref", .text "graph"), ("active_question_refs", Json.texts ["a", "b", "q"]),
      ("parent_question_bindings", .array
        [.object [("question_ref", .text "a"), ("parent_question_ref", .null),
          ("question_receipt_ref", .text "receipt-a")],
        .object [("question_ref", .text "b"), ("parent_question_ref", .text "a"),
          ("question_receipt_ref", .text "receipt-b")]]),
      ("prior_current_question_outcomes", .array
        [.object [("cycle_ref", .text "earlier"), ("request_ref", .text "request"),
          ("outcome_ref", .text "outcome"), ("disposition", .text "denied"),
          ("outcome_receipt_ref", .text "receipt")]]),
      ("binding_ref", .text "binding"), ("binding_hash", .text "hash")]),
    ("causal_context", .object [("target_commit_refs", Json.texts ["commit"]),
      ("changed_axis_fact_refs", .array []), ("held_fixed_fact_refs", .array []),
      ("provenance_refs", Json.texts ["source"])]),
    ("upstream_stage_commit_refs", Json.texts ["one", "two", "three"])]

/-- An output with its parents the other way round. -/
def sampleOutput : Fields :=
  [("scientific_outcome", .object [("cycle_ref", .text "cycle"), ("quest_ref", .text "quest"),
    ("question_ref", .text "q"), ("goal_revision_ref", .text "goal"),
    ("causal_interpretation", .object [("statement", .text "because"),
      ("provenance_refs", Json.texts ["source"])]),
    ("research_synthesis", .object [("current_question", .object [("progress", .text "some")]),
      ("parent_questions", .array [.object [("question_ref", .text "b"), ("impact", .text "unknown")],
        .object [("question_ref", .text "a"), ("impact", .text "material")]])])])]

theorem assemble_two_parents :
    ∃ result outcome expected,
      assembleReasoningAuthoritativeMetadata Json.dumps result sampleContext = .ok result ∧
      Framed sampleOutput result ∧ get result "scientific_outcome" = .object outcome ∧
      validateFrozenResearchContext sampleContext (identitiesOf outcome) = .ok expected ∧
      Agrees outcome expected := by
  have passes : (assembleReasoningAuthoritativeMetadata Json.dumps sampleOutput sampleContext).map
      (fun _ => ()) = .ok () := by decide +kernel
  obtain ⟨result, done⟩ := discard_eq_ok_iff.mp passes
  obtain ⟨again, framed, outcome, expected, facts⟩ :=
    assemble_idempotent_framed_sufficient (by decide +kernel) done
  exact ⟨result, outcome, expected, again, framed, facts⟩

end MetaResearch.Reasoning

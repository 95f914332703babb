import Mathlib.Data.List.Perm.Lattice
import MetaResearch.Soundness.Plan.Agreement

/-! # What an accepted Plan accounts for

An accepted document says the same of each obligation wherever it speaks of it: in its coverage, in its
gaps and briefs, in the evidence it reuses and in the trace of the ideas.
-/

namespace MetaResearch.Plan

open Json (Fields get isText)
open MetaResearch.Bundle (sameSet sameSet_eq_true_iff)

/-! ### Reading a document -/

/-- The objects of a list. -/
def objectsOf (values : List Json) : List Fields := values.filterMap Json.object?

/-- The objects of the list at a field. -/
def objectsAt (fields : Fields) (name : String) : List Fields := objectsOf ((get fields name).array?.getD [])

/-- The field is a list of objects. -/
def Listed (fields : Fields) (name : String) : Prop :=
  get fields name = .array ((objectsAt fields name).map .object)

def textAt (fields : Fields) (name : String) : String := (get fields name).text?.getD ""

def keyOf (fields : Fields) : String := textAt fields "obligation_key"

def contractOf (document : Fields) : Fields := (get document "answer_contract").object?.getD []

def obligationsOf (document : Fields) : List Fields := objectsAt (contractOf document) "obligations"

def coverageOf (document : Fields) : List Fields := objectsAt document "coverage"

/-- The keys of the obligations with this disposition, in the order of the coverage. -/
def keysWith (disposition : String) (coverage : List Fields) : List String :=
  (coverage.filter fun item => (get item "disposition").isText disposition).map keyOf

/-- The uses of evidence of an entry of the coverage. -/
def usesOf (item : Fields) : List Json := (get item "evidence_uses").array?.getD []

/-- An idea, an obligation and the role of the idea for it. -/
abbrev RoleEntry := String × String × String

/-- What an obligation says of the ideas. -/
def relevanceOf (obligation : Fields) : Roles :=
  (objectsAt obligation "idea_relevance").map fun item => (textAt item "idea_ref", textAt item "role")

/-- The matrix of the answer contract, row by row. -/
def relevance (obligations : List Fields) : List RoleEntry :=
  obligations.flatMap fun obligation =>
    (relevanceOf obligation).map fun entry => (entry.1, keyOf obligation, entry.2)

/-- What an item of the trace says of the obligations. -/
def tracedRoles (item : Fields) : Roles :=
  (objectsAt item "obligation_roles").map fun role => (keyOf role, textAt role "role")

def traceOf (document : Fields) : List Fields := objectsAt document "idea_trace"

/-- The trace of the ideas, idea by idea. -/
def traced (trace : List Fields) : List RoleEntry :=
  trace.flatMap fun item => (tracedRoles item).map fun entry => (textAt item "idea_ref", entry.1, entry.2)

variable {values done : List Json} {fields : Fields} {value : Json} {name code : String}

theorem object_eq_ok_iff : object value code = .ok fields ↔ value = .object fields := by
  cases value <;> simp [object]

theorem list_eq_ok_iff {items : List Json} : list value code = .ok items ↔ value = .array items := by
  cases value <;> simp [list]

theorem memberOf_eq_ok {texts : List String} {plain : String} (found : memberOf value texts code = .ok plain) :
    value = .text plain ∧ plain ∈ texts := by
  obtain ⟨_, found⟩ := check_then_eq_ok_iff.mp found
  cases value with
  | text actual =>
    simp only [Json.text?] at found
    split_ifs at found with inside
    obtain rfl := Except.ok.inj found
    exact ⟨rfl, List.contains_iff_mem.mp inside⟩
  | _ => simp [Json.text?] at found

theorem textAt_of_get {plain : String} (named : get fields name = .text plain) :
    textAt fields name = plain := by
  rw [textAt, named]
  rfl

@[simp] theorem objectsOf_map : objectsOf ([fields].map Json.object) = [fields] := rfl

theorem objectsOf_snoc : objectsOf (values ++ [.object fields]) = objectsOf values ++ [fields] := by
  simp [objectsOf, Json.object?]

/-- Every value is an object. -/
def AllObjects (values : List Json) : Prop := values = (objectsOf values).map .object

theorem AllObjects.snoc (objects : AllObjects values) : AllObjects (values ++ [.object fields]) := by
  rw [AllObjects, objectsOf_snoc, List.map_append, ← objects]
  rfl

theorem listed_of_allObjects (found : get fields name = .array values) (objects : AllObjects values) :
    Listed fields name ∧ objectsAt fields name = objectsOf values := by
  have same : objectsAt fields name = objectsOf values := by
    rw [objectsAt, found]
    rfl
  rw [Listed, same, found, ← objects]
  exact ⟨rfl, rfl⟩

/-! ### The answer contract -/

/-- What the loop over the relevance of the ideas has read. -/
structure ReadRelevance (done : List Json) (roles : Roles) : Prop where
  objects : AllObjects done
  read : roles = (objectsOf done).map fun item => (textAt item "idea_ref", textAt item "role")
  distinct : (roles.map Prod.fst).Nodup

theorem nodup_keys_snoc {α : Type} {entries : List (String × α)} {key : String} {item : α}
    (distinct : (entries.map Prod.fst).Nodup) (new : (entries.lookup key).isNone = true) :
    ((entries ++ [(key, item)]).map Prod.fst).Nodup := by
  rw [List.map_append, List.map_singleton]
  refine List.nodup_append.mpr ⟨distinct, List.nodup_singleton _, ?_⟩
  rintro other member _ same rfl
  obtain ⟨entry, inside, rfl⟩ := List.mem_map.mp member
  rw [Option.isNone_iff_eq_none, List.lookup_eq_none_iff] at new
  simpa [List.mem_singleton.mp same] using new entry inside

theorem collectRelevance_round {candidateRefs : List String} {roles next : Roles}
    (read : ReadRelevance done roles) (round : collectRelevance candidateRefs roles value = .ok next) :
    ReadRelevance (done ++ [value]) next := by
  obtain ⟨item, shape, later⟩ := bind_eq_ok_iff.mp round
  obtain rfl := object_eq_ok_iff.mp shape
  obtain ⟨_, later⟩ := check_then_eq_ok_iff.mp later
  cases named : get item "idea_ref" with
  | text idea =>
    simp only [named, Json.text?, check_then_eq_ok_iff, bind_eq_ok_iff (α := String), require_eq_ok_iff,
      Bool.and_eq_true] at later
    obtain ⟨⟨_, new⟩, role, roleAt, _, _, ⟨⟩⟩ := later
    refine ⟨read.objects.snoc, ?_, nodup_keys_snoc read.distinct new⟩
    rw [objectsOf_snoc, List.map_append, ← read.read, List.map_singleton, textAt_of_get named,
      textAt_of_get (memberOf_eq_ok roleAt).1]
  | _ => simp [named, Json.text?] at later

/-- What the loop over the obligations has read. -/
structure ReadObligations (done : List Json) (obligations : List (String × Roles)) : Prop where
  objects : AllObjects done
  read : obligations = (objectsOf done).map fun item => (keyOf item, relevanceOf item)
  listed : ∀ item ∈ objectsOf done, Listed item "idea_relevance"
  distinct : (obligations.map Prod.fst).Nodup
  once : ∀ obligation ∈ obligations, (obligation.2.map Prod.fst).Nodup

theorem collectObligation_round {candidateRefs : List String} {obligations next : List (String × Roles)}
    (read : ReadObligations done obligations)
    (round : collectObligation candidateRefs obligations value = .ok next) :
    ReadObligations (done ++ [value]) next := by
  simp only [collectObligation, check_then_eq_ok_iff, bind_eq_ok_iff (α := Fields),
    bind_eq_ok_iff (α := String), bind_eq_ok_iff (α := List Json), bind_eq_ok_iff (α := Roles),
    require_eq_ok_iff, object_eq_ok_iff, list_eq_ok_iff] at round
  obtain ⟨item, rfl, _, key, keyAt, _, _, _, _, new, _, values, valuesAt, _, roles, folded, ⟨⟩⟩ := round
  have empty : ReadRelevance [] [] := ⟨rfl, rfl, List.nodup_nil⟩
  have inner : ReadRelevance values roles :=
    foldlM_ok_induction empty (fun _ _ _ _ held round => collectRelevance_round held round) folded
  obtain ⟨listed, same⟩ := listed_of_allObjects valuesAt inner.objects
  have roles : roles = relevanceOf item := by
    rw [relevanceOf, same]
    exact inner.read
  have named : key = keyOf item := (textAt_of_get (requireText_eq_ok_iff.mp keyAt).1).symm
  refine ⟨read.objects.snoc, ?_, ?_, nodup_keys_snoc read.distinct new, ?_⟩
  · rw [objectsOf_snoc, List.map_append, ← read.read, List.map_singleton, named, roles]
  · rw [objectsOf_snoc, List.forall_mem_append, List.forall_mem_singleton]
    exact ⟨read.listed, listed⟩
  · rw [List.forall_mem_append, List.forall_mem_singleton]
    exact ⟨read.once, inner.distinct⟩

/-! ### The coverage -/

variable {obligationKeys evidenceRefs candidateRefs : List String} {obligations : List (String × Roles)}

/-- What the loop over the coverage has read. -/
structure ReadCoverage (done : List Json) (coverage : Coverage) : Prop where
  objects : AllObjects done
  keys : coverage.keys = (objectsOf done).map keyOf
  uses : coverage.uses = (objectsOf done).flatMap usesOf
  listed : ∀ item ∈ objectsOf done, get item "evidence_uses" = .array (usesOf item)
  gaps : coverage.gapKeys = keysWith "gap" (objectsOf done)
  disposed : ∀ item ∈ objectsOf done,
    (get item "disposition").isText "gap" = !(get item "disposition").isText "covered"
  distinct : coverage.keys.Nodup

theorem isText_text {first second : String} : (Json.text first).isText second = decide (first = second) := by
  simp [isText, Json.text?]

theorem keysWith_snoc {disposition : String} {items : List Fields} :
    keysWith disposition (items ++ [fields]) = keysWith disposition items ++
      if (get fields "disposition").isText disposition then [keyOf fields] else [] := by
  rw [keysWith, List.filter_append, List.map_append, keysWith]
  congr 1
  rw [List.filter_singleton]
  cases (get fields "disposition").isText disposition <;> rfl

theorem collectCoverage_round {coverage next : Coverage} (read : ReadCoverage done coverage)
    (round : collectCoverage obligationKeys evidenceRefs candidateRefs coverage value = .ok next) :
    ReadCoverage (done ++ [value]) next := by
  simp only [collectCoverage, check_then_eq_ok_iff, bind_eq_ok_iff (α := Fields),
    bind_eq_ok_iff (α := String), bind_eq_ok_iff (α := List Json), require_eq_ok_iff, object_eq_ok_iff,
    list_eq_ok_iff, Bool.and_eq_true, Bool.not_eq_true'] at round
  obtain ⟨item, rfl, _, key, keyAt, ⟨_, new⟩, disposition, disposedAt, uses, usesAt, _, later⟩ := round
  obtain ⟨disposedText, kind⟩ := memberOf_eq_ok disposedAt
  have named : keyOf item = key := textAt_of_get (requireText_eq_ok_iff.mp keyAt).1
  have used : usesOf item = uses := by
    rw [usesOf, usesAt]
    rfl
  have distinct : (coverage.keys ++ [key]).Nodup := by
    refine List.nodup_append.mpr ⟨read.distinct, List.nodup_singleton _, ?_⟩
    rintro other inside _ same rfl
    rw [List.mem_singleton.mp same] at inside
    simp [inside] at new
  have shape : AllObjects (done ++ [.object item]) := read.objects.snoc
  have keys : coverage.keys ++ [key] = (objectsOf (done ++ [.object item])).map keyOf := by
    rw [objectsOf_snoc, List.map_append, ← read.keys, List.map_singleton, named]
  have flattened : coverage.uses ++ uses = (objectsOf (done ++ [.object item])).flatMap usesOf := by
    rw [objectsOf_snoc, List.flatMap_append, ← read.uses, List.flatMap_singleton, used]
  have listed : ∀ other ∈ objectsOf (done ++ [.object item]),
      get other "evidence_uses" = .array (usesOf other) := by
    rw [objectsOf_snoc, List.forall_mem_append, List.forall_mem_singleton, used]
    exact ⟨read.listed, usesAt⟩
  have kinds : disposition = "covered" ∨ disposition = "gap" := by
    simpa [coverageDispositions] using kind
  have disposed : ∀ other ∈ objectsOf (done ++ [.object item]),
      (get other "disposition").isText "gap" = !(get other "disposition").isText "covered" := by
    rw [objectsOf_snoc, List.forall_mem_append, List.forall_mem_singleton, disposedText]
    refine ⟨read.disposed, ?_⟩
    rcases kinds with rfl | rfl <;> decide
  split_ifs at later with covered
  · obtain ⟨_, ⟨⟩⟩ := check_then_eq_ok_iff.mp later
    refine ⟨shape, keys, flattened, listed, ?_, disposed, distinct⟩
    rw [objectsOf_snoc, keysWith_snoc, ← read.gaps, disposedText, covered, isText_text]
    simp
  · obtain ⟨_, _, ⟨⟩⟩ := bind_eq_ok_iff.mp later
    have gap := kinds.resolve_left covered
    refine ⟨shape, keys, flattened, listed, ?_, disposed, distinct⟩
    rw [objectsOf_snoc, keysWith_snoc, ← read.gaps, disposedText, gap, isText_text, named]
    simp

/-- The two dispositions divide the coverage. -/
theorem keysWith_perm {items : List Fields} (disposed : ∀ item ∈ items,
      (get item "disposition").isText "gap" = !(get item "disposition").isText "covered") :
    (keysWith "covered" items ++ keysWith "gap" items).Perm (items.map keyOf) := by
  have gaps : items.filter (fun item => (get item "disposition").isText "gap") =
      items.filter fun item => !(get item "disposition").isText "covered" :=
    List.filter_congr disposed
  rw [keysWith, keysWith, gaps, ← List.map_append]
  exact (List.filter_append_perm _ items).map keyOf

/-! ### The trace of the ideas -/

/-- What the loop over the roles of an idea has read. -/
structure ReadRoles (expected : Roles) (done : List Json) (actual : Roles) : Prop where
  objects : AllObjects done
  read : actual = (objectsOf done).map fun role => (keyOf role, textAt role "role")
  distinct : (actual.map Prod.fst).Nodup

theorem collectRole_round {expected actual next : Roles} (read : ReadRoles expected done actual)
    (round : collectRole expected actual value = .ok next) : ReadRoles expected (done ++ [value]) next := by
  simp only [collectRole, check_then_eq_ok_iff, bind_eq_ok_iff (α := Fields),
    bind_eq_ok_iff (α := String), require_eq_ok_iff, object_eq_ok_iff] at round
  obtain ⟨role, rfl, _, key, keyAt, new, name, nameAt, ⟨⟩⟩ := round
  refine ⟨read.objects.snoc, ?_, nodup_keys_snoc read.distinct new⟩
  rw [objectsOf_snoc, List.map_append, ← read.read, List.map_singleton, keyOf,
    textAt_of_get (memberOf_eq_ok keyAt).1, textAt_of_get (memberOf_eq_ok nameAt).1]

theorem mem_of_lookup_eq_some {entries : Roles} {key role : String}
    (found : entries.lookup key = some role) : (key, role) ∈ entries := by
  obtain ⟨before, after, same, _⟩ := List.lookup_eq_some_iff.mp found
  rw [same]
  exact List.mem_append_right _ List.mem_cons_self

/-- What the loop over the ideas has read. -/
structure ReadTrace (obligations : List (String × Roles)) (done : List Json) (seen : List String) : Prop where
  objects : AllObjects done
  ideas : seen.reverse = (objectsOf done).map (textAt · "idea_ref")
  listed : ∀ item ∈ objectsOf done, Listed item "obligation_roles"
  roles : ∀ item ∈ objectsOf done, (tracedRoles item).Perm (rolesOf obligations (textAt item "idea_ref"))
  once : ∀ item ∈ objectsOf done, ((tracedRoles item).map Prod.fst).Nodup
  distinct : seen.Nodup

theorem collectIdea_round {seen next : List String} (read : ReadTrace obligations done seen)
    (round : collectIdea candidateRefs obligations seen value = .ok next) :
    ReadTrace obligations (done ++ [value]) next := by
  obtain ⟨item, shape, later⟩ := bind_eq_ok_iff.mp round
  obtain rfl := object_eq_ok_iff.mp shape
  obtain ⟨_, later⟩ := check_then_eq_ok_iff.mp later
  cases named : get item "idea_ref" with
  | text idea =>
    simp only [named, Json.text?, check_then_eq_ok_iff, bind_eq_ok_iff (α := List Json),
      bind_eq_ok_iff (α := Roles), require_eq_ok_iff, list_eq_ok_iff, Bool.and_eq_true, List.all_eq_true,
      decide_eq_true_eq, Bool.not_eq_true'] at later
    obtain ⟨⟨_, new⟩, values, valuesAt, actual, folded, ⟨length, agree⟩, ⟨⟩⟩ := later
    have ideaAt : textAt item "idea_ref" = idea := textAt_of_get named
    have empty : ReadRoles (rolesOf obligations idea) [] [] := ⟨rfl, rfl, List.nodup_nil⟩
    have inner : ReadRoles (rolesOf obligations idea) values actual :=
      foldlM_ok_induction empty (fun _ _ _ _ held round => collectRole_round held round) folded
    obtain ⟨listed, same⟩ := listed_of_allObjects valuesAt inner.objects
    have roles : tracedRoles item = actual := by
      rw [tracedRoles, same]
      exact inner.read.symm
    have perm : actual.Perm (rolesOf obligations idea) :=
      (List.subperm_of_subset inner.distinct.of_map fun entry member =>
        mem_of_lookup_eq_some (agree entry member)).perm_of_length_le length.ge
    refine ⟨read.objects.snoc, ?_, ?_, ?_, ?_, List.nodup_cons.mpr ⟨by simpa using new, read.distinct⟩⟩
    · rw [objectsOf_snoc, List.map_append, ← read.ideas, List.map_singleton, ideaAt, List.reverse_cons]
    · rw [objectsOf_snoc, List.forall_mem_append, List.forall_mem_singleton]
      exact ⟨read.listed, listed⟩
    · rw [objectsOf_snoc, List.forall_mem_append, List.forall_mem_singleton, roles, ideaAt]
      exact ⟨read.roles, perm⟩
    · rw [objectsOf_snoc, List.forall_mem_append, List.forall_mem_singleton, roles]
      exact ⟨read.once, inner.distinct⟩
  | _ => simp [named, Json.text?] at later

theorem lookup_eq_some_of_mem {entries : Roles} {key role : String}
    (distinct : (entries.map Prod.fst).Nodup) (member : (key, role) ∈ entries) :
    entries.lookup key = some role := by
  induction entries with
  | nil => cases member
  | cons entry rest ih =>
    obtain ⟨new, distinct⟩ := List.nodup_cons.mp distinct
    rcases List.mem_cons.mp member with rfl | member
    · exact List.lookup_cons_self
    · have apart : key ≠ entry.1 := fun same => new (same ▸ List.mem_map_of_mem member)
      rw [List.lookup_cons, beq_eq_false_iff_ne.mpr apart]
      exact ih distinct member

theorem mem_rolesOf_iff (once : ∀ obligation ∈ obligations, (obligation.2.map Prod.fst).Nodup)
    {idea key role : String} :
    (key, role) ∈ rolesOf obligations idea ↔
      ∃ obligation ∈ obligations, obligation.1 = key ∧ (idea, role) ∈ obligation.2 := by
  rw [rolesOf, List.mem_filterMap]
  refine exists_congr fun obligation => and_congr_right fun member => ?_
  constructor
  · intro found
    obtain ⟨name, there, same⟩ := Option.map_eq_some_iff.mp found
    obtain ⟨rfl, rfl⟩ := Prod.mk.inj same
    exact ⟨rfl, mem_of_lookup_eq_some there⟩
  · rintro ⟨rfl, inside⟩
    rw [lookup_eq_some_of_mem (once obligation member) inside]
    rfl

/-- Lists of roles make distinct entries when each list has its own name. -/
theorem nodup_entries {items : List Fields} {nameOf : Fields → String} {roles : Fields → Roles}
    (entry : String → String × String → RoleEntry) (names : (items.map nameOf).Nodup)
    (once : ∀ item ∈ items, ((roles item).map Prod.fst).Nodup)
    (injective : ∀ first second one two, entry first one = entry second two → first = second ∧ one = two) :
    (items.flatMap fun item => (roles item).map (entry (nameOf item))).Nodup := by
  rw [List.nodup_flatMap]
  refine ⟨fun item member => (once item member).of_map.map fun one two same =>
    (injective _ _ one two same).2, ?_⟩
  refine (List.pairwise_map.mp names).imp fun {first second} different => ?_
  intro shared inFirst inSecond
  obtain ⟨one, _, rfl⟩ := List.mem_map.mp inFirst
  obtain ⟨two, _, same⟩ := List.mem_map.mp inSecond
  exact different (injective _ _ _ _ same).1.symm

theorem nodup_relevance (rows : ReadObligations values obligations) : (relevance (objectsOf values)).Nodup := by
  have keys : ((objectsOf values).map keyOf).Nodup := by
    have keys := rows.distinct
    rwa [rows.read, List.map_map] at keys
  refine nodup_entries (fun key entry => (entry.1, key, entry.2)) keys (fun item member => ?_) ?_
  · exact rows.once (keyOf item, relevanceOf item) (rows.read ▸ List.mem_map_of_mem member)
  · rintro first second ⟨_, _⟩ ⟨_, _⟩ same
    simp only [Prod.mk.injEq] at same ⊢
    exact ⟨same.2.1, same.1, same.2.2⟩

theorem nodup_traced {seen : List String} (columns : ReadTrace obligations values seen) :
    (traced (objectsOf values)).Nodup := by
  have ideas := List.nodup_reverse.mpr columns.distinct
  rw [columns.ideas] at ideas
  refine nodup_entries (fun idea entry => (idea, entry.1, entry.2)) ideas columns.once ?_
  rintro first second ⟨_, _⟩ ⟨_, _⟩ same
  simp only [Prod.mk.injEq] at same ⊢
  exact same

theorem mem_relevance_iff (rows : ReadObligations values obligations) {idea key role : String} :
    (idea, key, role) ∈ relevance (objectsOf values) ↔
      ∃ obligation ∈ obligations, obligation.1 = key ∧ (idea, role) ∈ obligation.2 := by
  rw [relevance, List.mem_flatMap, rows.read]
  constructor
  · rintro ⟨item, member, entry⟩
    obtain ⟨⟨_, _⟩, inside, same⟩ := List.mem_map.mp entry
    obtain ⟨rfl, rfl, rfl⟩ := by simpa only [Prod.mk.injEq] using same
    exact ⟨_, List.mem_map_of_mem member, rfl, inside⟩
  · rintro ⟨_, row, rfl, inside⟩
    obtain ⟨item, member, rfl⟩ := List.mem_map.mp row
    exact ⟨item, member, List.mem_map.mpr ⟨(idea, role), inside, rfl⟩⟩

theorem mem_traced_iff {seen : List String} (columns : ReadTrace obligations values seen)
    {idea key role : String} :
    (idea, key, role) ∈ traced (objectsOf values) ↔ idea ∈ seen ∧ (key, role) ∈ rolesOf obligations idea := by
  rw [traced, List.mem_flatMap, ← List.mem_reverse, columns.ideas, List.mem_map]
  constructor
  · rintro ⟨item, member, entry⟩
    obtain ⟨⟨_, _⟩, inside, same⟩ := List.mem_map.mp entry
    obtain ⟨rfl, rfl, rfl⟩ := by simpa only [Prod.mk.injEq] using same
    exact ⟨⟨item, member, rfl⟩, (columns.roles item member).mem_iff.mp inside⟩
  · rintro ⟨⟨item, member, rfl⟩, inside⟩
    exact ⟨item, member, List.mem_map.mpr ⟨(key, role), (columns.roles item member).mem_iff.mpr inside, rfl⟩⟩

/-- The rows of the matrix and the columns of the trace have the same entries. -/
theorem traced_perm_relevance {rowValues : List Json} {seen : List String}
    (rows : ReadObligations rowValues obligations) (columns : ReadTrace obligations values seen)
    (complete : ∀ obligation ∈ obligations, ∀ entry ∈ obligation.2, entry.1 ∈ seen) :
    (traced (objectsOf values)).Perm (relevance (objectsOf rowValues)) := by
  refine (List.perm_ext_iff_of_nodup (nodup_traced columns) (nodup_relevance rows)).mpr ?_
  rintro ⟨idea, key, role⟩
  rw [mem_traced_iff columns, mem_relevance_iff rows, mem_rolesOf_iff rows.once, and_iff_right_iff_imp]
  rintro ⟨obligation, member, _, inside⟩
  exact complete obligation member _ inside

/-! ### The document -/

/-- What an accepted document accounts for. -/
structure Accounts (document : Fields) : Prop where
  /-- Each list is one of objects, so that nothing in it is passed over. -/
  obligationsListed : Listed (contractOf document) "obligations"
  relevanceListed : ∀ obligation ∈ obligationsOf document, Listed obligation "idea_relevance"
  coverageListed : Listed document "coverage"
  usesListed : ∀ item ∈ coverageOf document, get item "evidence_uses" = .array (usesOf item)
  traceListed : Listed document "idea_trace"
  rolesListed : ∀ item ∈ traceOf document, Listed item "obligation_roles"
  briefsListed : Listed document "experiment_briefs"
  /-- The obligations are divided into those that are covered and those that are gaps. -/
  distinct : ((obligationsOf document).map keyOf).Nodup
  divided : (keysWith "covered" (coverageOf document) ++ keysWith "gap" (coverageOf document)).Perm
    ((obligationsOf document).map keyOf)
  gaps : ∃ declared, get document "gap_set" = Json.texts declared ∧
    declared.Perm (keysWith "gap" (coverageOf document))
  briefs : ∀ brief ∈ objectsAt document "experiment_briefs", ∃ addressed,
    get brief "gap_obligation_keys" = Json.texts addressed ∧ addressed ≠ [] ∧ addressed.Nodup ∧
      ∀ key ∈ addressed, key ∈ keysWith "gap" (coverageOf document)
  /-- The reuse set has the canonical text of the uses of the coverage, in their order. -/
  reuse : ∃ reused, get document "evidence_reuse_set" = .array reused ∧
    (Json.array reused).dumps = (Json.array ((coverageOf document).flatMap usesOf)).dumps
  /-- The trace is the transpose of the matrix. -/
  traceDistinct : (traced (traceOf document)).Nodup
  transposed : (traced (traceOf document)).Perm (relevance (obligationsOf document))
  experiments : (get document "bundle_disposition").isText "experiments_required" = true ↔
    objectsAt document "experiment_briefs" ≠ []

theorem readObligations_of_validated {contract : Fields} {questionRef ideaSetRef : String}
    (validated : validateAnswerContract digest contract questionRef ideaSetRef candidateRefs = .ok obligations) :
    ∃ values, get contract "obligations" = .array values ∧ ReadObligations values obligations := by
  simp only [validateAnswerContract, check_then_eq_ok_iff, bind_eq_ok_iff (α := List Json),
    list_eq_ok_iff] at validated
  obtain ⟨_, _, _, values, valuesAt, _, folded⟩ := validated
  have empty : ReadObligations [] [] := ⟨rfl, rfl, by simp [objectsOf], List.nodup_nil, by simp⟩
  exact ⟨values, valuesAt,
    foldlM_ok_induction empty (fun _ _ _ _ held round => collectObligation_round held round) folded⟩

/-- What the document says of its coverage, once it was validated. -/
structure ReadDocument (document : Fields) (obligationKeys gapKeys : List String) : Prop where
  listed : Listed document "coverage"
  uses : ∀ item ∈ coverageOf document, get item "evidence_uses" = .array (usesOf item)
  gapKeys : gapKeys = keysWith "gap" (coverageOf document)
  divided : (keysWith "covered" (coverageOf document) ++ keysWith "gap" (coverageOf document)).Perm
    obligationKeys
  gaps : ∃ declared, get document "gap_set" = Json.texts declared ∧
    declared.Perm (keysWith "gap" (coverageOf document))
  reuse : ∃ reused, get document "evidence_reuse_set" = .array reused ∧
    (Json.array reused).dumps = (Json.array ((coverageOf document).flatMap usesOf)).dumps

theorem perm_of_sameSet {first second : List String} (firstDistinct : first.Nodup)
    (secondDistinct : second.Nodup) (same : sameSet first second = true) : first.Perm second :=
  (List.perm_ext_iff_of_nodup firstDistinct secondDistinct).mpr (sameSet_eq_true_iff.mp same)

theorem readDocument_of_validated {gapKeys : List String} (distinct : obligationKeys.Nodup)
    (validated : validateCoverage document obligationKeys evidenceRefs candidateRefs = .ok gapKeys) :
    ReadDocument document obligationKeys gapKeys := by
  simp only [validateCoverage, check_then_eq_ok_iff, bind_eq_ok_iff (α := List Json),
    bind_eq_ok_iff (α := Coverage), bind_eq_ok_iff (α := List String), require_eq_ok_iff, list_eq_ok_iff,
    decide_eq_true_eq, distinctTexts_eq_ok_iff] at validated
  obtain ⟨values, valuesAt, _, coverage, folded, complete, reused, reusedAt, sameTexts, declared,
    ⟨declaredAt, _, declaredDistinct⟩, sameGaps, ⟨⟩⟩ := validated
  have empty : ReadCoverage [] ⟨[], [], []⟩ :=
    ⟨rfl, rfl, rfl, by simp [objectsOf], rfl, by simp [objectsOf], List.nodup_nil⟩
  have read : ReadCoverage values coverage :=
    foldlM_ok_induction empty (fun _ _ _ _ held round => collectCoverage_round held round) folded
  obtain ⟨listed, same⟩ := listed_of_allObjects valuesAt read.objects
  have items : coverageOf document = objectsOf values := same
  have divided := keysWith_perm read.disposed
  rw [← read.keys] at divided
  have gapsDistinct : coverage.gapKeys.Nodup := by
    rw [read.gaps]
    exact (List.nodup_append.mp (divided.nodup_iff.mpr read.distinct)).2.1
  refine ⟨listed, items ▸ read.listed, items ▸ read.gaps, ?_, ⟨declared, declaredAt, ?_⟩,
    ⟨reused, reusedAt, ?_⟩⟩
  · rw [items]
    exact divided.trans (perm_of_sameSet read.distinct distinct complete)
  · rw [items, ← read.gaps]
    exact perm_of_sameSet declaredDistinct gapsDistinct sameGaps
  · rw [items, ← read.uses]
    exact sameTexts

/-- What the loop over the briefs has read. -/
structure ReadBriefs (gapKeys : List String) (done : List Json) : Prop where
  objects : AllObjects done
  accepted : ∀ brief ∈ objectsOf done, ∃ key, AcceptedBrief gapKeys brief key

theorem readBriefs_of_validated {gapKeys : List String} {briefs : List Json}
    (validated : validateBriefs document gapKeys candidateRefs evidenceRefs = .ok briefs) :
    get document "experiment_briefs" = .array briefs ∧ ReadBriefs gapKeys briefs := by
  simp only [validateBriefs, check_then_eq_ok_iff, bind_eq_ok_iff (α := List Json),
    bind_eq_ok_iff (α := List String), list_eq_ok_iff] at validated
  obtain ⟨values, valuesAt, _, keys, folded, ⟨⟩⟩ := validated
  refine ⟨valuesAt, ?_⟩
  refine foldlM_ok_induction (motive := fun done _ => ReadBriefs gapKeys done) ⟨rfl, by simp [objectsOf]⟩ ?_
    folded
  intro done keys value next read round
  obtain ⟨brief, key, rfl, accepted, _, _⟩ := collectBrief_eq_ok round
  refine ⟨read.objects.snoc, ?_⟩
  rw [objectsOf_snoc, List.forall_mem_append, List.forall_mem_singleton]
  exact ⟨read.accepted, key, accepted⟩

theorem readTrace_of_validated (validated : validateIdeaTrace value candidateRefs obligations = .ok ()) :
    ∃ values seen, value = .array values ∧ ReadTrace obligations values seen ∧
      ∀ obligation ∈ obligations, ∀ entry ∈ obligation.2, entry.1 ∈ seen := by
  simp only [validateIdeaTrace, check_then_eq_ok_iff, bind_eq_ok_iff (α := List Json),
    bind_eq_ok_iff (α := List String), require_eq_ok_iff, list_eq_ok_iff] at validated
  obtain ⟨values, valuesAt, _, seen, folded, complete⟩ := validated
  have empty : ReadTrace obligations [] [] :=
    ⟨rfl, rfl, by simp [objectsOf], by simp [objectsOf], by simp [objectsOf], List.nodup_nil⟩
  refine ⟨values, seen, valuesAt,
    foldlM_ok_induction empty (fun _ _ _ _ held round => collectIdea_round held round) folded, ?_⟩
  intro obligation member entry inside
  refine (sameSet_eq_true_iff.mp complete entry.1).mpr (List.mem_dedup.mpr ?_)
  exact List.mem_flatMap.mpr ⟨obligation, member, List.mem_map_of_mem inside⟩

/-- An accepted Plan accounts for every obligation. -/
theorem accounts_of_accepted (digest : String → String) (arguments : PlanArguments) (document : Fields)
    (hash : String) (accepted : validatePlanDocument digest arguments document = .ok hash) :
    Accounts document := by
  simp only [validatePlanDocument, check_then_eq_ok_iff, require_eq_ok_iff,
    bind_eq_ok_iff (α := List Json), bind_eq_ok_iff (α := List String), bind_eq_ok_iff (α := Fields),
    bind_eq_ok_iff (α := List (String × Roles)), object_eq_ok_iff] at accepted
  obtain ⟨_, _, _, _, evidenceRefs, _, candidateRefs, _, contract, contractAt, obligations, answered, gapKeys,
    covered, briefs, briefed, ideas, disposition, _⟩ := accepted
  have contractIs : contractOf document = contract := by
    rw [contractOf, contractAt]
    rfl
  obtain ⟨rowValues, rowsAt, rows⟩ := readObligations_of_validated answered
  obtain ⟨obligationsListed, rowItems⟩ := listed_of_allObjects rowsAt rows.objects
  have read := readDocument_of_validated rows.distinct covered
  obtain ⟨briefsAt, briefRead⟩ := readBriefs_of_validated briefed
  obtain ⟨briefsListed, briefItems⟩ := listed_of_allObjects briefsAt briefRead.objects
  obtain ⟨columnValues, seen, columnsAt, columns, complete⟩ := readTrace_of_validated ideas
  obtain ⟨traceListed, columnItems⟩ := listed_of_allObjects columnsAt columns.objects
  have rowsIs : obligationsOf document = objectsOf rowValues := by rw [obligationsOf, contractIs, rowItems]
  have keys : obligations.map Prod.fst = (obligationsOf document).map keyOf := by
    rw [rowsIs, rows.read, List.map_map]
    rfl
  have columnsIs : traceOf document = objectsOf columnValues := columnItems
  refine {
    obligationsListed := contractIs ▸ obligationsListed
    relevanceListed := rowsIs ▸ rows.listed
    coverageListed := read.listed
    usesListed := read.uses
    traceListed := traceListed
    rolesListed := columnsIs ▸ columns.listed
    briefsListed := briefsListed
    distinct := keys ▸ rows.distinct
    divided := keys ▸ read.divided
    gaps := read.gaps
    briefs := ?_
    reuse := read.reuse
    traceDistinct := columnsIs ▸ nodup_traced columns
    transposed := ?_
    experiments := ?_ }
  · rw [briefItems]
    intro brief member
    obtain ⟨key, accepted⟩ := briefRead.accepted brief member
    obtain ⟨addressed, found, some', within⟩ := accepted.gaps
    obtain ⟨addressedAt, _, distinct⟩ := distinctTexts_eq_ok_iff.mp found
    exact ⟨addressed, addressedAt, some', distinct, read.gapKeys ▸ within⟩
  · rw [columnsIs, rowsIs]
    exact traced_perm_relevance rows columns complete
  · have empty : objectsAt document "experiment_briefs" = [] ↔ briefs = [] := by
      rw [briefItems]
      constructor
      · intro none
        rw [briefRead.objects, none, List.map_nil]
      · rintro rfl
        rfl
    have known : get document "bundle_disposition" =
        .text (if briefs.isEmpty then "no_new_experiment_required" else "experiments_required") := by
      cases shown : get document "bundle_disposition" <;> simp_all [isText, Json.text?]
    rw [known, isText_text, decide_eq_true_eq, ne_eq, empty]
    cases briefs <;> simp

/-! ### An idea that is not relevant -/

/-- A plan with one gap, which says of the only idea that it is not relevant. -/
def irrelevantDocument : Fields :=
  [("schema_ref", .text planDocumentSchemaRef), ("kind", .text "PlanDocument"),
    ("question_ref", .text "question"), ("idea_set_ref", .text "ideas"), ("context_pack_ref", .text "pack"),
    ("answer_contract", .object [("source_question_ref", .text "question"),
      ("source_idea_set_ref", .text "ideas"), ("answer_contract_hash", .text "hash"),
      ("obligations", .array [.object [("obligation_key", .text "gap"), ("statement", .text "statement"),
        ("minimum_support", .text "support"), ("question_trace", .array [.text "answer_shape"]),
        ("idea_relevance", .array [.object [("idea_ref", .text "idea"), ("role", .text "not_relevant"),
          ("rationale", .text "unrelated")]])]])]),
    ("evidence_reuse_set", .array []),
    ("coverage", .array [.object [("obligation_key", .text "gap"), ("disposition", .text "gap"),
      ("evidence_uses", .array []), ("insufficiency", .text "open")]]),
    ("gap_set", .array [.text "gap"]), ("experiment_briefs", .array []),
    ("idea_trace", .array [.object [("idea_ref", .text "idea"), ("obligation_roles", .array
      [.object [("obligation_key", .text "gap"), ("role", .text "not_relevant")]])]]),
    ("bundle_disposition", .text "no_new_experiment_required"),
    ("source_bindings", .object [("question_ref", .text "question"), ("idea_set_ref", .text "ideas"),
      ("context_pack_ref", .text "pack"),
      ("context_pack_hash", .text (String.ofList (List.replicate 64 '0'))),
      ("evidence_reference_revision", .integer 0), ("selected_evidence_bindings", .array [])])]

theorem irrelevantDocument_accepted :
    ∃ hash, validatePlanDocument (fun _ => "hash") paddedArguments irrelevantDocument = .ok hash :=
  discard_eq_ok_iff.mp (by decide +kernel)

/-- The idea is traced to the obligation, which names it only as not relevant. -/
theorem irrelevant_idea_is_traced :
    (∃ hash, validatePlanDocument (fun _ => "hash") paddedArguments irrelevantDocument = .ok hash) ∧
      (∃ role, ("idea", "gap", role) ∈ traced (traceOf irrelevantDocument)) ∧
      ∀ role, ("idea", "gap", role) ∈ relevance (obligationsOf irrelevantDocument) → role = "not_relevant" := by
  have rows : relevance (obligationsOf irrelevantDocument) = [("idea", "gap", "not_relevant")] := by
    decide +kernel
  have columns : traced (traceOf irrelevantDocument) = [("idea", "gap", "not_relevant")] := by
    decide +kernel
  refine ⟨irrelevantDocument_accepted, ⟨"not_relevant", by rw [columns]; simp⟩, fun role member => ?_⟩
  rw [rows] at member
  simpa using member

theorem accounts_of_irrelevantDocument : Accounts irrelevantDocument := by
  obtain ⟨hash, accepted⟩ := irrelevantDocument_accepted
  exact accounts_of_accepted _ _ _ hash accepted

end MetaResearch.Plan

import MetaResearch.ToMathlib.Dict
import Mathlib.Data.Set.Insert
import Mathlib.Order.Defs.LinearOrder

/-! # The least item of each key

A dictionary that keeps, of the items put in under one key, the one with the least rank. What it holds does not
depend on the order in which the items come, as far as the ranks tell the items of one key apart.
-/

namespace MetaResearch

variable {α κ β : Type*} [DecidableEq κ] [LinearOrder β] {key : α → κ} {rank : α → β}

/-- Keep an item unless an item of its key is held that has no greater rank. -/
def keepLeastBy (key : α → κ) (rank : α → β) (held : List (κ × α)) (item : α) : List (κ × α) :=
  if (held.lookup (key item)).all fun previous => rank item < rank previous then Dict.set (key item) item held
  else held

/-- The dictionary holds an item of least rank for each key of a set of items. -/
structure IsLeastBy (key : α → κ) (rank : α → β) (items : Set α) (held : List (κ × α)) : Prop where
  nodup : (held.map Prod.fst).Nodup
  sound : ∀ k item, held.lookup k = some item → item ∈ items ∧ key item = k
  least : ∀ k item, held.lookup k = some item → ∀ other ∈ items, key other = k → rank item ≤ rank other
  covers : ∀ item ∈ items, ∃ other, held.lookup (key item) = some other

theorem IsLeastBy.empty : IsLeastBy key rank ∅ [] :=
  ⟨List.nodup_nil, nofun, nofun, fun _ member => absurd member (Set.notMem_empty _)⟩

theorem IsLeastBy.keep {items : Set α} {held : List (κ × α)} (least : IsLeastBy key rank items held) (item : α) :
    IsLeastBy key rank (insert item items) (keepLeastBy key rank held item) := by
  unfold keepLeastBy
  split_ifs with better
  · refine ⟨Dict.nodup_keys_set least.nodup, fun k found there => ?_, fun k found there other member same => ?_,
      fun other member => ?_⟩
    · rcases Dict.lookup_set_cases there with ⟨rfl, rfl⟩ | there
      · exact ⟨Set.mem_insert _ _, rfl⟩
      · exact ⟨Set.mem_insert_of_mem _ (least.sound k found there).1, (least.sound k found there).2⟩
    · by_cases here : k = key item
      · subst here
        obtain rfl := Option.some.inj ((Dict.lookup_set_self _ _ _).symm.trans there)
        rcases Set.mem_insert_iff.mp member with rfl | member
        · exact le_refl _
        · obtain ⟨previous, before⟩ := least.covers other member
          rw [same] at before
          rw [before, Option.all_some, decide_eq_true_eq] at better
          exact better.le.trans (least.least _ _ before other member same)
      · rw [Dict.lookup_set_of_ne here] at there
        rcases Set.mem_insert_iff.mp member with rfl | member
        · exact absurd same.symm here
        · exact least.least k found there other member same
    · by_cases here : key other = key item
      · exact ⟨item, by rw [here, Dict.lookup_set_self]⟩
      · rcases Set.mem_insert_iff.mp member with rfl | member
        · exact absurd rfl here
        · obtain ⟨previous, before⟩ := least.covers other member
          exact ⟨previous, by rw [Dict.lookup_set_of_ne here, before]⟩
  · obtain ⟨previous, before, worse⟩ : ∃ previous, held.lookup (key item) = some previous ∧
        rank previous ≤ rank item := by
      cases before : held.lookup (key item) with
      | none => exact absurd (by rw [before]; rfl) better
      | some previous =>
        rw [before, Option.all_some, decide_eq_true_eq, not_lt] at better
        exact ⟨previous, rfl, better⟩
    refine ⟨least.nodup, fun k found there => ?_, fun k found there other member same => ?_, fun other member => ?_⟩
    · exact ⟨Set.mem_insert_of_mem _ (least.sound k found there).1, (least.sound k found there).2⟩
    · rcases Set.mem_insert_iff.mp member with rfl | member
      · subst same
        obtain rfl := Option.some.inj (before.symm.trans there)
        exact worse
      · exact least.least k found there other member same
    · rcases Set.mem_insert_iff.mp member with rfl | member
      · exact ⟨previous, before⟩
      · exact least.covers other member

theorem IsLeastBy.foldl {items : Set α} {held : List (κ × α)} (least : IsLeastBy key rank items held)
    (more : List α) : IsLeastBy key rank (items ∪ {item | item ∈ more}) (more.foldl (keepLeastBy key rank) held) := by
  induction more generalizing items held with
  | nil => simpa using least
  | cons item rest ih =>
    have whole : items ∪ {other | other ∈ item :: rest} = insert item items ∪ {other | other ∈ rest} := by
      ext other
      simp only [Set.mem_union, Set.mem_ofPred_eq, List.mem_cons, Set.mem_insert_iff]
      tauto
    rw [whole]
    exact ih (least.keep item)

/-- Items may be left out that are not less than one of their key that is not. -/
theorem IsLeastBy.of_subset {items others : Set α} {held : List (κ × α)} (least : IsLeastBy key rank items held)
    (subset : items ⊆ others) (below : ∀ other ∈ others, ∃ item ∈ items, key item = key other ∧
      rank item ≤ rank other) : IsLeastBy key rank others held := by
  refine ⟨least.nodup, fun k found there => ?_, fun k found there other member same => ?_, fun other member => ?_⟩
  · exact ⟨subset (least.sound k found there).1, (least.sound k found there).2⟩
  · obtain ⟨item, held, keys, ranks⟩ := below other member
    exact (least.least k found there item held (keys.trans same)).trans ranks
  · obtain ⟨item, held, keys, _⟩ := below other member
    obtain ⟨found, there⟩ := least.covers item held
    exact ⟨found, by rw [← keys, there]⟩

/-- Where the ranks tell the items of a key apart, two such dictionaries hold the same. -/
theorem IsLeastBy.perm {items : Set α} {held other : List (κ × α)} (first : IsLeastBy key rank items held)
    (second : IsLeastBy key rank items other)
    (apart : ∀ item ∈ items, ∀ other ∈ items, key item = key other → rank item = rank other → item = other) :
    held.Perm other := by
  have agree : ∀ {held other : List (κ × α)}, IsLeastBy key rank items held → IsLeastBy key rank items other →
      ∀ k item, held.lookup k = some item → other.lookup k = some item := by
    intro held other first second k item there
    obtain ⟨member, rfl⟩ := first.sound k item there
    obtain ⟨found, also⟩ := second.covers item member
    obtain ⟨present, same⟩ := second.sound _ found also
    have ranks : rank item = rank found :=
      le_antisymm (first.least _ item there found present same) (second.least _ found also item member rfl)
    rw [apart item member found present same.symm ranks]
    rwa [apart item member found present same.symm ranks] at also
  refine (List.perm_ext_iff_of_nodup first.nodup.of_map second.nodup.of_map).mpr fun ⟨k, item⟩ => ?_
  rw [Dict.mem_iff_lookup first.nodup, Dict.mem_iff_lookup second.nodup]
  exact ⟨agree first second _ _, agree second first _ _⟩

end MetaResearch

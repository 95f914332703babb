import Mathlib.Data.List.Nodup
import Mathlib.Data.List.Sort

/-! # Sorting by a key

A stable sort by a key does not depend on the order of a list of distinct items exactly when the items
have distinct keys.
-/

namespace MetaResearch

variable {α κ : Type} [LinearOrder κ]

/-- `sorted(items, key=key)` -/
def sortByKey (key : α → κ) (items : List α) : List α :=
  items.insertionSort fun first second => key first ≤ key second

theorem sortByKey_perm (key : α → κ) (items : List α) : (sortByKey key items).Perm items :=
  List.perm_insertionSort _ items

theorem sortByKey_sorted (key : α → κ) (items : List α) :
    ((sortByKey key items).map key).Pairwise (· ≤ ·) := by
  have total : Std.Total fun first second : α => key first ≤ key second :=
    ⟨fun first second => le_total (key first) (key second)⟩
  have transitive : IsTrans α fun first second : α => key first ≤ key second :=
    ⟨fun _ _ _ => le_trans⟩
  exact List.pairwise_map.mpr (List.pairwise_insertionSort _ items)

/-- Items that their keys tell apart are sorted to one list. -/
theorem sortByKey_eq_of_perm {key : α → κ} {first second : List α} (permuted : first.Perm second)
    (apart : ∀ item ∈ first, ∀ other ∈ first, key item = key other → item = other) :
    sortByKey key first = sortByKey key second := by
  have sorted : (sortByKey key first).Perm (sortByKey key second) :=
    (sortByKey_perm key first).trans (permuted.trans (sortByKey_perm key second).symm)
  refine sorted.eq_of_pairwise ?_ (List.pairwise_map.mp (sortByKey_sorted key first))
    (List.pairwise_map.mp (sortByKey_sorted key second))
  intro item other member present before after
  have firstMember := (sortByKey_perm key first).mem_iff.mp member
  have otherMember := permuted.mem_iff.mpr ((sortByKey_perm key second).mem_iff.mp present)
  exact apart item firstMember other otherMember (le_antisymm before after)

/-- A list of distinct items holds two items in one order only. -/
private theorem not_both_orders {items : List α} {first second : α} (distinct : items.Nodup)
    (forth : [first, second].Sublist items) : ¬ [second, first].Sublist items := by
  induction items with
  | nil => cases forth
  | cons item rest ih =>
    obtain ⟨new, distinct⟩ := List.nodup_cons.mp distinct
    intro back
    cases forth with
    | cons _ forth =>
      cases back with
      | cons _ back => exact ih distinct forth back
      | cons_cons _ _ => exact new (forth.subset (by simp))
    | cons_cons _ forth =>
      cases back with
      | cons _ back => exact new (back.subset (by simp))
      | cons_cons _ _ => exact new (forth.subset (by simp))

/-- Two items of one key keep their order, so a list and its reverse are sorted differently. -/
theorem nodup_keys_of_sortByKey_reverse {key : α → κ} {items : List α} (distinct : items.Nodup)
    (same : sortByKey key items = sortByKey key items.reverse) : (items.map key).Nodup := by
  rw [List.Nodup, List.pairwise_map, List.pairwise_iff_forall_sublist]
  intro first second inOrder tied
  have forth : [first, second].Sublist (sortByKey key items) :=
    List.pair_sublist_insertionSort tied.le inOrder
  have back : [second, first].Sublist (sortByKey key items) := by
    rw [same]
    exact List.pair_sublist_insertionSort tied.ge (by simpa using inOrder.reverse)
  have sortedDistinct : (sortByKey key items).Nodup := (sortByKey_perm key items).nodup_iff.mpr distinct
  exact not_both_orders sortedDistinct forth back

end MetaResearch

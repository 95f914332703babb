import Mathlib.Data.List.Chain
import Mathlib.Data.List.Nodup

/-! # Fresh keys along a list

A list has no duplicate when neighbours differ and no value comes back later; a walk that compares each
item with everything it has left behind finds both.
-/

namespace MetaResearch

variable {α β : Type*}

/-- No value comes back after another one. -/
def NoReturn (values : List α) : Prop :=
  ∀ last < values.length, ∀ first < last, first + 1 ≠ last → values[first]? ≠ values[last]?

instance [DecidableEq α] (values : List α) : Decidable (NoReturn values) :=
  inferInstanceAs (Decidable (∀ last < values.length, ∀ first < last, _))

theorem nodup_iff_isChain_ne_and_noReturn {values : List α} :
    values.Nodup ↔ values.IsChain (· ≠ ·) ∧ NoReturn values := by
  constructor
  · intro distinct
    exact ⟨List.Pairwise.isChain distinct, fun last within first before _ =>
      List.nodup_iff_getElem?_ne_getElem?.mp distinct first last before within⟩
  · rintro ⟨neighbours, noReturn⟩
    refine List.nodup_iff_getElem?_ne_getElem?.mpr fun first last before within => ?_
    by_cases adjacent : first + 1 = last
    · subst adjacent
      rw [List.getElem?_eq_getElem (Nat.lt_of_succ_lt within), List.getElem?_eq_getElem within]
      exact fun same => List.isChain_iff_getElem.mp neighbours first within (Option.some.inj same)
    · exact noReturn last within first before adjacent

/-- The key of each item is neither that of the item before it nor one that was left behind earlier. -/
def WalksFresh (key : α → β) (past : List β) (previous : α) : List α → Prop
  | [] => True
  | item :: rest => key item ∉ key previous :: past ∧ WalksFresh key (key previous :: past) item rest

namespace WalksFresh

variable {key : α → β} {past : List β} {previous : α} {rest : List α}

theorem notMem (walks : WalksFresh key past previous rest) :
    ∀ item ∈ rest, key item ∉ key previous :: past := by
  induction rest generalizing past previous with
  | nil => simp
  | cons head rest ih =>
    refine List.forall_mem_cons.mpr ⟨walks.1, fun item member => ?_⟩
    exact List.not_mem_of_not_mem_cons (ih walks.2 item member)

theorem nodup (walks : WalksFresh key past previous rest) : ((previous :: rest).map key).Nodup := by
  induction rest generalizing past previous with
  | nil => exact List.nodup_singleton _
  | cons head rest ih =>
    rw [List.map_cons, List.nodup_cons]
    refine ⟨fun member => ?_, ih walks.2⟩
    obtain ⟨item, present, same⟩ := List.mem_map.mp member
    exact walks.notMem item present (same ▸ List.mem_cons_self)

end WalksFresh

end MetaResearch

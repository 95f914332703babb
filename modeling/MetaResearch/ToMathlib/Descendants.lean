import Mathlib.Data.Nat.Notation
import Mathlib.Data.List.Dedup
import Mathlib.Logic.Relation

/-! # Descendants in a finite graph

The nodes that a list of edges leads to from a start, computed in rounds that repeat until one adds
nothing. An edge whose target does not lead to its source keeps a graph acyclic.
-/

namespace MetaResearch

variable {κ : Type} [DecidableEq κ]

/-- The targets that one more round adds. -/
def newTargets (edges : List (κ × κ)) (reached : List κ) : List κ :=
  (edges.filter fun edge => reached.contains edge.1 && !reached.contains edge.2).map Prod.snd

/-- The nodes reached in at most `fuel` more rounds; the number of edges is enough. -/
def spread (edges : List (κ × κ)) : ℕ → List κ → List κ
  | 0, reached => reached
  | fuel + 1, reached =>
    let added := newTargets edges reached
    if added.isEmpty then reached else spread edges fuel (added ++ reached)

/-- The nodes that at least one edge leads to from the start. -/
def descendants (edges : List (κ × κ)) (start : κ) : List κ :=
  spread edges edges.length ((edges.filter fun edge => edge.1 = start).map Prod.snd)

/-- The relation of a list of edges. -/
def Edge (edges : List (κ × κ)) (source target : κ) : Prop := (source, target) ∈ edges

/-- No node leads back to itself. -/
def Acyclic (edges : List (κ × κ)) : Prop := ∀ node, ¬ Relation.TransGen (Edge edges) node node

variable {edges : List (κ × κ)} {start target : κ} {reached : List κ}

private theorem mem_newTargets :
    target ∈ newTargets edges reached ↔
      ∃ source ∈ reached, (source, target) ∈ edges ∧ target ∉ reached := by
  simp only [newTargets, List.mem_map, List.mem_filter, Bool.and_eq_true, Bool.not_eq_true',
    List.contains_iff_mem, Prod.exists, exists_eq_right]
  constructor
  · rintro ⟨source, edge, inside, outside⟩
    exact ⟨source, inside, edge, by simpa using outside⟩
  · rintro ⟨source, inside, edge, outside⟩
    exact ⟨source, edge, inside, by simpa using outside⟩

private theorem sound_spread {fuel : ℕ}
    (sound : ∀ node ∈ reached, Relation.TransGen (Edge edges) start node) :
    ∀ node ∈ spread edges fuel reached, Relation.TransGen (Edge edges) start node := by
  induction fuel generalizing reached with
  | zero => exact sound
  | succ fuel ih =>
    unfold spread
    dsimp only
    split_ifs
    · exact sound
    · refine ih fun node member => ?_
      rcases List.mem_append.mp member with new | old
      · obtain ⟨source, inside, edge, _⟩ := mem_newTargets.mp new
        exact (sound source inside).tail edge
      · exact sound node old

private theorem subset_spread {fuel : ℕ} : reached ⊆ spread edges fuel reached := by
  induction fuel generalizing reached with
  | zero => exact fun _ => id
  | succ fuel ih =>
    unfold spread
    dsimp only
    split_ifs
    · exact fun _ => id
    · exact fun node member => ih (List.mem_append_right _ member)

/-- Enough rounds end in a set that no edge leaves. -/
private theorem closed_spread {fuel : ℕ}
    (enough : (edges.filter fun edge => !reached.contains edge.2).length ≤ fuel) :
    ∀ source ∈ spread edges fuel reached, ∀ target, (source, target) ∈ edges →
      target ∈ spread edges fuel reached := by
  induction fuel generalizing reached with
  | zero =>
    intro source _ target edge
    have none_left := List.length_eq_zero_iff.mp (Nat.le_zero.mp enough)
    simpa [spread] using List.filter_eq_nil_iff.mp none_left (source, target) edge
  | succ fuel ih =>
    unfold spread
    dsimp only
    split_ifs with done
    · intro source inside target edge
      by_contra missing
      have new : target ∈ newTargets edges reached :=
        mem_newTargets.mpr ⟨source, inside, edge, missing⟩
      rw [List.isEmpty_iff.mp done] at new
      exact List.not_mem_nil new
    · refine ih ?_
      obtain ⟨added, new⟩ :=
        List.exists_mem_of_ne_nil _ fun empty => done (List.isEmpty_iff.mpr empty)
      obtain ⟨source, _, edge, missing⟩ := mem_newTargets.mp new
      have fewer : (edges.filter fun edge =>
          !(newTargets edges reached ++ reached).contains edge.2) =
          (edges.filter fun edge => !reached.contains edge.2).filter fun edge =>
            !(newTargets edges reached).contains edge.2 := by
        rw [List.filter_filter]
        congr 1
        funext edge
        simp
      rw [fewer]
      have shorter : ((edges.filter fun edge => !reached.contains edge.2).filter fun edge =>
          !(newTargets edges reached).contains edge.2).length <
          (edges.filter fun edge => !reached.contains edge.2).length :=
        List.length_filter_lt_length_iff_exists.mpr
          ⟨(source, added), List.mem_filter.mpr ⟨edge, by simpa using missing⟩, by simpa using new⟩
      omega

/-- The computed descendants are those of the graph. -/
theorem mem_descendants_iff :
    target ∈ descendants edges start ↔ Relation.TransGen (Edge edges) start target := by
  have first {node : κ} :
      node ∈ (edges.filter fun edge => edge.1 = start).map Prod.snd ↔ (start, node) ∈ edges := by
    simp [List.mem_map, List.mem_filter]
  constructor
  · exact fun member => sound_spread (fun node inside => .single (first.mp inside)) target member
  · intro chain
    induction chain with
    | single edge => exact subset_spread (first.mpr edge)
    | tail _ edge ih => exact closed_spread (List.length_filter_le _ _) _ ih _ edge

omit [DecidableEq κ] in
/-- A walk over one more edge either avoids it, or reaches its source and starts again from its
target. -/
private theorem transGen_cons {source first last : κ}
    (chain : Relation.TransGen (Edge ((source, target) :: edges)) first last) :
    Relation.TransGen (Edge edges) first last ∨
      Relation.ReflTransGen (Edge edges) first source ∧
        Relation.ReflTransGen (Edge edges) target last := by
  have one {a b : κ} (edge : Edge ((source, target) :: edges) a b) :
      Edge edges a b ∨ a = source ∧ b = target := by
    rcases List.mem_cons.mp edge with same | old
    · exact .inr (Prod.mk.inj same)
    · exact .inl old
  induction chain with
  | single edge =>
    rcases one edge with old | ⟨rfl, rfl⟩
    · exact .inl (.single old)
    · exact .inr ⟨.refl, .refl⟩
  | tail _ edge ih =>
    rcases one edge with old | ⟨rfl, rfl⟩
    · rcases ih with chain | ⟨before, after⟩
      · exact .inl (chain.tail old)
      · exact .inr ⟨before, after.tail old⟩
    · rcases ih with chain | ⟨before, _⟩
      · exact .inr ⟨chain.to_reflTransGen, .refl⟩
      · exact .inr ⟨before, .refl⟩

omit [DecidableEq κ] in
/-- An edge whose target does not lead back to its source keeps the graph acyclic. -/
theorem Acyclic.cons {source : κ} (acyclic : Acyclic edges) (apart : source ≠ target)
    (forward : ¬ Relation.TransGen (Edge edges) target source) :
    Acyclic ((source, target) :: edges) := by
  intro node cycle
  rcases transGen_cons cycle with old | ⟨before, after⟩
  · exact acyclic node old
  · rcases Relation.reflTransGen_iff_eq_or_transGen.mp (after.trans before) with same | chain
    · exact apart same
    · exact forward chain

omit [DecidableEq κ] in
theorem acyclic_nil : Acyclic ([] : List (κ × κ)) := by
  intro node cycle
  obtain ⟨next, edge, _⟩ := Relation.TransGen.head'_iff.mp cycle
  exact List.not_mem_nil edge

end MetaResearch

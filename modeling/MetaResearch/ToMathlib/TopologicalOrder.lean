import MetaResearch.ToMathlib.Saturation
import MetaResearch.ToMathlib.SortByKey

/-! # Topological orders

A dependency list has ranks that decrease exactly when its needs are keys of nodes and its nodes can be put in an
order in which every node comes behind those that it needs.
-/

namespace MetaResearch

variable {ν κ : Type} [DecidableEq κ] {key : ν → κ} {needs : ν → List κ} {nodes : List ν}

/-- All nodes, in an order in which a node comes behind each node whose key it needs. -/
structure TopologicalOrder (key : ν → κ) (needs : ν → List κ) (nodes order : List ν) : Prop where
  perm : order.Perm nodes
  behind : ∀ node ∈ nodes, ∀ other ∈ nodes, key other ∈ needs node →
    (order.map key).idxOf (key other) < (order.map key).idxOf (key node)

/-- Along keys of growing rank, a smaller rank comes first. -/
theorem idxOf_lt_of_rank_lt {rank : κ → ℕ} {keys : List κ} {first second : κ}
    (sorted : (keys.map rank).Pairwise (· ≤ ·)) (firstMember : first ∈ keys) (secondMember : second ∈ keys)
    (smaller : rank first < rank second) : keys.idxOf first < keys.idxOf second := by
  induction keys with
  | nil => cases firstMember
  | cons head rest ih =>
    obtain ⟨least, later⟩ := List.pairwise_cons.mp sorted
    have apart : first ≠ second := fun same => Nat.lt_irrefl _ (same ▸ smaller)
    by_cases here : head = first
    · rw [here, List.idxOf_cons_self, List.idxOf_cons_ne _ apart]
      exact Nat.succ_pos _
    · have behind := (List.mem_cons.mp firstMember).resolve_left (Ne.symm here)
      have other : head ≠ second := by
        rintro rfl
        have bound := least _ (List.mem_map_of_mem behind)
        omega
      rw [List.idxOf_cons_ne _ here, List.idxOf_cons_ne _ other]
      exact Nat.succ_lt_succ (ih later behind ((List.mem_cons.mp secondMember).resolve_left (Ne.symm other)))

/-- A dependency list is ranked exactly when it is closed and has a topological order. -/
theorem exists_ranked_iff :
    (∃ rank, Ranked key needs nodes rank) ↔
      (∀ node ∈ nodes, ∀ dependency ∈ needs node, dependency ∈ nodes.map key) ∧
        ∃ order, TopologicalOrder key needs nodes order := by
  constructor
  · rintro ⟨rank, ranked⟩
    refine ⟨fun node present dependency need => (ranked node present dependency need).1,
      sortByKey (rank ∘ key) nodes, sortByKey_perm _ nodes, ?_⟩
    intro node present other there need
    have sorted := sortByKey_sorted (rank ∘ key) nodes
    rw [← List.map_map] at sorted
    have member {node : ν} (present : node ∈ nodes) : key node ∈ (sortByKey (rank ∘ key) nodes).map key :=
      List.mem_map_of_mem ((sortByKey_perm _ nodes).mem_iff.mpr present)
    exact idxOf_lt_of_rank_lt sorted (member there) (member present) (ranked node present _ need).2
  · rintro ⟨closed, order, topological⟩
    refine ⟨(order.map key).idxOf, fun node present dependency need => ?_⟩
    have known := closed node present dependency need
    obtain ⟨other, there, rfl⟩ := List.mem_map.mp known
    exact ⟨known, topological.behind node present other there need⟩

end MetaResearch

import Mathlib.Data.Nat.Notation
import Mathlib.Data.List.Dedup
import Mathlib.Data.List.Perm.Subperm
import Mathlib.Logic.Relation

/-! # Saturation of a dependency list

Each node has a key and the keys it needs. A round reaches the nodes whose needs are all reached;
rounds repeat until one adds nothing. Saturation reaches every key exactly when the needs are keys
of nodes and have ranks that decrease, so that no key needs itself along a chain.
-/

namespace MetaResearch

variable {ν κ : Type} [DecidableEq κ]

/-- The keys reached in at most `fuel` rounds; the number of nodes is enough. -/
def saturate (key : ν → κ) (needs : ν → List κ) (nodes : List ν) : ℕ → List κ → List κ
  | 0, reached => reached
  | fuel + 1, reached =>
    let added := (nodes.filter fun node =>
      (needs node).all (reached.contains ·) && !reached.contains (key node)).map key
    if added.isEmpty then reached else saturate key needs nodes fuel (added ++ reached)

/-- The keys that all rounds reach. -/
def reachable (key : ν → κ) (needs : ν → List κ) (nodes : List ν) : List κ :=
  saturate key needs nodes nodes.length []

/-- The loop over rounds, which ends with a round that adds nothing, unless its fuel does not last. -/
def saturateLoop (key : ν → κ) (needs : ν → List κ) (nodes : List ν) : ℕ → List κ → Option (List κ)
  | 0, _ => none
  | fuel + 1, reached =>
    let added := (nodes.filter fun node =>
      (needs node).all (reached.contains ·) && !reached.contains (key node)).map key
    if added.isEmpty then some reached else saturateLoop key needs nodes fuel (added ++ reached)

/-- One key needs another through some node. -/
def Needs (key : ν → κ) (needs : ν → List κ) (nodes : List ν) (dependent dependency : κ) : Prop :=
  ∃ node ∈ nodes, key node = dependent ∧ dependency ∈ needs node

/-- The needs are keys of nodes, of smaller rank than the node itself. -/
def Ranked (key : ν → κ) (needs : ν → List κ) (nodes : List ν) (rank : κ → ℕ) : Prop :=
  ∀ node ∈ nodes, ∀ dependency ∈ needs node,
    dependency ∈ nodes.map key ∧ rank dependency < rank (key node)

variable {key : ν → κ} {needs : ν → List κ} {nodes : List ν}

/-- The keys added by one round. -/
private def round (key : ν → κ) (needs : ν → List κ) (nodes : List ν) (reached : List κ) : List κ :=
  (nodes.filter fun node =>
    (needs node).all (reached.contains ·) && !reached.contains (key node)).map key

private theorem mem_round {reached : List κ} {k : κ} :
    k ∈ round key needs nodes reached ↔
      ∃ node ∈ nodes, (∀ d ∈ needs node, d ∈ reached) ∧ key node ∉ reached ∧ key node = k := by
  simp [round, and_assoc]

private theorem saturate_succ (fuel : ℕ) (reached : List κ) :
    saturate key needs nodes (fuel + 1) reached =
      if (round key needs nodes reached).isEmpty then reached
      else saturate key needs nodes fuel (round key needs nodes reached ++ reached) := rfl

/-! ### What is reached is ranked -/

/-- The age of a key among the reached ones, the oldest being last. -/
private def age (reached : List κ) (k : κ) : ℕ := reached.reverse.idxOf k

private theorem age_append_of_mem {added reached : List κ} {k : κ} (member : k ∈ reached) :
    age (added ++ reached) k = age reached k := by
  rw [age, List.reverse_append, List.idxOf_append_of_mem (List.mem_reverse.mpr member)]
  rfl

private theorem age_lt_of_mem_of_not_mem {added reached : List κ} {old new : κ}
    (member : old ∈ reached) (fresh : new ∉ reached) :
    age (added ++ reached) old < age (added ++ reached) new := by
  rw [age_append_of_mem member, age, age, List.reverse_append,
    List.idxOf_append_of_notMem (List.mem_reverse.not.mpr fresh)]
  have bound := List.idxOf_lt_length_of_mem (List.mem_reverse.mpr member)
  omega

/-- Reached keys belong to nodes, and the needs of a reached node are older. -/
private def Ordered (key : ν → κ) (needs : ν → List κ) (nodes : List ν) (reached : List κ) : Prop :=
  (∀ k ∈ reached, k ∈ nodes.map key) ∧
    ∀ node ∈ nodes, key node ∈ reached → ∀ d ∈ needs node,
      d ∈ reached ∧ age reached d < age reached (key node)

private theorem ordered_saturate (distinct : (nodes.map key).Nodup) {fuel : ℕ} {reached : List κ}
    (ordered : Ordered key needs nodes reached) :
    Ordered key needs nodes (saturate key needs nodes fuel reached) := by
  induction fuel generalizing reached with
  | zero => exact ordered
  | succ fuel ih =>
    rw [saturate_succ]
    split_ifs
    · exact ordered
    refine ih ⟨?_, ?_⟩
    · intro k member
      rcases List.mem_append.mp member with new | old
      · obtain ⟨node, present, _, _, rfl⟩ := mem_round.mp new
        exact List.mem_map_of_mem present
      · exact ordered.1 k old
    · intro node present member d need
      by_cases old : key node ∈ reached
      · obtain ⟨reachedNeed, younger⟩ := ordered.2 node present old d need
        exact ⟨List.mem_append_right _ reachedNeed,
          by rwa [age_append_of_mem reachedNeed, age_append_of_mem old]⟩
      · obtain ⟨other, there, ready, _, same⟩ :=
          mem_round.mp ((List.mem_append.mp member).resolve_right old)
        obtain rfl := List.inj_on_of_nodup_map distinct there present same
        exact ⟨List.mem_append_right _ (ready d need), age_lt_of_mem_of_not_mem (ready d need) old⟩

/-! ### Enough rounds reach everything that is ready -/

/-- The nodes whose keys are not reached. -/
private def unreached (key : ν → κ) (nodes : List ν) (reached : List κ) : List ν :=
  nodes.filter fun node => !reached.contains (key node)

/-- A round that adds something leaves fewer nodes. -/
private theorem unreached_round_lt {reached : List κ} (some : round key needs nodes reached ≠ []) :
    (unreached key nodes (round key needs nodes reached ++ reached)).length <
      (unreached key nodes reached).length := by
  obtain ⟨k, new⟩ := List.exists_mem_of_ne_nil _ some
  obtain ⟨node, present, ready, missing, rfl⟩ := mem_round.mp new
  have fewer : unreached key nodes (round key needs nodes reached ++ reached) =
      (unreached key nodes reached).filter fun node => !(round key needs nodes reached).contains (key node) := by
    rw [unreached, unreached, List.filter_filter]
    congr 1
    funext node
    simp
  rw [fewer]
  exact List.length_filter_lt_length_iff_exists.mpr
    ⟨node, List.mem_filter.mpr ⟨present, by simpa using missing⟩, by simpa using new⟩

private theorem closed_saturate {fuel : ℕ} {reached : List κ}
    (enough : (unreached key nodes reached).length ≤ fuel) :
    ∀ node ∈ nodes, (∀ d ∈ needs node, d ∈ saturate key needs nodes fuel reached) →
      key node ∈ saturate key needs nodes fuel reached := by
  induction fuel generalizing reached with
  | zero =>
    intro node present _
    have none_left := List.length_eq_zero_iff.mp (Nat.le_zero.mp enough)
    simpa [saturate] using List.filter_eq_nil_iff.mp none_left node present
  | succ fuel ih =>
    rw [saturate_succ]
    split_ifs with done
    · intro node present ready
      by_contra missing
      have new : key node ∈ round key needs nodes reached :=
        mem_round.mpr ⟨node, present, ready, missing, rfl⟩
      rw [List.isEmpty_iff.mp done] at new
      exact List.not_mem_nil new
    · have fewer := unreached_round_lt fun empty => done (List.isEmpty_iff.mpr empty)
      exact ih (by omega)

/-! ### The loop ends -/

private theorem saturateLoop_succ (fuel : ℕ) (reached : List κ) :
    saturateLoop key needs nodes (fuel + 1) reached =
      if (round key needs nodes reached).isEmpty then some reached
      else saturateLoop key needs nodes fuel (round key needs nodes reached ++ reached) := rfl

private theorem saturateLoop_of_enough {fuel : ℕ} {reached : List κ}
    (enough : (unreached key nodes reached).length ≤ fuel) :
    saturateLoop key needs nodes (fuel + 1) reached = some (saturate key needs nodes fuel reached) := by
  induction fuel generalizing reached with
  | zero =>
    rw [saturateLoop_succ, saturate, if_pos]
    rw [List.isEmpty_iff]
    by_contra added
    have fewer := unreached_round_lt added
    omega
  | succ fuel ih =>
    rw [saturateLoop_succ, saturate_succ]
    split_ifs with done
    · rfl
    · have fewer := unreached_round_lt fun empty => done (List.isEmpty_iff.mpr empty)
      exact ih (by omega)

/-- A loop that has ended does so with more fuel. -/
private theorem saturateLoop_add {fuel : ℕ} {reached final : List κ}
    (ended : saturateLoop key needs nodes fuel reached = some final) (more : ℕ) :
    saturateLoop key needs nodes (fuel + more) reached = some final := by
  induction fuel generalizing reached with
  | zero => cases ended
  | succ fuel ih =>
    rw [Nat.add_right_comm, saturateLoop_succ]
    rw [saturateLoop_succ] at ended
    split_ifs at ended ⊢
    · exact ended
    · exact ih ended

/-- Every node is reached at most once, so the loop ends after one more round than there are nodes. -/
theorem saturateLoop_eq {fuel : ℕ} (enough : nodes.length < fuel) :
    saturateLoop key needs nodes fuel [] = some (reachable key needs nodes) := by
  obtain ⟨more, rfl⟩ := Nat.exists_eq_add_of_lt enough
  rw [Nat.add_right_comm]
  exact saturateLoop_add (saturateLoop_of_enough (List.length_filter_le _ _)) more

/-! ### The characterization -/

private theorem ordered_reachable (distinct : (nodes.map key).Nodup) :
    Ordered key needs nodes (reachable key needs nodes) :=
  ordered_saturate distinct ⟨fun _ member => (List.not_mem_nil member).elim,
    fun _ _ member => (List.not_mem_nil member).elim⟩

/-- Only keys of nodes are reached. -/
theorem mem_of_mem_reachable (distinct : (nodes.map key).Nodup) {k : κ}
    (member : k ∈ reachable key needs nodes) : k ∈ nodes.map key :=
  (ordered_reachable distinct).1 k member

/-- All keys are reached exactly when the needs are ranked keys. -/
theorem reachable_complete_iff (distinct : (nodes.map key).Nodup) :
    (∀ node ∈ nodes, key node ∈ reachable key needs nodes) ↔ ∃ rank, Ranked key needs nodes rank := by
  constructor
  · intro complete
    obtain ⟨keys, older⟩ : Ordered key needs nodes (reachable key needs nodes) :=
      ordered_reachable distinct
    refine ⟨age (reachable key needs nodes), fun node present d need => ?_⟩
    obtain ⟨reachedNeed, younger⟩ := older node present (complete node present) d need
    exact ⟨keys d reachedNeed, younger⟩
  · rintro ⟨rank, ranked⟩ node present
    have closed : ∀ node ∈ nodes, (∀ d ∈ needs node, d ∈ reachable key needs nodes) →
        key node ∈ reachable key needs nodes :=
      closed_saturate (List.length_filter_le _ _)
    suffices ∀ bound, ∀ node ∈ nodes, rank (key node) < bound →
        key node ∈ reachable key needs nodes from this _ node present (Nat.lt_succ_self _)
    intro bound
    induction bound with
    | zero => exact fun _ _ impossible => absurd impossible (Nat.not_lt_zero _)
    | succ bound ih =>
      intro node present below
      refine closed node present fun d need => ?_
      obtain ⟨known, smaller⟩ := ranked node present d need
      obtain ⟨other, there, rfl⟩ := List.mem_map.mp known
      exact ih other there (by omega)

omit [DecidableEq κ] in
/-- Ranked needs are acyclic. -/
theorem Ranked.acyclic {rank : κ → ℕ} (ranked : Ranked key needs nodes rank) (k : κ) :
    ¬ Relation.TransGen (Needs key needs nodes) k k := by
  have decreases {a b : κ} (chain : Relation.TransGen (Needs key needs nodes) a b) :
      rank b < rank a := by
    induction chain with
    | single step =>
      obtain ⟨node, present, rfl, need⟩ := step
      exact (ranked node present _ need).2
    | tail _ step ih =>
      obtain ⟨node, present, rfl, need⟩ := step
      exact Nat.lt_trans (ranked node present _ need).2 ih
  exact fun cycle => Nat.lt_irrefl _ (decreases cycle)

omit [DecidableEq κ] in
/-- Nodes without needs keep the ranks of the others. -/
theorem Ranked.append {rank : κ → ℕ} (ranked : Ranked key needs nodes rank) {added : List ν}
    (independent : ∀ node ∈ added, needs node = []) : Ranked key needs (nodes ++ added) rank := by
  intro node member dependency need
  rcases List.mem_append.mp member with old | new
  · obtain ⟨known, smaller⟩ := ranked node old dependency need
    rw [List.map_append]
    exact ⟨List.mem_append_left _ known, smaller⟩
  · rw [independent node new] at need
    cases need

end MetaResearch

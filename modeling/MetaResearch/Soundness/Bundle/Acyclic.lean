import MetaResearch.Model.Bundle.DependencyLoop
import MetaResearch.Soundness.Bundle.GateAgreement
import MetaResearch.ToMathlib.TopologicalOrder

/-! # The dependency checks accept what can be ordered

The loop ends after one more round than there are candidates. It has reached all labels then exactly when the
candidates have a topological order, so a cycle of any length is rejected and shared dependencies are not.
-/

namespace MetaResearch.Bundle

variable {unknown cycle : String}

theorem CandidateMap.labels_eq (candidates : CandidateMap) :
    candidates.entries.map Prod.fst = candidates.values.map TargetCandidate.localLabel := by
  rw [CandidateMap.values, List.map_map]
  exact List.map_congr_left candidates.ownLabel

/-- The loop ends, so the check answers what the checks without a loop do. -/
theorem dependencyCheck_eq (candidates : List (String × TargetCandidate)) {fuel : ℕ}
    (enough : candidates.length < fuel) :
    dependencyCheck unknown cycle fuel candidates = some (do
      require (candidates.all fun entry => entry.2.dependsOnLabels.all ((candidates.map Prod.fst).contains ·)) unknown
      require (sameSet (reachableLabels (candidates.map Prod.snd)) (candidates.map Prod.fst)) cycle) := by
  have ended : saturateLoop TargetCandidate.localLabel TargetCandidate.dependsOnLabels (candidates.map Prod.snd) fuel [] =
      some (reachableLabels (candidates.map Prod.snd)) := saturateLoop_eq (by rwa [List.length_map])
  rw [dependencyCheck, ended]
  split_ifs with known
  · rw [known]
    rfl
  · rw [Bool.eq_false_iff.mpr known]
    rfl

theorem contractDependencyCheck_eq (candidates : CandidateMap) {fuel : ℕ} (enough : candidates.entries.length < fuel) :
    contractDependencyCheck fuel candidates.entries = some (verifyAcyclic candidates.values) := by
  rw [contractDependencyCheck, dependencyCheck_eq _ enough, candidates.labels_eq, verifyAcyclic, CandidateMap.values,
    List.all_map]
  rfl

theorem completionDependencyCheck_eq (candidates : List (String × TargetCandidate)) {fuel : ℕ}
    (enough : candidates.length < fuel) :
    completionDependencyCheck fuel candidates = some (Completion.verifyAcyclic candidates) :=
  dependencyCheck_eq candidates enough

/-- The dependencies are closed and have a topological order. -/
def Orderable (candidates : CandidateMap) : Prop :=
  (∀ candidate ∈ candidates.values, ∀ label ∈ candidate.dependsOnLabels,
      label ∈ candidates.values.map TargetCandidate.localLabel) ∧
    ∃ order, TopologicalOrder TargetCandidate.localLabel TargetCandidate.dependsOnLabels candidates.values order

theorem verifyAcyclic_values_iff (candidates : CandidateMap) :
    verifyAcyclic candidates.values = .ok () ↔ Orderable candidates := by
  have distinct := candidates.labels_eq ▸ candidates.distinct
  rw [verifyAcyclic_eq_ok_iff distinct, DependenciesRanked, exists_ranked_iff]
  rfl

theorem verifyAcyclic_entries_iff (candidates : CandidateMap) :
    Completion.verifyAcyclic candidates.entries = .ok () ↔ Orderable candidates := by
  have entries : candidates.entries = Completion.labelled candidates.values := by
    rw [Completion.labelled, CandidateMap.values, List.map_map]
    refine (List.map_id _).symm.trans (List.map_congr_left fun entry member => ?_)
    exact Prod.ext (candidates.ownLabel entry member) rfl
  rw [entries, Completion.verifyAcyclic_labelled_iff, verifyAcyclic_values_iff]

theorem Orderable.acyclic {candidates : CandidateMap} (orderable : Orderable candidates) (label : String) :
    ¬ Relation.TransGen (Needs TargetCandidate.localLabel TargetCandidate.dependsOnLabels candidates.values) label label := by
  obtain ⟨rank, ranked⟩ := exists_ranked_iff.mpr orderable
  exact ranked.acyclic label

/-- The check ends on the candidates. It accepts exactly when every dependency is a label and the candidates have a
topological order; where a label needs itself along any chain, it rejects. -/
def DecidesOrder (check : Nat → List (String × TargetCandidate) → Option (Except String Unit))
    (candidates : CandidateMap) : Prop :=
  ∃ answer, (∀ fuel, candidates.entries.length < fuel → check fuel candidates.entries = some answer) ∧
    (answer = .ok () ↔
      (∀ candidate ∈ candidates.values, ∀ label ∈ candidate.dependsOnLabels,
          label ∈ candidates.values.map TargetCandidate.localLabel) ∧
        ∃ order, TopologicalOrder TargetCandidate.localLabel TargetCandidate.dependsOnLabels candidates.values order) ∧
    ((∃ label, Relation.TransGen
        (Needs TargetCandidate.localLabel TargetCandidate.dependsOnLabels candidates.values) label label) →
      answer ≠ .ok ())

theorem dependency_checks_accept_iff (candidates : CandidateMap) :
    DecidesOrder contractDependencyCheck candidates ∧ DecidesOrder completionDependencyCheck candidates := by
  constructor
  · refine ⟨_, fun fuel enough => contractDependencyCheck_eq candidates enough, verifyAcyclic_values_iff candidates, ?_⟩
    rintro ⟨label, cyclic⟩ accepted
    exact ((verifyAcyclic_values_iff candidates).mp accepted).acyclic label cyclic
  · refine ⟨_, fun fuel enough => completionDependencyCheck_eq _ enough, verifyAcyclic_entries_iff candidates, ?_⟩
    rintro ⟨label, cyclic⟩ accepted
    exact ((verifyAcyclic_entries_iff candidates).mp accepted).acyclic label cyclic

/-- A diamond is accepted in five rounds. -/
example :
    let candidate (label : String) (needs : List String) : TargetCandidate := ⟨label, [], [], [], "", false, [], needs, []⟩
    contractDependencyCheck 5 (Completion.labelled
      [candidate "top" ["left", "right"], candidate "left" ["base"], candidate "right" ["base"], candidate "base" []]) =
      some (.ok ()) := by decide

end MetaResearch.Bundle

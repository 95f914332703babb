import MetaResearch.Model.Bundle.Completion

/-! # The loop of the dependency checks

`_verify_acyclic` of the target contract and of the prototype gate, with the loop over rounds as the source has it: it
goes on until a round reaches nothing new. Both read a mapping of labels to candidates, which their callers fill with
each candidate under its own label.
-/

namespace MetaResearch.Bundle

/-- A mapping of labels to candidates, each under its own label. -/
structure CandidateMap where
  entries : List (String × TargetCandidate)
  distinct : (entries.map Prod.fst).Nodup
  ownLabel : ∀ entry ∈ entries, entry.1 = entry.2.localLabel

/-- `candidates.values()` -/
def CandidateMap.values (candidates : CandidateMap) : List TargetCandidate := candidates.entries.map Prod.snd

/-- `_verify_acyclic`, with the errors of one of the modules: nothing if the fuel of the loop does not last. -/
def dependencyCheck (unknown cycle : String) (fuel : ℕ) (candidates : List (String × TargetCandidate)) :
    Option (Except String Unit) :=
  let labels := candidates.map Prod.fst
  if candidates.all fun entry => entry.2.dependsOnLabels.all (labels.contains ·) then
    (saturateLoop TargetCandidate.localLabel TargetCandidate.dependsOnLabels (candidates.map Prod.snd) fuel []).map
      fun reachable => require (sameSet reachable labels) cycle
  else some (.error unknown)

/-- `_verify_acyclic` of `bundle_target_contract` -/
def contractDependencyCheck : ℕ → List (String × TargetCandidate) → Option (Except String Unit) :=
  dependencyCheck "strategy_dependency_unknown" "strategy_dependency_cycle"

/-- `_verify_acyclic` of `bundle_completion` -/
def completionDependencyCheck : ℕ → List (String × TargetCandidate) → Option (Except String Unit) :=
  dependencyCheck "strategy dependency references an unknown local label"
    "rolling strategy contains a dependency cycle"

end MetaResearch.Bundle

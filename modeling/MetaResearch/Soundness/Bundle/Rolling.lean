import MetaResearch.Soundness.Bundle.Candidates
import MetaResearch.Soundness.Bundle.Sizes
import MetaResearch.ToMathlib.Run

/-! # Runs of rolling strategy updates

A run hands update after update to the current state; one that is refused leaves the state as it
was. Every reached state passes the state validator, and from what that validator accepts follow the
laws of the candidate set.
-/

namespace MetaResearch.Bundle

variable {budget : Budget} {digest : String → String} {contract : NormalizedCompletionContract}

/-- The complete check of one formal candidate. -/
structure FormalCandidateValid (budget : Budget) (contract : NormalizedCompletionContract)
    (formal : FormalTargetCandidate) : Prop where
  schema : formal.schemaRef = formalTargetCandidateSchemaRef
  risk : riskClass formal.riskClass = .ok ()
  candidate : CandidateValid budget contract.briefs formal.candidate
  measurement : validateMeasurementContract budget formal.measurementContract = .ok ()
  measuredKeys : formal.measurementContract.experimentKeys = formal.candidate.experimentKeys
  measuredUnit : formal.measurementContract.measurementUnitKey = formal.candidate.unit
  semanticDistinct : (formal.semanticInputs.map FrozenSemanticInputs.experimentKey).Nodup
  semanticKeys : ∀ key, key ∈ formal.semanticInputs.map FrozenSemanticInputs.experimentKey ↔
    key ∈ formal.candidate.experimentKeys
  semantics : ∀ semantic ∈ formal.semanticInputs, ∃ item,
    dictGet contract.byKey semantic.experimentKey = some item ∧ item.semanticInputs = semantic

theorem validateFormalCandidate_eq_ok_iff {formal : FormalTargetCandidate} {done : Unit} :
    validateFormalCandidate budget contract formal = .ok done ↔
      FormalCandidateValid budget contract formal := by
  simp only [validateFormalCandidate, check_then_eq_ok_iff,
    bind_eq_ok_iff (α := List (String × String)), verifyCandidate_eq_ok_iff, require_eq_ok_iff,
    Bool.and_eq_true, decide_eq_true_eq, sameSet_eq_true_iff, List.all_eq_true, Option.any_eq_true]
  constructor
  · rintro ⟨schema, risk, _, ⟨candidate, rfl⟩, measurement, ⟨keys, unit⟩, distinct, same, semantics⟩
    exact ⟨schema, risk, candidate, measurement, keys, unit, distinct, same, semantics⟩
  · rintro ⟨schema, risk, candidate, measurement, keys, unit, distinct, same, semantics⟩
    exact ⟨schema, risk, _, ⟨candidate, rfl⟩, measurement, ⟨keys, unit⟩, distinct, same, semantics⟩

theorem validateState_eq_ok_iff {state : RollingStrategyState} {done : Unit} :
    validateState budget digest state contract = .ok done ↔
      state.schemaRef = rollingStrategyStateSchemaRef ∧
      completionContractHash budget digest contract = .ok state.completionContractHash ∧
      nonnegativeInt state.strategy.revision "strategy revision" = .ok () ∧
      state.strategy.candidates = state.candidates.map FormalTargetCandidate.candidate ∧
      state.strategy.requiresAcceptedLabels = [] ∧
      (∀ formal ∈ state.candidates, FormalCandidateValid budget contract formal) ∧
      verifyCandidateSet budget state.candidates contract = .ok () ∧
      verifySealed budget state.strategy.strategyComplete state.candidates contract = .ok () := by
  simp only [validateState, check_then_eq_ok_iff, bind_eq_ok_iff (α := String), require_eq_ok_iff,
    decide_eq_true_eq, List.isEmpty_iff, checkAll_eq_ok_iff, validateFormalCandidate_eq_ok_iff]
  constructor
  · rintro ⟨schema, hash, hashed, rfl, rest⟩
    exact ⟨schema, hashed, rest⟩
  · rintro ⟨schema, hashed, rest⟩
    exact ⟨schema, _, hashed, rfl, rest⟩

/-- What the checks of an accepted update come to. -/
structure UpdateAccepted (budget : Budget) (digest : String → String)
    (contract : NormalizedCompletionContract) (state : RollingStrategyState)
    (update : FormalStrategyUpdate) (acceptedLabels : List String) : Prop where
  before : validateState budget digest state contract = .ok ()
  pair : validateUpdatePair budget update contract = .ok ()
  unsealed : state.strategy.strategyComplete = false
  revision : state.strategy.revision < update.update.revision
  work : update.candidates ≠ [] ∨ update.update.strategyComplete = true
  known : ∀ label ∈ acceptedLabels, label ∈ state.candidates.map (·.candidate.localLabel)
  required : ∀ label ∈ update.update.requiresAcceptedLabels, label ∈ acceptedLabels
  admitted : admitCandidates update.update.requiresAcceptedLabels
    (state.candidates.map (·.candidate.localLabel)) update.candidates = .ok ()
  set : verifyCandidateSet budget (state.append update).candidates contract = .ok ()
  sealed : verifySealed budget update.update.strategyComplete (state.append update).candidates
    contract = .ok ()
  after : validateState budget digest (state.append update) contract = .ok ()

theorem applyStrategyUpdate_eq_ok_iff {state next : RollingStrategyState}
    {update : FormalStrategyUpdate} {acceptedLabels : List String} :
    applyStrategyUpdate budget digest contract state update acceptedLabels = .ok next ↔
      UpdateAccepted budget digest contract state update acceptedLabels ∧ next = state.append update := by
  simp only [applyStrategyUpdate, check_then_eq_ok_iff, require_eq_ok_iff, Bool.not_eq_true',
    decide_eq_true_eq, Bool.or_eq_true, List.all_eq_true, List.contains_iff_mem, pure, Except.pure,
    Except.ok.injEq, List.isEmpty_eq_false_iff]
  constructor
  · rintro ⟨before, pair, unsealed, revision, work, known, required, admitted, set, closing, after, rfl⟩
    exact ⟨⟨before, pair, unsealed, revision, work, known, required, admitted, set, closing, after⟩, rfl⟩
  · rintro ⟨⟨before, pair, unsealed, revision, work, known, required, admitted, set, closing, after⟩, rfl⟩
    exact ⟨before, pair, unsealed, revision, work, known, required, admitted, set, closing, after, rfl⟩

/-! ### The laws of a candidate set -/

/-- What holds of the candidates of every reached state. -/
structure StrategyLaws (contract : NormalizedCompletionContract)
    (candidates : List TargetCandidate) (complete : Bool) : Prop where
  /-- Labels are pairwise distinct. -/
  labels : (candidates.map TargetCandidate.localLabel).Nodup
  /-- Every dependency names a candidate. -/
  dependencies : ∀ candidate ∈ candidates, ∀ label ∈ candidate.dependsOnLabels,
    label ∈ candidates.map TargetCandidate.localLabel
  /-- No label depends on itself along a chain. -/
  acyclic : ∀ label, ¬ Relation.TransGen
    (Needs TargetCandidate.localLabel TargetCandidate.dependsOnLabels candidates) label label
  /-- No unit is claimed by two candidates. -/
  units : candidates.Pairwise fun first second =>
    first.measurementUnitKeys.Disjoint second.measurementUnitKeys
  /-- A candidate claims one unit, for experiments that require it. -/
  claims : ∀ candidate ∈ candidates, ∃ unit, candidate.measurementUnitKeys = [unit] ∧
    ∀ key ∈ candidate.experimentKeys, ∃ item ∈ contract.experiments,
      item.brief.experimentKey = key ∧ unit ∈ item.brief.requiredMeasurementUnitKeys
  /-- All candidates of an experiment bind a held-fixed slot to the same revision. -/
  held : ∀ key, ∀ slot ∈ slotsOf contract.briefs key, ∃ revision, ∀ candidate ∈ candidates,
    key ∈ candidate.experimentKeys → ⟨slot, revision⟩ ∈ candidate.heldFixedBindings ∧
      ∀ binding ∈ candidate.heldFixedBindings, binding.semanticSlot = slot →
        binding.implementationRevisionRef = revision
  /-- A complete strategy covers exactly the required cells, each once. -/
  covered : complete = true → (coveredCells candidates).Nodup ∧
    ∀ cell, cell ∈ coveredCells candidates ↔ cell ∈ contract.cells

/-- A bound slot is bound to its revision and to no other. -/
theorem CandidateValid.binds {candidate : TargetCandidate} {briefs : List (String × ExperimentBrief)}
    (valid : CandidateValid budget briefs candidate) {binding : HeldFixedBinding}
    (member : binding ∈ candidate.heldFixedBindings) :
    candidate.revisionOf binding.semanticSlot = binding.implementationRevisionRef := by
  have found : (candidate.heldFixedBindings.map HeldFixedBinding.entry).lookup binding.semanticSlot =
      some binding.implementationRevisionRef := by
    obtain ⟨front, back, split⟩ := List.append_of_mem member
    refine List.lookup_eq_some_iff.mpr ⟨front.map HeldFixedBinding.entry,
      back.map HeldFixedBinding.entry, by rw [split]; simp [HeldFixedBinding.entry], ?_⟩
    rintro _ earlier
    obtain ⟨other, before, rfl⟩ := List.mem_map.mp earlier
    have distinct := valid.distinct
    rw [split, List.map_append, List.map_cons, List.nodup_append] at distinct
    simpa [HeldFixedBinding.entry] using
      fun same : binding.semanticSlot = other.semanticSlot =>
        distinct.2.2 _ (List.mem_map_of_mem before) _ List.mem_cons_self same.symm
  rw [TargetCandidate.revisionOf, found, Option.getD_some]

/-- The slots of a realized experiment are bound. -/
theorem CandidateValid.binding_mem {candidate : TargetCandidate}
    {briefs : List (String × ExperimentBrief)} (valid : CandidateValid budget briefs candidate)
    {key slot : String} (realized : key ∈ candidate.experimentKeys) (held : slot ∈ slotsOf briefs key) :
    ⟨slot, candidate.revisionOf slot⟩ ∈ candidate.heldFixedBindings := by
  obtain ⟨binding, member, rfl⟩ :=
    List.mem_map.mp ((valid.bound slot).mpr (List.mem_flatMap.mpr ⟨key, realized, held⟩))
  rw [valid.binds member]
  exact member

theorem CandidateSetValid.laws {candidates : List FormalTargetCandidate} {complete : Bool}
    (set : verifyCandidateSet budget candidates contract = .ok ())
    (closing : verifySealed budget complete candidates contract = .ok ()) :
    StrategyLaws contract (candidates.map FormalTargetCandidate.candidate) complete := by
  obtain ⟨valid, rank, ranked⟩ := verifyCandidateSet_eq_ok_iff.mp set
  refine ⟨valid.labels, fun candidate member label need => (ranked candidate member label need).1,
    ranked.acyclic, ?_, ?_, ?_, ?_⟩
  · refine List.Pairwise.imp_of_mem ?_ (List.pairwise_map.mp valid.units)
    intro first second firstMember secondMember apart
    rw [(valid.valid first firstMember).unit.1, (valid.valid second secondMember).unit.1]
    simpa using Ne.symm apart
  · intro candidate member
    exact ⟨candidate.unit, (valid.valid candidate member).unit.1, fun key realized =>
      mem_unitsOf_briefs ((valid.valid candidate member).required key realized)⟩
  · intro key slot held
    by_cases realized : ∃ candidate ∈ candidates.map FormalTargetCandidate.candidate,
        key ∈ candidate.experimentKeys
    · obtain ⟨first, firstMember, firstKey⟩ := realized
      refine ⟨first.revisionOf slot, fun candidate member here => ⟨?_, ?_⟩⟩
      · rw [valid.held first firstMember candidate member key firstKey here slot held]
        exact (valid.valid candidate member).binding_mem here held
      · rintro binding bound rfl
        rw [← (valid.valid candidate member).binds bound]
        exact (valid.held first firstMember candidate member key firstKey here _ held).symm
    · exact ⟨"", fun candidate member here => (realized ⟨candidate, member, here⟩).elim⟩
  · rintro rfl
    exact (verifyCompletionCells_eq_ok_iff.mp closing).2

/-! ### Plain candidates

The least content that passes the checks of a formal candidate, and a contract with one cell.
-/

/-- A document with one field. -/
def plainDocument : FrozenJsonObject := ⟨[("content", .text "plain")]⟩

/-- A protocol without metrics, parts or stop rules. -/
def plainProtocol : FrozenProtocolVersionCandidate where
  evaluationData := plainDocument
  split := plainDocument
  preprocessing := plainDocument
  requiredMetrics := []
  optionalMetrics := []
  internalPartKeys := []
  aggregation := none
  preregisteredStopRules := []
  schemaRef := protocolVersionCandidateSchemaRef

/-- The measurement contract of one unit for the keys. -/
def plainMeasurement (keys : List String) (unit : String) : TargetMeasurementContractCandidate where
  experimentKeys := keys
  measurementUnitKey := unit
  baselineForwardContract := plainDocument
  variantRecipe := plainDocument
  evaluationProtocolLineage := plainDocument
  protocolVersion := plainProtocol
  checkpointPolicy := "optional"
  resultSchemaRef := "schema"
  resultSchema := plainDocument
  schemaRef := measurementContractCandidateSchemaRef

/-- One experiment with one measurement unit. -/
def soloContract : NormalizedCompletionContract where
  planDocumentHash := "plan"
  experiments := [⟨⟨"key", "goal", "scope", "none", "delta"⟩, ⟨"key", "delta", ["slot"], ["unit"]⟩⟩]
  schemaRef := normalizedCompletionContractSchemaRef

/-- The only candidate that the contract needs. -/
def soloCandidate : TargetCandidate where
  localLabel := "label"
  experimentKeys := ["key"]
  measurementUnitKeys := ["unit"]
  heldFixedBindings := [⟨"slot", "revision"⟩]
  implementationRevisionRef := "implementation"
  codeChanged := false
  routes := [⟨"route", []⟩]
  dependsOnLabels := []
  directAcceptedInputAssetRefs := []

/-- The update that seals the strategy with this candidate. -/
def soloUpdate : FormalStrategyUpdate where
  update := ⟨1, [soloCandidate], [], true⟩
  candidates := [⟨soloCandidate, soloContract.experiments.map (·.semanticInputs),
    plainMeasurement ["key"] "unit", "normal", formalTargetCandidateSchemaRef⟩]
  schemaRef := formalStrategyUpdateSchemaRef
  notes := none

def soloStart : RollingStrategyState :=
  ⟨soloContract.toDict.dumps, ⟨0, [], [], false⟩, [], rollingStrategyStateSchemaRef⟩

theorem startRollingStrategy_soloContract :
    startRollingStrategy .standard id soloContract = .ok soloStart := by
  have root : validateJsonRoot .standard soloContract.toDict "NormalizedCompletionContract" true =
      .ok soloContract.toDict.dumps :=
    validateJsonRoot_of_light (by decide) (by decide)
  have hashed : completionContractHash .standard id soloContract = .ok soloContract.toDict.dumps := by
    rw [completionContractHash, root]
    rfl
  simp only [startRollingStrategy, hashed]
  rfl

theorem soloCandidate_projection :
    validateClosedBundleProjection .standard "TargetCandidate" soloCandidate.projection = .ok () :=
  validateClosedBundleProjection_of_light (by decide) (by decide) (by decide)

theorem soloCandidate_verified :
    verifyCandidate .standard soloCandidate soloContract.briefs = .ok [("slot", "revision")] := by
  simp only [verifyCandidate, soloCandidate_projection]
  decide

theorem soloUpdate_pair : validateUpdatePair .standard soloUpdate soloContract = .ok () := by
  have root : validateJsonRoot .standard (plainMeasurement ["key"] "unit").toDict
      "TargetMeasurementContractCandidate" false = .ok (plainMeasurement ["key"] "unit").toDict.dumps :=
    validateJsonRoot_of_light (by decide) (by decide)
  have measured : validateMeasurementContract .standard (plainMeasurement ["key"] "unit") = .ok () := by
    simp only [validateMeasurementContract, root]
    decide
  have formals : checkAll (validateFormalCandidate .standard soloContract) soloUpdate.candidates =
      .ok () := by
    simp only [soloUpdate, checkAll, validateFormalCandidate, measured, soloCandidate_verified]
    decide
  have projection : validateClosedBundleProjection .standard "StrategyUpdate"
      soloUpdate.update.projection = .ok () :=
    validateClosedBundleProjection_of_light (by decide) (by decide) (by decide)
  simp only [validateUpdatePair, formals, projection]
  decide

theorem soloUpdate_covers :
    verifyCompletionCells .standard soloUpdate.candidates soloContract = .ok () := by
  simp only [verifyCompletionCells, verifyCandidateSet, soloUpdate, List.map_cons, List.map_nil,
    List.foldlM_cons, coverCandidate, soloCandidate_verified]
  decide

/-! ### Runs -/

/-- Hand one update to the state; a refused one leaves it as it was. -/
def strategyStep (budget : Budget) (digest : String → String) (contract : NormalizedCompletionContract)
    (state : RollingStrategyState) (input : FormalStrategyUpdate × List String) :
    RollingStrategyState :=
  match applyStrategyUpdate budget digest contract state input.1 input.2 with
  | .ok next => next
  | .error _ => state

/-- The state after a list of updates. -/
def strategyRun (budget : Budget) (digest : String → String) (contract : NormalizedCompletionContract)
    (start : RollingStrategyState) (inputs : List (FormalStrategyUpdate × List String)) :
    RollingStrategyState :=
  runInputs (strategyStep budget digest contract) start inputs

theorem strategyRun_once {state next : RollingStrategyState} {update : FormalStrategyUpdate}
    {acceptedLabels : List String}
    (accepted : applyStrategyUpdate budget digest contract state update acceptedLabels = .ok next) :
    strategyRun budget digest contract state [(update, acceptedLabels)] = next := by
  rw [strategyRun, runInputs_cons, strategyStep, accepted]
  rfl

theorem validateState_start {start : RollingStrategyState}
    (started : startRollingStrategy budget digest contract = .ok start) :
    validateState budget digest start contract = .ok () := by
  simp only [startRollingStrategy, bind_eq_ok_iff, pure, Except.pure, Except.ok.injEq] at started
  obtain ⟨hash, hashed, rfl⟩ := started
  rw [validateState_eq_ok_iff]
  refine ⟨rfl, hashed, by simp [nonnegativeInt], rfl, rfl, by simp, ?_, rfl⟩
  exact verifyCandidateSet_eq_ok_iff.mpr ⟨CandidateSetValid.nil, fun _ => 0, by simp [Ranked]⟩

/-- A first update is accepted whose own checks pass. -/
theorem applyStrategyUpdate_start {start : RollingStrategyState} {update : FormalStrategyUpdate}
    (started : startRollingStrategy budget digest contract = .ok start)
    (checks : validateUpdatePair budget update contract = .ok () ∧ update.candidates ≠ [] ∧
      update.update.requiresAcceptedLabels = [] ∧ admitCandidates [] [] update.candidates = .ok () ∧
      verifyCandidateSet budget update.candidates contract = .ok () ∧
      verifySealed budget update.update.strategyComplete update.candidates contract = .ok ()) :
    applyStrategyUpdate budget digest contract start update [] = .ok (start.append update) := by
  obtain ⟨pair, work, required, admitted, set, closing⟩ := checks
  have before := validateState_start started
  simp only [startRollingStrategy, bind_eq_ok_iff, pure, Except.pure, Except.ok.injEq] at started
  obtain ⟨hash, hashed, rfl⟩ := started
  have parts := pair
  simp only [validateUpdatePair, check_then_eq_ok_iff, checkAll_eq_ok_iff,
    validateFormalCandidate_eq_ok_iff, positiveInt, require_eq_ok_iff, Bool.and_eq_true,
    decide_eq_true_eq, nonnegativeInt] at parts
  obtain ⟨_, ⟨⟨_, small⟩, positive⟩, _, _, formals, _⟩ := parts
  refine applyStrategyUpdate_eq_ok_iff.mpr ⟨⟨before, pair, rfl, ?_, .inl work, by simp, by simp [required],
    required.symm ▸ admitted, set, closing, ?_⟩, rfl⟩
  · show (0 : ℤ) < update.update.revision
    omega
  · refine validateState_eq_ok_iff.mpr ⟨rfl, hashed, ?_, rfl, rfl, formals, set, closing⟩
    simp only [nonnegativeInt, require_eq_ok_iff, Bool.and_eq_true, decide_eq_true_eq]
    exact ⟨by show (0 : ℤ) ≤ update.update.revision; omega, small⟩

/-- The state passes its validator. -/
def ValidState (budget : Budget) (digest : String → String) (contract : NormalizedCompletionContract)
    (state : RollingStrategyState) : Prop :=
  validateState budget digest state contract = .ok ()

/-- The step lemma: an update keeps the state valid, accepted or not. -/
theorem validState_step (state : RollingStrategyState) (input : FormalStrategyUpdate × List String)
    (valid : ValidState budget digest contract state) :
    ValidState budget digest contract (strategyStep budget digest contract state input) := by
  unfold strategyStep
  split
  · rename_i next applied
    obtain ⟨accepted, rfl⟩ := applyStrategyUpdate_eq_ok_iff.mp applied
    exact accepted.after
  · exact valid

theorem validState_run {start : RollingStrategyState}
    (started : startRollingStrategy budget digest contract = .ok start)
    (inputs : List (FormalStrategyUpdate × List String)) :
    ValidState budget digest contract (strategyRun budget digest contract start inputs) :=
  (Admissible.trivial inputs).invariant (validateState_start started) fun state input valid _ =>
    validState_step state input valid

/-- Every reached state obeys the laws, and an update is accepted only by an incomplete state: it
raises the revision and appends candidates. -/
theorem strategyLaws_of_run (budget : Budget) (digest : String → String)
    (contract : NormalizedCompletionContract) (start : RollingStrategyState)
    (started : startRollingStrategy budget digest contract = .ok start)
    (inputs : List (FormalStrategyUpdate × List String)) :
    let state := strategyRun budget digest contract start inputs
    StrategyLaws contract (state.candidates.map FormalTargetCandidate.candidate)
        state.strategy.strategyComplete ∧
      state.strategy.candidates = state.candidates.map FormalTargetCandidate.candidate ∧
      ∀ update acceptedLabels next,
        applyStrategyUpdate budget digest contract state update acceptedLabels = .ok next →
          state.strategy.strategyComplete = false ∧
          state.strategy.revision < next.strategy.revision ∧
          state.candidates <+: next.candidates := by
  intro state
  obtain ⟨_, _, _, projected, _, _, set, closing⟩ :=
    validateState_eq_ok_iff.mp (validState_run started inputs)
  refine ⟨CandidateSetValid.laws set closing, projected, ?_⟩
  intro update acceptedLabels next applied
  obtain ⟨accepted, rfl⟩ := applyStrategyUpdate_eq_ok_iff.mp applied
  exact ⟨accepted.unsealed, accepted.revision, List.prefix_append _ _⟩

/-- The run that seals the strategy of one cell at once. -/
theorem strategyLaws_of_soloRun :
    let state := strategyRun .standard id soloContract soloStart [(soloUpdate, [])]
    state.strategy.strategyComplete = true ∧
      StrategyLaws soloContract (state.candidates.map FormalTargetCandidate.candidate)
        state.strategy.strategyComplete := by
  have set := (verifyCompletionCells_eq_ok_iff.mp soloUpdate_covers).1
  have accepted := applyStrategyUpdate_start startRollingStrategy_soloContract
    ⟨soloUpdate_pair, by decide, rfl, rfl, set, soloUpdate_covers⟩
  refine ⟨?_, (strategyLaws_of_run .standard id soloContract soloStart
    startRollingStrategy_soloContract [(soloUpdate, [])]).1⟩
  rw [strategyRun_once accepted]
  rfl

end MetaResearch.Bundle

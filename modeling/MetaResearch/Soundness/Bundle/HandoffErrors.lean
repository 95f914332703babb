import MetaResearch.Model.Bundle.Replay

/-! # The errors of the handoff checks

Which checks of a handoff raise errors of the protocol only. Two errors of Python itself are not of the
protocol: the first handle of an empty history is looked up, and an absent result review is read.
-/

namespace MetaResearch.Bundle

namespace TargetRun

/-! ### Errors of the protocol -/

/-- What reading an absent result review raises -/
def attributeError : String := "'NoneType' object has no attribute 'reviewed_evaluation_attempt_ref'"

/-- The error is a `BundleProtocolError`. -/
def IsProtocolError (error : String) : Prop := error ≠ indexError ∧ error ≠ attributeError

instance (error : String) : Decidable (IsProtocolError error) :=
  inferInstanceAs (Decidable (_ ∧ _))

/-- Every error that ends like this is one of the protocol. -/
def IsProtocolEnding (suffix : String) : Prop :=
  ¬ suffix.toList <:+ indexError.toList ∧ ¬ suffix.toList <:+ attributeError.toList

instance (suffix : String) : Decidable (IsProtocolEnding suffix) :=
  inferInstanceAs (Decidable (_ ∧ _))

theorem IsProtocolEnding.append {suffix : String} (own : IsProtocolEnding suffix) (name : String) :
    IsProtocolError (name ++ suffix) := by
  constructor
  · intro same
    exact own.1 ⟨name.toList, by rw [← same, String.toList_append]⟩
  · intro same
    exact own.2 ⟨name.toList, by rw [← same, String.toList_append]⟩

/-- The check raises errors of the protocol only. -/
abbrev Total {α : Type} (answer : Except String α) : Prop := RaisesOnly IsProtocolError answer

theorem total_check {α : Type} {check : Except String Unit} {next : Except String α} (first : Total check)
    (later : Total next) : Total (check >>= fun _ => next) :=
  raisesOnly_check_iff.mpr ⟨first, fun _ => later⟩

theorem total_bind {α β : Type} {first : Except String α} {next : α → Except String β} (here : Total first)
    (later : ∀ value, Total (next value)) : Total (first >>= next) :=
  raisesOnly_bind_iff.mpr ⟨here, fun value _ => later value⟩

theorem total_require {error : String} (own : IsProtocolError error) (condition : Bool) :
    Total (require condition error) := raisesOnly_require.mpr fun _ => own

theorem total_named {suffix : String} (own : IsProtocolEnding suffix) (condition : Bool) (name : String) :
    Total (require condition (name ++ suffix)) := total_require (own.append name) condition

end TargetRun

open TargetRun

variable {budget : Budget} {digest : String → String}

namespace Projection

theorem total_addNode (name : String) (usage : Usage) : Total (addNode budget name usage) :=
  total_check (total_named (by decide) _ name) raisesOnly_pure

theorem total_addScalarBytes (name : String) (size : ℕ) (usage : Usage) :
    Total (addScalarBytes budget name size usage) :=
  total_check (total_named (by decide) _ name) raisesOnly_pure

mutual

theorem total_visit (budget : Budget) (name : String) : ∀ (value : Projection) (usage : Usage),
    Total (visit budget name value usage)
  | record fields, usage =>
    total_bind (total_addNode name usage) fun usage => total_visitFields budget name fields usage
  | tuple items, usage =>
    total_bind (total_addNode name usage) fun usage =>
      total_check (total_named (by decide) _ name) (total_visitItems budget name items usage)
  | text _, usage =>
    total_bind (total_addNode name usage) fun usage =>
      total_check (total_named (by decide) _ name) (total_addScalarBytes name _ usage)
  | planText _, usage =>
    total_bind (total_addNode name usage) fun usage =>
      total_check (total_named (by decide) _ name) (total_addScalarBytes name _ usage)
  | integer _, usage =>
    total_bind (total_addNode name usage) fun usage =>
      total_check (total_named (by decide) _ name) (total_addScalarBytes name _ usage)
  | bool _, usage =>
    total_bind (total_addNode name usage) fun usage => total_addScalarBytes name _ usage
  termination_by structural value => value

theorem total_visitItems (budget : Budget) (name : String) : ∀ (items : List Projection) (usage : Usage),
    Total (visitItems budget name items usage)
  | [], _ => raisesOnly_pure
  | item :: rest, usage =>
    total_bind (total_visit budget name item usage) fun usage => total_visitItems budget name rest usage
  termination_by structural items => items

theorem total_visitFields (budget : Budget) (name : String) :
    ∀ (fields : List (String × Projection)) (usage : Usage), Total (visitFields budget name fields usage)
  | [], _ => raisesOnly_pure
  | (_, value) :: rest, usage =>
    total_bind (total_visit budget name value usage) fun usage => total_visitFields budget name rest usage
  termination_by structural fields => fields

end

end Projection

namespace Value

open Projection (Usage total_addNode total_addScalarBytes)

theorem total_visitScalar (name : String) {bounded : Bool} {error : String}
    (own : IsProtocolEnding error ∨ bounded = true) (size : ℕ) (usage : Usage) :
    Total (visitScalar budget name bounded error size usage) := by
  refine total_bind (total_addNode name usage) fun usage => total_check ?_ (total_addScalarBytes name size usage)
  rcases own with own | rfl
  · exact total_named own bounded name
  · exact raisesOnly_ok

mutual

theorem total_visit (budget : Budget) (name : String) : ∀ (value : Value) (mode : Mode) (usage : Usage),
    Total (visit budget name value mode usage)
  | record type fields, mode, usage =>
    total_bind (total_addNode name usage) fun usage => total_visitFields budget name type _ fields usage
  | tuple items, mode, usage =>
    total_bind (total_addNode name usage) fun usage =>
      total_check (total_named (by decide) _ name) (total_visitItems budget name [] items mode usage)
  | list items, mode, usage =>
    total_bind (total_addNode name usage) fun usage =>
      total_check (total_named (by decide) _ name) (total_visitMetricItems budget name items usage)
  | dict entries, mode, usage =>
    total_bind (total_addNode name usage) fun usage =>
      total_check (total_named (by decide) _ name) (total_visitMetricEntries budget name entries usage)
  | text value, mode, usage => total_visitScalar name (.inl (by decide)) _ usage
  | integer value, mode, usage => total_visitScalar name (.inl (by decide)) _ usage
  | float value, mode, usage => total_visitScalar name (.inr rfl) _ usage
  | nonFinite, mode, usage => total_visitScalar name (.inl (by decide)) _ usage
  | bool value, mode, usage => total_visitScalar name (.inr rfl) _ usage
  | null, mode, usage => total_visitScalar name (.inr rfl) _ usage
  | other, mode, usage => total_visitScalar name (.inl (by decide)) _ usage
  termination_by structural value => value

theorem total_visitItems (budget : Budget) (name : String) (seen : List Value) :
    ∀ (items : List Value) (mode : Mode) (usage : Usage),
      Total (visitItems budget name seen items mode usage)
  | [], mode, usage => raisesOnly_pure
  | item :: rest, mode, usage =>
    total_bind (total_visit budget name item mode usage) fun usage =>
      total_check (total_named (by decide) _ name) (total_visitItems budget name _ rest mode usage)
  termination_by structural items => items

theorem total_visitMetricItems (budget : Budget) (name : String) :
    ∀ (items : List Value) (usage : Usage), Total (visitMetricItems budget name items usage)
  | [], _ => raisesOnly_pure
  | item :: rest, usage =>
    total_bind (total_visit budget name item { metric := true } usage) fun usage =>
      total_visitMetricItems budget name rest usage
  termination_by structural items => items

theorem total_visitMetricEntries (budget : Budget) (name : String) :
    ∀ (entries : List (String × Value)) (usage : Usage), Total (visitMetricEntries budget name entries usage)
  | [], _ => raisesOnly_pure
  | (key, value) :: rest, usage =>
    total_bind (total_visitScalar name (.inl (by decide)) _ usage) fun usage =>
      total_bind (total_visit budget name value { metric := true } usage) fun usage =>
        total_visitMetricEntries budget name rest usage
  termination_by structural entries => entries

theorem total_visitFields (budget : Budget) (name : String) (type : RecordType) :
    ∀ (declared : List (String × Annotation)) (fields : List Value) (usage : Usage),
      Total (visitFields budget name type declared fields usage)
  | (fieldName, hint) :: declared, value :: rest, usage =>
    total_check (total_named (by decide) _ _) <| total_bind (total_visit budget name value _ usage)
      fun usage => total_visitFields budget name type declared rest usage
  | [], [], usage => raisesOnly_pure
  | [], _ :: _, _ => raisesOnly_error.mpr (IsProtocolEnding.append (by decide) name)
  | _ :: _, [], _ => raisesOnly_error.mpr (IsProtocolEnding.append (by decide) name)
  termination_by structural _ fields => fields

end

theorem total_validateClosed (budget : Budget) (name : String) (value : Value) :
    Total (value.validateClosed budget name) := by
  refine total_bind (total_visit budget name value _ _) fun _ => total_bind ?_ fun _ =>
    total_check (total_named (by decide) _ name) raisesOnly_pure
  unfold canonicalProjection
  split
  · exact raisesOnly_ok
  · exact raisesOnly_error.mpr (IsProtocolEnding.append (by decide) name)

end Value

namespace TargetRun

open Completion (validateProjection)

theorem total_validateProjection (name : String) (value : Value) :
    Total (validateProjection budget name value) :=
  (Value.total_validateClosed budget name value).map _

/-! ### The checks of a TargetRun -/

theorem total_requireRef (value name : String) : Total (requireRef value name) :=
  total_check (total_named (by decide) _ name) (total_named (by decide) _ name)

theorem total_requireOptionalRef (value : Option String) (name : String) :
    Total (requireOptionalRef value name) := by
  cases value with
  | none => exact raisesOnly_error.mpr (IsProtocolEnding.append (by decide) name)
  | some value => exact total_requireRef value name

theorem total_requireNonnegativeInt (value : ℤ) (name : String) :
    Total (requireNonnegativeInt value name) := total_named (by decide) _ name

theorem total_requirePositiveInt (value : ℤ) (name : String) :
    Total (requirePositiveInt value name) := total_named (by decide) _ name

theorem total_validateReceipt (receipt : ReceiptProof) (subjectRef name : String) :
    Total (validateReceipt budget receipt subjectRef name) := by
  unfold validateReceipt
  split
  · exact raisesOnly_ok
  · exact raisesOnly_error.mpr (IsProtocolEnding.append (by decide) name)

theorem total_payloadDigest (payload : List (String × Value)) (name : String) :
    Total (payloadDigest digest payload name) := by
  unfold payloadDigest
  split
  · exact raisesOnly_ok
  · exact raisesOnly_error.mpr (IsProtocolEnding.append (by decide) name)

theorem total_checkRefs (refs : List String) (name : String) : Total (checkAll (requireRef · name) refs) :=
  raisesOnly_checkAll fun ref _ => total_requireRef ref name

theorem total_validateTargetWorkHandle (targetRef : String) (inputs : AcceptedInputs)
    (handle : TargetWorkHandle) : Total (validateTargetWorkHandle budget targetRef inputs handle) := by
  have proofs : Total (checkAll (validateAssetProof budget) handle.acceptedInputAssetProofs) :=
    raisesOnly_checkAll fun _ _ => total_check (total_requireRef _ _) <|
      total_check (total_validateReceipt _ _ _) (total_validateReceipt _ _ _)
  refine total_check (total_validateProjection _ _) <| total_check (total_require (by decide) _) ?_
  iterate 4 refine total_check (total_requireRef _ _) ?_
  refine total_check (total_require (by decide) _) <| total_check (total_requireRef _ _) ?_
  refine total_check (total_validateReceipt _ _ _) <| total_check (total_require (by decide) _) ?_
  refine total_check (total_require (by decide) _) <| total_check (total_checkRefs _ _) ?_
  refine total_check (total_require (by decide) _) <| total_check (total_require (by decide) _) ?_
  exact total_check proofs (total_require (by decide) _)

theorem total_validateTargetFrontierEntry (targetRef : String) (spec : TargetSpec) (inputs : AcceptedInputs)
    (entry : TargetFrontierEntry) :
    Total (validateTargetFrontierEntry budget targetRef spec inputs entry) := by
  refine total_check (total_validateProjection _ _) ?_
  iterate 3 refine total_check (total_require (by decide) _) ?_
  refine total_check (total_requireRef _ _) <| total_check (total_validateReceipt _ _ _) ?_
  refine total_check (total_requirePositiveInt _ _) ?_
  iterate 4 refine total_check (total_require (by decide) _) ?_
  exact total_validateTargetWorkHandle targetRef inputs entry.currentHandle

theorem total_validateCodeReview (review : CodeReviewRecord) (revision session : String) :
    Total (validateCodeReview budget review revision session) := by
  refine total_check (total_validateProjection _ _) ?_
  iterate 2 refine total_check (total_requireRef _ _) ?_
  iterate 2 refine total_check (total_requireNonnegativeInt _ _) ?_
  iterate 2 refine total_check (total_require (by decide) _) ?_
  split
  · refine total_check (total_require (by decide) _) ?_
    iterate 7 refine total_check (total_requireOptionalRef _ _) ?_
    exact total_check (total_require (by decide) _) <| total_check (total_require (by decide) _)
      (total_require (by decide) _)
  · exact total_check (total_require (by decide) _) (total_require (by decide) _)

theorem total_validateScopeBindings (handle : TargetWorkHandle) (preflight : TargetExecutionPreflight) :
    Total (validateScopeBindings budget handle preflight) := by
  refine total_check (total_require (by decide) _) <| total_check (total_requireRef _ _) ?_
  refine total_check (total_validateReceipt _ _ _) <| total_check (total_require (by decide) _) ?_
  refine total_check (total_requireRef _ _) <| total_check (total_require (by decide) _) ?_
  refine total_check (total_validateReceipt _ _ _) <| total_check (total_require (by decide) _) ?_
  exact total_check (total_requireRef _ _) <| total_check (total_requireRef _ _)
    (total_validateReceipt _ _ _)

theorem total_validateScopeLists (handle : TargetWorkHandle) (scope : CodeReviewScope) :
    Total (validateScopeLists handle scope) := by
  iterate 5 refine total_check (total_require (by decide) _) ?_
  exact total_check (total_checkRefs _ _) <| total_check (total_require (by decide) _)
    (total_checkRefs _ _)

theorem total_validateReadiness (preflight : TargetExecutionPreflight) :
    Total (validateReadiness preflight) := by
  iterate 2 refine total_check (total_require (by decide) _) ?_
  refine total_check (total_requireRef _ _) <| total_check (total_require (by decide) _) ?_
  exact raisesOnly_checkAll fun evidence _ =>
    total_check (total_requireRef evidence.evidenceRef _) (total_require (by decide) _)

theorem total_validateReviewEvidence (preflight : TargetExecutionPreflight) :
    Total (validateReviewEvidence budget digest preflight) := by
  unfold validateReviewEvidence
  split
  · split
    · refine total_check (total_require (by decide) _) <| total_bind (total_payloadDigest _ _) fun expected => ?_
      exact total_check (total_require (by decide) _) (total_validateReceipt _ _ _)
    · exact raisesOnly_error.mpr (by decide)
  · exact total_require (by decide) _

theorem total_validateTargetExecutionPreflight (handle : TargetWorkHandle) (expected : ExpectedPreflight)
    (preflight : TargetExecutionPreflight) :
    Total (validateTargetExecutionPreflight budget digest handle expected preflight) := by
  refine total_check (total_validateProjection _ _) ?_
  iterate 3 refine total_check (total_require (by decide) _) ?_
  refine total_check (total_requireRef _ _) <| total_check (total_require (by decide) _) ?_
  refine total_check (total_validateScopeBindings _ _) <| total_check (total_validateScopeLists _ _) ?_
  refine total_check (total_validateReadiness _) <| total_check (total_require (by decide) _) ?_
  exact total_check (total_validateCodeReview _ _ _) (total_validateReviewEvidence _)

theorem total_validateResultReview (review : ResultReviewRecord) (session : String)
    (attempt result : Option String) (manifest : String) (preflights : List TargetExecutionPreflight) :
    Total (validateResultReview budget review session attempt result manifest preflights) := by
  refine total_check (total_validateProjection _ _) ?_
  iterate 3 refine total_check (total_require (by decide) _) ?_
  iterate 4 refine total_check (total_requireRef _ _) ?_
  iterate 4 refine total_check (total_require (by decide) _) ?_
  exact total_check (total_requireNonnegativeInt _ _) (total_require (by decide) _)

theorem total_validateStopDecision (stop : StopDecisionProof) (handle : TargetWorkHandle) :
    Total (validateStopDecision budget stop handle) := by
  refine total_check (total_validateProjection _ _) ?_
  iterate 4 refine total_check (total_require (by decide) _) ?_
  refine total_check (total_requireRef _ _) <| total_check (total_validateReceipt _ _ _) ?_
  refine total_check (total_require (by decide) _) ?_
  split
  · exact total_check (total_requireOptionalRef _ _) (total_requireOptionalRef _ _)
  · exact total_check (total_require (by decide) _) (total_require (by decide) _)

theorem total_verifyReplacement (blocker : TechnicalBlocker) (handle : TargetWorkHandle)
    (previous replacement : Option TargetExecutionPreflight) (scope : Option CodeReviewScope) :
    Total (verifyReplacement budget digest blocker handle previous replacement scope) := by
  have fresh (old new : Option String) (name : String) (own : IsProtocolError
      ("code-changing recovery reused the previous " ++ name)) : Total (requireFresh old new name) :=
    total_require own _
  unfold verifyReplacement
  split
  · exact total_require (by decide) _
  · refine total_check (total_requireRef _ _) ?_
    split
    · iterate 2 refine total_check (total_require (by decide) _) ?_
      refine total_check (total_validateTargetExecutionPreflight _ _ _) ?_
      refine total_check (total_require (by decide) _) <| total_check (fresh _ _ _ (by decide)) ?_
      exact total_check (fresh _ _ _ (by decide)) (fresh _ _ _ (by decide))
    · exact raisesOnly_error.mpr (by decide)

theorem total_validateTechnicalBlockerRecovery (inputs : AcceptedInputs) (blocker : TechnicalBlocker)
    (old new : TargetWorkHandle) (previous replacement : Option TargetExecutionPreflight)
    (scope : Option CodeReviewScope) :
    Total (validateTechnicalBlockerRecovery budget digest inputs blocker old new previous replacement
      scope) := by
  have receipted : Total (recoveryReceiptOf blocker) := by
    unfold recoveryReceiptOf
    split
    · split_ifs
      · exact raisesOnly_ok
      · exact raisesOnly_error.mpr (by decide)
    · exact raisesOnly_error.mpr (by decide)
  refine total_check (total_validateProjection _ _) <| total_check (total_require (by decide) _) ?_
  iterate 2 refine total_check (total_requireRef _ _) ?_
  refine total_check (total_validateReceipt _ _ _) <| total_bind receipted fun receipt => ?_
  refine total_check (total_require (by decide) _) <| total_check (total_validateReceipt _ _ _) ?_
  refine total_check (total_validateTargetWorkHandle _ _ _) <| total_check (total_require (by decide) _) ?_
  exact total_check (total_verifyReplacement _ _ _ _ _) raisesOnly_pure

theorem total_validateTerminalBlocker (blocker : TechnicalBlocker) (handle : TargetWorkHandle) :
    Total (validateTerminalBlocker budget digest blocker handle) := by
  have escalated : Total (validateEscalation budget digest blocker handle) := by
    unfold validateEscalation
    split
    · refine total_check (total_requireRef _ _) <| total_bind (total_payloadDigest _ _) fun expected => ?_
      exact total_check (total_require (by decide) _) <| total_check (total_validateReceipt _ _ _)
        raisesOnly_pure
    · exact raisesOnly_error.mpr (by decide)
  refine total_check (total_validateProjection _ _) <| total_check (total_require (by decide) _) ?_
  iterate 2 refine total_check (total_requireRef _ _) ?_
  refine total_check (total_validateReceipt _ _ _) ?_
  iterate 4 refine total_check (total_require (by decide) _) ?_
  refine total_check (total_checkRefs _ _) ?_
  exact total_check (total_require (by decide) _) <| total_check (total_require (by decide) _) escalated

theorem total_terminalNoticeProjection (terminal : TargetTerminal) (factRef : Option String) :
    Total (terminalNoticeProjection terminal factRef) := by
  cases terminal with
  | barrier barrier => exact total_check (total_requireOptionalRef _ _) raisesOnly_pure
  | _ => exact raisesOnly_ok

/-! ### The handoff and the notice -/

theorem total_validateTargetRunHandoff (handoff : TargetRunHandoff) :
    Total (validateTargetRunHandoff budget digest handoff) := by
  have receipted (receipt : ReceiptProof) (subjectRef : String) :
      Total (validateReceiptProof budget receipt subjectRef) :=
    total_check (total_bind (Projection.total_visit budget _ _ _) fun _ => total_named (by decide) _ _)
      (total_require (by decide) _)
  have complete : Total (verifyComplete budget handoff) := by
    unfold verifyComplete
    split
    · refine total_check (total_check (total_require (by decide) _) ?_) (total_require (by decide) _)
      split
      · exact total_require (by decide) _
      · exact total_require (by decide) _
    · split
      · exact total_check (total_require (by decide) _) (receipted _ _)
      · exact total_require (by decide) _
    · exact total_require (by decide) _
  exact total_bind (Value.total_validateClosed _ _ _) fun _ => total_check complete raisesOnly_pure

theorem total_validateTargetWorkNotice (notice : TargetWorkNotice) :
    Total (validateTargetWorkNotice budget notice) :=
  total_check (total_validateProjection _ _) (total_require (by decide) _)

/-! ### The three replays -/

variable {arguments : ReplayArguments} {blockers : List TechnicalBlocker} {old : TargetWorkHandle}
  {rest : List TargetWorkHandle}

theorem total_validateHandle (handle : TargetWorkHandle) : Total (arguments.validateHandle budget handle) :=
  total_validateTargetWorkHandle _ _ handle

theorem total_retry (blocker : TechnicalBlocker) (old new : TargetWorkHandle) :
    Total (arguments.retry budget digest blocker old new) :=
  total_validateTechnicalBlockerRecovery _ _ _ _ _ _ _

theorem total_replayCancelledFrom (joined : blockers.length = rest.length) (evidence : List String) :
    Total (replayCancelledFrom budget digest arguments old blockers rest evidence) := by
  induction rest generalizing old blockers evidence with
  | nil =>
    obtain rfl := List.length_eq_zero_iff.mp joined
    exact raisesOnly_ok
  | cons new rest ih =>
    obtain ⟨blocker, blockers, rfl⟩ := List.exists_cons_of_length_eq_add_one joined
    exact total_check (total_validateHandle new) <| total_bind (total_retry blocker old new)
      fun transition => ih (Nat.succ.inj joined) (evidence ++ transition)

theorem total_replayRootFrom (joined : blockers.length = rest.length) (retired : Retired)
    (evidence : List String) :
    Total (replayRootFrom budget digest arguments old retired blockers rest evidence) := by
  induction rest generalizing old blockers retired evidence with
  | nil =>
    obtain rfl := List.length_eq_zero_iff.mp joined
    exact raisesOnly_ok
  | cons new rest ih =>
    obtain ⟨blocker, blockers, rfl⟩ := List.exists_cons_of_length_eq_add_one joined
    exact total_check (total_validateHandle new) <| total_check (total_require (by decide) _) <|
      total_bind (total_retry blocker old new)
        fun transition => ih (Nat.succ.inj joined) _ (evidence ++ transition)

theorem total_replayHistoryFrom (retired : Retired) :
    Total (replayHistoryFrom budget arguments old retired rest) := by
  induction rest generalizing old retired with
  | nil => exact raisesOnly_ok
  | cons new rest ih =>
    exact total_check (total_validateHandle new) <| total_check (total_require (by decide) _) <|
      total_check (total_require (by decide) _) (ih _)

theorem total_replayRecovery (old new : TargetWorkHandle) (recovering : Recovering)
    (blocker : TechnicalBlocker) :
    Total (replayRecovery budget digest arguments old new recovering blocker) := by
  have taken : Total (takePreflight blocker recovering) := by
    unfold takePreflight
    split
    · split
      · exact raisesOnly_error.mpr (by decide)
      · exact raisesOnly_ok
    · exact raisesOnly_ok
  have consumed : Total (consume blocker recovering.consumed) := by
    unfold consume
    split
    · exact raisesOnly_error.mpr (by decide)
    · exact total_check (total_require (by decide) _) raisesOnly_pure
  exact total_bind taken fun _ => total_bind (total_validateTechnicalBlockerRecovery _ _ _ _ _ _ _)
    fun _ => total_bind consumed fun _ => raisesOnly_pure

theorem total_replayRecoveries (joined : blockers.length = rest.length) (recovering : Recovering) :
    Total (replayRecoveries budget digest arguments blockers (old :: rest) recovering) := by
  induction rest generalizing old blockers recovering with
  | nil =>
    obtain rfl := List.length_eq_zero_iff.mp joined
    exact raisesOnly_ok
  | cons new rest ih =>
    obtain ⟨blocker, blockers, rfl⟩ := List.exists_cons_of_length_eq_add_one joined
    exact total_bind (total_replayRecovery old new recovering blocker) fun recovering =>
      ih (Nat.succ.inj joined) recovering

end TargetRun

end MetaResearch.Bundle

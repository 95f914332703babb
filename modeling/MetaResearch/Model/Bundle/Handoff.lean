import MetaResearch.Model.Bundle.Report

/-! # The handoff of a TargetRun

The checks that the Bundle protocol itself makes of a notice and of a handoff.
-/

namespace MetaResearch.Bundle

/-! ### The notice -/

/-- The budget of a root with fewer serialized bytes. -/
def Budget.within (budget : Budget) (maxSerializedBytes : ℕ) : Budget :=
  { budget with rootBytes := budget.rootBytes.map fun _ => maxSerializedBytes }

def bundleNoticeReasonMaxChars : ℕ := 512
def bundleNoticeReasonMaxUtf8Bytes : ℕ := 2048
def bundleNoticeMaxPendingObligations : ℕ := 64
def bundleNoticeRefMaxUtf8Bytes : ℕ := 1024
def bundleNoticeMaxSerializedBytes : ℕ := 64 * 1024
def bundleHandoffMaxSerializedBytes : ℕ := 4 * 1024 * 1024

/-- A line of text. -/
def isLine (value : String) : Bool := !value.toList.contains '\n' && !value.toList.contains '\r'

/-- The references of a notice, without those of its execution. -/
def TargetWorkNotice.refs (notice : TargetWorkNotice) : List String :=
  [notice.noticeRef, notice.terminalTransitionRef, notice.targetRef, notice.targetRunRef,
    notice.terminalFactRef, notice.handoffManifestRef]

def TargetWorkNotice.executionRefs (notice : TargetWorkNotice) : List (Option String) :=
  [notice.executionAttemptRef, notice.executionFenceRef]

/-- `validate_target_work_notice`, without the digest that no caller here reads -/
def validateTargetWorkNotice (budget : Budget) (notice : TargetWorkNotice) : Except String Unit := do
  Completion.validateProjection (budget.within bundleNoticeMaxSerializedBytes) "TargetWorkNotice"
    notice.value
  let refs := notice.refs ++ notice.pendingObligationRefs
  let executionRefs := notice.executionRefs.filterMap id
  require (1 ≤ notice.sequence &&
      ["target_completed", "coordination_required", "semantic_change_required"].contains notice.kind &&
      !Text.isBlank notice.compactReason && isLine notice.compactReason &&
      decide (notice.compactReason.length ≤ bundleNoticeReasonMaxChars) &&
      decide (notice.compactReason.utf8ByteSize ≤ bundleNoticeReasonMaxUtf8Bytes) &&
      decide (notice.pendingObligationRefs.length ≤ bundleNoticeMaxPendingObligations) &&
      decide notice.pendingObligationRefs.Nodup && refs.all (!Text.isBlank ·) &&
      (notice.executionRefs.all Option.isSome ||
        notice.kind = "semantic_change_required" && notice.executionRefs.all Option.isNone) &&
      executionRefs.all (!Text.isBlank ·) &&
      (refs ++ executionRefs).all (·.utf8ByteSize ≤ bundleNoticeRefMaxUtf8Bytes) &&
      notice.handoffManifestSha256.length = 64 && notice.payloadSha256.length = 64)
    "TargetWorkNotice is invalid"

/-! ### The handoff -/

/-- The values are in strictly increasing order. -/
def isSortedSet (values : List String) : Bool := values = Completion.sortedSet values

/-- A lower case hexadecimal digit. -/
def isHexDigit (char : Char) : Bool := "0123456789abcdef".toList.contains char

/-- `_validate_goal_work_disposition` -/
def validateGoalWorkDisposition (value : GoalWorkDisposition) : Except String Unit := do
  require (["cancelled", "not_started"].contains value.disposition &&
      [value.targetRef, value.targetRunRef, value.terminalFactRef, value.goalWorkIntentRef,
        value.goalRevisionRef, value.goalRevisionReceiptRef].all (!Text.isBlank ·) &&
      value.goalRevisionReceiptHash.length = 64 && value.goalRevisionReceiptHash.toList.all isHexDigit &&
      !Text.isBlank value.reason && isLine value.reason &&
      decide (value.reason.utf8ByteSize ≤ bundleNoticeReasonMaxUtf8Bytes) &&
      isSortedSet value.custodyRefs && value.custodyRefs.all (!Text.isBlank ·))
    "Goal work disposition is invalid"
  if value.disposition = "not_started" then
    require (value.executionAttemptRef.isNone && value.executionFenceRef.isNone &&
        value.terminalFactRef = value.goalWorkIntentRef && value.retentionKind.isNone &&
        value.custodyRefs.isEmpty)
      "Goal work non-start disposition is invalid"
  else
    require (value.executionAttemptRef.any (· ≠ "") && value.executionFenceRef.any (· ≠ "") &&
        value.retentionKind.any (["selected", "pending", "inspected_none"].contains ·) &&
        !value.custodyRefs.isEmpty)
      "Goal work cancellation disposition is invalid"

namespace TargetRunHandoff

/-- One blocker is recovered between two handles. -/
def joined (handoff : TargetRunHandoff) : Bool :=
  handoff.recoveredBlockers.length + 1 = handoff.handleHistory.length

/-- The handoff of a disposition of Goal work is complete. -/
def goalWorkComplete (handoff : TargetRunHandoff) (disposition : GoalWorkDisposition) : Bool :=
  if disposition.disposition = "not_started" then
    handoff.handleHistory.isEmpty && handoff.codeReviewPreflights.isEmpty &&
      handoff.stopDecisions.isEmpty && handoff.recoveredBlockers.isEmpty &&
      handoff.recoveryEvidenceRefs.isEmpty
  else
    !handoff.handleHistory.isEmpty && handoff.codeReviewPreflights.isEmpty &&
      handoff.stopDecisions.isEmpty && handoff.joined && isSortedSet handoff.recoveryEvidenceRefs

/-- The handoff of a root completion is complete. -/
def rootComplete (handoff : TargetRunHandoff) (closure : AcceptedMeasurementClosure) : Bool :=
  handoff.codeReviewPreflights.isEmpty && handoff.stopDecisions.isEmpty && handoff.joined &&
    handoff.recoveredBlockers.isEmpty = handoff.recoveryEvidenceRefs.isEmpty &&
    closure.codeReview.isNone && closure.resultReview.isNone &&
    handoff.handleHistory.getLast?.any ((TargetTerminal.closure closure).isOf ·)

/-- Any other handoff is complete. -/
def nativeComplete (handoff : TargetRunHandoff) : Bool :=
  !handoff.handleHistory.isEmpty && !handoff.codeReviewPreflights.isEmpty && handoff.joined

end TargetRunHandoff

/-- The handoff is complete for its terminal. -/
def verifyComplete (budget : Budget) (handoff : TargetRunHandoff) : Except String Unit :=
  match handoff.terminal with
  | .disposition disposition => do
    validateGoalWorkDisposition disposition
    require (handoff.goalWorkComplete disposition) "Goal work handoff is incomplete"
  | .closure closure =>
    match closure.rootCompletionReceipt with
    | some receipt => do
      require (handoff.rootComplete closure) "TargetRun root handoff is incomplete"
      validateReceiptProof budget receipt closure.executionAttemptRef
    | none => require handoff.nativeComplete "TargetRun handoff is incomplete"
  | _ => require handoff.nativeComplete "TargetRun handoff is incomplete"

/-- `validate_target_run_handoff`, answering the digest -/
def validateTargetRunHandoff (budget : Budget) (digest : String → String) (handoff : TargetRunHandoff) :
    Except String String := do
  let serialized ← handoff.value.validateClosed (budget.within bundleHandoffMaxSerializedBytes)
    "TargetRunHandoff"
  verifyComplete budget handoff
  pure (digest serialized)

end MetaResearch.Bundle

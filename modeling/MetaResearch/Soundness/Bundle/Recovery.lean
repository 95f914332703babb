import MetaResearch.Model.Bundle.Replay
import MetaResearch.Soundness.Bundle.Sizes
import MetaResearch.ToMathlib.Fresh

/-! # Identities along a recovery chain

What an accepted handoff says about its handle history. Each of the three replays compares a handle with
the one before it; only two of them remember the identities that were left behind, and only one remembers
the recovery receipts.
-/

namespace MetaResearch.Bundle

namespace TargetRun

open Completion (sortedSet)

/-! ### Recoveries -/

/-- An identity that a recovery has to renew. -/
inductive Identity where
  | rootSession | executionAttempt | executionFence

def Identity.of : Identity → TargetWorkHandle → String
  | rootSession, handle => handle.rootSessionRef
  | executionAttempt, handle => handle.executionAttemptRef
  | executionFence, handle => handle.executionFenceRef

/-- The identities of this kind that were left behind. -/
def Retired.of (retired : Retired) : Identity → List String
  | .rootSession => retired.sessions
  | .executionAttempt => retired.attempts
  | .executionFence => retired.fences

/-- The blocker is one of this handle. -/
def blocks (blocker : TechnicalBlocker) (handle : TargetWorkHandle) : Bool :=
  !isStale handle blocker.targetRef blocker.targetRunRef blocker.executionAttemptRef
    blocker.executionFenceRef

/-- The recovery leads from one handle to the next. -/
structure Recovers (blocker : TechnicalBlocker) (old new : TargetWorkHandle) : Prop where
  blocked : blocks blocker old = true
  receipted : blocker.recoveryReceipt.isSome = true
  renewed : ∀ identity : Identity, identity.of new ≠ identity.of old

/-- Each recovery leads from a handle to the one after it. -/
def RecoversEach : List TechnicalBlocker → TargetWorkHandle → List TargetWorkHandle → Prop
  | [], _, [] => True
  | blocker :: blockers, old, new :: rest => Recovers blocker old new ∧ RecoversEach blockers new rest
  | _, _, _ => False

/-- The references of the receipts that the recoveries of a handoff consume. -/
def recoveryReceiptRefs (handoff : TargetRunHandoff) : List String :=
  (handoff.recoveredBlockers.filterMap (·.recoveryReceipt)).map (·.receiptRef)

/-- No identity of the history is used twice, between two consecutive handles stands one recovery, and no
recovery receipt is consumed twice. -/
structure IsFreshChain (handoff : TargetRunHandoff) : Prop where
  identities : ∀ identity : Identity, (handoff.handleHistory.map identity.of).Nodup
  recoveries : List.Forall₂ (blocks · · = true) handoff.recoveredBlockers handoff.handleHistory.dropLast
  receipts : (recoveryReceiptRefs handoff).Nodup

variable {budget : Budget} {digest : String → String} {arguments : ReplayArguments}
  {blocker : TechnicalBlocker} {blockers : List TechnicalBlocker} {old new : TargetWorkHandle}
  {rest : List TargetWorkHandle} {retired : Retired}

theorem RecoversEach.blocks_dropLast (each : RecoversEach blockers old rest) :
    List.Forall₂ (blocks · · = true) blockers (old :: rest).dropLast := by
  induction blockers generalizing old rest with
  | nil =>
    cases rest with
    | nil => exact .nil
    | cons => exact each.elim
  | cons blocker blockers ih =>
    cases rest with
    | nil => exact each.elim
    | cons new rest => exact .cons each.1.blocked (ih each.2)

theorem RecoversEach.neighbours (each : RecoversEach blockers old rest) (identity : Identity) :
    ((old :: rest).map identity.of).IsChain (· ≠ ·) := by
  induction blockers generalizing old rest with
  | nil =>
    cases rest with
    | nil => exact .singleton _
    | cons => exact each.elim
  | cons blocker blockers ih =>
    cases rest with
    | nil => exact each.elim
    | cons new rest => exact .cons_cons (each.1.renewed identity).symm (ih each.2)

theorem recovers_of_validated {inputs : AcceptedInputs} {evidence : List String}
    {previous replacement : Option TargetExecutionPreflight} {scope : Option CodeReviewScope}
    (validated : validateTechnicalBlockerRecovery budget digest inputs blocker old new previous
      replacement scope = .ok evidence) : Recovers blocker old new := by
  simp only [validateTechnicalBlockerRecovery, check_then_eq_ok_iff, require_eq_ok_iff,
    bind_eq_ok_iff (α := ReceiptProof), Bool.and_eq_true, decide_eq_true_eq] at validated
  obtain ⟨_, blocked, _, _, _, receipt, found, _, _, _, ⟨⟨session, attempt⟩, fence⟩, _⟩ := validated
  refine ⟨blocked, ?_, ?_⟩
  · cases present : blocker.recoveryReceipt with
    | none => simp [recoveryReceiptOf, present] at found
    | some => rfl
  · rintro (_ | _ | _)
    exacts [session, attempt, fence]

/-! ### The three replays -/

theorem recoversEach_of_replayCancelledFrom {evidence required : List String}
    (replayed : replayCancelledFrom budget digest arguments old blockers rest evidence = .ok required)
    (joined : blockers.length = rest.length) : RecoversEach blockers old rest := by
  induction rest generalizing old blockers evidence with
  | nil =>
    obtain rfl := List.length_eq_zero_iff.mp joined
    trivial
  | cons new rest ih =>
    obtain ⟨blocker, blockers, rfl⟩ := List.exists_cons_of_length_eq_add_one joined
    simp only [replayCancelledFrom, check_then_eq_ok_iff, bind_eq_ok_iff (α := List String)] at replayed
    obtain ⟨_, transition, validated, others⟩ := replayed
    exact ⟨recovers_of_validated validated, ih others (Nat.succ.inj joined)⟩

/-- A fresh handle has no identity that was left behind. -/
theorem Retired.notMem_of_isFresh {handle : TargetWorkHandle} (fresh : retired.isFresh handle = true)
    (identity : Identity) : identity.of handle ∉ retired.of identity := by
  simp only [Retired.isFresh, Bool.and_eq_true, Bool.not_eq_true', List.contains_eq_mem,
    decide_eq_false_iff_not] at fresh
  obtain ⟨⟨session, attempt⟩, fence⟩ := fresh
  cases identity
  exacts [session, attempt, fence]

theorem Retired.of_add (retired : Retired) (handle : TargetWorkHandle) (identity : Identity) :
    (retired.add handle).of identity = identity.of handle :: retired.of identity := by
  cases identity <;> rfl

theorem Retired.of_addRun (retired : Retired) (previous handle : TargetWorkHandle) (identity : Identity) :
    (retired.addRun previous handle).of identity = retired.of identity := by
  unfold Retired.addRun
  split_ifs
  · cases identity <;> rfl
  · rfl

theorem walksFresh_of_replayRootFrom {evidence required : List String}
    (replayed : replayRootFrom budget digest arguments old retired blockers rest evidence = .ok required)
    (joined : blockers.length = rest.length) :
    RecoversEach blockers old rest ∧
      ∀ identity : Identity, WalksFresh identity.of (retired.of identity) old rest := by
  induction rest generalizing old blockers retired evidence with
  | nil =>
    obtain rfl := List.length_eq_zero_iff.mp joined
    exact ⟨trivial, fun _ => trivial⟩
  | cons new rest ih =>
    obtain ⟨blocker, blockers, rfl⟩ := List.exists_cons_of_length_eq_add_one joined
    simp only [replayRootFrom, rootFresh, check_then_eq_ok_iff, require_eq_ok_iff, Bool.and_eq_true,
      bind_eq_ok_iff (α := List String)] at replayed
    obtain ⟨_, ⟨_, fresh⟩, transition, validated, others⟩ := replayed
    obtain ⟨each, walks⟩ := ih others (Nat.succ.inj joined)
    have recovers := recovers_of_validated validated
    refine ⟨⟨recovers, each⟩, fun identity => ⟨?_, retired.of_add old identity ▸ walks identity⟩⟩
    exact List.not_mem_cons_of_ne_of_not_mem (recovers.renewed identity)
      (Retired.notMem_of_isFresh fresh identity)

theorem walksFresh_of_replayHistoryFrom
    (replayed : replayHistoryFrom budget arguments old retired rest = .ok ()) (identity : Identity) :
    WalksFresh identity.of (retired.of identity) old rest := by
  induction rest generalizing old retired with
  | nil => trivial
  | cons new rest ih =>
    simp only [replayHistoryFrom, check_then_eq_ok_iff, require_eq_ok_iff] at replayed
    obtain ⟨_, _, fresh, others⟩ := replayed
    have left : ((retired.add old).addRun old new).of identity = identity.of old :: retired.of identity := by
      rw [Retired.of_addRun, Retired.of_add]
    have avoids := Retired.notMem_of_isFresh (Bool.and_eq_true_iff.mp fresh).2 identity
    exact ⟨left ▸ avoids, left ▸ ih others⟩

/-- The receipts are those that were not consumed before. -/
theorem recoversEach_of_replayRecoveries {recovering recovered : Recovering}
    (replayed : replayRecoveries budget digest arguments blockers (old :: rest) recovering = .ok recovered)
    (joined : blockers.length = rest.length) :
    RecoversEach blockers old rest ∧
      ((blockers.filterMap (·.recoveryReceipt)).map (·.receiptRef)).Nodup ∧
      ∀ ref ∈ (blockers.filterMap (·.recoveryReceipt)).map (·.receiptRef), ref ∉ recovering.consumed := by
  induction rest generalizing old blockers recovering with
  | nil =>
    obtain rfl := List.length_eq_zero_iff.mp joined
    exact ⟨trivial, .nil, by simp⟩
  | cons new rest ih =>
    obtain ⟨blocker, blockers, rfl⟩ := List.exists_cons_of_length_eq_add_one joined
    rw [replayRecoveries, bind_eq_ok_iff] at replayed
    obtain ⟨middle, round, others⟩ := replayed
    obtain ⟨each, distinct, unconsumed⟩ := ih others (Nat.succ.inj joined)
    rw [replayRecovery, bind_eq_ok_iff] at round
    obtain ⟨taken, _, round⟩ := round
    obtain ⟨transition, validated, round⟩ := bind_eq_ok_iff.mp round
    obtain ⟨consumed, consumes, last⟩ := bind_eq_ok_iff.mp round
    obtain rfl := Except.ok.inj last
    cases present : blocker.recoveryReceipt with
    | none => simp [consume, present] at consumes
    | some receipt =>
      simp only [consume, present, check_then_eq_ok_iff, require_eq_ok_iff, Bool.not_eq_true',
        List.contains_eq_mem, decide_eq_false_iff_not, pure, Except.pure, Except.ok.injEq] at consumes
      obtain ⟨fresh, rfl⟩ := consumes
      rw [List.filterMap_cons_some present, List.map_cons]
      refine ⟨⟨recovers_of_validated validated, each⟩, List.nodup_cons.mpr ⟨?_, distinct⟩, ?_⟩
      · exact fun again => unconsumed _ again List.mem_cons_self
      · refine List.forall_mem_cons.mpr ⟨fresh, fun ref member => ?_⟩
        exact List.not_mem_of_not_mem_cons (unconsumed ref member)

/-! ### The accepted handoff -/

/-- The terminal fact is a disposition of Goal work. -/
def isDisposition : TargetTerminal → Bool
  | .disposition _ => true
  | _ => false

/-- The terminal fact selects the replay of native executions. -/
def isNative : TargetTerminal → Bool
  | .closure closure => closure.rootCompletionReceipt.isNone
  | .disposition _ => false
  | _ => true

theorem validateTargetRunHandoffNotice_eq_ok_iff {manifest : String} :
    validateTargetRunHandoffNotice budget digest arguments = .ok manifest ↔
      validateTargetRunHandoff budget digest arguments.handoff = .ok manifest ∧
      validateTargetWorkNotice budget arguments.notice = .ok () ∧
      arguments.validateHandle budget arguments.initialHandle = .ok () ∧
      verifyStart arguments = .ok () ∧ replay budget digest arguments manifest = .ok () := by
  simp only [validateTargetRunHandoffNotice, bind_eq_ok_iff (α := String), check_then_eq_ok_iff, pure,
    Except.pure, Except.ok.injEq]
  constructor
  · rintro ⟨manifest, handoff, notice, handle, start, replayed, rfl⟩
    exact ⟨handoff, notice, handle, start, replayed⟩
  · rintro ⟨handoff, notice, handle, start, replayed⟩
    exact ⟨manifest, handoff, notice, handle, start, replayed, rfl⟩

/-- A complete handoff with a history has one recovery between two handles. -/
theorem joined_of_validated {handoff : TargetRunHandoff} {manifest : String}
    (validated : validateTargetRunHandoff budget digest handoff = .ok manifest)
    (started : handoff.handleHistory ≠ []) : handoff.joined = true := by
  rw [validateTargetRunHandoff, bind_eq_ok_iff] at validated
  obtain ⟨_, _, validated⟩ := validated
  obtain ⟨complete, _⟩ := check_then_eq_ok_iff.mp validated
  have native (complete : handoff.nativeComplete = true) : handoff.joined = true :=
    (Bool.and_eq_true_iff.mp complete).2
  cases terminal : handoff.terminal with
  | blocker blocker =>
    simp only [verifyComplete, terminal, require_eq_ok_iff] at complete
    exact native complete
  | barrier barrier =>
    simp only [verifyComplete, terminal, require_eq_ok_iff] at complete
    exact native complete
  | closure closure =>
    cases root : closure.rootCompletionReceipt with
    | none =>
      simp only [verifyComplete, terminal, root, require_eq_ok_iff] at complete
      exact native complete
    | some receipt =>
      simp only [verifyComplete, terminal, root, check_then_eq_ok_iff, require_eq_ok_iff,
        TargetRunHandoff.rootComplete, Bool.and_eq_true] at complete
      exact complete.1.1.1.1.1.2
  | disposition disposition =>
    simp only [verifyComplete, terminal, check_then_eq_ok_iff, require_eq_ok_iff,
      TargetRunHandoff.goalWorkComplete] at complete
    obtain ⟨_, complete⟩ := complete
    split at complete
    · simp [started] at complete
    · simp only [Bool.and_eq_true] at complete
      exact complete.1.2

theorem recoversEach_of_replayCancelled {required : List String}
    (replayed : replayCancelled budget digest arguments = .ok required)
    (history : arguments.handoff.handleHistory = old :: rest)
    (joined : arguments.handoff.recoveredBlockers.length = rest.length) :
    RecoversEach arguments.handoff.recoveredBlockers old rest := by
  simp only [replayCancelled, history, check_then_eq_ok_iff] at replayed
  exact recoversEach_of_replayCancelledFrom replayed.2 joined

theorem walksFresh_of_replayRoot {required : List String}
    (replayed : replayRoot budget digest arguments = .ok required)
    (history : arguments.handoff.handleHistory = old :: rest)
    (joined : arguments.handoff.recoveredBlockers.length = rest.length) :
    RecoversEach arguments.handoff.recoveredBlockers old rest ∧
      ∀ identity : Identity, ((old :: rest).map identity.of).Nodup := by
  simp only [replayRoot, history, check_then_eq_ok_iff] at replayed
  obtain ⟨each, walks⟩ := walksFresh_of_replayRootFrom replayed.2.2 joined
  exact ⟨each, fun identity => (walks identity).nodup⟩

theorem recoversEach_of_validateNative {manifest : String}
    (validated : validateNative budget digest arguments manifest = .ok ())
    (history : arguments.handoff.handleHistory = old :: rest)
    (joined : arguments.handoff.recoveredBlockers.length = rest.length) :
    RecoversEach arguments.handoff.recoveredBlockers old rest ∧
      (∀ identity : Identity, ((old :: rest).map identity.of).Nodup) ∧
      (recoveryReceiptRefs arguments.handoff).Nodup := by
  rw [validateNative, check_then_eq_ok_iff, check_then_eq_ok_iff] at validated
  obtain ⟨_, handles, validated⟩ := validated
  obtain ⟨recovered, recoveries, _⟩ := bind_eq_ok_iff.mp validated
  simp only [replayHistory, history, check_then_eq_ok_iff] at handles
  unfold replayNative at recoveries
  split at recoveries
  · cases recoveries
  · rw [check_then_eq_ok_iff, history] at recoveries
    obtain ⟨each, distinct, _⟩ := recoversEach_of_replayRecoveries recoveries.2 joined
    exact ⟨each, fun identity => (walksFresh_of_replayHistoryFrom handles.2.2 identity).nodup, distinct⟩

/-- What every accepted handoff says of its history, and what only some of them say. -/
theorem recoversEach_of_accepted {manifest : String}
    (accepted : validateTargetRunHandoffNotice budget digest arguments = .ok manifest) :
    ∃ first rest, arguments.handoff.handleHistory = first :: rest ∧
      RecoversEach arguments.handoff.recoveredBlockers first rest ∧
      (isDisposition arguments.handoff.terminal = false →
        ∀ identity : Identity, (arguments.handoff.handleHistory.map identity.of).Nodup) ∧
      (isNative arguments.handoff.terminal = true → (recoveryReceiptRefs arguments.handoff).Nodup) := by
  obtain ⟨handoff, _, _, start, replayed⟩ := validateTargetRunHandoffNotice_eq_ok_iff.mp accepted
  cases history : arguments.handoff.handleHistory with
  | nil => simp [verifyStart, history] at start
  | cons first rest =>
    have joined := joined_of_validated handoff (by simp [history])
    simp only [TargetRunHandoff.joined, history, List.length_cons, Nat.add_right_cancel_iff,
      decide_eq_true_eq] at joined
    have native (validated : validateNative budget digest arguments manifest = .ok ()) :=
      recoversEach_of_validateNative validated history joined
    refine ⟨first, rest, rfl, ?_⟩
    unfold replay at replayed
    split at replayed
    · rename_i closure terminal
      split at replayed
      · rename_i receipt root
        rw [validateTargetRootCompletion, check_then_eq_ok_iff] at replayed
        obtain ⟨required, walked, _⟩ := bind_eq_ok_iff.mp replayed.2
        obtain ⟨each, distinct⟩ := walksFresh_of_replayRoot walked history joined
        exact ⟨each, fun _ => distinct, by simp [isNative, terminal, root]⟩
      · obtain ⟨each, distinct, receipts⟩ := native replayed
        exact ⟨each, fun _ => distinct, fun _ => receipts⟩
    · rename_i disposition terminal
      rw [check_then_eq_ok_iff, validateGoalWorkCancellation, check_then_eq_ok_iff] at replayed
      obtain ⟨required, walked, _⟩ := bind_eq_ok_iff.mp replayed.2.2
      exact ⟨recoversEach_of_replayCancelled walked history joined, by simp [isDisposition, terminal],
        by simp [isNative, terminal]⟩
    · obtain ⟨each, distinct, receipts⟩ := native replayed
      exact ⟨each, fun _ => distinct, fun _ => receipts⟩

/-- An accepted handoff has a fresh chain exactly when a cancelled history takes up no identity of a
handle before the last one, and one without native execution consumes no recovery receipt twice. -/
theorem fresh_chain_iff (budget : Budget) (digest : String → String) (arguments : ReplayArguments)
    (manifest : String)
    (accepted : validateTargetRunHandoffNotice budget digest arguments = .ok manifest) :
    IsFreshChain arguments.handoff ↔
      (isDisposition arguments.handoff.terminal = true →
        ∀ identity : Identity, NoReturn (arguments.handoff.handleHistory.map identity.of)) ∧
      (isNative arguments.handoff.terminal = false → (recoveryReceiptRefs arguments.handoff).Nodup) := by
  obtain ⟨first, rest, history, each, distinct, receipts⟩ := recoversEach_of_accepted accepted
  constructor
  · intro chain
    exact ⟨fun _ identity => (nodup_iff_isChain_ne_and_noReturn.mp (chain.identities identity)).2,
      fun _ => chain.receipts⟩
  · rintro ⟨noReturn, unconsumed⟩
    refine ⟨fun identity => ?_, history ▸ each.blocks_dropLast, ?_⟩
    · cases cancelled : isDisposition arguments.handoff.terminal with
      | false => exact distinct cancelled identity
      | true =>
        refine nodup_iff_isChain_ne_and_noReturn.mpr ⟨?_, noReturn cancelled identity⟩
        rw [history]
        exact each.neighbours identity
    · cases native : isNative arguments.handoff.terminal with
      | false => exact unconsumed native
      | true => exact receipts native

/-! ### A cancelled run that returns -/

def receiptFor (receiptRef subjectRef : String) : ReceiptProof := ⟨receiptRef, subjectRef, true, true, true⟩

/-- A handle of one run, under its session, attempt, fence and input binding. -/
def handleOf (session attempt fence input : String) : TargetWorkHandle where
  targetRef := "target"
  targetRunRef := "run"
  rootSessionRef := session
  executionAttemptRef := attempt
  executionFenceRef := fence
  executionInputBindingRef := input
  executionInputBindingReceipt := receiptFor "r" input
  acceptedInputTargetCommitRefs := []
  acceptedInputAssetProofs := []
  recoverable := true

/-- The last handle has the session, attempt and fence of the first one. -/
def returnedHandles : List TargetWorkHandle :=
  [handleOf "s" "a" "f" "i", handleOf "t" "b" "g" "j", handleOf "s" "a" "f" "k"]

/-- A recovered blocker of a handle. -/
def blockerOf (blockerRef attempt fence : String) : TechnicalBlocker where
  targetRef := "target"
  targetRunRef := "run"
  executionAttemptRef := attempt
  executionFenceRef := fence
  blockerRef := blockerRef
  blockerReceipt := receiptFor (blockerRef ++ "1") blockerRef
  reason := "reason"
  recoveryReady := true
  oldSessionFenced := true
  recoveryPackComplete := true
  recoveryReceipt := some (receiptFor (blockerRef ++ "2") blockerRef)

def returnedBlockers : List TechnicalBlocker := [blockerOf "x" "a" "f", blockerOf "y" "b" "g"]

def returnedDisposition : GoalWorkDisposition where
  disposition := "cancelled"
  targetRef := "target"
  targetRunRef := "run"
  executionAttemptRef := some "a"
  executionFenceRef := some "f"
  terminalFactRef := "fact"
  goalWorkIntentRef := "intent"
  goalRevisionRef := "revision"
  goalRevisionReceiptRef := "receipt"
  goalRevisionReceiptHash := String.ofList (List.replicate 64 '0')
  reason := "reason"
  retentionKind := some "selected"
  custodyRefs := ["custody"]

def returnedHandoff : TargetRunHandoff where
  handleHistory := returnedHandles
  codeReviewPreflights := []
  stopDecisions := []
  recoveredBlockers := returnedBlockers
  recoveryEvidenceRefs := ["a", "b", "f", "g", "run", "s", "t", "x", "x1", "x2", "y", "y1", "y2"]
  terminal := .disposition returnedDisposition

def returnedSpec : TargetSpec := ⟨⟨"target", "hash"⟩, receiptFor "r" "hash"⟩

def returnedFrontier : TargetFrontierEntry where
  targetRef := "target"
  targetSpecBinding := returnedSpec.binding
  targetSpecAcceptanceReceipt := returnedSpec.acceptanceReceipt
  stateRevision := 1
  state := "terminal"
  currentHandle := handleOf "s" "a" "f" "k"
  terminalFactRef := some "fact"
  currentnessKnown := true
  current := true

/-- The notice of the cancellation, under the digests of the handoff and of its own payload. -/
def returnedNotice (manifest payload : String) : TargetWorkNotice where
  noticeRef := "notice"
  sequence := 1
  terminalTransitionRef := "transition"
  kind := "semantic_change_required"
  targetRef := "target"
  targetRunRef := "run"
  executionAttemptRef := some "a"
  executionFenceRef := some "f"
  terminalFactRef := "fact"
  handoffManifestRef := "manifest"
  handoffManifestSha256 := manifest
  compactReason := "reason"
  pendingObligationRefs := ["custody"]
  payloadSha256 := payload

def returnedArguments (manifest payload : String) : ReplayArguments where
  handoff := returnedHandoff
  notice := returnedNotice manifest payload
  frontier := returnedFrontier
  reconfirmedFrontier := returnedFrontier
  initialHandle := handleOf "s" "a" "f" "i"
  spec := returnedSpec
  expectedReviewScopes := []
  expectedInitialImplementationRevisionRef := ""
  expectedInitialCodeChanged := false

private theorem receiptFor_valid (receiptRef : String) {subjectRef : String} (name : String)
    (present : Text.isBlank receiptRef = false)
    (short : receiptRef.utf8ByteSize ≤ 4096 ∧ subjectRef.utf8ByteSize ≤ 4096) :
    validateReceipt .standard (receiptFor receiptRef subjectRef) subjectRef name = .ok () := by
  have valid : validateReceiptProof .standard (receiptFor receiptRef subjectRef) subjectRef = .ok () :=
    validateReceiptProof_of_short present rfl ⟨rfl, rfl, rfl⟩ short
  rw [validateReceipt, valid]

theorem returnedHandles_valid : ∀ handle ∈ returnedHandles,
    validateTargetWorkHandle .standard "target" ⟨[], []⟩ handle = .ok () := by
  have light : ∀ handle ∈ returnedHandles,
      (handle.value.visit Budget.standard.unrooted "TargetWorkHandle" {} ⟨0, 0⟩).isOk = true ∧
        handle.value.plainValue?.isSome = true ∧ handle.value.weight ≤ 8 * 1024 * 1024 := by
    decide +kernel
  have refs : ∀ handle ∈ returnedHandles, requireRef handle.targetRunRef "TargetRun" = .ok () ∧
      requireRef handle.rootSessionRef "Target root Session" = .ok () ∧
      requireRef handle.executionAttemptRef "ExecutionAttempt" = .ok () ∧
      requireRef handle.executionFenceRef "ExecutionFence" = .ok () ∧
      requireRef handle.executionInputBindingRef "Execution Input Binding" = .ok () ∧
      [handle.targetRunRef, handle.rootSessionRef, handle.executionAttemptRef,
        handle.executionFenceRef].Nodup ∧
      handle.executionInputBindingRef.utf8ByteSize ≤ 4096 := by
    decide
  intro handle member
  obtain ⟨visited, plain, small⟩ := light handle member
  obtain ⟨run, session, attempt, fence, input, distinct, short⟩ := refs handle member
  have shape : handle.targetRef = "target" ∧
      handle.executionInputBindingReceipt = receiptFor "r" handle.executionInputBindingRef ∧
      handle.acceptedInputTargetCommitRefs = [] ∧ handle.acceptedInputAssetProofs = [] ∧
      handle.recoverable = true := by
    revert handle
    decide +kernel
  obtain ⟨target, receipt, commits, assets, recoverable⟩ := shape
  have empty : isSortedSet [] = true := by rfl
  have receipted := receiptFor_valid "r" "Execution Input Binding receipt"
    (by decide) ⟨by decide, short⟩
  simp only [validateTargetWorkHandle, check_then_eq_ok_iff, require_eq_ok_iff, target, receipt, commits,
    assets, recoverable, run, session, attempt, fence, input, distinct, receipted, empty, checkAll,
    List.map_nil, decide_true, and_true]
  exact Completion.validateProjection_of_light visited plain small

/-- The recoveries of the run, with their handles and their evidence. -/
def returnedRecoveries : List (TechnicalBlocker × (TargetWorkHandle × TargetWorkHandle) × List String) :=
  [(blockerOf "x" "a" "f", (handleOf "s" "a" "f" "i", handleOf "t" "b" "g" "j"),
      ["a", "b", "f", "g", "run", "s", "t", "x", "x1", "x2"]),
    (blockerOf "y" "b" "g", (handleOf "t" "b" "g" "j", handleOf "s" "a" "f" "k"),
      ["a", "b", "f", "g", "run", "s", "t", "y", "y1", "y2"])]

private theorem returnedRecoveries_valid (digest : String → String) :
    ∀ entry ∈ returnedRecoveries, validateTechnicalBlockerRecovery .standard digest ⟨[], []⟩ entry.1
      entry.2.1.1 entry.2.1.2 none none none = .ok entry.2.2 := by
  have light : ∀ entry ∈ returnedRecoveries,
      (entry.1.value.visit Budget.standard.unrooted "TechnicalBlocker" {} ⟨0, 0⟩).isOk = true ∧
        entry.1.value.plainValue?.isSome = true ∧ entry.1.value.weight ≤ 8 * 1024 * 1024 := by
    decide +kernel
  have receipts : ∀ entry ∈ returnedRecoveries,
      entry.1.blockerReceipt = receiptFor entry.1.blockerReceipt.receiptRef entry.1.blockerRef ∧
        recoveryReceiptOf entry.1 =
          .ok (receiptFor (entry.1.blockerRef ++ "2") entry.1.blockerRef) ∧
        Text.isBlank entry.1.blockerReceipt.receiptRef = false ∧
        Text.isBlank (entry.1.blockerRef ++ "2") = false ∧
        entry.1.blockerReceipt.receiptRef.utf8ByteSize ≤ 4096 ∧
        (entry.1.blockerRef ++ "2").utf8ByteSize ≤ 4096 ∧ entry.1.blockerRef.utf8ByteSize ≤ 4096 := by
    decide
  have rest : ∀ entry ∈ returnedRecoveries,
      blocks entry.1 entry.2.1.1 = true ∧ requireRef entry.1.blockerRef "TechnicalBlocker" = .ok () ∧
        requireRef entry.1.reason "TechnicalBlocker reason" = .ok () ∧
        (!entry.1.bundleDecisionRequired && entry.1.escalationScope.isNone &&
          entry.1.pendingObligationRefs.isEmpty && entry.1.escalationEvidence.isNone &&
          entry.1.escalationReceipt.isNone) = true ∧
        entry.2.1.1.targetRef = "target" ∧ entry.2.1.2 ∈ returnedHandles ∧
        (entry.2.1.2.rootSessionRef ≠ entry.2.1.1.rootSessionRef &&
          entry.2.1.2.executionAttemptRef ≠ entry.2.1.1.executionAttemptRef &&
          entry.2.1.2.executionFenceRef ≠ entry.2.1.1.executionFenceRef) = true ∧
        entry.1.replacementImplementationRevisionRef = none ∧
        sortedSet (entry.1.blockerRef :: entry.1.blockerReceipt.receiptRef ::
          (entry.1.blockerRef ++ "2") :: identitiesOf entry.2.1.1 ++ identitiesOf entry.2.1.2) =
            entry.2.2 := by
    decide
  intro entry member
  obtain ⟨visited, plain, small⟩ := light entry member
  obtain ⟨blockerReceipt, recoveryReceipt, present, other, short, brief, ref⟩ := receipts entry member
  obtain ⟨blocked, blockerRef, reason, local', target, known, renewed, pure', evidence⟩ := rest entry member
  have first := receiptFor_valid entry.1.blockerReceipt.receiptRef "TechnicalBlocker receipt" present ⟨short, ref⟩
  have second := receiptFor_valid (entry.1.blockerRef ++ "2") "TargetRun recovery receipt" other ⟨brief, ref⟩
  rw [← blockerReceipt] at first
  have projection := Completion.validateProjection_of_light visited plain small
  have handle := returnedHandles_valid _ known
  rw [blocks] at blocked
  simp only [validateTechnicalBlockerRecovery, projection, blocked, blockerRef, reason, first,
    recoveryReceipt, local', second, target, handle, renewed, verifyReplacement, pure', require, bind,
    Except.bind, pure, Except.pure, Option.isNone_none, Bool.and_self, if_true]
  exact congrArg _ evidence

private theorem returnedNotice_visited {manifest payload : String} (first : manifest.utf8ByteSize = 64)
    (second : payload.utf8ByteSize = 64) :
    ((returnedNotice manifest payload).value.visit Budget.standard.unrooted "TargetWorkNotice" {}
      ⟨0, 0⟩).isOk = true := by
  have text {field text : String} {nodes : ℕ} {declared : List (String × Annotation)} {rest : List Value}
      {hint : Annotation} (plain : (Value.isMetricValues .targetWorkNotice field ||
        Value.inheritsPlanText .targetWorkNotice field) = false)
      (typed : Value.matchesAnnotation hint (.text text) = true) (few : nodes < 65536)
      (short : text.utf8ByteSize ≤ 4096)
      (others : FieldsPass "TargetWorkNotice" .targetWorkNotice declared rest (nodes + 1)) :
      FieldsPass "TargetWorkNotice" .targetWorkNotice ((field, hint) :: declared)
        (.text text :: rest) nodes :=
    .cons plain typed (FieldsPass.text few short) others
  have fields : FieldsPass "TargetWorkNotice" .targetWorkNotice RecordType.targetWorkNotice.fields
      [.text "notice", .integer 1, .text "transition", .text "semantic_change_required", .text "target",
        .text "run", .text "a", .text "f", .text "fact", .text "manifest", .text manifest, .text "reason",
        .texts ["custody"], .text payload] 1 := by
    refine text rfl rfl (by omega) (by decide) (.cons rfl rfl
      (FieldsPass.integer (by omega) (by decide)) ?_)
    iterate 8 refine text rfl rfl (by omega) (by decide) ?_
    refine text rfl rfl (by omega) (by omega) (text rfl rfl (by omega) (by decide) ?_)
    have lone : ["custody"].length = 1 := rfl
    exact .cons rfl rfl (FieldsPass.texts (by decide) (by decide) (by decide))
      (text rfl rfl (by omega) (by omega) .nil)
  exact fields.record

private theorem returnedNotice_weight {manifest payload : String} (first : manifest.utf8ByteSize = 64)
    (second : payload.utf8ByteSize = 64) :
    (returnedNotice manifest payload).value.weight ≤ bundleNoticeMaxSerializedBytes := by
  have closed : (returnedNotice "" "").value.weight + 6 * 64 + 6 * 64 ≤ bundleNoticeMaxSerializedBytes := by
    decide
  have same : (returnedNotice manifest payload).value.weight =
      (returnedNotice "" "").value.weight + 6 * manifest.utf8ByteSize + 6 * payload.utf8ByteSize := by
    simp only [returnedNotice, TargetWorkNotice.value, Value.weight, Value.itemsWeight, Value.optional,
      Value.texts, List.map_cons, List.map_nil, List.length_cons, String.utf8ByteSize_empty]
    omega
  omega

/-- A digest is written in 64 characters of one byte. -/
def IsDigest (text : String) : Prop := text.length = 64 ∧ text.utf8ByteSize = 64

private theorem returnedNotice_valid {manifest payload : String} (first : IsDigest manifest)
    (second : IsDigest payload) :
    validateTargetWorkNotice .standard (returnedNotice manifest payload) = .ok () := by
  obtain ⟨serialized, passed⟩ := Value.validateClosed_of_light
    (returnedNotice_visited first.2 second.2) rfl (returnedNotice_weight first.2 second.2)
  have fixed (notice : TargetWorkNotice) (same : notice = returnedNotice "" "") :
      (1 ≤ notice.sequence &&
      ["target_completed", "coordination_required", "semantic_change_required"].contains notice.kind &&
      !Text.isBlank notice.compactReason && isLine notice.compactReason &&
      decide (notice.compactReason.length ≤ bundleNoticeReasonMaxChars) &&
      decide (notice.compactReason.utf8ByteSize ≤ bundleNoticeReasonMaxUtf8Bytes) &&
      decide (notice.pendingObligationRefs.length ≤ bundleNoticeMaxPendingObligations) &&
      decide notice.pendingObligationRefs.Nodup &&
      (notice.refs ++ notice.pendingObligationRefs).all (!Text.isBlank ·) &&
      (notice.executionRefs.all Option.isSome ||
        notice.kind = "semantic_change_required" && notice.executionRefs.all Option.isNone) &&
      (notice.executionRefs.filterMap id).all (!Text.isBlank ·) &&
      ((notice.refs ++ notice.pendingObligationRefs) ++ notice.executionRefs.filterMap id).all
        (·.utf8ByteSize ≤ bundleNoticeRefMaxUtf8Bytes)) = true := by
    subst same
    decide
  rw [validateTargetWorkNotice, check_then_eq_ok_iff, require_eq_ok_iff, Bool.and_eq_true,
    Bool.and_eq_true, decide_eq_true_eq, decide_eq_true_eq]
  exact ⟨bind_eq_ok_iff.mpr ⟨serialized, passed, rfl⟩, ⟨fixed (returnedNotice "" "") rfl, first.1⟩, second.1⟩

private theorem returnedHandoff_valid (digest : String → String) :
    ∃ text, validateTargetRunHandoff .standard digest returnedHandoff = .ok (digest text) := by
  obtain ⟨serialized, passed⟩ := @Value.validateClosed_of_light .standard bundleHandoffMaxSerializedBytes
    "TargetRunHandoff" returnedHandoff.value (by decide +kernel) (by decide +kernel) (by decide +kernel)
  have complete : verifyComplete .standard returnedHandoff = .ok () := by decide
  exact ⟨serialized, bind_eq_ok_iff.mpr ⟨serialized, passed, check_then_eq_ok_iff.mpr ⟨complete, rfl⟩⟩⟩

private theorem returnedFrontier_valid :
    validateTargetFrontierEntry .standard "target" returnedSpec ⟨[], []⟩ returnedFrontier = .ok () := by
  have projection : Completion.validateProjection .standard "TargetFrontierEntry" returnedFrontier.value =
      .ok () :=
    Completion.validateProjection_of_light (by decide +kernel) (by rfl) (by decide)
  have receipt := @receiptFor_valid "r" "hash" "Target spec acceptance receipt"
    (by decide) (by decide)
  have handle := returnedHandles_valid returnedFrontier.currentHandle (by decide)
  have hash : requireRef "hash" "Target spec content hash" = .ok () := by decide
  simp only [validateTargetFrontierEntry, check_then_eq_ok_iff, projection, handle, true_and, and_true]
  exact ⟨by decide, by decide, by decide, hash, receipt, by decide,
    by rfl, by decide, by decide, by decide⟩

private theorem replayCancelledFrom_cons {handle : TargetWorkHandle} {evidence transition : List String}
    (valid : arguments.validateHandle budget handle = .ok ())
    (recovered : arguments.retry budget digest blocker old handle = .ok transition) :
    replayCancelledFrom budget digest arguments old (blocker :: blockers) (handle :: rest) evidence =
      replayCancelledFrom budget digest arguments handle blockers rest (evidence ++ transition) := by
  rw [replayCancelledFrom, valid, recovered]
  rfl

private theorem returnedHandoff_walked (digest : String → String) (manifest payload : String) :
    replayCancelled .standard digest (returnedArguments manifest payload) =
      .ok (["a", "b", "f", "g", "run", "s", "t", "x", "x1", "x2"] ++
        ["a", "b", "f", "g", "run", "s", "t", "y", "y1", "y2"]) := by
  have valid : ∀ handle ∈ returnedHandles,
      (returnedArguments manifest payload).validateHandle .standard handle = .ok () := returnedHandles_valid
  have recovered : ∀ entry ∈ returnedRecoveries, (returnedArguments manifest payload).retry .standard digest
      entry.1 entry.2.1.1 entry.2.1.2 = .ok entry.2.2 := returnedRecoveries_valid digest
  obtain ⟨first, handles⟩ := List.forall_mem_cons.mp valid
  obtain ⟨second, third⟩ := List.forall_mem_cons.mp handles
  obtain ⟨earlier, others⟩ := List.forall_mem_cons.mp recovered
  have later := others _ List.mem_cons_self
  have history : (returnedArguments manifest payload).handoff.handleHistory = returnedHandles := rfl
  rw [replayCancelled, history, returnedHandles]
  refine check_then_eq_ok_iff.mpr ⟨first, ?_⟩
  exact (replayCancelledFrom_cons second earlier).trans
    (replayCancelledFrom_cons (third _ List.mem_cons_self) later)

private theorem returnedHandoff_announced {digest : String → String} {manifest payload : String}
    (said : noticePayloadDigest digest (returnedNotice manifest payload) = .ok payload)
    (changed inconsistent : String) :
    announce .standard digest (returnedArguments manifest payload) (handleOf "s" "a" "f" "k") manifest
      changed inconsistent = .ok () := by
  have settled : isSettled (returnedArguments manifest payload) (handleOf "s" "a" "f" "k") = true := by
    have settled : isSettled (returnedArguments "" "") (handleOf "s" "a" "f" "k") = true := by decide
    exact settled
  have expected : terminalNoticeProjection (returnedArguments manifest payload).handoff.terminal none =
      .ok ⟨"semantic_change_required", "fact", "reason", ["custody"]⟩ := rfl
  have found : NoticeProjection.isSaid ⟨"semantic_change_required", "fact", "reason", ["custody"]⟩
      (returnedNotice "" "") = true ∧
      isNoticeOf (returnedNotice "" "") (handleOf "s" "a" "f" "k") = true := by decide
  have payloads : noticePayloadDigest digest (returnedArguments manifest payload).notice = .ok payload := said
  have announced : isAnnounced digest (returnedArguments manifest payload) (handleOf "s" "a" "f" "k") manifest
      ⟨"semantic_change_required", "fact", "reason", ["custody"]⟩ = .ok true := by
    rw [isAnnounced, payloads]
    refine congrArg Except.ok ?_
    simp only [Bool.and_eq_true, decide_eq_true_eq]
    exact ⟨⟨⟨⟨found.1, rfl⟩, found.2⟩, rfl⟩, rfl⟩
  refine check_then_eq_ok_iff.mpr ⟨returnedFrontier_valid, check_then_eq_ok_iff.mpr
    ⟨require_eq_ok_iff.mpr settled, ?_⟩⟩
  rw [expected]
  refine bind_eq_ok_iff.mpr ⟨_, rfl, bind_eq_ok_iff.mpr ⟨true, announced, rfl⟩⟩

private theorem returnedHandoff_replayed {digest : String → String} {manifest payload : String}
    (said : noticePayloadDigest digest (returnedNotice manifest payload) = .ok payload) :
    replay .standard digest (returnedArguments manifest payload) manifest = .ok () := by
  have started : (returnedDisposition.disposition = "cancelled" && ([] : List CodeReviewScope).isEmpty &&
      returnedHandoff.handleHistory.head? = some (handleOf "s" "a" "f" "i") &&
      returnedHandoff.codeReviewPreflights.isEmpty && returnedHandoff.stopDecisions.isEmpty &&
      returnedHandoff.joined) = true := by decide
  have evidence : (["a", "b", "f", "g", "run", "s", "t", "x", "x1", "x2"] ++
      ["a", "b", "f", "g", "run", "s", "t", "y", "y1", "y2"]).all
        (returnedHandoff.recoveryEvidenceRefs.contains ·) = true := by decide
  have current : returnedHandoff.terminal.isOf (handleOf "s" "a" "f" "k") = true := by decide
  refine check_then_eq_ok_iff.mpr ⟨require_eq_ok_iff.mpr (by decide), ?_⟩
  refine check_then_eq_ok_iff.mpr ⟨require_eq_ok_iff.mpr started, bind_eq_ok_iff.mpr
    ⟨_, returnedHandoff_walked digest manifest payload, check_then_eq_ok_iff.mpr
      ⟨require_eq_ok_iff.mpr evidence, check_then_eq_ok_iff.mpr ⟨require_eq_ok_iff.mpr current, ?_⟩⟩⟩⟩
  exact returnedHandoff_announced said _ _

/-- The cancelled handoff is accepted, whatever the digest function. -/
theorem returned_accepted (digest : String → String) (digests : ∀ text, IsDigest (digest text)) :
    ∃ manifest payload, validateTargetRunHandoffNotice .standard digest
      (returnedArguments manifest payload) = .ok manifest := by
  obtain ⟨text, handoff⟩ := returnedHandoff_valid digest
  have said : ∃ payload, noticePayloadDigest digest (returnedNotice (digest text) "") =
      .ok (digest payload) := ⟨_, rfl⟩
  obtain ⟨payload, said⟩ := said
  have payloads : noticePayloadDigest digest (returnedNotice (digest text) (digest payload)) =
      .ok (digest payload) := said
  exact ⟨digest text, digest payload, validateTargetRunHandoffNotice_eq_ok_iff.mpr ⟨handoff,
    returnedNotice_valid (digests text) (digests payload), returnedHandles_valid _ List.mem_cons_self,
    require_eq_ok_iff.mpr (decide_eq_true rfl), returnedHandoff_replayed payloads⟩⟩

private theorem returnedHandoff_notFresh : ¬ IsFreshChain returnedHandoff := by
  intro chain
  have sessions := chain.identities .rootSession
  revert sessions
  decide

/-- The third handle takes up the identities of the first one, and the handoff is accepted. -/
theorem fresh_chain_returns :
    ¬ IsFreshChain returnedHandoff ∧
      ∀ digest : String → String, (∀ text, IsDigest (digest text)) →
        ∃ manifest payload, validateTargetRunHandoffNotice .standard digest
          (returnedArguments manifest payload) = .ok manifest :=
  ⟨returnedHandoff_notFresh, returned_accepted⟩

/-- The identities of the first handle return. -/
theorem fresh_chain_returned :
    ∃ arguments manifest, validateTargetRunHandoffNotice .standard
        (fun _ => String.ofList (List.replicate 64 '0')) arguments = .ok manifest ∧
      ¬ ((isDisposition arguments.handoff.terminal = true →
          ∀ identity : Identity, NoReturn (arguments.handoff.handleHistory.map identity.of)) ∧
        (isNative arguments.handoff.terminal = false → (recoveryReceiptRefs arguments.handoff).Nodup)) := by
  obtain ⟨manifest, payload, accepted⟩ := returned_accepted
    (fun _ => String.ofList (List.replicate 64 '0')) fun _ => by unfold IsDigest; decide
  exact ⟨_, manifest, accepted, fun fresh =>
    returnedHandoff_notFresh ((fresh_chain_iff _ _ _ _ accepted).mpr fresh)⟩

end TargetRun

end MetaResearch.Bundle

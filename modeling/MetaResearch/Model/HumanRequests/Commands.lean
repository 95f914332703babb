import MetaResearch.Model.HumanRequests.Owner
import MetaResearch.ToMathlib.Run

/-! # HumanRequest commands

The public commands, from their arguments to their answers: the expiration that is made up for first,
the checks of the arguments, the transaction under the idempotency key and the final query. A command
that raises after its transaction leaves what it wrote. Last come the runs of whole commands and the
runs in which the steps of many commands interleave under one clock.
-/

namespace MetaResearch.HumanRequests

open Datasets (Uuid newRef optionalText)

/-! ### Checked commands -/

/-- What a command asks of its transaction, after the checks of its arguments. -/
inductive Body where
  | openRequest (contract : Contract) (waiter : Waiter)
  | openEffect (effectId : String) (binding : Dict) (predecessorRequestRef : Option String)
      (contract : Contract) (waiter : Waiter) (questRef : Option String)
  | revise (requestRef : String) (expectedRevision : ℤ) (contract : Contract) (waiters : List Waiter)
  | evaluate (requestRef : String) (responseRefs : List String) (decision : Evaluation)
      (reasonCode : String) (evidenceRefs : List String)
  | validate (requestRef waiterRef : String) (generation : ℤ) (targetAssertion : Dict)
      (blockers : List String) (authorizationReceiptRef : Option String)

namespace Body

/-- The kind under which the command is recorded. -/
def kind : Body → String
  | openRequest .. => "open"
  | openEffect .. => "open_effect"
  | revise .. => "revise"
  | evaluate .. => "evaluate"
  | validate .. => "resume_validate"

/-- The command as it is hashed. -/
def json : Body → Json
  | openRequest contract waiter =>
    .object [("command", .text "open_human_request"), ("contract", contract.json),
      ("direct_waiter", waiter.json)]
  | openEffect effectId binding predecessorRequestRef contract waiter _ =>
    .object [("command", .text "open_human_request_effect"), ("effect_id", .text effectId),
      ("operation_binding", binding.json),
      ("predecessor_request_ref", optionalText predecessorRequestRef), ("contract", contract.json),
      ("direct_waiter", waiter.json)]
  | revise requestRef expectedRevision contract waiters =>
    .object [("command", .text "revise_human_request"), ("request_ref", .text requestRef),
      ("expected_revision", .integer expectedRevision), ("contract", contract.json),
      ("direct_waiters", .array (waiters.map Waiter.json))]
  | evaluate requestRef responseRefs decision reasonCode evidenceRefs =>
    .object [("command", .text "evaluate_human_request"), ("request_ref", .text requestRef),
      ("response_refs", Json.texts responseRefs), ("decision", .text decision.text),
      ("reason_code", .text reasonCode), ("accepted_evidence_refs", Json.texts evidenceRefs)]
  | validate requestRef waiterRef generation targetAssertion blockers authorizationReceiptRef =>
    .object [("command", .text "validate_human_request_waiter"), ("request_ref", .text requestRef),
      ("waiter_ref", .text waiterRef), ("generation", .integer generation),
      ("target_assertion", targetAssertion.json), ("other_blockers", Json.texts blockers),
      ("authorization_receipt_ref", optionalText authorizationReceiptRef)]

end Body

/-- A checked command and its key. -/
structure Order where
  idempotencyKey : String
  body : Body

variable (setting : Setting)

/-- The command under a free key: the reference of its result, and the tables. -/
def Order.fresh (order : Order) (inside : Inside) (tables : Tables) :
    Except String (String × Tables) :=
  match order.body with
  | .openRequest contract waiter => openFresh setting inside contract waiter tables
  | .openEffect effectId binding predecessorRequestRef contract waiter questRef =>
    openEffectFresh setting inside order.idempotencyKey effectId binding predecessorRequestRef
      contract waiter questRef tables
  | .revise requestRef expectedRevision contract waiters =>
    reviseFresh setting inside requestRef expectedRevision contract waiters tables
  | .evaluate requestRef responseRefs decision reasonCode evidenceRefs =>
    evaluateFresh setting inside requestRef responseRefs decision reasonCode evidenceRefs tables
  | .validate requestRef waiterRef generation targetAssertion blockers authorizationReceiptRef =>
    validateFresh setting inside requestRef waiterRef generation targetAssertion blockers
      authorizationReceiptRef tables

/-- `_command_replay` -/
def commandReplay (tables : Tables) (order : Order) : Except String (Option String) :=
  match tables.commands.find? order.idempotencyKey with
  | none => .ok none
  | some row => do
    require (row.commandKind = order.body.kind && row.requestHash = setting.hash order.body.json)
      "idempotency_conflict"
    pure (some row.resultRef)

/-- A replayed effect has to have its row. -/
def verifyReplayedEffect (tables : Tables) (order : Order) (requestRef : String) :
    Except String Unit :=
  match order.body with
  | .openEffect .. => require ((tables.effects.find? order.idempotencyKey).any
      (·.requestRef = requestRef)) "human_request_open_effect_invalid"
  | .openRequest .. | .revise .. | .evaluate .. | .validate .. => .ok ()

/-- `_record_command` -/
def recordCommand (order : Order) (recordedAt : ℚ) (resultRef : String) (tables : Tables) :
    Except String Tables := do
  let commands ← insertRow tables.commands
    ⟨order.idempotencyKey, order.body.kind, setting.hash order.body.json, resultRef, recordedAt⟩
  pure { tables with commands }

/-- The transaction of a command. -/
def Order.transact (order : Order) (inside : Inside) (tables : Tables) :
    Except String (String × Tables) := do
  match ← commandReplay setting tables order with
  | some ref => do
    verifyReplayedEffect tables order ref
    pure (ref, tables)
  | none => do
    let (ref, tables) ← order.fresh setting inside tables
    let tables ← recordCommand setting order inside.recordedAt ref tables
    pure (ref, tables)

/-! ### Public commands -/

inductive Command where
  | openRequest (arguments : ContractArguments) (directWaiter : Waiter) (idempotencyKey : String)
  | openEffect (effectKey effectId : String) (operationBinding : Dict)
      (predecessorRequestRef : Option String) (arguments : ContractArguments) (directWaiter : Waiter)
  | revise (requestRef : String) (expectedRevision : ℤ) (obligation : String) (targetAssertion : Dict)
      (acceptanceConditions : List String) (directWaiters : List Waiter) (idempotencyKey : String)
      (requiredAuthorization : Option Dict) (expiresAt : Option Number)
  | evaluate (requestRef : String) (responseRefs : List String) (decision reasonCode : String)
      (acceptedEvidenceRefs : List String) (idempotencyKey : String)
  | validate (requestRef waiterRef : String) (generation : ℤ) (targetAssertion : Dict)
      (otherBlockers : List String) (idempotencyKey : String)
      (authorizationReceiptRef : Option String)

namespace Command

def idempotencyKey : Command → String
  | openRequest _ _ key | openEffect key .. | revise _ _ _ _ _ _ key _ _ | evaluate _ _ _ _ _ key
  | validate _ _ _ _ _ key _ => key

/-- The deadline that the command passes. -/
def expiresAt : Command → Option Number
  | openRequest arguments _ _ | openEffect _ _ _ _ arguments _ => arguments.expiresAt
  | revise _ _ _ _ _ _ _ _ expiresAt => expiresAt
  | evaluate .. | validate .. => none

/-- The request whose expiration the command makes up for before anything else. -/
def subject? : Command → Option String
  | openRequest .. | openEffect .. => none
  | revise ref .. | evaluate ref .. | validate ref .. => some ref

/-- The check of the key, where it comes before the expiration. -/
def checkKey (command : Command) : Except String Unit :=
  match command.subject? with
  | some _ => validateIdempotencyKey setting command.idempotencyKey
  | none => .ok ()

/-- The responses that an evaluation names. -/
def verifyResponses (tables : Tables) (requestRef : String) (responseRefs : List String) :
    Except String (List Response) := do
  if responseRefs.isEmpty then pure []
  else do
    requireResponseVerifier setting
    responseRefs.mapM (tables.verifyHumanResponse requestRef)

/-- The error of an evaluation that its responses do not bear out. -/
def unsupported : Evaluation → String
  | .satisfied => "human_request_satisfaction_evidence_invalid"
  | .declined => "human_request_decline_response_required"
  | .unsatisfied => "human_request_unsatisfied_response_required"
  | .needsInput | .stale => "human_request_evaluation_invalid"

/-- The checks of the arguments, with the rows that they read. -/
def prepare (now : ℚ) (tables : Tables) : Command → Except String Order
  | openRequest arguments directWaiter key => do
    let contract ← validateContract setting now arguments
    let waiter ← validateWaiter setting directWaiter
    validateIdempotencyKey setting key
    pure ⟨key, .openRequest contract waiter⟩
  | openEffect key effectId operationBinding predecessorRequestRef arguments directWaiter => do
    validateIdempotencyKey setting key
    let effectId ← boundedText effectId "human_request_effect_id_invalid" 128
    let predecessorRequestRef ←
      checkOptional (boundedText · "human_request_predecessor_invalid" 96) predecessorRequestRef
    let contract ← validateContract setting now arguments
    let waiter ← validateWaiter setting directWaiter
    let binding ←
      validateOperationBinding setting operationBinding waiter.generation arguments.questRef
    pure ⟨key, .openEffect effectId binding predecessorRequestRef contract waiter arguments.questRef⟩
  | revise requestRef expectedRevision obligation targetAssertion acceptanceConditions directWaiters
      key requiredAuthorization expiresAt => do
    match tables.requests.find? requestRef with
    | none => .error "human_request_not_found"
    | some current => do
      let contract ← validateContract setting now ⟨current.kind.text, obligation,
        current.businessPurpose, targetAssertion, acceptanceConditions, current.questRef,
        requiredAuthorization, expiresAt⟩
      let waiters ← directWaiters.mapM (validateWaiter setting)
      require (!waiters.isEmpty) "human_request_direct_waiter_required"
      require (decide (waiters.map (·.waiterRef)).Nodup) "human_request_waiter_duplicate"
      pure ⟨key, .revise requestRef expectedRevision contract waiters⟩
  | evaluate requestRef responseRefs decision reasonCode acceptedEvidenceRefs key => do
    match Evaluation.all.find? (·.text = decision) with
    | none => .error "human_request_evaluation_invalid"
    | some decision => do
      let reasonCode ← boundedText reasonCode "human_request_evaluation_reason_required" 96
      let responseRefs ← uniqueRefs responseRefs "human_response_ref_invalid"
      let evidenceRefs ← uniqueRefs acceptedEvidenceRefs "human_evidence_ref_invalid"
      require (!containsSecret setting.secrets (.object [("reason_code", .text reasonCode),
        ("response_refs", Json.texts responseRefs),
        ("accepted_evidence_refs", Json.texts evidenceRefs)])) "human_request_secret_forbidden"
      let responses ← verifyResponses setting tables requestRef responseRefs
      require (decision.supportedBy responses) (unsupported decision)
      pure ⟨key, .evaluate requestRef responseRefs decision reasonCode evidenceRefs⟩
  | validate requestRef waiterRef generation targetAssertion otherBlockers key
      authorizationReceiptRef => do
    let waiterRef ← boundedText waiterRef "human_request_waiter_ref_invalid" 128
    require (1 ≤ generation) "human_request_waiter_generation_invalid"
    let targetAssertion ← object targetAssertion "target_assertion_invalid"
    let blockers ← uniqueRefs otherBlockers "human_request_blocker_invalid"
    require (!containsSecret setting.secrets (.object [("other_blockers", Json.texts blockers),
      ("authorization_receipt_ref", optionalText authorizationReceiptRef)]))
      "human_request_secret_forbidden"
    pure ⟨key, .validate requestRef waiterRef generation targetAssertion blockers
      authorizationReceiptRef⟩

end Command

/-! ### Commands as a whole -/

/-- Run a part that may raise and may have written before it does, then the next one. -/
def chain {σ α β : Type} (first : Except String α × σ) (next : α → σ → Except String β × σ) :
    Except String β × σ :=
  match first with
  | (.ok value, state) => next value state
  | (.error error, state) => (.error error, state)

/-- A part that only reads. -/
def reading {σ α : Type} (answer : Except String α) (state : σ) : Except String α × σ :=
  (answer, state)

/-- A transaction, which writes when it returns. -/
def committing {σ α : Type} (transaction : Except String (α × σ)) (state : σ) :
    Except String α × σ :=
  match transaction with
  | .ok (value, written) => (.ok value, written)
  | .error error => (.error error, state)

/-- The two clock readings of `_materialize_expiration_if_due` and what it draws. -/
structure Moment where
  read : ℚ
  write : Stamp

/-- `_materialize_expiration_if_due` -/
def materializeExpirationIfDue (moment : Moment) (requestRef : String) (tables : Tables) :
    Except String Unit × Tables :=
  if tables.isDue requestRef moment.read then
    committing ((expire setting moment.write requestRef tables).map fun written => ((), written)) tables
  else (.ok (), tables)

/-- `query_human_request` -/
def queryHumanRequest (moment : Moment) (requestRef : String) (tables : Tables) :
    Except String (Option PublicRequest) × Tables :=
  chain (materializeExpirationIfDue setting moment requestRef tables) fun _ tables =>
    reading (readHumanRequest setting tables requestRef) tables

/-- What a command answers. -/
inductive Outcome where
  | request (shown : PublicRequest)
  | validation (row : ValidationRow)

/-- The reference of the request or the validation. -/
def Outcome.ref : Outcome → String
  | request shown => shown.request.requestRef
  | validation row => row.validationRef

/-- `_query_validation`, which has to find the validation. -/
def queryValidation (tables : Tables) (validationRef : String) : Except String ValidationRow := do
  match tables.validations.find? validationRef with
  | none => .error "human_request_resume_validation_invalid"
  | some row => do
    publicValidation setting row
    pure row

/-- The final query of a command. -/
def Command.answer (moment : Moment) (ref : String) (tables : Tables) :
    Command → Except String Outcome × Tables
  | .validate .. => reading ((queryValidation setting tables ref).map .validation) tables
  | .openEffect .. =>
    chain (queryHumanRequest setting moment ref tables) fun shown? tables => reading (do
      match shown? with
      | none => .error "human_request_open_effect_invalid"
      | some shown => do
        require shown.openEffect.isSome "human_request_open_effect_invalid"
        pure (.request shown)) tables
  | .openRequest .. | .revise .. | .evaluate .. =>
    chain (queryHumanRequest setting moment ref tables) fun shown? tables => reading (do
      match shown? with
      | none => .error "human_request_not_found"
      | some shown => pure (.request shown)) tables

/-- What a call meets: the expirations before and after, the clock reading of the argument checks and
the transaction. -/
structure Surroundings where
  opening : Moment
  checkedAt : ℚ
  inside : Inside
  closing : Moment

/-- A command as a whole. -/
def Command.run (here : Surroundings) (tables : Tables) (command : Command) :
    Except String Outcome × Tables :=
  chain (reading (command.checkKey setting) tables) fun _ tables =>
  chain (command.subject?.elim (.ok (), tables) fun ref =>
    materializeExpirationIfDue setting here.opening ref tables) fun _ tables =>
  chain (reading (command.prepare setting here.checkedAt tables) tables) fun order tables =>
  chain (committing (order.transact setting here.inside tables) tables) fun ref tables =>
  command.answer setting here.closing ref tables

/-- `reconcile_human_request_effect` -/
def reconcileHumanRequestEffect (first second : Moment) (effectKey : String) (tables : Tables) :
    Except String PublicRequest × Tables :=
  chain (reading (validateIdempotencyKey setting effectKey) tables) fun _ tables =>
  match tables.effects.find? effectKey with
  | none => (.error "effect_not_found", tables)
  | some row =>
    chain (queryHumanRequest setting first row.requestRef tables) fun shown? tables =>
    match shown? with
    | none => (.error "human_request_open_effect_invalid", tables)
    | some shown =>
      if shown.openEffect.isNone then (.error "human_request_open_effect_invalid", tables)
      else if shown.request.kind = .systemOperationHelp && !shown.request.isCurrent then
        match (tables.revisionsOf shown.request.requestId).find? (·.isCurrent) with
        | none => (.error "human_request_open_effect_invalid", tables)
        | some currentRow =>
          chain (queryHumanRequest setting second currentRow.requestRef tables) fun current? tables =>
          reading (do
            match current? with
            | none => .error "human_request_open_effect_invalid"
            | some current => do
              require (current.request.kind = .systemOperationHelp &&
                current.openEffect.any (·.effectId = row.effectId)) "human_request_open_effect_invalid"
              pure current) tables
      else (.ok shown, tables)

/-! ### Runs of whole commands -/

/-- A call of the owner, by whoever makes it. -/
inductive Call where
  | command (command : Command) (here : Surroundings)
  | query (requestRef : String) (moment : Moment)
  | reconcile (effectKey : String) (first second : Moment)
  | consume (requestRef waiterRef : String) (generation : ℤ) (workRef workHash : String)
      (stamp : Stamp)
  /-- Human Collaboration records a response to a revision of a request. -/
  | respond (response : Response) (requestId : String) (revision : ℕ) (now : ℚ)

/-- Human Collaboration records a response. -/
def recordResponse (response : Response) (requestId : String) (revision : ℕ) (now : ℚ) (tables : Tables) :
    Except String Tables := do
  verifyHumanRequestResponseTarget setting tables now response.requestRef requestId revision
  let responses ← insertRow tables.responses response
  pure { tables with responses }

/-- The tables after a call. -/
def Call.apply (tables : Tables) : Call → Tables
  | .command issued here => (issued.run setting here tables).2
  | .query requestRef moment => (queryHumanRequest setting moment requestRef tables).2
  | .reconcile effectKey first second =>
    (reconcileHumanRequestEffect setting first second effectKey tables).2
  | .consume requestRef waiterRef generation workRef workHash stamp =>
    (consumeReleasedWaiter setting stamp requestRef waiterRef generation workRef workHash
      tables).toOption.getD tables
  | .respond response requestId revision now =>
    (recordResponse setting response requestId revision now tables).toOption.getD tables

/-- The tables after a list of calls. -/
def afterCalls (calls : List Call) : Tables := runInputs (Call.apply setting) {} calls

/-! ### Interleaved steps -/

/-- What `_materialize_expiration_if_due` saw before the rest of a command: its first clock reading,
and whether the request was there. -/
structure Look where
  requestRef : String
  read : ℚ
  found : Bool

/-- How far a call has come. -/
inductive Flight where
  /-- before `_materialize_expiration_if_due` -/
  | entering (issued : Command) (requestRef : String)
  /-- its first clock reading is taken -/
  | looking (issued : Command) (requestRef : String) (read : ℚ)
  /-- the request was due at the reading -/
  | expiring (issued : Command) (look : Look)
  /-- the arguments are next -/
  | checking (issued : Command) (look : Option Look)
  /-- the transaction is next -/
  | acting (order : Order) (look : Option Look)
  /-- the final query is next -/
  | answering (requestRef : String)
  /-- its first clock reading is taken -/
  | closing (requestRef : String) (read : ℚ)
  /-- the result was due at the reading -/
  | closingDue (requestRef : String)

/-- What is left of a call after its transaction. -/
def Body.rest (ref : String) : Body → Option Flight
  | .validate .. => none
  | .openRequest .. | .openEffect .. | .revise .. | .evaluate .. => some (.answering ref)

/-- The next step of a call; a call that raises or returns is over. -/
def Flight.advance (inside : Inside) (tables : Tables) : Flight → Tables × Option Flight
  | entering issued requestRef => (tables, some (looking issued requestRef inside.stamp.now))
  | looking issued requestRef read =>
    let look : Look := ⟨requestRef, read, (tables.requests.find? requestRef).isSome⟩
    (tables, some (if tables.isDue requestRef read then expiring issued look
      else checking issued (some look)))
  | expiring issued look =>
    match expire setting inside.stamp look.requestRef tables with
    | .ok written => (written, some (checking issued (some look)))
    | .error _ => (tables, none)
  | checking issued look =>
    match issued.prepare setting inside.stamp.now tables with
    | .ok order => (tables, some (acting order look))
    | .error _ => (tables, none)
  | acting order _ =>
    match order.transact setting inside tables with
    | .ok (ref, written) => (written, order.body.rest ref)
    | .error _ => (tables, none)
  | answering requestRef => (tables, some (closing requestRef inside.stamp.now))
  | closing requestRef read =>
    (tables, if tables.isDue requestRef read then some (closingDue requestRef) else none)
  | closingDue requestRef =>
    match expire setting inside.stamp requestRef tables with
    | .ok written => (written, none)
    | .error _ => (tables, none)

/-- The first step of a call. -/
def Command.takeOff (issued : Command) : Flight :=
  match issued.subject? with
  | some requestRef => .entering issued requestRef
  | none => .checking issued none

/-- The tables under one clock, with the calls under way. -/
structure System where
  tables : Tables := {}
  clock : ℚ := 0
  flights : List Flight := []

/-- A step of the system. -/
inductive Event where
  | call (issued : Command)
  | query (requestRef : String)
  | advance (flight : ℕ) (inside : Inside)
  | consume (requestRef waiterRef : String) (generation : ℤ) (workRef workHash : String)
      (stamp : Stamp)
  | respond (response : Response) (requestId : String) (revision : ℕ) (now : ℚ)

/-- The reading of the clock that comes with a step. -/
def Event.now? : Event → Option ℚ
  | .call _ | .query _ => none
  | .advance _ inside => some inside.stamp.now
  | .consume _ _ _ _ _ stamp => some stamp.now
  | .respond _ _ _ now => some now

/-- The system after a step whose clock reading is not behind. -/
def System.move (system : System) : Event → System
  | .call issued =>
    match issued.checkKey setting with
    | .ok () => { system with flights := system.flights ++ [issued.takeOff] }
    | .error _ => system
  | .query requestRef => { system with flights := system.flights ++ [.answering requestRef] }
  | .advance index inside =>
    match system.flights[index]? with
    | none => system
    | some flight =>
      let (tables, rest) := flight.advance setting inside system.tables
      { tables, clock := inside.stamp.now
        flights := system.flights.take index ++ rest.toList ++ system.flights.drop (index + 1) }
  | .consume requestRef waiterRef generation workRef workHash stamp =>
    { system with
      clock := stamp.now
      tables := (consumeReleasedWaiter setting stamp requestRef waiterRef generation workRef workHash
        system.tables).toOption.getD system.tables }
  | .respond response requestId revision now =>
    { system with
      clock := now
      tables := (recordResponse setting response requestId revision now system.tables).toOption.getD
        system.tables }

/-- The clock does not go back: a step with an earlier reading does not happen. -/
def System.step (system : System) (event : Event) : System :=
  if event.now?.all (system.clock ≤ ·) then system.move setting event else system

end MetaResearch.HumanRequests

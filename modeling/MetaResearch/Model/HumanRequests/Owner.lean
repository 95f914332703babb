import MetaResearch.Model.HumanRequests.Records

/-! # The HumanRequest owner

What one transaction of `SQLiteHumanRequestOwner` reads, checks and writes, and what a query answers.
A transaction that raises writes nothing.
-/

namespace MetaResearch.HumanRequests

open Datasets (Uuid newRef optionalText)

/-! ### Reading -/

namespace Tables

variable (tables : Tables)

/-- The revisions of a request. -/
def revisionsOf (requestId : String) : List RequestRow :=
  tables.requests.select (·.requestId = requestId)

/-- The waiters of a request, in the order in which they are shown. -/
def waitersOf (requestRef : String) : List WaiterRow :=
  sortByKey (fun row => toLex (row.createdAt, row.waiterRef))
    (tables.waiters.select (·.requestRef = requestRef))

def latestEvaluation (requestRef : String) : Option EvaluationRow :=
  (tables.evaluations.select (·.requestRef = requestRef)).argmax (·.sequence)

def latestValidation (requestRef waiterRef : String) : Option ValidationRow :=
  (tables.validations.select fun row =>
    row.requestRef = requestRef && row.waiterRef = waiterRef).argmax
      fun row => toLex (row.createdAt, row.validationRef)

def latestConsumption (requestRef waiterRef : String) : Option ConsumptionRow :=
  (tables.consumptions.select fun row =>
    row.requestRef = requestRef && row.waiterRef = waiterRef).argmax
      fun row => toLex (row.createdAt, row.consumptionRef)

def effectOf (requestRef : String) : Option OpenEffectRow :=
  (tables.effects.select (·.requestRef = requestRef)).head?

def successorOf (requestRef : String) : Option RequestRow :=
  (tables.requests.select (·.predecessorRequestRef = some requestRef)).head?

/-- `verify_human_response` of Human Collaboration. -/
def verifyHumanResponse (requestRef responseRef : String) : Except String Response :=
  match tables.responses.find? responseRef with
  | some response => do
    require (response.requestRef = requestRef) "human_response_receipt_invalid"
    pure response
  | none => .error "human_response_receipt_invalid"

/-- The request is there and due. -/
def isDue (requestRef : String) (now : ℚ) : Bool :=
  (tables.requests.find? requestRef).any (·.isDue now)

end Tables

/-! ### Checks of what is stored -/

/-- `_verify_request_state_integrity` -/
def verifyRequestStateIntegrity (tables : Tables) (row : RequestRow) : Except String Unit :=
  let revisions := tables.revisionsOf row.requestId
  let top := revisions.argmax fun row => toLex (row.revision, row.requestRef)
  let disposition := tables.dispositions.find? row.requestRef
  require (
    (revisions.filter (·.isCurrent)).map (·.requestRef) = top.toList.map (·.requestRef) &&
    top.all (fun top => row.isCurrent = (row.requestRef = top.requestRef : Bool)) &&
    !revisions.isEmpty &&
    (match row.status with
      | .opened => disposition.isNone
      | .closed decision => disposition.any (·.decision = decision)) &&
    (row.isCurrent || row.status = .closed .superseded ||
      row.kind = .systemOperationHelp && row.status = .closed .satisfied))
    "human_request_artifact_invalid"

/-- The responses bear out the decision of an evaluation. -/
def Evaluation.supportedBy (responses : List Response) : Evaluation → Bool
  | .satisfied => !responses.isEmpty && responses.all (·.decision = .provided)
  | .declined => responses.any (·.decision = .declined)
  | .unsatisfied => responses.any fun response =>
      response.decision = .declined || response.decision = .deferred
  | .needsInput | .stale => true

variable (setting : Setting)

/-- `_require_response_verifier` -/
def requireResponseVerifier : Except String Unit :=
  require setting.hasVerifier "human_collaboration_verifier_unavailable"

/-- The evaluation that a disposition names, as `_verify_disposition_integrity` checks it. -/
def verifyDispositionEvaluation (tables : Tables) (requestRef : String) (decision : Evaluation)
    (evaluation : EvaluationRow) : Except String Unit := do
  require (evaluation.requestRef = requestRef &&
    (tables.latestEvaluation requestRef).any (·.evaluationRef = evaluation.evaluationRef) &&
    evaluation.decision = decision) "human_request_disposition_invalid"
  require (setting.hash (Json.texts evaluation.responseRefs) = evaluation.responseRefsHash &&
    setting.hash (Json.texts evaluation.evidenceRefs) = evaluation.evidenceRefsHash)
    "human_request_evaluation_invalid"
  requireResponseVerifier setting
  match evaluation.responseRefs.mapM (tables.verifyHumanResponse requestRef) with
  | .error _ => .error "human_request_evaluation_invalid"
  | .ok responses => require (decision.supportedBy responses) "human_request_evaluation_invalid"

/-- `_verify_disposition_integrity` -/
def verifyDispositionIntegrity (tables : Tables) (disposition : DispositionRow) :
    Except String Unit := do
  require (disposition.receiptHash = dispositionReceiptHash setting disposition.requestRef
    disposition.decision disposition.evaluationRef) "human_request_disposition_invalid"
  match disposition.decision.evaluation?, disposition.evaluationRef with
  | none, none => pure ()
  | none, some _ | some _, none => .error "human_request_disposition_invalid"
  | some decision, some ref =>
    match tables.evaluations.find? ref with
    | none => .error "human_request_disposition_invalid"
    | some evaluation =>
      verifyDispositionEvaluation setting tables disposition.requestRef decision evaluation

/-- A stored disposition passes. -/
def verifyStoredDisposition (tables : Tables) (requestRef : String) : Except String Unit :=
  match tables.dispositions.find? requestRef with
  | none => pure ()
  | some disposition => verifyDispositionIntegrity setting tables disposition

/-! ### What is shown -/

/-- A waiter as a query shows it. -/
structure PublicWaiter where
  waiter : WaiterRow
  resumeValidation : Option ValidationRow
  consumption : Option ConsumptionRow

/-- A request as a query shows it. -/
structure PublicRequest where
  request : RequestRow
  directWaiters : List PublicWaiter
  responses : List Response
  evaluation : Option EvaluationRow
  disposition : Option DispositionRow
  openEffect : Option OpenEffectRow
  successorRequestRef : Option String

def Json.isArray (value : Json) : Bool := value.array?.isSome

/-- The columns of a request fit the hashes beside them, and the contract that they make fits the
identity of the request. -/
def publicContract (row : RequestRow) : Except String Unit := do
  require (setting.intact row.targetAssertion && Json.isArray row.acceptanceConditions.value &&
    setting.intact row.acceptanceConditions && row.requiredAuthorization.all setting.intact)
    "human_request_artifact_invalid"
  require (setting.hash row.contract = row.identityHash) "human_request_artifact_invalid"

/-- `_public_validation` -/
def publicValidation (row : ValidationRow) : Except String Unit :=
  require (setting.intact row.otherBlockers) "human_request_resume_validation_invalid"

/-- `_public_consumption` -/
def publicConsumption (row : ConsumptionRow) : Except String Unit :=
  require (row.receiptHash = resumeConsumptionReceiptHash setting row.consumptionRef row.requestRef
    row.waiterRef row.generation row.validationRef row.workRef row.workHash)
    "human_request_resume_consumption_invalid"

/-- A waiter in `_public_request`. -/
def publicWaiter (shown : PublicWaiter) : Except String Unit := do
  require (setting.intact shown.waiter.targetAssertion &&
    Json.isArray shown.waiter.otherBlockers.value && setting.intact shown.waiter.otherBlockers)
    "human_request_waiter_invalid"
  require (!containsSecret setting.secrets
    (.object [("other_blockers", shown.waiter.otherBlockers.value)])) "human_request_secret_forbidden"
  require ((shown.waiter.status = .consumed : Bool) = shown.consumption.isSome &&
    shown.consumption.all fun consumption =>
      shown.resumeValidation.any (·.validationRef = consumption.validationRef) &&
        consumption.generation = shown.waiter.generation)
    "human_request_resume_consumption_invalid"
  checkAll (publicConsumption setting) shown.consumption.toList
  checkAll (publicValidation setting) shown.resumeValidation.toList

/-- An evaluation in `_public_request`. -/
def publicEvaluation (row : EvaluationRow) : Except String Unit := do
  require (setting.hash (Json.texts row.responseRefs) = row.responseRefsHash &&
    setting.hash (Json.texts row.evidenceRefs) = row.evidenceRefsHash)
    "human_request_evaluation_invalid"
  require (!containsSecret setting.secrets (.object
    [("response_refs", Json.texts row.responseRefs),
      ("accepted_evidence_refs", Json.texts row.evidenceRefs),
      ("reason_code", .text row.reasonCode)])) "human_request_secret_forbidden"

/-- An effect fits the request that it opened. The yield fact has texts and an integer only, so equal
facts have one canonical text. -/
def effectFits (request : RequestRow) (effect : OpenEffectRow) : Bool :=
  setting.hash effect.operationBinding.json = effect.operationBindingHash &&
    setting.intact effect.yieldFact &&
    effect.yieldFact.value.dumps =
      (operationYieldFact request.requestRef effect.waiterRef effect.operationBinding).dumps &&
    (effect.operationBinding.get "request_owner").isText setting.issuer &&
    (effect.operationBinding.get "generation").isInteger effect.generation &&
    effect.receiptHash = openEffectReceiptHash setting effect.effectId request.requestRef
      effect.waiterRef effect.generation effect.operationBindingHash effect.yieldFact.hash
      request.predecessorRequestRef &&
    !containsSecret setting.secrets effect.operationBinding.json &&
    !containsSecret setting.secrets effect.yieldFact.value

/-- `_public_open_effect` -/
def publicOpenEffect (request : RequestRow) (waiters : List WaiterRow) (effect : OpenEffectRow) :
    Except String Unit :=
  require (effectFits setting request effect && (waiters.filter fun waiter =>
    waiter.waiterRef = effect.waiterRef && waiter.generation = effect.generation).length = 1)
    "human_request_open_effect_invalid"

/-- `_public_request` -/
def publicRequest (shown : PublicRequest) : Except String PublicRequest := do
  publicContract setting shown.request
  checkAll (publicWaiter setting) shown.directWaiters
  checkAll (publicEvaluation setting) shown.evaluation.toList
  checkAll (fun disposition => require (disposition.receiptHash = dispositionReceiptHash setting
    shown.request.requestRef disposition.decision disposition.evaluationRef)
    "human_request_disposition_invalid") shown.disposition.toList
  checkAll (publicOpenEffect setting shown.request (shown.directWaiters.map (·.waiter)))
    shown.openEffect.toList
  pure shown

/-- What is shown of a request. -/
def Tables.shown (tables : Tables) (row : RequestRow) : PublicRequest where
  request := row
  directWaiters := (tables.waitersOf row.requestRef).map fun waiter =>
    ⟨waiter, tables.latestValidation row.requestRef waiter.waiterRef,
      tables.latestConsumption row.requestRef waiter.waiterRef⟩
  responses :=
    if setting.hasVerifier then tables.responses.select (·.requestRef = row.requestRef) else []
  evaluation := tables.latestEvaluation row.requestRef
  disposition := tables.dispositions.find? row.requestRef
  openEffect := tables.effectOf row.requestRef
  successorRequestRef := (tables.successorOf row.requestRef).map (·.requestRef)

/-- The snapshot that `query_human_request` reads. -/
def readHumanRequest (tables : Tables) (requestRef : String) :
    Except String (Option PublicRequest) := do
  match tables.requests.find? requestRef with
  | none => pure none
  | some row => do
    verifyRequestStateIntegrity tables row
    verifyStoredDisposition setting tables requestRef
    let shown ← publicRequest setting (tables.shown setting row)
    pure (some shown)

/-- `verify_human_request_response_target` -/
def verifyHumanRequestResponseTarget (tables : Tables) (now : ℚ) (requestRef requestId : String)
    (revision : ℕ) : Except String Unit := do
  match tables.requests.find? requestRef with
  | none => .error "human_request_not_current"
  | some row => do
    verifyRequestStateIntegrity tables row
    require (row.requestId = requestId && row.revision = revision && row.isCurrent &&
      row.status = .opened && row.expiresAt.all (now < ·.value)) "human_request_not_current"
    publicContract setting row

/-! ### Writing -/

/-- The random identifiers that one transaction draws. -/
structure Draws where
  request : Uuid
  evaluation : Uuid
  disposition : Uuid
  validation : Uuid
  consumption : Uuid
  receipt : Uuid

/-- A clock reading in a transaction, and what it draws. -/
structure Stamp where
  now : ℚ
  draws : Draws

/-- `INSERT` under a primary key. -/
def insertRow {κ ρ : Type} [DecidableEq κ] {key : ρ → κ} (table : Table key) (row : ρ) :
    Except String (Table key) :=
  match table.insert? row with
  | some inserted => .ok inserted
  | none => .error "IntegrityError"

/-- `UPDATE` of one request. -/
def Tables.updateRequest (tables : Tables) (requestRef : String)
    (rewrite : Rewrite RequestRow.requestRef) : Tables :=
  { tables with requests := tables.requests.update (·.requestRef = requestRef) rewrite }

def setStatus (status : Status) : Rewrite RequestRow.requestRef :=
  ⟨fun row => { row with status }, fun _ => rfl⟩

/-- A revision that a successor replaces. -/
def supersede : Rewrite RequestRow.requestRef :=
  ⟨fun row => { row with status := .closed .superseded, isCurrent := false }, fun _ => rfl⟩

/-- A closed revision that a later one continues. -/
def retire : Rewrite RequestRow.requestRef :=
  ⟨fun row => { row with isCurrent := false }, fun _ => rfl⟩

def setWaiterStatus (status : WaiterStatus) : Rewrite WaiterRow.key :=
  ⟨fun row => { row with status }, fun _ => rfl⟩

/-- The status and the blockers that a validation leaves. -/
def setResumed (status : WaiterStatus) (otherBlockers : Sealed) : Rewrite WaiterRow.key :=
  ⟨fun row => { row with status, otherBlockers }, fun _ => rfl⟩

/-- The row of a disposition. -/
def dispositionRow (stamp : Stamp) (requestRef : String) (decision : Disposition)
    (evaluationRef : Option String) : DispositionRow where
  dispositionRef := newRef "human_disposition" stamp.draws.disposition
  requestRef := requestRef
  decision := decision
  evaluationRef := evaluationRef
  receiptRef := newRef "owner_receipt" stamp.draws.receipt
  receiptHash := dispositionReceiptHash setting requestRef decision evaluationRef
  createdAt := stamp.now

/-- `_insert_disposition` -/
def insertDisposition (stamp : Stamp) (requestRef : String) (decision : Disposition)
    (evaluationRef : Option String) (tables : Tables) : Except String Tables := do
  let row := dispositionRow setting stamp requestRef decision evaluationRef
  require (tables.dispositions.rows.all fun other =>
    other.dispositionRef ≠ row.dispositionRef && other.receiptRef ≠ row.receiptRef) "IntegrityError"
  let dispositions ← insertRow tables.dispositions row
  pure { tables with dispositions }

/-- The transaction of `_materialize_expiration_if_due`. -/
def expire (stamp : Stamp) (requestRef : String) (tables : Tables) : Except String Tables :=
  if tables.isDue requestRef stamp.now then
    let tables := tables.updateRequest requestRef (setStatus (.closed .expired))
    let tables := { tables with
      waiters := tables.waiters.update
        (fun row => row.requestRef = requestRef && row.status = .blocked) (setWaiterStatus .cancelled) }
    insertDisposition setting stamp requestRef .expired none tables
  else pure tables

/-- The columns of a contract. -/
def Contract.row (contract : Contract) (requestId : String) (revision : ℕ)
    (predecessorRequestRef : Option String) (now : ℚ) : RequestRow where
  requestRef := requestRefOf requestId revision
  requestId := requestId
  revision := revision
  questRef := contract.questRef
  kind := contract.kind
  obligation := contract.obligation
  businessPurpose := contract.businessPurpose
  targetAssertion := setting.sealed contract.targetAssertion.json
  acceptanceConditions := setting.sealed (Json.texts contract.acceptanceConditions)
  requiredAuthorization := contract.requiredAuthorization.map fun dict => setting.sealed dict.json
  -- A column of floats: SQLite stores an integer as the nearest float.
  expiresAt := contract.expiresAt.map (·.float setting.float)
  identityHash := setting.hash contract.json
  predecessorRequestRef := predecessorRequestRef
  status := .opened
  isCurrent := true
  createdAt := now

/-- SQLite takes an integer of at most 63 bits. -/
def Number.binds : Number → Bool
  | .whole value => -2 ^ 63 ≤ value && value < 2 ^ 63
  | .real _ => true

/-- `_insert_request` -/
def insertRequest (contract : Contract) (requestId : String) (revision : ℕ)
    (predecessorRequestRef : Option String) (now : ℚ) (tables : Tables) : Except String Tables := do
  require (contract.expiresAt.all Number.binds) "OverflowError"
  let row := contract.row setting requestId revision predecessorRequestRef now
  require (tables.requests.rows.all fun other =>
    (other.requestId ≠ requestId || other.revision ≠ revision) &&
      (predecessorRequestRef.isNone || other.predecessorRequestRef ≠ predecessorRequestRef))
    "IntegrityError"
  let requests ← insertRow tables.requests row
  pure { tables with requests }

/-- The columns of a waiter. -/
def Waiter.row (waiter : Waiter) (requestRef : String) (now : ℚ) : WaiterRow where
  requestRef := requestRef
  waiterRef := waiter.waiterRef
  generation := waiter.generation
  targetAssertion := setting.sealed waiter.targetAssertion.json
  waitScope := waiter.waitScope
  otherBlockers := setting.sealed (Json.texts waiter.otherBlockers)
  status := .blocked
  createdAt := now

/-- `_insert_waiter`, which answers whether the waiter is new. -/
def insertWaiter (requestRef : String) (now : ℚ) (waiter : Waiter) (tables : Tables) :
    Except String (Bool × Tables) := do
  let row := waiter.row setting requestRef now
  match tables.waiters.find? (requestRef, waiter.waiterRef) with
  | some existing => do
    require (existing.generation = waiter.generation &&
      existing.targetAssertion.hash = row.targetAssertion.hash &&
      existing.waitScope = waiter.waitScope &&
      existing.otherBlockers.hash = row.otherBlockers.hash) "human_request_waiter_conflict"
    pure (false, tables)
  | none => do
    let waiters ← insertRow tables.waiters row
    pure (true, { tables with waiters })

/-- What a transaction meets: its clock reading and draws, the callback that yields the operation, and
the answer about an authorization receipt. -/
structure Inside where
  stamp : Stamp
  recordedAt : ℚ
  yieldOperation : Except String Unit
  authorized : Bool

/-- `open_human_request` under a free key. -/
def openFresh (inside : Inside) (contract : Contract) (waiter : Waiter) (tables : Tables) :
    Except String (String × Tables) := do
  let now := inside.stamp.now
  let same := tables.requests.select fun row =>
    row.identityHash = setting.hash contract.json && row.isCurrent && row.status = .opened
  match same.argmin (·.createdAt) with
  | some row => do
    let (_, tables) ← insertWaiter setting row.requestRef now waiter tables
    pure (row.requestRef, tables)
  | none => do
    let requestId := newRef "human_request" inside.stamp.draws.request
    let tables ← insertRequest setting contract requestId 1 none now tables
    let (_, tables) ← insertWaiter setting (requestRefOf requestId 1) now waiter tables
    pure (requestRefOf requestId 1, tables)

/-- The facts of an effect that its successor has to share. -/
def sharedNames : List String :=
  ["quest_ref", "task_ref", "root_session_ref", "operation_id", "request_owner"]

/-- `_verify_effect_successor_predecessor` -/
def verifyEffectSuccessorPredecessor (predecessorRequestRef : String) (binding : Dict)
    (effectId : String) (kind : Kind) (generation : ℤ) (questRef : Option String) (tables : Tables) :
    Except String RequestRow := do
  match tables.requests.find? predecessorRequestRef with
  | none => .error "human_request_predecessor_not_found"
  | some predecessor => do
    verifyRequestStateIntegrity tables predecessor
    require (predecessor.status = .closed .satisfied || predecessor.status = .closed .unsatisfied)
      "human_request_predecessor_not_terminal"
    verifyStoredDisposition setting tables predecessorRequestRef
    match tables.effectOf predecessorRequestRef, tables.waitersOf predecessorRequestRef with
    | some effect, [waiter] => do
      require (setting.hash effect.operationBinding.json = effect.operationBindingHash &&
        !(predecessor.kind = .systemOperationHelp && kind = .systemOperationHelp &&
          effect.effectId ≠ effectId) &&
        waiter.waiterRef = effect.waiterRef && waiter.status = .consumed &&
        waiter.generation = effect.generation && effect.generation < generation &&
        predecessor.questRef = questRef &&
        sharedNames.all fun name => (effect.operationBinding.get name).same (binding.get name))
        "human_request_predecessor_invalid"
      require (tables.successorOf predecessorRequestRef).isNone "human_request_successor_exists"
      pure predecessor
    | _, _ => .error "human_request_predecessor_invalid"

/-- A satisfied request for help with a system operation goes on in a next revision of itself. -/
def RequestRow.continuesWith (predecessor : RequestRow) (kind : Kind) : Bool :=
  predecessor.kind = .systemOperationHelp && predecessor.status = .closed .satisfied &&
    kind = .systemOperationHelp

/-- The identity and the revision of an effect's request, once its predecessor is retired. -/
def placeEffect (inside : Inside) (kind : Kind) (predecessor : Option RequestRow) (tables : Tables) :
    Except String (String × ℕ × Tables) :=
  match predecessor with
  | some predecessor =>
    if predecessor.continuesWith kind then do
      require predecessor.isCurrent "human_request_predecessor_invalid"
      pure (predecessor.requestId, predecessor.revision + 1,
        tables.updateRequest predecessor.requestRef retire)
    else pure (newRef "human_request" inside.stamp.draws.request, 1, tables)
  | none => pure (newRef "human_request" inside.stamp.draws.request, 1, tables)

/-- The columns of an effect. -/
def effectRow (stamp : Stamp) (effectKey effectId requestRef : String) (binding : Dict)
    (predecessorRequestRef : Option String) (waiter : Waiter) : OpenEffectRow :=
  let yieldFact := operationYieldFact requestRef waiter.waiterRef binding
  { effectKey, effectId, requestRef
    waiterRef := waiter.waiterRef
    generation := waiter.generation
    operationBinding := binding.reload
    operationBindingHash := setting.hash binding.json
    yieldFact := setting.sealed yieldFact
    receiptRef := newRef "owner_receipt" stamp.draws.receipt
    receiptHash := openEffectReceiptHash setting effectId requestRef waiter.waiterRef waiter.generation
      (setting.hash binding.json) (setting.hash yieldFact) predecessorRequestRef
    createdAt := stamp.now }

/-- `open_human_request_effect` under a free key. -/
def openEffectFresh (inside : Inside) (effectKey effectId : String) (binding : Dict)
    (predecessorRequestRef : Option String) (contract : Contract) (waiter : Waiter)
    (questRef : Option String) (tables : Tables) : Except String (String × Tables) := do
  let now := inside.stamp.now
  let predecessor ← checkOptional (fun ref => verifyEffectSuccessorPredecessor setting ref binding
    effectId contract.kind waiter.generation questRef tables) predecessorRequestRef
  let (requestId, revision, tables) ← placeEffect inside contract.kind predecessor tables
  let tables ← insertRequest setting contract requestId revision predecessorRequestRef now tables
  let (new, tables) ← insertWaiter setting (requestRefOf requestId revision) now waiter tables
  require new "human_request_waiter_conflict"
  require setting.hasYield "human_request_operation_yield_unavailable"
  inside.yieldOperation
  let row := effectRow setting inside.stamp effectKey effectId (requestRefOf requestId revision)
    binding predecessorRequestRef waiter
  require (tables.effects.rows.all fun other =>
    other.requestRef ≠ row.requestRef && other.receiptRef ≠ row.receiptRef) "IntegrityError"
  let effects ← insertRow tables.effects row
  pure (requestRefOf requestId revision, { tables with effects })

/-- The waiters of a revision, in turn. -/
def insertWaiters (requestRef : String) (now : ℚ) (waiters : List Waiter) (tables : Tables) :
    Except String Tables :=
  waiters.foldlM (fun tables waiter => do
    let (_, tables) ← insertWaiter setting requestRef now waiter tables
    pure tables) tables

/-- `revise_human_request` under a free key. -/
def reviseFresh (inside : Inside) (requestRef : String) (expectedRevision : ℤ) (contract : Contract)
    (waiters : List Waiter) (tables : Tables) : Except String (String × Tables) := do
  match tables.requests.find? requestRef with
  | none => .error "human_request_not_found"
  | some row => do
    verifyRequestStateIntegrity tables row
    require ((row.revision : ℤ) = expectedRevision && row.isCurrent && row.status = .opened)
      "human_request_revision_stale"
    require (setting.hash contract.json ≠ row.identityHash) "human_request_revision_unchanged"
    let now := inside.stamp.now
    let tables := tables.updateRequest requestRef supersede
    let tables ← insertDisposition setting inside.stamp requestRef .superseded none tables
    let tables ← insertRequest setting contract row.requestId (row.revision + 1) (some requestRef) now
      tables
    let tables ← insertWaiters setting (requestRefOf row.requestId (row.revision + 1)) now waiters tables
    pure (requestRefOf row.requestId (row.revision + 1), tables)

/-- The row of an evaluation. -/
def evaluationRow (stamp : Stamp) (requestRef : String) (sequence : ℕ) (decision : Evaluation)
    (responseRefs evidenceRefs : List String) (reasonCode : String) : EvaluationRow where
  evaluationRef := newRef "human_evaluation" stamp.draws.evaluation
  requestRef := requestRef
  sequence := sequence
  decision := decision
  responseRefs := responseRefs
  responseRefsHash := setting.hash (Json.texts responseRefs)
  evidenceRefs := evidenceRefs
  evidenceRefsHash := setting.hash (Json.texts evidenceRefs)
  reasonCode := reasonCode
  createdAt := stamp.now

/-- `evaluate_human_request` under a free key. -/
def evaluateFresh (inside : Inside) (requestRef : String) (responseRefs : List String)
    (decision : Evaluation) (reasonCode : String) (evidenceRefs : List String) (tables : Tables) :
    Except String (String × Tables) := do
  match tables.requests.find? requestRef with
  | none => .error "human_request_not_found"
  | some row => do
    verifyRequestStateIntegrity tables row
    require (row.isCurrent && row.status = .opened) "human_request_not_current"
    let sequence := (tables.latestEvaluation requestRef).elim 0 (·.sequence) + 1
    let evaluation := evaluationRow setting inside.stamp requestRef sequence decision responseRefs
      evidenceRefs reasonCode
    let evaluations ← insertRow tables.evaluations evaluation
    let tables := { tables with evaluations }
    match decision.disposition? with
    | none => pure (requestRef, tables)
    | some disposition => do
      let tables ← insertDisposition setting inside.stamp requestRef disposition
        (some evaluation.evaluationRef) tables
      pure (requestRef, tables.updateRequest requestRef (setStatus (.closed disposition)))

/-- Why a waiter is not released, in the order of the checks of `validate_human_request_waiter`. -/
def blockedReason (inside : Inside) (request : RequestRow) (disposition : Option DispositionRow)
    (waiter : WaiterRow) (generation : ℤ) (targetAssertion : Dict) (blockers : List String)
    (authorizationReceiptRef : Option String) : Option String :=
  if !(disposition.any fun disposition =>
      (disposition.decision = .satisfied || disposition.decision = .unsatisfied) &&
        request.status = .closed disposition.decision) || !request.isCurrent then
    some "satisfied_disposition_required"
  else if waiter.status ≠ .blocked then some "waiter_not_resumable"
  else if waiter.generation ≠ generation then some "waiter_generation_stale"
  else if waiter.targetAssertion.hash ≠ setting.hash targetAssertion.json then
    some "target_assertion_stale"
  else if !blockers.isEmpty then some "other_blockers_present"
  else if request.requiredAuthorization.isSome && request.status = .closed .satisfied then
    match authorizationReceiptRef with
    | none => some "authorization_receipt_required"
    | some _ =>
      if setting.hasVerifier && inside.authorized then none else some "authorization_receipt_invalid"
  else none

/-- `_verified_waiter_blockers` -/
def verifiedWaiterBlockers (waiter : WaiterRow) : Except String Unit :=
  require (Json.isArray waiter.otherBlockers.value && setting.intact waiter.otherBlockers)
    "human_request_waiter_invalid"

/-- The row of a validation. -/
def validationRow (stamp : Stamp) (requestRef waiterRef : String) (generation : ℤ)
    (targetAssertion : Dict) (blockers : List String) (authorizationReceiptRef reason : Option String) :
    ValidationRow where
  validationRef := newRef "resume_validation" stamp.draws.validation
  requestRef := requestRef
  waiterRef := waiterRef
  generation := generation
  targetAssertionHash := setting.hash targetAssertion.json
  authorizationReceiptRef := authorizationReceiptRef
  otherBlockers := setting.sealed (Json.texts blockers)
  released := reason.isNone
  reasonCode := reason
  createdAt := stamp.now

/-- The waiters after a validation: the exact waiter, while it is blocked, takes what the validation
says. -/
def resumeWaiter (validation : ValidationRow) (waiter : WaiterRow) (waiters : Table WaiterRow.key) :
    Table WaiterRow.key :=
  if waiter.status = .blocked && waiter.generation = validation.generation &&
      waiter.targetAssertion.hash = validation.targetAssertionHash then
    waiters.update (·.key = waiter.key)
      (setResumed (if validation.released then .released else .blocked) validation.otherBlockers)
  else waiters

/-- `validate_human_request_waiter` under a free key. -/
def validateFresh (inside : Inside) (requestRef waiterRef : String) (generation : ℤ)
    (targetAssertion : Dict) (blockers : List String) (authorizationReceiptRef : Option String)
    (tables : Tables) : Except String (String × Tables) := do
  match tables.requests.find? requestRef with
  | none => .error "human_request_not_found"
  | some request => do
    verifyRequestStateIntegrity tables request
    match tables.waiters.find? (requestRef, waiterRef) with
    | none => .error "human_request_waiter_not_found"
    | some waiter => do
      verifiedWaiterBlockers setting waiter
      verifyStoredDisposition setting tables requestRef
      let reason := blockedReason setting inside request (tables.dispositions.find? requestRef) waiter
        generation targetAssertion blockers authorizationReceiptRef
      let validation := validationRow setting inside.stamp requestRef waiterRef generation
        targetAssertion blockers authorizationReceiptRef reason
      let validations ← insertRow tables.validations validation
      pure (validation.validationRef,
        { tables with validations, waiters := resumeWaiter validation waiter tables.waiters })

/-! ### Consuming a release -/

/-- The row of a consumption. -/
def consumptionRow (stamp : Stamp) (validation : ValidationRow) (workRef workHash : String) :
    ConsumptionRow where
  consumptionRef := newRef "resume_consumption" stamp.draws.consumption
  requestRef := validation.requestRef
  waiterRef := validation.waiterRef
  generation := validation.generation
  validationRef := validation.validationRef
  workRef := workRef
  workHash := workHash
  receiptRef := newRef "owner_receipt" stamp.draws.receipt
  receiptHash := resumeConsumptionReceiptHash setting
    (newRef "resume_consumption" stamp.draws.consumption) validation.requestRef validation.waiterRef
    validation.generation validation.validationRef workRef workHash
  createdAt := stamp.now

/-- The release that a consumption starts from is the latest validation of the waiter. -/
def isReleased (request : RequestRow) (disposition : DispositionRow) (waiter : WaiterRow)
    (validation : ValidationRow) (generation : ℤ) : Bool :=
  (request.status = .closed .satisfied || request.status = .closed .unsatisfied) &&
    request.isCurrent && request.status = .closed disposition.decision &&
    waiter.status = .released && waiter.generation = generation && validation.released &&
    validation.generation = generation &&
    validation.targetAssertionHash = waiter.targetAssertion.hash

/-- `consume_released_waiter` for a generation that is not consumed. -/
def consumeFresh (stamp : Stamp) (requestRef waiterRef : String) (generation : ℤ)
    (workRef workHash : String) (tables : Tables) : Except String Tables := do
  match tables.requests.find? requestRef, tables.dispositions.find? requestRef with
  | some request, some disposition => do
    verifyRequestStateIntegrity tables request
    verifyDispositionIntegrity setting tables disposition
    match tables.waiters.find? (requestRef, waiterRef),
        tables.latestValidation requestRef waiterRef with
    | some waiter, some validation => do
      require (isReleased request disposition waiter validation generation)
        "human_request_resume_not_released"
      let row := consumptionRow setting stamp validation workRef workHash
      require (tables.consumptions.rows.all fun other =>
        other.consumptionRef ≠ row.consumptionRef && other.validationRef ≠ row.validationRef &&
          other.receiptRef ≠ row.receiptRef) "IntegrityError"
      let consumptions ← insertRow tables.consumptions row
      pure { tables with
        consumptions
        waiters := tables.waiters.update (·.key = waiter.key) (setWaiterStatus .consumed) }
    | _, _ => .error "human_request_resume_not_released"
  | _, _ => .error "human_request_resume_not_released"

/-- `consume_released_waiter`, in the transaction of the Owner that starts the work. -/
def consumeReleasedWaiter (stamp : Stamp) (requestRef waiterRef : String) (generation : ℤ)
    (workRef workHash : String) (tables : Tables) : Except String Tables := do
  let waiterRef ← boundedText waiterRef "human_request_waiter_ref_invalid" 128
  let workRef ← boundedText workRef "human_request_work_ref_invalid" 128
  require (1 ≤ generation && workHash.length = 64 && !containsSecret setting.secrets
    (.object [("work_ref", .text workRef), ("work_hash", .text workHash)]))
    "human_request_resume_consumption_invalid"
  match tables.consumptions.find? (requestRef, waiterRef, generation) with
  | some existing => do
    require (existing.workRef = workRef && existing.workHash = workHash)
      "human_request_resume_already_consumed"
    publicConsumption setting existing
    pure tables
  | none => consumeFresh setting stamp requestRef waiterRef generation workRef workHash tables

end MetaResearch.HumanRequests

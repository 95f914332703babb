import Mathlib.Algebra.Order.Ring.Rat
import Mathlib.Data.List.MinMax
import Mathlib.Data.Prod.Lex
import MetaResearch.Model.Datasets.Facts
import MetaResearch.ToMathlib.JsonDict
import MetaResearch.ToMathlib.Table

/-! # HumanRequest records

The rows that an Owner keeps about its HumanRequests, the checks of what a caller passes, and the
facts that rows are sealed with. A clock reading is the rational number that the float stands for; a
deadline keeps its Python type, since the canonical text tells an integer from a float.
-/

namespace MetaResearch.HumanRequests

open Datasets (Uuid newRef canonicalHash optionalText)

/-! ### Vocabulary -/

/-- `HUMAN_REQUEST_KINDS` -/
inductive Kind where
  | libraryReconnect | externalMaterialApiAccess | offlineAction | capabilityAuthorization
  | systemOperationHelp
deriving DecidableEq, Repr

def Kind.text : Kind → String
  | .libraryReconnect => "library_reconnect"
  | .externalMaterialApiAccess => "external_material_api_access"
  | .offlineAction => "offline_action"
  | .capabilityAuthorization => "capability_authorization"
  | .systemOperationHelp => "system_operation_help"

def Kind.all : List Kind :=
  [.libraryReconnect, .externalMaterialApiAccess, .offlineAction, .capabilityAuthorization,
    .systemOperationHelp]

/-- `HUMAN_EVALUATIONS` -/
inductive Evaluation where
  | satisfied | unsatisfied | needsInput | declined | stale
deriving DecidableEq, Repr

def Evaluation.text : Evaluation → String
  | .satisfied => "satisfied"
  | .unsatisfied => "unsatisfied"
  | .needsInput => "needs_input"
  | .declined => "declined"
  | .stale => "stale"

def Evaluation.all : List Evaluation := [.satisfied, .unsatisfied, .needsInput, .declined, .stale]

/-- `HUMAN_DISPOSITIONS` -/
inductive Disposition where
  | satisfied | unsatisfied | declined | withdrawn | expired | superseded
deriving DecidableEq, Repr

def Disposition.text : Disposition → String
  | .satisfied => "satisfied"
  | .unsatisfied => "unsatisfied"
  | .declined => "declined"
  | .withdrawn => "withdrawn"
  | .expired => "expired"
  | .superseded => "superseded"

/-- The disposition that an evaluation makes. -/
def Evaluation.disposition? : Evaluation → Option Disposition
  | .satisfied => some .satisfied
  | .unsatisfied => some .unsatisfied
  | .declined => some .declined
  | .needsInput | .stale => none

/-- The evaluation that a disposition rests on. -/
def Disposition.evaluation? : Disposition → Option Evaluation
  | .satisfied => some .satisfied
  | .unsatisfied => some .unsatisfied
  | .declined => some .declined
  | .withdrawn | .expired | .superseded => none

/-- The status of a request is `open` or one of the dispositions. -/
inductive Status where
  | opened
  | closed (disposition : Disposition)
deriving DecidableEq, Repr

/-- `HUMAN_RESPONSE_DECISIONS` -/
inductive Response.Decision where
  | provided | declined | deferred
deriving DecidableEq, Repr

inductive WaiterStatus where
  | blocked | released | cancelled | consumed
deriving DecidableEq, Repr

/-! ### Numbers -/

/-- A finite float, by the text that `repr` gives it. -/
structure Double where
  literal : String
  fractional : Json.isFractional literal = true
deriving DecidableEq

def Double.value (double : Double) : ℚ := Json.literalValue double.literal

/-- A finite number as a caller passes it. -/
inductive Number where
  | whole (value : ℤ)
  | real (value : Double)
deriving DecidableEq

def Number.json : Number → Json
  | .whole value => .integer value
  | .real value => .number value.literal

/-- `float(number)`, over the conversion of integers. -/
def Number.float (float : ℤ → Double) : Number → Double
  | .whole value => float value
  | .real value => value

/-- The number is an integer. -/
def Number.isWhole : Number → Bool
  | .whole _ => true
  | .real _ => false

/-! ### Secrets -/

def humanRequestYieldSchema : String := "meta-research/human-request-task-yield/v1"

/-- The names in the yield fact of an operation. -/
def yieldNames : List String :=
  ["schema_ref", "status", "request_ref", "task_ref", "root_session_ref", "operation_id",
    "attempt_ref", "generation", "request_owner", "waiter_ref"]

/-- The reference of a revision of a request. -/
def requestRefOf (requestId : String) (revision : ℕ) : String :=
  requestId ++ ":r" ++ toString revision

/-- The patterns of `secret_detection`, which do not match what the Owner itself writes. -/
structure SecretPatterns where
  /-- `_is_secret_key` -/
  key : String → Bool
  /-- `_contains_secret_text` -/
  text : String → Bool
  yieldName : ∀ name ∈ yieldNames, key name = false
  yieldText : text humanRequestYieldSchema = false ∧ text "yielded" = false
  requestRef : ∀ uuid revision,
    text (requestRefOf (newRef "human_request" uuid) revision) = false

mutual

/-- `contains_secret` -/
def containsSecret (patterns : SecretPatterns) : Json → Bool
  | .text value => patterns.text value
  | .array items => anySecret patterns items
  | .object fields => anySecretField patterns fields
  | .null | .bool _ | .integer _ | .number _ => false
  termination_by structural value => value

def anySecret (patterns : SecretPatterns) : List Json → Bool
  | [] => false
  | item :: rest => containsSecret patterns item || anySecret patterns rest
  termination_by structural items => items

def anySecretField (patterns : SecretPatterns) : List (String × Json) → Bool
  | [] => false
  | (name, value) :: rest =>
    patterns.key name || containsSecret patterns value || anySecretField patterns rest
  termination_by structural fields => fields

end

/-! ### Elementary checks -/

/-- `_bounded_text` -/
def boundedText (value code : String) (maximum : ℕ) : Except String String := do
  require (!Text.isBlank value && (Text.strip value).length ≤ maximum) code
  pure (Text.strip value)

/-- `_bounded_verbatim_text` -/
def boundedVerbatimText (value code : String) (maximum : ℕ) : Except String Unit :=
  require (!Text.isBlank value && value.length ≤ maximum) code

/-- `_object` -/
def object (value : Dict) (code : String) : Except String Dict := do
  require (!value.fields.isEmpty) code
  require value.json.wellFormed code
  require (value.json.dumps.utf8ByteSize ≤ 65536) code
  pure value.reload

/-- `_unique_texts`; `_unique_refs` is the case of 100 items of at most 128 characters. -/
def uniqueTexts (values : List String) (code : String) (maximumItems maximumLength : ℕ) :
    Except String (List String) := do
  require (values.length ≤ maximumItems) code
  let normalized ← values.mapM (boundedText · code maximumLength)
  require (decide normalized.Nodup) code
  pure normalized

/-- `_unique_refs` -/
def uniqueRefs (values : List String) (code : String) : Except String (List String) :=
  uniqueTexts values code 100 128

/-! ### What an Owner is made of -/

/-- The Owner that issues the requests: its name, whether it has a verifier of responses and an
operation to yield, and what it computes with. -/
structure Setting where
  issuer : String
  hasVerifier : Bool
  hasYield : Bool
  /-- SHA-256, in hexadecimal digits -/
  digest : String → String
  /-- `float(value)` of an integer -/
  float : ℤ → Double
  secrets : SecretPatterns

variable (setting : Setting)

def Setting.hash (value : Json) : String := canonicalHash setting.digest value

/-- `_validate_idempotency_key` -/
def validateIdempotencyKey (value : String) : Except String Unit :=
  require (value ≠ "" && value.length ≤ 128 && !containsSecret setting.secrets (.text value))
    "idempotency_key_invalid"

/-! ### Contracts -/

/-- The arguments that make a contract. -/
structure ContractArguments where
  requestKind : String
  obligation : String
  businessPurpose : String
  targetAssertion : Dict
  acceptanceConditions : List String
  questRef : Option String
  requiredAuthorization : Option Dict
  expiresAt : Option Number

structure Contract where
  questRef : Option String
  kind : Kind
  obligation : String
  businessPurpose : String
  targetAssertion : Dict
  acceptanceConditions : List String
  requiredAuthorization : Option Dict
  expiresAt : Option Number

/-- A contract as it is hashed. -/
def contractJson (questRef : Option String) (kind : Kind) (obligation businessPurpose : String)
    (targetAssertion acceptanceConditions : Json) (requiredAuthorization expiresAt : Option Json) :
    Json :=
  .object [("quest_ref", optionalText questRef), ("kind", .text kind.text),
    ("obligation", .text obligation), ("business_purpose", .text businessPurpose),
    ("target_assertion", targetAssertion), ("acceptance_conditions", acceptanceConditions),
    ("required_authorization", requiredAuthorization.getD .null),
    ("expires_at", expiresAt.getD .null)]

def Contract.json (contract : Contract) : Json :=
  contractJson contract.questRef contract.kind contract.obligation contract.businessPurpose
    contract.targetAssertion.json (Json.texts contract.acceptanceConditions)
    (contract.requiredAuthorization.map Dict.json) (contract.expiresAt.map Number.json)

/-- An optional argument that is checked when it is there. -/
def checkOptional {α β : Type} (check : α → Except String β) : Option α → Except String (Option β)
  | none => pure none
  | some value => do pure (some (← check value))

/-- `_validate_contract` at a clock reading. -/
def validateContract (now : ℚ) (arguments : ContractArguments) : Except String Contract := do
  match Kind.all.find? (·.text = arguments.requestKind) with
  | none => .error "human_request_kind_invalid"
  | some kind => do
    boundedVerbatimText arguments.obligation "human_request_obligation_required" 8000
    boundedVerbatimText arguments.businessPurpose "human_request_business_purpose_required" 4000
    let targetAssertion ← object arguments.targetAssertion "target_assertion_invalid"
    let conditions ← uniqueTexts arguments.acceptanceConditions
      "human_request_acceptance_conditions_invalid" 32 2000
    require (!conditions.isEmpty) "human_request_acceptance_conditions_required"
    let questRef ← checkOptional (boundedText · "quest_ref_invalid" 64) arguments.questRef
    let requiredAuthorization ← checkOptional (object · "human_request_authorization_invalid")
      arguments.requiredAuthorization
    require (arguments.expiresAt.all fun number => now < (number.float setting.float).value)
      "human_request_expiry_invalid"
    pure ⟨questRef, kind, arguments.obligation, arguments.businessPurpose, targetAssertion,
      conditions, requiredAuthorization, arguments.expiresAt⟩

/-! ### Waiters -/

/-- A direct waiter as a caller passes it. -/
structure Waiter where
  waiterRef : String
  generation : ℤ
  targetAssertion : Dict
  waitScope : String
  otherBlockers : List String

def Waiter.json (waiter : Waiter) : Json :=
  .object [("waiter_ref", .text waiter.waiterRef), ("generation", .integer waiter.generation),
    ("target_assertion", waiter.targetAssertion.json), ("wait_scope", .text waiter.waitScope),
    ("other_blockers", Json.texts waiter.otherBlockers)]

/-- `_validate_waiter` -/
def validateWaiter (value : Waiter) : Except String Waiter := do
  let waiterRef ← boundedText value.waiterRef "human_request_waiter_ref_invalid" 128
  require (1 ≤ value.generation) "human_request_waiter_generation_invalid"
  let targetAssertion ← object value.targetAssertion "human_request_waiter_target_invalid"
  require (["local", "quest"].contains value.waitScope) "human_request_wait_scope_invalid"
  let otherBlockers ← uniqueRefs value.otherBlockers "human_request_blocker_invalid"
  require (!containsSecret setting.secrets
    (.object [("waiter_ref", .text waiterRef), ("other_blockers", Json.texts otherBlockers)]))
    "human_request_secret_forbidden"
  pure ⟨waiterRef, value.generation, targetAssertion, value.waitScope, otherBlockers⟩

/-! ### Operations -/

/-- The operation binding of an acquisition, or of a deep fetch of the agent runtime, may name no
quest. -/
def mayLackQuest (questRef : Option String) (binding : Dict) : Bool :=
  questRef.isNone && (binding.get "quest_ref").isNull &&
    ((binding.get "root_kind").isText "acquisition" ||
      setting.issuer = "agent_runtime" && (binding.get "root_kind").isText "deepfetch")

/-- A text that is not blank and not too long. -/
def isBoundText (value : Json) : Bool :=
  value.text?.any fun text => !Text.isBlank text && text.length ≤ 256

/-- `_validate_operation_binding` -/
def validateOperationBinding (value : Dict) (generation : ℤ) (questRef : Option String) :
    Except String Dict := do
  let binding := value.reload
  require value.json.wellFormed "human_request_operation_binding_invalid"
  require (["quest_ref", "task_ref", "root_session_ref", "operation_id", "attempt_ref",
      "request_owner"].all fun name =>
        name = "quest_ref" && mayLackQuest setting questRef binding || isBoundText (binding.get name))
    "human_request_operation_binding_invalid"
  require ((binding.get "generation").isInteger generation &&
      (binding.get "request_owner").isText setting.issuer &&
      (binding.get "quest_ref").same (optionalText questRef) &&
      !containsSecret setting.secrets binding.json)
    "human_request_operation_binding_invalid"
  pure binding

/-- `_operation_yield_fact` -/
def operationYieldFact (requestRef waiterRef : String) (binding : Dict) : Json :=
  .object [("schema_ref", .text humanRequestYieldSchema), ("status", .text "yielded"),
    ("request_ref", .text requestRef), ("task_ref", binding.get "task_ref"),
    ("root_session_ref", binding.get "root_session_ref"),
    ("operation_id", binding.get "operation_id"), ("attempt_ref", binding.get "attempt_ref"),
    ("generation", binding.get "generation"), ("request_owner", binding.get "request_owner"),
    ("waiter_ref", .text waiterRef)]

/-! ### Receipts -/

/-- `_open_effect_receipt_hash` -/
def openEffectReceiptHash (effectId requestRef waiterRef : String) (generation : ℤ)
    (operationBindingHash yieldFactHash : String) (predecessorRequestRef : Option String) : String :=
  setting.hash (.object [("schema_ref", .text "meta-research/human-request-open/v1"),
    ("issuer", .text setting.issuer), ("effect_id", .text effectId),
    ("request_ref", .text requestRef), ("waiter_ref", .text waiterRef),
    ("generation", .integer generation), ("operation_binding_hash", .text operationBindingHash),
    ("yield_fact_hash", .text yieldFactHash),
    ("predecessor_request_ref", optionalText predecessorRequestRef)])

/-- The receipt hash of a disposition. -/
def dispositionReceiptHash (requestRef : String) (decision : Disposition)
    (evaluationRef : Option String) : String :=
  setting.hash (.object [("schema_ref", .text "meta-research/human-request-disposition/v1"),
    ("issuer", .text setting.issuer), ("request_ref", .text requestRef),
    ("decision", .text decision.text), ("evaluation_ref", optionalText evaluationRef)])

/-- `_resume_consumption_receipt_hash` -/
def resumeConsumptionReceiptHash (consumptionRef requestRef waiterRef : String) (generation : ℤ)
    (validationRef workRef workHash : String) : String :=
  setting.hash (.object
    [("schema_ref", .text "meta-research/human-request-resume-consumption/v1"),
      ("issuer", .text setting.issuer), ("consumption_ref", .text consumptionRef),
      ("request_ref", .text requestRef), ("waiter_ref", .text waiterRef),
      ("generation", .integer generation), ("validation_ref", .text validationRef),
      ("work_ref", .text workRef), ("work_hash", .text workHash)])

/-! ### Rows -/

/-- A column of JSON text, as it is read back, beside the column of its hash. -/
structure Sealed where
  value : Json
  hash : String

/-- The columns that a value is stored in. -/
def Setting.sealed (value : Json) : Sealed := ⟨value.canonical, setting.hash value⟩

/-- The hash is that of the value read back. -/
def Setting.intact (column : Sealed) : Bool := setting.hash column.value = column.hash

/-- A row of `owner_human_requests`. -/
structure RequestRow where
  requestRef : String
  requestId : String
  revision : ℕ
  questRef : Option String
  kind : Kind
  obligation : String
  businessPurpose : String
  targetAssertion : Sealed
  acceptanceConditions : Sealed
  requiredAuthorization : Option Sealed
  /-- a column of floats -/
  expiresAt : Option Double
  identityHash : String
  predecessorRequestRef : Option String
  status : Status
  isCurrent : Bool
  createdAt : ℚ

/-- The contract that a row is read back as. -/
def RequestRow.contract (row : RequestRow) : Json :=
  contractJson row.questRef row.kind row.obligation row.businessPurpose row.targetAssertion.value
    row.acceptanceConditions.value (row.requiredAuthorization.map Sealed.value)
    (row.expiresAt.map fun double => .number double.literal)

/-- The request is open, current and past its deadline. -/
def RequestRow.isDue (row : RequestRow) (now : ℚ) : Bool :=
  row.isCurrent && row.status = .opened && row.expiresAt.any (·.value ≤ now)

/-- A row of `owner_human_request_waiters`. -/
structure WaiterRow where
  requestRef : String
  waiterRef : String
  generation : ℤ
  targetAssertion : Sealed
  waitScope : String
  otherBlockers : Sealed
  status : WaiterStatus
  createdAt : ℚ

def WaiterRow.key (row : WaiterRow) : String × String := (row.requestRef, row.waiterRef)

/-- A row of `owner_human_request_evaluations`. -/
structure EvaluationRow where
  evaluationRef : String
  requestRef : String
  sequence : ℕ
  decision : Evaluation
  responseRefs : List String
  responseRefsHash : String
  evidenceRefs : List String
  evidenceRefsHash : String
  reasonCode : String
  createdAt : ℚ

/-- A row of `owner_human_request_dispositions`. -/
structure DispositionRow where
  dispositionRef : String
  requestRef : String
  decision : Disposition
  evaluationRef : Option String
  receiptRef : String
  receiptHash : String
  createdAt : ℚ

/-- A row of `owner_human_request_resume_validations`. -/
structure ValidationRow where
  validationRef : String
  requestRef : String
  waiterRef : String
  generation : ℤ
  targetAssertionHash : String
  authorizationReceiptRef : Option String
  otherBlockers : Sealed
  /-- the status is `released`, not `blocked` -/
  released : Bool
  reasonCode : Option String
  createdAt : ℚ

/-- A row of `owner_human_request_resume_consumptions`. -/
structure ConsumptionRow where
  consumptionRef : String
  requestRef : String
  waiterRef : String
  generation : ℤ
  validationRef : String
  workRef : String
  workHash : String
  receiptRef : String
  receiptHash : String
  createdAt : ℚ

def ConsumptionRow.key (row : ConsumptionRow) : String × String × ℤ :=
  (row.requestRef, row.waiterRef, row.generation)

/-- A row of `owner_human_request_open_effects`. -/
structure OpenEffectRow where
  effectKey : String
  effectId : String
  requestRef : String
  waiterRef : String
  generation : ℤ
  operationBinding : Dict
  operationBindingHash : String
  yieldFact : Sealed
  receiptRef : String
  receiptHash : String
  createdAt : ℚ

/-- A row of `owner_human_request_commands`. -/
structure CommandRow where
  idempotencyKey : String
  commandKind : String
  requestHash : String
  resultRef : String
  recordedAt : ℚ
deriving DecidableEq

/-- A row of `hc_human_request_responses`, as far as Owners read it. -/
structure Response where
  responseRef : String
  requestRef : String
  decision : Response.Decision
deriving DecidableEq

/-- The rows of one issuing Owner, and the responses that Human Collaboration keeps. -/
structure Tables where
  requests : Table RequestRow.requestRef := ∅
  waiters : Table WaiterRow.key := ∅
  evaluations : Table EvaluationRow.evaluationRef := ∅
  dispositions : Table DispositionRow.requestRef := ∅
  validations : Table ValidationRow.validationRef := ∅
  consumptions : Table ConsumptionRow.key := ∅
  effects : Table OpenEffectRow.effectKey := ∅
  commands : Table CommandRow.idempotencyKey := ∅
  responses : Table Response.responseRef := ∅

end MetaResearch.HumanRequests

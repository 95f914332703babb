import MetaResearch.ToMathlib.Check
import MetaResearch.ToMathlib.Descendants
import MetaResearch.ToMathlib.JsonText
import MetaResearch.ToMathlib.Run
import MetaResearch.ToMathlib.SortByKey
import Mathlib.Data.String.Basic

/-! # Dataset facts

The four tables of dataset facts, the commands that name them, and `_accept_dataset_fact`. The digest
of a text is a parameter. A row holds the payload that its canonical JSON stores; the indexed columns
are fields of that payload and never change. What other Owners answer is part of each call: for each
snapshot that it reads outside the writer, which may also be an older one, and for the reads inside it.
-/

namespace MetaResearch.Datasets

/-! ### Payloads -/

structure AcceptanceReceipt where
  issuer : String
  kind : String
  receiptRef : String
  subjectRef : String
  payloadHash : String
deriving DecidableEq, Repr

structure AcceptedAssetBinding where
  assetRef : String
  versionRef : String
  contentHash : String
  manifestHash : String
  receipt : AcceptanceReceipt
deriving DecidableEq, Repr

inductive Operation where
  | register | registerVersion | reference | derive
deriving DecidableEq, Repr

/-- The schema of the facts of the operation. -/
def Operation.schema : Operation → String
  | .register => "meta-research/dataset/v1"
  | .registerVersion => "meta-research/dataset-version/v1"
  | .reference => "meta-research/dataset-reference/v1"
  | .derive => "meta-research/dataset-derivation/v1"

inductive Payload where
  | register (semanticKey name meaning : String) (metadata : Json) (notes : String)
  | registerVersion (datasetRef versionLabel meaning : String)
      (assetBindings : List AcceptedAssetBinding) (metadata : Json) (notes : String)
  | reference (datasetVersionRef questionRef : String) (researchRef : Option String)
      (purpose notes : String)
  | derive (sourceDatasetVersionRef derivedDatasetVersionRef questionRef : String)
      (researchRef : Option String) (processing notes : String)

def Payload.operation : Payload → Operation
  | .register .. => .register
  | .registerVersion .. => .registerVersion
  | .reference .. => .reference
  | .derive .. => .derive

/-- `AcceptanceReceipt.as_public_dict` -/
def AcceptanceReceipt.json (receipt : AcceptanceReceipt) : Json :=
  .object [("status", .text "accepted"), ("issuer", .text receipt.issuer),
    ("kind", .text receipt.kind), ("receipt_ref", .text receipt.receiptRef),
    ("subject_ref", .text receipt.subjectRef), ("payload_hash", .text receipt.payloadHash)]

/-- `AcceptedAssetBinding.as_dict` -/
def AcceptedAssetBinding.json (binding : AcceptedAssetBinding) : Json :=
  .object [("asset_ref", .text binding.assetRef), ("version_ref", .text binding.versionRef),
    ("content_hash", .text binding.contentHash), ("manifest_hash", .text binding.manifestHash),
    ("receipt", binding.receipt.json)]

def optionalText : Option String → Json
  | some value => .text value
  | none => .null

def Payload.json : Payload → Json
  | .register semanticKey name meaning metadata notes =>
    .object [("semantic_key", .text semanticKey), ("name", .text name), ("meaning", .text meaning),
      ("metadata", metadata), ("notes", .text notes)]
  | .registerVersion datasetRef versionLabel meaning assetBindings metadata notes =>
    .object [("dataset_ref", .text datasetRef), ("version_label", .text versionLabel),
      ("meaning", .text meaning),
      ("asset_bindings", .array (assetBindings.map AcceptedAssetBinding.json)),
      ("metadata", metadata), ("notes", .text notes)]
  | .reference datasetVersionRef questionRef researchRef purpose notes =>
    .object [("dataset_version_ref", .text datasetVersionRef), ("question_ref", .text questionRef),
      ("research_ref", optionalText researchRef), ("purpose", .text purpose), ("notes", .text notes)]
  | .derive source derived questionRef researchRef processing notes =>
    .object [("source_dataset_version_ref", .text source),
      ("derived_dataset_version_ref", .text derived), ("question_ref", .text questionRef),
      ("research_ref", optionalText researchRef), ("processing", .text processing),
      ("notes", .text notes)]

/-- The bindings of a version; other payloads have none. -/
def Payload.bindings : Payload → List AcceptedAssetBinding
  | .registerVersion _ _ _ assetBindings _ _ => assetBindings
  | .register .. | .reference .. | .derive .. => []

/-! ### Elementary checks -/

/-- `dataset_text` -/
def datasetText (value field : String) (optional : Bool) : Except String Unit := do
  let code := "dataset_" ++ field ++ "_invalid"
  require ((optional || !Text.isBlank value) && !value.toList.contains '\x00') code
  let limit := if ["meaning", "notes", "purpose", "processing"].contains field then 65536 else 1024
  require (value.utf8ByteSize ≤ limit) code

/-- `dataset_metadata`: portable JSON, as it is read back from its canonical text. -/
def datasetMetadata : Option Json → Except String Json
  | none => .ok (.object [])
  | some (.object fields) => do
    require (Json.wellFormed (.object fields)) "dataset_metadata_invalid"
    require ((Json.object fields).dumps.utf8ByteSize ≤ 262144) "dataset_metadata_invalid"
    pure (Json.object fields).canonical
  | some _ => .error "dataset_metadata_invalid"

/-- A SHA-256 in lower-case hexadecimal digits. -/
def isDigest (value : String) : Bool :=
  value.length = 64 && value.toList.all ("0123456789abcdef".toList.contains ·)

/-- `dataset_asset_binding` -/
def datasetAssetBinding (binding : AcceptedAssetBinding) : Except String Unit := do
  checkAll (datasetText · "asset_binding" false) [binding.assetRef, binding.versionRef,
    binding.contentHash, binding.manifestHash, binding.receipt.issuer, binding.receipt.kind,
    binding.receipt.receiptRef, binding.receipt.subjectRef, binding.receipt.payloadHash]
  require ([binding.contentHash, binding.manifestHash, binding.receipt.payloadHash].all isDigest)
    "dataset_asset_binding_invalid"

/-- `_dataset_effect_key` -/
def datasetEffectKey (value : String) : Except String Unit := do
  datasetText value "idempotency_key" false
  require (value.length ≤ 128) "dataset_idempotency_key_invalid"

/-! ### Tables -/

/-- A row of one of the fact tables. The time is the literal of the stored float. -/
structure FactRow where
  ref : String
  payload : Payload
  payloadHash : String
  receiptRef : String
  receiptHash : String
  acceptedAt : String

/-- A row of `rg_dataset_commands`. -/
structure Command where
  idempotencyKey : String
  operation : Operation
  requestHash : String
  resultRef : String
  recordedAt : String
deriving DecidableEq, Repr

/-- The newest row of a table comes first. -/
structure Tables where
  datasets : List FactRow := []
  versions : List FactRow := []
  references : List FactRow := []
  derivations : List FactRow := []
  /-- `rg_dataset_version_assets` -/
  versionAssets : List (String × String) := []
  commands : List Command := []
  revision : ℕ := 0

namespace Tables

def facts (tables : Tables) : Operation → List FactRow
  | .register => tables.datasets
  | .registerVersion => tables.versions
  | .reference => tables.references
  | .derive => tables.derivations

def findFact (tables : Tables) (operation : Operation) (ref : String) : Option FactRow :=
  (tables.facts operation).find? (·.ref = ref)

def findCommand (tables : Tables) (key : String) : Option Command :=
  tables.commands.find? (·.idempotencyKey = key)

/-- The asset versions linked to a dataset version. -/
def assetsOf (tables : Tables) (ref : String) : List String :=
  (tables.versionAssets.filter (·.1 = ref)).map Prod.snd

def derivationEdge (row : FactRow) : Option (String × String) :=
  match row.payload with
  | .derive source derived .. => some (source, derived)
  | .register .. | .registerVersion .. | .reference .. => none

/-- The derivations between dataset versions. -/
def lineage (tables : Tables) : List (String × String) :=
  tables.derivations.filterMap derivationEdge

/-- Insert a fact, with its asset links, and move the revision of the Owner. -/
def insertFact (tables : Tables) (row : FactRow) : Tables :=
  let moved := { tables with revision := tables.revision + 1 }
  match row.payload with
  | .register .. => { moved with datasets := row :: tables.datasets }
  | .registerVersion _ _ _ assetBindings _ _ =>
    { moved with
      versions := row :: tables.versions
      versionAssets := assetBindings.map (fun binding => (row.ref, binding.versionRef)) ++
        tables.versionAssets }
  | .reference .. => { moved with references := row :: tables.references }
  | .derive .. => { moved with derivations := row :: tables.derivations }

end Tables

/-! ### Other Owners -/

/-- What other Owners answer at one moment. -/
structure Owners where
  /-- `verify_asset_binding` returns. -/
  assetBinding : AcceptedAssetBinding → Bool
  /-- `verify_asset_receipt` returns. -/
  assetReceipt : AcceptedAssetBinding → Bool
  /-- `assert_asset_usable` returns. -/
  assetUsable : String → Bool
  /-- The row of `rm_asset_versions` that a link refers to exists. -/
  assetStored : String → Bool
  /-- `query_question_history_by_ref`, answering the Quest of the question. -/
  question : String → Except String (Option String)
  /-- The Quests of a research object. -/
  researchQuests : String → List String

/-- `verify_dataset_research_ref_scope` -/
def verifyDatasetResearchRefScope (owners : Owners) (researchRef questRef : String) :
    Except String Unit := do
  datasetText researchRef "research_ref" false
  datasetText questRef "quest_ref" false
  let quests := owners.researchQuests researchRef
  require (!quests.isEmpty) "dataset_research_ref_not_found"
  require (quests.all (· = questRef)) "dataset_research_ref_scope_invalid"

/-- `_verify_dataset_research_scope` -/
def verifyDatasetResearchScope (owners : Owners) (questionRef : String)
    (researchRef : Option String) : Except String Unit := do
  datasetText questionRef "question_ref" false
  match ← owners.question questionRef with
  | none => .error "dataset_question_not_found"
  | some quest =>
    match researchRef with
    | none => pure ()
    | some ref => verifyDatasetResearchRefScope owners ref quest

/-! ### Reading facts -/

section Digest

variable (digest : String → String)

/-- `canonical_hash` -/
def canonicalHash (value : Json) : String := digest value.dumps

/-- `_receipt_hash` -/
def receiptHashOf (operation : Operation) (ref payloadHash receiptRef acceptedAt : String) : String :=
  canonicalHash digest (.object [("schema_ref", .text operation.schema), ("subject_ref", .text ref),
    ("payload_hash", .text payloadHash), ("receipt_ref", .text receiptRef),
    ("accepted_at", .number acceptedAt)])

/-- The hashes of a row fit its payload. -/
def FactRow.genuine (row : FactRow) : Bool :=
  row.payloadHash = canonicalHash digest row.payload.json &&
    row.receiptHash = receiptHashOf digest row.payload.operation row.ref row.payloadHash row.receiptRef
      row.acceptedAt

/-- `_query_dataset_fact` without a Quest, over the check of the rows of its table. -/
def queryFact (record : FactRow → Except String Unit) (tables : Tables) (operation : Operation)
    (ref : String) : Except String (Option FactRow) := do
  datasetText ref "ref" false
  match tables.findFact operation ref with
  | none => pure none
  | some row => do
    record row
    pure (some row)

/-- A fact that must be there. -/
def requireFact (query : Except String (Option FactRow)) (code : String) : Except String Unit := do
  require (← query).isSome code

/-- `_dataset_record` of a dataset. -/
def datasetRecord (row : FactRow) : Except String Unit :=
  require (row.genuine digest) "dataset_receipt_invalid"

/-- `query_dataset` -/
def queryDataset (tables : Tables) (ref : String) : Except String (Option FactRow) :=
  queryFact (datasetRecord digest) tables .register ref

/-- `_dataset_record` of a dataset version. -/
def versionRecord (owners : Owners) (tables : Tables) (row : FactRow) : Except String Unit := do
  require (row.genuine digest) "dataset_receipt_invalid"
  match row.payload with
  | .registerVersion datasetRef _ _ bindings _ _ => do
    requireFact (queryDataset digest tables datasetRef) "dataset_receipt_invalid"
    checkAll datasetAssetBinding bindings
    require ((tables.assetsOf row.ref).isPerm (bindings.map AcceptedAssetBinding.versionRef))
      "dataset_asset_reference_invalid"
    require (bindings.all owners.assetReceipt) "asset_receipt_invalid"
  | .register .. | .reference .. | .derive .. => .error "dataset_receipt_invalid"

/-- `query_dataset_version` -/
def queryDatasetVersion (owners : Owners) (tables : Tables) (ref : String) :
    Except String (Option FactRow) :=
  queryFact (versionRecord digest owners tables) tables .registerVersion ref

/-- `_dataset_record` of a dataset reference. -/
def referenceRecord (owners : Owners) (tables : Tables) (row : FactRow) : Except String Unit := do
  require (row.genuine digest) "dataset_receipt_invalid"
  match row.payload with
  | .reference versionRef questionRef researchRef _ _ => do
    requireFact (queryDatasetVersion digest owners tables versionRef) "dataset_reference_invalid"
    require (← owners.question questionRef).isSome "dataset_reference_invalid"
    verifyDatasetResearchScope owners questionRef researchRef
  | .register .. | .registerVersion .. | .derive .. => .error "dataset_receipt_invalid"

/-- `_dataset_record` of a dataset derivation. -/
def derivationRecord (owners : Owners) (tables : Tables) (row : FactRow) : Except String Unit := do
  require (row.genuine digest) "dataset_receipt_invalid"
  match row.payload with
  | .derive source derived questionRef researchRef _ _ => do
    require (source ≠ derived) "dataset_derivation_invalid"
    requireFact (queryDatasetVersion digest owners tables source) "dataset_derivation_invalid"
    requireFact (queryDatasetVersion digest owners tables derived) "dataset_derivation_invalid"
    verifyDatasetResearchScope owners questionRef researchRef
  | .register .. | .registerVersion .. | .reference .. => .error "dataset_receipt_invalid"

/-- `_dataset_record`: the public record is determined by the row, so only the checks are kept. -/
def record (owners : Owners) (tables : Tables) : Operation → FactRow → Except String Unit
  | .register => datasetRecord digest
  | .registerVersion => versionRecord digest owners tables
  | .reference => referenceRecord digest owners tables
  | .derive => derivationRecord digest owners tables

/-- `reconcile_dataset_operation` -/
def reconcileDatasetOperation (owners : Owners) (tables : Tables) (operation : Operation)
    (idempotencyKey : String) : Except String (Option FactRow) := do
  datasetEffectKey idempotencyKey
  match tables.findCommand idempotencyKey with
  | none => pure none
  | some command => do
    require (command.operation = operation) "dataset_idempotency_conflict"
    match ← queryFact (record digest owners tables operation) tables operation command.resultRef with
    | none => .error "dataset_command_invalid"
    | some row => do
      require (command.requestHash = row.payloadHash) "dataset_command_invalid"
      pure (some row)

/-! ### Accepting facts -/

/-- The arguments of a public call. -/
inductive Call where
  | registerDataset (semanticKey name meaning : String) (metadata : Option Json) (notes : String)
  | registerDatasetVersion (datasetRef versionLabel meaning : String)
      (assetBindings : List AcceptedAssetBinding) (metadata : Option Json) (notes : String)
  | referenceDataset (datasetVersionRef questionRef purpose : String) (researchRef : Option String)
      (notes : String)
  | deriveDataset (sourceDatasetVersionRef derivedDatasetVersionRef questionRef processing : String)
      (researchRef : Option String) (notes : String)

/-- What a read outside the writer sees. -/
structure Sight where
  tables : Tables
  owners : Owners

/-- `query_dataset_version` over a snapshot, which has to find the version. -/
def Sight.requireVersion (sight : Sight) (ref : String) : Except String Unit :=
  requireFact (queryDatasetVersion digest sight.owners sight.tables ref) "dataset_version_not_found"

/-- The version of a dataset under a label is registered. -/
def Tables.hasVersion (tables : Tables) (datasetRef versionLabel : String) : Bool :=
  tables.versions.any fun row =>
    match row.payload with
    | .registerVersion ref label .. => ref = datasetRef && label = versionLabel
    | .register .. | .reference .. | .derive .. => false

/-- The part of a call before the writer; its two reads may see different snapshots. -/
def Call.prepare (first second : Sight) : Call → Except String Payload
  | .registerDataset semanticKey name meaning metadata notes => do
    datasetText semanticKey "semantic_key" false
    datasetText name "name" false
    datasetText meaning "meaning" false
    let metadata ← datasetMetadata metadata
    datasetText notes "notes" true
    pure (.register semanticKey name meaning metadata notes)
  | .registerDatasetVersion datasetRef versionLabel meaning bindings metadata notes => do
    datasetText datasetRef "ref" false
    requireFact (queryDataset digest first.tables datasetRef) "dataset_not_found"
    require (1 ≤ bindings.length && bindings.length ≤ 256) "dataset_asset_bindings_invalid"
    checkAll datasetAssetBinding bindings
    require (decide (bindings.map AcceptedAssetBinding.versionRef).Nodup)
      "dataset_asset_bindings_invalid"
    datasetText versionLabel "version_label" false
    datasetText meaning "meaning" false
    let metadata ← datasetMetadata metadata
    datasetText notes "notes" true
    require (second.tables.hasVersion datasetRef versionLabel ||
      bindings.all second.owners.assetBinding) "asset_binding_invalid"
    pure (.registerVersion datasetRef versionLabel meaning
      (sortByKey AcceptedAssetBinding.versionRef bindings) metadata notes)
  | .referenceDataset versionRef questionRef purpose researchRef notes => do
    datasetText versionRef "version_ref" false
    datasetText questionRef "question_ref" false
    first.requireVersion digest versionRef
    datasetText purpose "purpose" true
    datasetText notes "notes" true
    pure (.reference versionRef questionRef researchRef purpose notes)
  | .deriveDataset source derived questionRef processing researchRef notes => do
    datasetText source "version_ref" false
    first.requireVersion digest source
    datasetText derived "version_ref" false
    second.requireVersion digest derived
    require (source ≠ derived) "dataset_derivation_cycle_invalid"
    datasetText processing "processing" false
    datasetText notes "notes" true
    pure (.derive source derived questionRef researchRef processing notes)

/-- The row meets the unique columns of the payload. -/
def meetsUnique (payload : Payload) (row : FactRow) : Bool :=
  match payload, row.payload with
  | .register key .., .register other .. => key = other
  | .registerVersion dataset label .., .registerVersion other another .. =>
    dataset = other && label = another
  | .reference .., .reference .. | .derive .., .derive .. =>
    row.payloadHash = canonicalHash digest payload.json
  | _, _ => false

/-- `verify_new`, which runs under the writer. -/
def verifyNew (owners : Owners) (tables : Tables) : Payload → Except String Unit
  | .registerVersion _ _ _ bindings _ _ =>
    require (bindings.all fun binding =>
      owners.assetReceipt binding && owners.assetUsable binding.versionRef) "asset_unusable"
  | .derive source derived .. =>
    require (!(descendants tables.lineage derived).contains source)
      "dataset_derivation_cycle_invalid"
  | .register .. | .reference .. => .ok ()

/-- The table constraints that an insert of the fact has to meet. -/
def insertable (owners : Owners) (tables : Tables) (row : FactRow) : Bool :=
  let rows := tables.facts row.payload.operation
  rows.all (fun other => other.ref ≠ row.ref && other.receiptRef ≠ row.receiptRef) &&
    match row.payload with
    | .register .. => true
    | .registerVersion datasetRef _ _ bindings _ _ =>
      (tables.findFact .register datasetRef).isSome &&
        decide (bindings.map AcceptedAssetBinding.versionRef).Nodup &&
        bindings.all (owners.assetStored ·.versionRef) &&
        tables.versionAssets.all (·.1 ≠ row.ref)
    | .reference versionRef .. => (tables.findFact .registerVersion versionRef).isSome
    | .derive source derived .. =>
      (tables.findFact .registerVersion source).isSome &&
        (tables.findFact .registerVersion derived).isSome && source ≠ derived

/-- The 32 hexadecimal digits of a random UUID. -/
structure Uuid where
  hex : String
  form : hex.length = 32 ∧ hex.toList.all ("0123456789abcdef".toList.contains ·)

instance : Inhabited Uuid := ⟨⟨"00000000000000000000000000000000", by decide +kernel⟩⟩

/-- `new_ref` -/
def newRef (kind : String) (uuid : Uuid) : String := kind ++ "_" ++ uuid.hex

/-- The kind of reference of a fact. -/
def Operation.kind : Operation → String
  | .register => "dataset"
  | .registerVersion => "dataset_version"
  | .reference => "dataset_reference"
  | .derive => "dataset_derivation"

/-- What a call meets besides its arguments: the check of its effect scope, how old the snapshots of
its reads outside the writer are and what other Owners answer there, the Owners inside the writer,
fresh UUIDs and clock readings. -/
structure Surroundings where
  effectScope : Except String Unit
  firstAge : ℕ
  firstOwners : Owners
  secondAge : ℕ
  secondOwners : Owners
  owners : Owners
  factUuid : Uuid
  receiptUuid : Uuid
  acceptedAt : String
  recordedAt : String

/-- The lineage check that direct callers and replays receive. -/
def verifyScope (owners : Owners) : Payload → Except String Unit
  | .reference _ questionRef researchRef _ _ => verifyDatasetResearchScope owners questionRef researchRef
  | .derive _ _ questionRef researchRef _ _ => verifyDatasetResearchScope owners questionRef researchRef
  | .register .. | .registerVersion .. => .ok ()

/-- The row of a new fact. -/
def newFact (here : Surroundings) (payload : Payload) : FactRow where
  ref := newRef payload.operation.kind here.factUuid
  payload := payload
  payloadHash := canonicalHash digest payload.json
  receiptRef := newRef "rg_dataset_receipt" here.receiptUuid
  receiptHash := receiptHashOf digest payload.operation
    (newRef payload.operation.kind here.factUuid) (canonicalHash digest payload.json)
    (newRef "rg_dataset_receipt" here.receiptUuid) here.acceptedAt
  acceptedAt := here.acceptedAt

/-- The fact that a fresh command names: the one that meets the unique columns, or a new one. -/
def findOrInsert (here : Surroundings) (payload : Payload) (tables : Tables) :
    Except String (FactRow × Tables) := do
  let payloadHash := canonicalHash digest payload.json
  match (tables.facts payload.operation).find? (meetsUnique digest payload) with
  | some row => do
    record digest here.owners tables payload.operation row
    require (row.payloadHash = payloadHash) "dataset_semantic_identity_conflict"
    pure (row, tables)
  | none => do
    verifyNew here.owners tables payload
    let row := newFact digest here payload
    require (insertable here.owners tables row) "IntegrityError"
    pure (row, tables.insertFact row)

/-- `_accept_dataset_fact` -/
def acceptDatasetFact (here : Surroundings) (payload : Payload) (idempotencyKey : String)
    (tables : Tables) : Except String (FactRow × Tables) := do
  datasetEffectKey idempotencyKey
  let payloadHash := canonicalHash digest payload.json
  here.effectScope
  verifyScope here.owners payload
  match tables.findCommand idempotencyKey with
  | some command => do
    require (command.operation = payload.operation && command.requestHash = payloadHash)
      "dataset_idempotency_conflict"
    match tables.findFact payload.operation command.resultRef with
    | none => .error "dataset_command_invalid"
    | some row => do
      record digest here.owners tables payload.operation row
      require (row.payloadHash = payloadHash) "dataset_command_invalid"
      pure (row, tables)
  | none => do
    let (row, tables) ← findOrInsert digest here payload tables
    pure (row, { tables with
      commands := ⟨idempotencyKey, payload.operation, payloadHash, row.ref, here.recordedAt⟩ ::
        tables.commands })

/-- A public call under an idempotency key. -/
structure Request where
  call : Call
  idempotencyKey : String

/-- The tables, and those of earlier moments that a stale read may still see. -/
structure System where
  tables : Tables := {}
  past : List Tables := []

/-- The tables as they were some calls ago. -/
def System.seen (system : System) (age : ℕ) : Tables :=
  (system.tables :: system.past).getD age system.tables

/-- The call as a whole. -/
def Request.run (request : Request) (here : Surroundings) (system : System) :
    Except String (FactRow × Tables) := do
  let payload ← request.call.prepare digest ⟨system.seen here.firstAge, here.firstOwners⟩
    ⟨system.seen here.secondAge, here.secondOwners⟩
  acceptDatasetFact digest here payload request.idempotencyKey system.tables

/-- Nothing is written when a call raises. -/
def System.step (system : System) (input : Request × Surroundings) : System where
  tables :=
    match input.1.run digest input.2 system with
    | .ok (_, after) => after
    | .error _ => system.tables
  past := system.tables :: system.past

end Digest

end MetaResearch.Datasets

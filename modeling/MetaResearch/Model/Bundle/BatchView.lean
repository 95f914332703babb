import MetaResearch.ToMathlib.JsonText
import MetaResearch.ToMathlib.JsonValue

/-! # The view of a new batch

The records of a batch are sent to a session that already holds a baseline. A record that the session can
find in its baseline is not sent again. The digest of a text is a parameter.
-/

namespace MetaResearch.Bundle.BatchView

open Json (Fields get isText)

/-- The field that names a record. -/
inductive Key where
  | targetRef
  | commitRef
  deriving DecidableEq

def Key.field : Key → String
  | .targetRef => "target_ref"
  | .commitRef => "commit_ref"

/-- A record of a batch, named by a text. -/
structure Record (key : Key) where
  fields : Fields
  ref : String
  named : get fields key.field = .text ref
  formed : (Json.object fields).wellFormed = true

/-- An entry of the index. -/
structure IndexEntry where
  ref : String
  contentHash : String
  status : Option Json
  state : Option Json
  reader : Option Fields

/-- Why a record that the baseline holds is sent. -/
inductive Reason where
  | duplicateCurrentRef
  | duplicateBaselineRef
  | missingReader
  | readerContentHashMismatch
  deriving DecidableEq

/-- The text of the reason. -/
def Reason.text : Reason → String
  | .duplicateCurrentRef => "duplicate_current_ref"
  | .duplicateBaselineRef => "duplicate_baseline_ref"
  | .missingReader => "missing_reader"
  | .readerContentHashMismatch => "reader_content_hash_mismatch"

/-- A record that is sent although the baseline holds it. -/
structure Retained where
  ref : String
  contentHash : String
  reason : String

/-- What a partition answers. -/
structure Delta (key : Key) where
  bodies : List (Record key)
  index : List IndexEntry
  retained : List Retained

section Partition

variable (digest : String → String) {key : Key}

/-- `canonical_hash` -/
def canonicalHash (record : Record key) : String := digest (Json.object record.fields).dumps

/-- How many of the records have this reference. -/
def countRef (records : List (Record key)) (ref : String) : ℕ := (records.map Record.ref).count ref

/-- `digest in base_hashes.get(ref, ())` -/
def heldBy (base : List (Record key)) (ref hash : String) : Bool :=
  base.any fun record => record.ref = ref && canonicalHash digest record = hash

/-- The reader of a reference, when it reads this content. -/
def matchedReader (readers : List (String × Fields)) (ref hash : String) : Option Fields :=
  (readers.lookup ref).filter fun reader => (get reader "content_hash").isText hash

/-- Why a record is sent although the baseline holds it. -/
def retainedReason (records base : List (Record key)) (readers : List (String × Fields))
    (ref hash : String) : Option Reason :=
  if heldBy digest base ref hash then
    if 1 < countRef records ref then some .duplicateCurrentRef
    else if 1 < countRef base ref then some .duplicateBaselineRef
    else if (readers.lookup ref).isNone then some .missingReader
    else if (matchedReader readers ref hash).isNone then some .readerContentHashMismatch
    else none
  else none

/-- One round of the loop over the records. -/
def partitionRecord (records base : List (Record key)) (readers : List (String × Fields))
    (delta : Delta key) (record : Record key) : Delta key :=
  let hash := canonicalHash digest record
  let reason := retainedReason digest records base readers record.ref hash
  { bodies :=
      if !heldBy digest base record.ref hash || reason.isSome then delta.bodies ++ [record] else delta.bodies
    index := delta.index ++ [{
      ref := record.ref
      contentHash := hash
      status := record.fields.lookup "status"
      state := record.fields.lookup "state"
      reader := matchedReader readers record.ref hash }]
    retained := delta.retained ++
      (reason.map fun reason => ⟨record.ref, hash, reason.text⟩).toList }

/-- `partition_batch_records` -/
def partitionBatchRecords (records : List (Record key)) (baseline : Option (List (Record key)))
    (readers : Option (List (String × Fields))) : Delta key :=
  records.foldl (partitionRecord digest records (baseline.getD []) (readers.getD [])) ⟨[], [], []⟩

end Partition

end MetaResearch.Bundle.BatchView

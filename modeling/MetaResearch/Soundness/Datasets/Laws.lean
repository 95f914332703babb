import MetaResearch.Model.Datasets.Facts
import MetaResearch.ToMathlib.JsonSize

/-! # Laws of dataset facts

Tables are kept when every fact is genuine and names facts that are there, natural keys and
idempotency keys are unique, and the lineage of dataset versions is acyclic. An accepted call binds
its idempotency key for good: every later call under the key writes nothing, returns the same fact if
it returns at all, and returns it for sure while the effect scope admits it and the other Owners
uphold the facts.
-/

namespace MetaResearch.Datasets

variable {digest : String → String}

/-! ### References -/

theorem datasetText_eq_ok_iff {value field : String} {optional : Bool} :
    datasetText value field optional = .ok () ↔
      ((optional || !Text.isBlank value) && !value.toList.contains '\x00') = true ∧
        value.utf8ByteSize ≤
          if ["meaning", "notes", "purpose", "processing"].contains field then 65536 else 1024 := by
  simp [datasetText, check_then_eq_ok_iff]

/-- References of every kind are checked alike. -/
theorem datasetText_ref {value : String} :
    datasetText value "version_ref" false = .ok () ↔ datasetText value "ref" false = .ok () := by
  have fields : ["meaning", "notes", "purpose", "processing"].contains "version_ref" = false ∧
      ["meaning", "notes", "purpose", "processing"].contains "ref" = false := by decide
  rw [datasetText_eq_ok_iff, datasetText_eq_ok_iff, fields.1, fields.2]

theorem datasetText_newRef (operation : Operation) (uuid : Uuid) :
    datasetText (newRef operation.kind uuid) "ref" false = .ok () := by
  obtain ⟨hex, length, digits⟩ := uuid
  have kindFine : operation.kind.length ≤ 40 ∧ operation.kind.toList.contains '\x00' = false := by
    cases operation <;> decide +kernel
  have chars : (newRef operation.kind ⟨hex, length, digits⟩).toList =
      operation.kind.toList ++ '_' :: hex.toList := by
    simp [newRef, String.toList_append]
  have plain : hex.toList.contains '\x00' = false := by
    rw [Bool.eq_false_iff, Ne, List.contains_iff_mem]
    intro member
    exact absurd (List.all_eq_true.mp digits _ member) (by decide +kernel)
  have size := Text.size_le_four_mul_length (newRef operation.kind ⟨hex, length, digits⟩)
  have long : (newRef operation.kind ⟨hex, length, digits⟩).length ≤ 73 := by
    rw [← String.length_toList, chars, List.length_append, List.length_cons, String.length_toList,
      String.length_toList, length]
    omega
  rw [datasetText_eq_ok_iff]
  refine ⟨?_, ?_⟩
  · rw [Bool.and_eq_true]
    constructor
    · simp only [Text.isBlank, chars, List.all_append, List.all_cons, Bool.false_or]
      have solid : Text.isSpace '_' = false := by decide
      simp [solid]
    · have zero : ('_' == '\x00') = false := by decide
      simp only [chars, List.contains_append, List.contains_cons, kindFine.2, plain]
      decide
  · have fields : ["meaning", "notes", "purpose", "processing"].contains "ref" = false := by decide
    rw [fields]
    simp only [Bool.false_eq_true, if_false]
    omega

/-! ### Growth -/

/-- Tables only gain rows. -/
structure Grown (old new : Tables) : Prop where
  facts : ∀ operation, old.facts operation <:+ new.facts operation
  commands : old.commands <:+ new.commands

theorem Grown.refl (tables : Tables) : Grown tables tables :=
  ⟨fun _ => List.suffix_refl _, List.suffix_refl _⟩

theorem Grown.trans {first second third : Tables} (early : Grown first second)
    (late : Grown second third) : Grown first third :=
  ⟨fun operation => (early.facts operation).trans (late.facts operation),
    early.commands.trans late.commands⟩

theorem Grown.mem {old new : Tables} (grown : Grown old new) {operation : Operation} {row : FactRow}
    (member : row ∈ old.facts operation) : row ∈ new.facts operation :=
  (grown.facts operation).subset member

theorem facts_insertFact (tables : Tables) (row : FactRow) (operation : Operation) :
    (tables.insertFact row).facts operation =
      if row.payload.operation = operation then row :: tables.facts operation
      else tables.facts operation := by
  unfold Tables.insertFact
  cases row.payload <;> cases operation <;> rfl

theorem mem_insertFact {tables : Tables} (row : FactRow) :
    row ∈ (tables.insertFact row).facts row.payload.operation := by
  rw [facts_insertFact, if_pos rfl]
  exact List.mem_cons_self

theorem commands_insertFact (tables : Tables) (row : FactRow) :
    (tables.insertFact row).commands = tables.commands := by
  unfold Tables.insertFact
  cases row.payload <;> rfl

theorem grown_insertFact (tables : Tables) (row : FactRow) : Grown tables (tables.insertFact row) where
  facts := by
    intro operation
    rw [facts_insertFact]
    split_ifs
    · exact List.suffix_cons _ _
    · exact List.suffix_refl _
  commands := (commands_insertFact tables row).symm ▸ List.suffix_refl _

/-! ### Kept tables -/

/-- The unique columns of a payload. -/
def naturalKey (digest : String → String) : Payload → List String
  | .register semanticKey .. => [semanticKey]
  | .registerVersion datasetRef versionLabel .. => [datasetRef, versionLabel]
  | .reference versionRef questionRef researchRef purpose notes =>
    [canonicalHash digest (Payload.reference versionRef questionRef researchRef purpose notes).json]
  | .derive source derived questionRef researchRef processing notes =>
    [canonicalHash digest (Payload.derive source derived questionRef researchRef processing notes).json]

/-- The facts that a payload names are there. -/
def Linked (tables : Tables) (row : FactRow) : Prop :=
  match row.payload with
  | .register .. => True
  | .registerVersion datasetRef _ _ bindings _ _ =>
    (datasetText datasetRef "ref" false = .ok () ∧ ∃ dataset ∈ tables.datasets, dataset.ref = datasetRef) ∧
      (∀ binding ∈ bindings, datasetAssetBinding binding = .ok ()) ∧
        tables.assetsOf row.ref = bindings.map AcceptedAssetBinding.versionRef
  | .reference versionRef .. =>
    datasetText versionRef "ref" false = .ok () ∧ ∃ version ∈ tables.versions, version.ref = versionRef
  | .derive source derived .. =>
    source ≠ derived ∧ ∀ ref ∈ [source, derived],
      datasetText ref "ref" false = .ok () ∧ ∃ version ∈ tables.versions, version.ref = ref

structure Kept (digest : String → String) (tables : Tables) : Prop where
  genuine : ∀ operation, ∀ row ∈ tables.facts operation,
    row.payload.operation = operation ∧ row.genuine digest = true ∧
      datasetText row.ref "ref" false = .ok ()
  refs : ∀ operation, ((tables.facts operation).map FactRow.ref).Nodup
  natural : ∀ operation,
    ((tables.facts operation).map fun row => naturalKey digest row.payload).Nodup
  linked : ∀ operation, ∀ row ∈ tables.facts operation, Linked tables row
  acyclic : Acyclic tables.lineage
  keys : (tables.commands.map Command.idempotencyKey).Nodup
  commands : ∀ command ∈ tables.commands,
    datasetEffectKey command.idempotencyKey = .ok () ∧
      ∃ row ∈ tables.facts command.operation,
        row.ref = command.resultRef ∧ row.payloadHash = command.requestHash

theorem kept_empty : Kept digest {} where
  genuine := by rintro (_ | _ | _ | _) row member <;> cases member
  refs := by rintro (_ | _ | _ | _) <;> exact List.nodup_nil
  natural := by rintro (_ | _ | _ | _) <;> exact List.nodup_nil
  linked := by rintro (_ | _ | _ | _) row member <;> cases member
  acyclic := acyclic_nil
  keys := List.nodup_nil
  commands := fun _ member => absurd member List.not_mem_nil

section Find

variable {α κ : Type} [DecidableEq κ]

/-- Among rows with distinct keys, a row is found under its key. -/
theorem find?_eq_some_of_nodup {key : α → κ} {rows : List α} {row : α}
    (distinct : (rows.map key).Nodup) (member : row ∈ rows) :
    rows.find? (fun other => key other = key row) = some row := by
  obtain ⟨other, found⟩ := Option.isSome_iff_exists.mp
    (List.find?_isSome (p := fun other => decide (key other = key row)) |>.mpr ⟨row, member, by simp⟩)
  have same : key other = key row := by simpa using List.find?_some found
  rw [found, List.inj_on_of_nodup_map distinct (List.mem_of_find?_eq_some found) member same]

end Find

theorem Kept.findFact {tables : Tables} (kept : Kept digest tables) {operation : Operation}
    {row : FactRow} (member : row ∈ tables.facts operation) :
    tables.findFact operation row.ref = some row :=
  find?_eq_some_of_nodup (kept.refs operation) member

theorem Kept.findCommand {tables : Tables} (kept : Kept digest tables) {command : Command}
    (member : command ∈ tables.commands) : tables.findCommand command.idempotencyKey = some command :=
  find?_eq_some_of_nodup kept.keys member

/-! ### Reading facts back -/

/-- Other Owners still verify what the accepted facts rest on. -/
structure Owners.Uphold (owners : Owners) (tables : Tables) : Prop where
  receipts : ∀ version ∈ tables.versions, ∀ binding ∈ version.payload.bindings,
    owners.assetReceipt binding = true
  scopes : ∀ row ∈ tables.references ++ tables.derivations, verifyScope owners row.payload = .ok ()

variable {tables : Tables} {owners : Owners}

theorem requireFact_eq_ok_iff {query : Except String (Option FactRow)} {code : String} :
    requireFact query code = .ok () ↔ ∃ row, query = .ok (some row) := by
  unfold requireFact
  rw [bind_eq_ok_iff]
  simp only [require_eq_ok_iff, Option.isSome_iff_exists]
  constructor
  · rintro ⟨_, found, row, rfl⟩
    exact ⟨row, found⟩
  · rintro ⟨row, found⟩
    exact ⟨_, found, row, rfl⟩

theorem queryFact_eq_some {check : FactRow → Except String Unit} {operation : Operation}
    {row : FactRow} (kept : Kept digest tables) (member : row ∈ tables.facts operation)
    (checked : check row = .ok ()) : queryFact check tables operation row.ref = .ok (some row) := by
  obtain ⟨_, _, text⟩ := kept.genuine operation row member
  simp only [queryFact, text, kept.findFact member, checked]
  rfl

theorem Kept.queryDataset (kept : Kept digest tables) {row : FactRow} (member : row ∈ tables.datasets) :
    queryDataset digest tables row.ref = .ok (some row) := by
  obtain ⟨_, genuine, _⟩ := kept.genuine .register row member
  have stored : row ∈ tables.facts .register := member
  exact queryFact_eq_some kept stored (by simp [datasetRecord, genuine])

theorem Kept.versionRecord (kept : Kept digest tables) (uphold : owners.Uphold tables) {row : FactRow}
    (member : row ∈ tables.versions) : versionRecord digest owners tables row = .ok () := by
  obtain ⟨operation, genuine, _⟩ := kept.genuine .registerVersion row member
  have linked := kept.linked .registerVersion row member
  have receipts := uphold.receipts row member
  unfold Datasets.versionRecord Linked at *
  cases shape : row.payload with
  | registerVersion datasetRef label meaning bindings metadata notes =>
    simp only [shape, Payload.bindings] at linked receipts
    obtain ⟨⟨_, dataset, stored, rfl⟩, valid, assets⟩ := linked
    simp only [genuine, check_then_eq_ok_iff, require_eq_ok_iff, checkAll_eq_ok_iff]
    refine ⟨trivial, requireFact_eq_ok_iff.mpr ⟨dataset, kept.queryDataset stored⟩, valid, ?_, ?_⟩
    · rw [assets]
      exact List.isPerm_iff.mpr (List.Perm.refl _)
    · exact List.all_eq_true.mpr receipts
  | register | reference | derive => simp [shape, Payload.operation] at operation

theorem Kept.queryDatasetVersion (kept : Kept digest tables) (uphold : owners.Uphold tables)
    {row : FactRow} (member : row ∈ tables.versions) :
    queryDatasetVersion digest owners tables row.ref = .ok (some row) := by
  have stored : row ∈ tables.facts .registerVersion := member
  exact queryFact_eq_some kept stored (kept.versionRecord uphold member)

/-- While the other Owners uphold the facts, every fact passes its check. -/
theorem Kept.record (kept : Kept digest tables) (uphold : owners.Uphold tables) {operation : Operation}
    {row : FactRow} (member : row ∈ tables.facts operation) :
    record digest owners tables operation row = .ok () := by
  obtain ⟨named, genuine, _⟩ := kept.genuine operation row member
  have linked := kept.linked operation row member
  cases operation with
  | register => simp [Datasets.record, datasetRecord, genuine]
  | registerVersion => exact kept.versionRecord uphold member
  | reference =>
    have scope := uphold.scopes row (List.mem_append_left _ member)
    unfold Datasets.record referenceRecord Linked at *
    cases shape : row.payload with
    | reference versionRef questionRef researchRef purpose notes =>
      simp only [shape, verifyScope] at linked scope
      obtain ⟨_, version, stored, rfl⟩ := linked
      have asked := scope
      unfold verifyDatasetResearchScope at asked
      obtain ⟨question, found, _⟩ := bind_eq_ok_iff.mp (check_then_eq_ok_iff.mp asked).2
      have known : question.isSome = true := by
        cases question with
        | none => simp_all
        | some quest => rfl
      simp only [genuine, shape, check_then_eq_ok_iff, require_eq_ok_iff]
      refine ⟨trivial, requireFact_eq_ok_iff.mpr ⟨version, kept.queryDatasetVersion uphold stored⟩, ?_⟩
      rw [bind_eq_ok_iff]
      exact ⟨question, found, by simp [known, scope, check_then_eq_ok_iff]⟩
    | register | registerVersion | derive => simp [shape, Payload.operation] at named
  | derive =>
    have scope := uphold.scopes row (List.mem_append_right _ member)
    unfold Datasets.record derivationRecord Linked at *
    cases shape : row.payload with
    | derive source derived questionRef researchRef processing notes =>
      simp only [shape, verifyScope] at linked scope
      obtain ⟨apart, stored⟩ := linked
      have version {ref : String} (member : ref ∈ [source, derived]) :
          requireFact (Datasets.queryDatasetVersion digest owners tables ref) "dataset_derivation_invalid" =
            .ok () := by
        obtain ⟨_, version, stored, rfl⟩ := stored ref member
        exact requireFact_eq_ok_iff.mpr ⟨version, kept.queryDatasetVersion uphold stored⟩
      simp only [genuine, shape, check_then_eq_ok_iff, require_eq_ok_iff]
      exact ⟨trivial, by simpa using apart, version (by simp), version (by simp), scope⟩
    | register | registerVersion | reference => simp [shape, Payload.operation] at named

/-! ### What a call does -/

/-- What a prepared payload is known to satisfy. -/
def Prepared : Payload → Prop
  | .register .. => True
  | .registerVersion datasetRef _ _ bindings _ _ =>
    datasetText datasetRef "ref" false = .ok () ∧
      ∀ binding ∈ bindings, datasetAssetBinding binding = .ok ()
  | .reference versionRef .. => datasetText versionRef "ref" false = .ok ()
  | .derive source derived .. =>
    datasetText source "ref" false = .ok () ∧ datasetText derived "ref" false = .ok ()

theorem prepared_of_prepare {first second : Sight} {call : Call} {payload : Payload}
    (prepares : call.prepare digest first second = .ok payload) : Prepared payload := by
  cases call with
  | registerDataset semanticKey name meaning metadata notes =>
    simp only [Call.prepare, check_then_eq_ok_iff] at prepares
    obtain ⟨_, _, _, rest⟩ := prepares
    obtain ⟨_, _, rest⟩ := bind_eq_ok_iff.mp rest
    obtain rfl := Except.ok.inj (check_then_eq_ok_iff.mp rest).2
    exact True.intro
  | registerDatasetVersion datasetRef label meaning bindings metadata notes =>
    simp only [Call.prepare, check_then_eq_ok_iff] at prepares
    obtain ⟨text, _, _, valid, _, _, _, rest⟩ := prepares
    obtain ⟨_, _, rest⟩ := bind_eq_ok_iff.mp rest
    obtain rfl := Except.ok.inj (check_then_eq_ok_iff.mp (check_then_eq_ok_iff.mp rest).2).2
    exact ⟨text, fun binding member => checkAll_eq_ok_iff.mp valid binding
      ((sortByKey_perm _ _).mem_iff.mp member)⟩
  | referenceDataset versionRef questionRef purpose researchRef notes =>
    simp only [Call.prepare, check_then_eq_ok_iff] at prepares
    obtain ⟨text, _, _, _, _, done⟩ := prepares
    obtain rfl := Except.ok.inj done
    exact datasetText_ref.mp text
  | deriveDataset source derived questionRef processing researchRef notes =>
    simp only [Call.prepare, check_then_eq_ok_iff] at prepares
    obtain ⟨first, _, second, _, _, _, _, done⟩ := prepares
    obtain rfl := Except.ok.inj done
    exact ⟨datasetText_ref.mp first, datasetText_ref.mp second⟩

variable {here : Surroundings} {payload : Payload} {row : FactRow} {after : Tables} {key : String}

theorem findOrInsert_cases (found : findOrInsert digest here payload tables = .ok (row, after)) :
    row ∈ tables.facts payload.operation ∧ meetsUnique digest payload row = true ∧
        row.payloadHash = canonicalHash digest payload.json ∧ after = tables ∨
      (∀ other ∈ tables.facts payload.operation, meetsUnique digest payload other = false) ∧
        verifyNew here.owners tables payload = .ok () ∧ row = newFact digest here payload ∧
        insertable here.owners tables row = true ∧ after = tables.insertFact row := by
  unfold findOrInsert at found
  split at found
  · rename_i other met
    simp only [check_then_eq_ok_iff, require_eq_ok_iff, decide_eq_true_eq] at found
    obtain ⟨_, hash, done⟩ := found
    obtain ⟨rfl, rfl⟩ := Prod.mk.inj (Except.ok.inj done)
    exact .inl ⟨List.mem_of_find?_eq_some met, List.find?_some met, hash, rfl⟩
  · rename_i unmet
    simp only [check_then_eq_ok_iff, require_eq_ok_iff] at found
    obtain ⟨verified, fits, done⟩ := found
    obtain ⟨rfl, rfl⟩ := Prod.mk.inj (Except.ok.inj done)
    exact .inr ⟨by simpa using List.find?_eq_none.mp unmet, verified, rfl, fits, rfl⟩

/-- The command that binds a key to a fact. -/
def commandOf (digest : String → String) (here : Surroundings) (payload : Payload) (key : String)
    (row : FactRow) : Command :=
  ⟨key, payload.operation, canonicalHash digest payload.json, row.ref, here.recordedAt⟩

theorem acceptDatasetFact_cases
    (accepted : acceptDatasetFact digest here payload key tables = .ok (row, after)) :
    datasetEffectKey key = .ok () ∧
      ((∃ command, tables.findCommand key = some command ∧ command.operation = payload.operation ∧
          command.requestHash = canonicalHash digest payload.json ∧
          tables.findFact payload.operation command.resultRef = some row ∧ after = tables) ∨
        tables.findCommand key = none ∧ ∃ grown, findOrInsert digest here payload tables = .ok (row, grown) ∧
          after = { grown with commands := commandOf digest here payload key row :: grown.commands }) := by
  unfold acceptDatasetFact at accepted
  simp only [check_then_eq_ok_iff] at accepted
  obtain ⟨valid, _, _, accepted⟩ := accepted
  refine ⟨valid, ?_⟩
  split at accepted
  · rename_i command bound
    simp only [check_then_eq_ok_iff, require_eq_ok_iff, Bool.and_eq_true, decide_eq_true_eq] at accepted
    obtain ⟨⟨operation, hash⟩, accepted⟩ := accepted
    split at accepted
    · cases accepted
    · rename_i other found
      simp only [check_then_eq_ok_iff, require_eq_ok_iff] at accepted
      obtain ⟨_, _, done⟩ := accepted
      obtain ⟨rfl, rfl⟩ := Prod.mk.inj (Except.ok.inj done)
      exact .inl ⟨command, bound, operation, hash, found, rfl⟩
  · rename_i free
    obtain ⟨⟨other, grown⟩, found, done⟩ := bind_eq_ok_iff.mp accepted
    obtain ⟨rfl, rfl⟩ := Prod.mk.inj (Except.ok.inj done)
    exact .inr ⟨free, grown, found, rfl⟩

/-! ### Calls keep the tables -/

/-- Rows of the same operation with the same natural key meet each other's unique columns. -/
theorem meetsUnique_of_naturalKey (genuine : row.genuine digest = true)
    (operation : row.payload.operation = payload.operation)
    (same : naturalKey digest row.payload = naturalKey digest payload) :
    meetsUnique digest payload row = true := by
  simp only [FactRow.genuine, Bool.and_eq_true, decide_eq_true_eq] at genuine
  cases shape : payload <;> cases stored : row.payload <;>
    simp only [shape, stored, Payload.operation, reduceCtorEq] at operation <;>
    simp only [shape, stored, naturalKey, List.cons.injEq, and_true] at same
  · simp [meetsUnique, stored, same]
  · simp [meetsUnique, stored, same]
  · simp [meetsUnique, stored, genuine.1, same]
  · simp [meetsUnique, stored, genuine.1, same]

theorem genuine_newFact : (newFact digest here payload).genuine digest = true := by
  simp [FactRow.genuine, newFact]

theorem lineage_insertFact (row : FactRow) :
    (tables.insertFact row).lineage =
      (Tables.derivationEdge row).toList ++ tables.lineage := by
  unfold Tables.lineage Tables.insertFact Tables.derivationEdge
  cases shape : row.payload <;> simp [shape]

theorem Linked.insertFact {old : FactRow} (linked : Linked tables old)
    (apart : old.payload.operation = row.payload.operation → old.ref ≠ row.ref) :
    Linked (tables.insertFact row) old := by
  have grown := grown_insertFact tables row
  have kept (operation : Operation) {ref : String}
      (stored : ∃ fact ∈ tables.facts operation, fact.ref = ref) :
      ∃ fact ∈ (tables.insertFact row).facts operation, fact.ref = ref := by
    obtain ⟨fact, member, same⟩ := stored
    exact ⟨fact, grown.mem member, same⟩
  unfold Linked at *
  cases shape : old.payload with
  | register => exact True.intro
  | registerVersion datasetRef label meaning bindings metadata notes =>
    simp only [shape] at linked apart ⊢
    obtain ⟨⟨text, stored⟩, valid, assets⟩ := linked
    refine ⟨⟨text, kept .register stored⟩, valid, ?_⟩
    rw [← assets]
    unfold Tables.assetsOf Tables.insertFact
    cases new : row.payload with
    | registerVersion _ _ _ added _ _ =>
      have apart := apart (by rw [new]; rfl)
      have none_added : (added.map fun binding => (row.ref, binding.versionRef)).filter
          (fun link => link.1 = old.ref) = [] := by
        simpa [List.filter_eq_nil_iff] using fun _ _ => apart.symm
      simp only [List.filter_append, none_added, List.nil_append]
    | register | reference | derive => rfl
  | reference versionRef =>
    simp only [shape] at linked ⊢
    exact ⟨linked.1, kept .registerVersion linked.2⟩
  | derive source derived =>
    simp only [shape] at linked ⊢
    exact ⟨linked.1, fun ref member =>
      ⟨(linked.2 ref member).1, kept .registerVersion (linked.2 ref member).2⟩⟩

theorem exists_of_findFact {operation : Operation} {ref : String}
    (found : (tables.findFact operation ref).isSome = true) :
    ∃ fact ∈ tables.facts operation, fact.ref = ref := by
  obtain ⟨fact, found⟩ := Option.isSome_iff_exists.mp found
  exact ⟨fact, List.mem_of_find?_eq_some found, by simpa using List.find?_some found⟩

/-- A new fact names facts that are there. -/
theorem linked_newFact (prepared : Prepared payload)
    (fits : insertable owners tables (newFact digest here payload) = true) :
    Linked (tables.insertFact (newFact digest here payload)) (newFact digest here payload) := by
  have grown := grown_insertFact tables (newFact digest here payload)
  have kept {operation : Operation} {ref : String}
      (found : (tables.findFact operation ref).isSome = true) :
      ∃ fact ∈ (tables.insertFact (newFact digest here payload)).facts operation, fact.ref = ref := by
    obtain ⟨fact, member, same⟩ := exists_of_findFact found
    exact ⟨fact, grown.mem member, same⟩
  cases payload with
  | register => exact True.intro
  | registerVersion datasetRef label meaning bindings metadata notes =>
    simp only [insertable, newFact, Bool.and_eq_true] at fits
    obtain ⟨_, ⟨⟨dataset, _⟩, _⟩, unlinked⟩ := fits
    refine ⟨⟨prepared.1, kept dataset⟩, prepared.2, ?_⟩
    change (((bindings.map fun binding => (newRef "dataset_version" here.factUuid, binding.versionRef)) ++
      tables.versionAssets).filter fun link => link.1 = newRef "dataset_version" here.factUuid).map
        Prod.snd = _
    have others : tables.versionAssets.filter
        (fun link => link.1 = newRef "dataset_version" here.factUuid) = [] := by
      rw [List.filter_eq_nil_iff]
      intro link member
      exact fun equal =>
        of_decide_eq_true (List.all_eq_true.mp unlinked link member) (of_decide_eq_true equal)
    rw [List.filter_append, others, List.append_nil, List.filter_eq_self.mpr (by simp), List.map_map]
    rfl
  | reference versionRef questionRef researchRef purpose notes =>
    simp only [insertable, newFact, Bool.and_eq_true] at fits
    exact ⟨prepared, kept fits.2⟩
  | derive source derived questionRef researchRef processing notes =>
    simp only [insertable, newFact, Bool.and_eq_true, decide_eq_true_eq] at fits
    obtain ⟨_, ⟨first, second⟩, apart⟩ := fits
    refine ⟨apart, fun ref member => ?_⟩
    rcases List.mem_cons.mp member with rfl | member
    · exact ⟨prepared.1, kept first⟩
    · obtain rfl := List.mem_singleton.mp member
      exact ⟨prepared.2, kept second⟩

/-- A verified derivation does not lead back to its source. -/
theorem acyclic_insertFact (acyclic : Acyclic tables.lineage)
    (verified : verifyNew owners tables payload = .ok ())
    (fits : insertable owners tables (newFact digest here payload) = true) :
    Acyclic (tables.insertFact (newFact digest here payload)).lineage := by
  rw [lineage_insertFact]
  cases payload with
  | derive source derived questionRef researchRef processing notes =>
    simp only [insertable, newFact, Bool.and_eq_true, decide_eq_true_eq] at fits
    simp only [verifyNew, require_eq_ok_iff, Bool.not_eq_true', ← Bool.not_eq_true,
      List.contains_iff_mem, mem_descendants_iff] at verified
    exact acyclic.cons fits.2.2 verified
  | register | registerVersion | reference => exact acyclic

theorem Kept.insertFact (kept : Kept digest tables) (prepared : Prepared payload)
    (unmet : ∀ other ∈ tables.facts payload.operation, meetsUnique digest payload other = false)
    (verified : verifyNew here.owners tables payload = .ok ())
    (fits : insertable here.owners tables (newFact digest here payload) = true) :
    Kept digest (tables.insertFact (newFact digest here payload)) := by
  set row := newFact digest here payload with new
  have operation : row.payload.operation = payload.operation := rfl
  have fresh : ∀ other ∈ tables.facts payload.operation, other.ref ≠ row.ref := by
    intro other member
    simp only [insertable, Bool.and_eq_true] at fits
    have apart := List.all_eq_true.mp fits.1 other member
    simp only [ne_eq, Bool.and_eq_true, decide_eq_true_eq] at apart
    exact apart.1
  refine ⟨?_, ?_, ?_, ?_, acyclic_insertFact kept.acyclic verified fits, ?_, ?_⟩
  · intro other fact member
    rw [facts_insertFact] at member
    split_ifs at member with same
    · rcases List.mem_cons.mp member with rfl | old
      · exact ⟨same, genuine_newFact, datasetText_newRef payload.operation here.factUuid⟩
      · exact kept.genuine other fact old
    · exact kept.genuine other fact member
  · intro other
    rw [facts_insertFact]
    split_ifs with same
    · refine List.nodup_cons.mpr ⟨fun member => ?_, kept.refs other⟩
      obtain ⟨old, stored, equal⟩ := List.mem_map.mp member
      exact fresh old (by rwa [← operation, same]) equal
    · exact kept.refs other
  · intro other
    rw [facts_insertFact]
    split_ifs with same
    · refine List.nodup_cons.mpr ⟨fun member => ?_, kept.natural other⟩
      obtain ⟨old, stored, equal⟩ := List.mem_map.mp member
      obtain ⟨named, genuine, _⟩ := kept.genuine other old stored
      have met : meetsUnique digest payload old = true :=
        meetsUnique_of_naturalKey genuine (named.trans same.symm) equal
      rw [unmet old (by rwa [← operation, same])] at met
      cases met
    · exact kept.natural other
  · intro other fact member
    rw [facts_insertFact] at member
    have old {fact : FactRow} (stored : fact ∈ tables.facts other) :
        Linked (tables.insertFact row) fact := by
      have named := (kept.genuine other fact stored).1
      exact (kept.linked other fact stored).insertFact fun same =>
        fresh fact (by rwa [← operation, ← same, named])
    split_ifs at member
    · rcases List.mem_cons.mp member with rfl | stored
      · exact linked_newFact prepared fits
      · exact old stored
    · exact old member
  · rw [commands_insertFact]
    exact kept.keys
  · intro command member
    rw [commands_insertFact] at member
    obtain ⟨valid, fact, stored, same⟩ := kept.commands command member
    exact ⟨valid, fact, (grown_insertFact tables row).mem stored, same⟩

/-- The key is bound to the fact, which is there. -/
def Bound (key : String) (fact : FactRow) (tables : Tables) : Prop :=
  ∃ command, tables.findCommand key = some command ∧ command.operation = fact.payload.operation ∧
    command.requestHash = fact.payloadHash ∧ command.resultRef = fact.ref ∧
      fact ∈ tables.facts fact.payload.operation

/-- An accepted call keeps the tables, only adds rows, and its fact is there. -/
theorem Kept.accept (kept : Kept digest tables) (prepared : Prepared payload)
    (accepted : acceptDatasetFact digest here payload key tables = .ok (row, after)) :
    Kept digest after ∧ Grown tables after := by
  obtain ⟨valid, ⟨_, _, _, _, _, rfl⟩ | ⟨free, grown, found, rfl⟩⟩ := acceptDatasetFact_cases accepted
  · exact ⟨kept, Grown.refl _⟩
  have inserted : Kept digest grown ∧ Grown tables grown ∧ grown.commands = tables.commands ∧
      row ∈ grown.facts payload.operation ∧ row.payloadHash = canonicalHash digest payload.json := by
    rcases findOrInsert_cases found with ⟨member, _, hash, rfl⟩ | ⟨unmet, verified, rfl, fits, rfl⟩
    · exact ⟨kept, Grown.refl _, rfl, member, hash⟩
    · refine ⟨kept.insertFact prepared unmet verified fits, grown_insertFact _ _,
        commands_insertFact _ _, mem_insertFact (newFact digest here payload), rfl⟩
  obtain ⟨keptGrown, grows, same, member, hash⟩ := inserted
  refine ⟨⟨keptGrown.genuine, keptGrown.refs, keptGrown.natural, keptGrown.linked, keptGrown.acyclic,
    ?_, ?_⟩, ⟨grows.facts, grows.commands.trans (List.suffix_cons _ _)⟩⟩
  · refine List.nodup_cons.mpr ⟨fun bound => ?_, keptGrown.keys⟩
    obtain ⟨command, stored, equal⟩ := List.mem_map.mp bound
    have missing := List.find?_eq_none.mp free command (same ▸ stored)
    exact missing (decide_eq_true equal)
  · intro command stored
    rcases List.mem_cons.mp stored with rfl | old
    · exact ⟨valid, row, member, rfl, hash⟩
    · exact keptGrown.commands command old

/-- Accepting under a free key binds it. -/
theorem bound_of_accept (kept : Kept digest tables) (free : tables.findCommand key = none)
    (accepted : acceptDatasetFact digest here payload key tables = .ok (row, after)) :
    Bound key row after ∧ row.payload.operation = payload.operation ∧
      row.payloadHash = canonicalHash digest payload.json ∧ meetsUnique digest payload row = true := by
  obtain ⟨_, ⟨_, bound, _⟩ | ⟨_, grown, found, rfl⟩⟩ := acceptDatasetFact_cases accepted
  · rw [free] at bound
    cases bound
  have named : row.payload.operation = payload.operation ∧
      row.payloadHash = canonicalHash digest payload.json ∧ row ∈ grown.facts payload.operation ∧
        meetsUnique digest payload row = true := by
    rcases findOrInsert_cases found with ⟨member, met, hash, rfl⟩ | ⟨_, _, rfl, _, rfl⟩
    · exact ⟨(kept.genuine _ row member).1, hash, member, met⟩
    · exact ⟨rfl, rfl, mem_insertFact (newFact digest here payload),
        meetsUnique_of_naturalKey genuine_newFact rfl rfl⟩
  obtain ⟨operation, hash, member, met⟩ := named
  refine ⟨⟨commandOf digest here payload key row, ?_, operation.symm, hash.symm, rfl, ?_⟩, operation,
    hash, met⟩
  · exact List.find?_cons_of_pos (decide_eq_true rfl)
  · rw [operation]
    exact member

theorem Bound.grown {old new : Tables} (bound : Bound key row old) (kept : Kept digest new)
    (grown : Grown old new) : Bound key row new := by
  obtain ⟨command, found, operation, hash, ref, member⟩ := bound
  refine ⟨command, ?_, operation, hash, ref, grown.mem member⟩
  have named : command.idempotencyKey = key := by simpa using List.find?_some found
  exact named ▸ kept.findCommand (grown.commands.subset (List.mem_of_find?_eq_some found))

/-- Under a bound key only the bound fact is accepted, and nothing is written. -/
theorem Bound.accept {fact : FactRow} (bound : Bound key fact tables) (kept : Kept digest tables)
    (accepted : acceptDatasetFact digest here payload key tables = .ok (row, after)) :
    row = fact ∧ after = tables ∧ payload.operation = fact.payload.operation ∧
      canonicalHash digest payload.json = fact.payloadHash := by
  obtain ⟨command, found, operation, hash, ref, member⟩ := bound
  obtain ⟨_, ⟨other, again, sameOperation, sameHash, stored, rfl⟩ | ⟨free, _⟩⟩ :=
    acceptDatasetFact_cases accepted
  · rw [found] at again
    obtain rfl := Option.some.inj again
    rw [← sameOperation, operation, ref, kept.findFact member] at stored
    exact ⟨(Option.some.inj stored).symm, rfl, sameOperation.symm.trans operation,
      sameHash.symm.trans hash⟩
  · rw [found] at free
    cases free

/-- A replay that is admitted returns the bound fact. -/
theorem Bound.replay {fact : FactRow} (bound : Bound key fact tables) (kept : Kept digest tables)
    (uphold : here.owners.Uphold tables) (admitted : here.effectScope = .ok ())
    (scope : verifyScope here.owners payload = .ok ())
    (operation : payload.operation = fact.payload.operation)
    (hash : canonicalHash digest payload.json = fact.payloadHash) :
    acceptDatasetFact digest here payload key tables = .ok (fact, tables) := by
  obtain ⟨command, found, sameOperation, sameHash, ref, member⟩ := bound
  have named : command.idempotencyKey = key := by simpa using List.find?_some found
  obtain ⟨valid, _⟩ := kept.commands command (List.mem_of_find?_eq_some found)
  rw [named] at valid
  have stored := kept.findFact member
  simp only [acceptDatasetFact, valid, admitted, scope, found, sameOperation, sameHash, operation, hash,
    ref, stored, kept.record uphold member]
  simp [bind, Except.bind, require, pure, Except.pure]

theorem Bound.reconcile {fact : FactRow} (bound : Bound key fact tables) (kept : Kept digest tables)
    (uphold : owners.Uphold tables) :
    reconcileDatasetOperation digest owners tables fact.payload.operation key = .ok (some fact) := by
  obtain ⟨command, found, operation, hash, ref, member⟩ := bound
  have named : command.idempotencyKey = key := by simpa using List.find?_some found
  obtain ⟨valid, _⟩ := kept.commands command (List.mem_of_find?_eq_some found)
  rw [named] at valid
  simp only [reconcileDatasetOperation, valid, found, operation, hash, ref,
    queryFact_eq_some kept member (kept.record uphold member)]
  simp [bind, Except.bind, require, pure, Except.pure]

/-! ### Preparing a call again -/

theorem exists_of_queryFact {check : FactRow → Except String Unit} {operation : Operation}
    {ref code : String} (found : requireFact (queryFact check tables operation ref) code = .ok ()) :
    datasetText ref "ref" false = .ok () ∧ ∃ fact ∈ tables.facts operation, fact.ref = ref := by
  obtain ⟨fact, found⟩ := requireFact_eq_ok_iff.mp found
  unfold queryFact at found
  obtain ⟨text, found⟩ := check_then_eq_ok_iff.mp found
  refine ⟨text, ?_⟩
  split at found
  · cases found
  · rename_i other stored
    exact ⟨other, List.mem_of_find?_eq_some stored, by simpa using List.find?_some stored⟩

/-- A version that a snapshot shows is shown by every later one. -/
theorem requireVersion_again {old new : Sight} {ref : String} (grown : Grown old.tables new.tables)
    (kept : Kept digest new.tables) (uphold : new.owners.Uphold new.tables)
    (required : old.requireVersion digest ref = .ok ()) : new.requireVersion digest ref = .ok () := by
  obtain ⟨_, version, stored, rfl⟩ := exists_of_queryFact required
  have member : version ∈ new.tables.facts .registerVersion := grown.mem stored
  exact requireFact_eq_ok_iff.mpr ⟨version, kept.queryDatasetVersion uphold member⟩

theorem prepare_again {first second first' second' : Sight} {call : Call}
    (prepares : call.prepare digest first second = .ok payload)
    (grownFirst : Grown first.tables first'.tables) (grownSecond : Grown second.tables second'.tables)
    (keptFirst : Kept digest first'.tables) (keptSecond : Kept digest second'.tables)
    (upholdFirst : first'.owners.Uphold first'.tables)
    (upholdSecond : second'.owners.Uphold second'.tables)
    (present : ∀ datasetRef label meaning bindings metadata notes,
      payload = .registerVersion datasetRef label meaning bindings metadata notes →
        second'.tables.hasVersion datasetRef label = true) :
    call.prepare digest first' second' = .ok payload := by
  cases call with
  | registerDataset => exact prepares
  | registerDatasetVersion datasetRef label meaning bindings metadata notes =>
    simp only [Call.prepare, check_then_eq_ok_iff] at prepares ⊢
    obtain ⟨text, dataset, bounds, valid, distinct, named, meant, rest⟩ := prepares
    obtain ⟨kept, read, rest⟩ := bind_eq_ok_iff.mp rest
    obtain ⟨noted, _, done⟩ := check_then_eq_ok_iff.mp rest |>.imp_right check_then_eq_ok_iff.mp
    obtain ⟨_, fact, stored, rfl⟩ := exists_of_queryFact dataset
    have there := @Grown.mem _ _ grownFirst .register fact stored
    refine ⟨text, requireFact_eq_ok_iff.mpr ⟨fact, keptFirst.queryDataset there⟩, bounds, valid,
      distinct, named, meant, bind_eq_ok_iff.mpr ⟨kept, read, check_then_eq_ok_iff.mpr
        ⟨noted, check_then_eq_ok_iff.mpr ⟨?_, done⟩⟩⟩⟩
    rw [require_eq_ok_iff, present _ _ _ _ _ _ (Except.ok.inj done).symm, Bool.true_or]
  | referenceDataset versionRef questionRef purpose researchRef notes =>
    simp only [Call.prepare, check_then_eq_ok_iff] at prepares ⊢
    exact prepares.imp_right (And.imp_right (And.imp_left
      (requireVersion_again grownFirst keptFirst upholdFirst)))
  | deriveDataset source derived questionRef processing researchRef notes =>
    simp only [Call.prepare, check_then_eq_ok_iff] at prepares ⊢
    obtain ⟨sourceText, sourceKnown, derivedText, derivedKnown, rest⟩ := prepares
    exact ⟨sourceText, requireVersion_again grownFirst keptFirst upholdFirst sourceKnown, derivedText,
      requireVersion_again grownSecond keptSecond upholdSecond derivedKnown, rest⟩

/-! ### Runs -/

/-- Every moment that a read can still see is kept, and has only grown since. -/
structure System.Kept (digest : String → String) (system : System) : Prop where
  tables : Datasets.Kept digest system.tables
  past : ∀ old ∈ system.past, Datasets.Kept digest old ∧ Grown old system.tables

variable {system : System} {request : Request}

theorem System.Kept.seen (kept : system.Kept digest) (age : ℕ) :
    Datasets.Kept digest (system.seen age) ∧ Grown (system.seen age) system.tables := by
  unfold System.seen
  rw [List.getD_eq_getElem?_getD]
  cases found : (system.tables :: system.past)[age]? with
  | none => exact ⟨kept.tables, Grown.refl _⟩
  | some old =>
    rcases List.mem_cons.mp (List.mem_of_getElem? found) with rfl | past
    · exact ⟨kept.tables, Grown.refl _⟩
    · exact kept.past old past

theorem run_eq_ok_iff :
    request.run digest here system = .ok (row, after) ↔
      ∃ payload, request.call.prepare digest ⟨system.seen here.firstAge, here.firstOwners⟩
          ⟨system.seen here.secondAge, here.secondOwners⟩ = .ok payload ∧
        acceptDatasetFact digest here payload request.idempotencyKey system.tables = .ok (row, after) :=
  bind_eq_ok_iff

/-- What one call does to the tables. -/
theorem System.Kept.step_tables (kept : system.Kept digest) (request : Request) (here : Surroundings) :
    Datasets.Kept digest (system.step digest (request, here)).tables ∧
      Grown system.tables (system.step digest (request, here)).tables := by
  unfold System.step
  dsimp only
  split
  · rename_i ran
    obtain ⟨payload, prepares, accepted⟩ := run_eq_ok_iff.mp ran
    exact kept.tables.accept (prepared_of_prepare prepares) accepted
  · exact ⟨kept.tables, Grown.refl _⟩

theorem System.Kept.step (kept : system.Kept digest) (input : Request × Surroundings) :
    (system.step digest input).Kept digest := by
  obtain ⟨keptAfter, grown⟩ := kept.step_tables input.1 input.2
  refine ⟨keptAfter, fun old member => ?_⟩
  rcases List.mem_cons.mp member with rfl | past
  · exact ⟨kept.tables, grown⟩
  · exact ⟨(kept.past old past).1, (kept.past old past).2.trans grown⟩

theorem kept_run (start : System) (kept : start.Kept digest) (inputs : List (Request × Surroundings)) :
    (runInputs (System.step digest) start inputs).Kept digest :=
  (Admissible.trivial inputs).invariant kept fun _ input kept _ => kept.step input

theorem kept_initial : System.Kept digest {} := ⟨kept_empty, fun _ member => absurd member List.not_mem_nil⟩

/-- The last so many snapshots have grown from the given tables. -/
def Since (base : Tables) (calls : ℕ) (system : System) : Prop :=
  ∀ age ≤ calls, Grown base (system.seen age)

theorem since_run {base : Tables} {start : System} (kept : start.Kept digest) {calls : ℕ}
    (since : Since base calls start) (inputs : List (Request × Surroundings)) :
    Since base (calls + inputs.length) (runInputs (System.step digest) start inputs) := by
  induction inputs generalizing start calls with
  | nil => exact since
  | cons input rest ih =>
    have next : Since base (calls + 1) (start.step digest input) := by
      intro age recent
      cases age with
      | zero => exact (since 0 (Nat.zero_le _)).trans (kept.step_tables input.1 input.2).2
      | succ age =>
        have older := since age (by omega)
        unfold System.seen at older ⊢
        simp only [System.step, List.getD_cons_succ]
        rw [List.getD_eq_getElem?_getD] at older ⊢
        cases found : (start.tables :: start.past)[age]? with
        | some old => simpa [found] using older
        | none =>
          rw [found] at older
          exact older.trans (kept.step_tables input.1 input.2).2
    have run := ih (kept.step input) next
    rwa [List.length_cons, Nat.add_comm rest.length, ← Nat.add_assoc]

/-- The natural keys and the idempotency keys are unique, and no dataset version derives from
itself. -/
structure Lawful (digest : String → String) (tables : Tables) : Prop where
  acyclic : Acyclic tables.lineage
  natural : ∀ operation,
    ((tables.facts operation).map fun row => naturalKey digest row.payload).Nodup
  keys : (tables.commands.map Command.idempotencyKey).Nodup

/-- A replay is admitted: its effect scope and its lineage check pass, its reads outside the writer
are no older than the given number of calls, and the other Owners uphold the facts. -/
structure Admitted (digest : String → String) (system : System) (calls : ℕ) (request : Request)
    (here : Surroundings) : Prop where
  effect : here.effectScope = .ok ()
  recent : here.firstAge ≤ calls ∧ here.secondAge ≤ calls
  first : here.firstOwners.Uphold (system.seen here.firstAge)
  second : here.secondOwners.Uphold (system.seen here.secondAge)
  owners : here.owners.Uphold system.tables
  scope : ∀ payload, request.call.prepare digest ⟨system.seen here.firstAge, here.firstOwners⟩
    ⟨system.seen here.secondAge, here.secondOwners⟩ = .ok payload →
      verifyScope here.owners payload = .ok ()

/-- The fact that a request was accepted with, for good. -/
structure AcceptedFor (digest : String → String) (system : System) (calls : ℕ) (request : Request)
    (fact : FactRow) : Prop where
  /-- The key keeps its operation and its payload, and the fact stays. -/
  bound : Bound request.idempotencyKey fact system.tables
  /-- No call under the key writes. -/
  inert : ∀ (other : Request) here, other.idempotencyKey = request.idempotencyKey →
    (system.step digest (other, here)).tables = system.tables
  /-- A call under the key with another operation or another payload raises. -/
  exclusive : ∀ (other : Request) here row after, other.idempotencyKey = request.idempotencyKey →
    other.run digest here system = .ok (row, after) →
      row = fact ∧ ∃ payload, other.call.prepare digest
          ⟨system.seen here.firstAge, here.firstOwners⟩
          ⟨system.seen here.secondAge, here.secondOwners⟩ = .ok payload ∧
        payload.operation = fact.payload.operation ∧
          canonicalHash digest payload.json = fact.payloadHash
  replay : ∀ here, Admitted digest system calls request here →
    request.run digest here system = .ok (fact, system.tables)
  reconcile : ∀ owners, Owners.Uphold owners system.tables →
    reconcileDatasetOperation digest owners system.tables fact.payload.operation
      request.idempotencyKey = .ok (some fact)

theorem acceptedFor_of_run {start : System} (kept : start.Kept digest) {fact : FactRow}
    (free : start.tables.findCommand request.idempotencyKey = none)
    (accepted : request.run digest here start = .ok (fact, after))
    (later : List (Request × Surroundings)) :
    AcceptedFor digest (runInputs (System.step digest) (start.step digest (request, here)) later)
      later.length request fact := by
  obtain ⟨payload, prepares, accept⟩ := run_eq_ok_iff.mp accepted
  have stepped : (start.step digest (request, here)).tables = after := by
    simp only [System.step, accepted]
  have keptNext := kept.step (request, here)
  have recent : Since after 0 (start.step digest (request, here)) := by
    intro age none_later
    obtain rfl := Nat.le_zero.mp none_later
    rw [← stepped]
    exact Grown.refl _
  have keptLast := kept_run _ keptNext later
  have since := since_run keptNext recent later
  rw [Nat.zero_add] at since
  set last := runInputs (System.step digest) (start.step digest (request, here)) later
  obtain ⟨boundNow, operation, hash, met⟩ := bound_of_accept kept.tables free accept
  have bound : Bound request.idempotencyKey fact last.tables :=
    boundNow.grown keptLast.tables (since 0 (Nat.zero_le _))
  have prior := (kept.tables.accept (prepared_of_prepare prepares) accept).2
  refine ⟨bound, fun other here' same => ?_, fun other here' row after' same ran => ?_,
    fun here' admitted => ?_, fun owners uphold => bound.reconcile keptLast.tables uphold⟩
  · simp only [System.step]
    split
    · rename_i ran
      obtain ⟨_, _, again⟩ := run_eq_ok_iff.mp ran
      exact ((same ▸ bound).accept keptLast.tables again).2.1
    · rfl
  · obtain ⟨payload', prepares', again⟩ := run_eq_ok_iff.mp ran
    obtain ⟨rfl, _, sameOperation, hash⟩ := (same ▸ bound).accept keptLast.tables again
    exact ⟨rfl, payload', prepares', sameOperation, hash⟩
  · have age {old : ℕ} (new : ℕ) (recent : new ≤ later.length) :
        Grown (start.seen old) (last.seen new) :=
      ((kept.seen old).2.trans prior).trans (since new recent)
    have again : request.call.prepare digest ⟨last.seen here'.firstAge, here'.firstOwners⟩
        ⟨last.seen here'.secondAge, here'.secondOwners⟩ = .ok payload := by
      refine prepare_again prepares (age _ admitted.recent.1) (age _ admitted.recent.2)
        (keptLast.seen _).1 (keptLast.seen _).1 admitted.first admitted.second ?_
      rintro datasetRef label meaning bindings metadata notes rfl
      obtain ⟨_, _, _, _, _, member⟩ := boundNow
      rw [operation] at member
      have there := (since _ admitted.recent.2).mem member
      refine List.any_eq_true.mpr ⟨fact, there, ?_⟩
      cases shape : fact.payload <;> simp only [meetsUnique, shape, reduceCtorEq] at met
      simp only [Bool.and_eq_true, decide_eq_true_eq] at met ⊢
      exact ⟨met.1.symm, met.2.symm⟩
    exact run_eq_ok_iff.mpr ⟨payload, again, bound.replay keptLast.tables admitted.owners
      admitted.effect (admitted.scope payload again) operation.symm hash.symm⟩

/-- In every run the laws hold, and each fact that was accepted under a free key stays accepted for
its request. -/
theorem dataset_laws (digest : String → String) (inputs : List (Request × Surroundings)) :
    Lawful digest (runInputs (System.step digest) {} inputs).tables ∧
      ∀ before later request here fact after, inputs = before ++ (request, here) :: later →
        (runInputs (System.step digest) {} before).tables.findCommand request.idempotencyKey = none →
        request.run digest here (runInputs (System.step digest) {} before) = .ok (fact, after) →
          AcceptedFor digest (runInputs (System.step digest) {} inputs) later.length request fact := by
  have kept := (@kept_run digest {} kept_initial inputs).tables
  refine ⟨⟨kept.acyclic, kept.natural, kept.keys⟩, ?_⟩
  rintro before later request here fact after rfl free accepted
  rw [runInputs_append]
  exact acceptedFor_of_run (kept_run {} kept_initial before) free accepted later

/-! ### A refused replay -/

/-- Owners that vouch for everything. -/
def willing : Owners where
  assetBinding _ := true
  assetReceipt _ := true
  assetUsable _ := true
  assetStored _ := true
  question _ := .ok (some "quest")
  researchQuests _ := ["quest"]

/-- Surroundings with the given answer of the effect scope. -/
def scopedBy (effectScope : Except String Unit) : Surroundings where
  effectScope := effectScope
  firstAge := 0
  firstOwners := willing
  secondAge := 0
  secondOwners := willing
  owners := willing
  factUuid := default
  receiptUuid := ⟨"11111111111111111111111111111111", by decide +kernel⟩
  acceptedAt := "1.5"
  recordedAt := "1.5"

def corpus : Request := ⟨.registerDataset "corpus" "Corpus" "Texts" none "", "key"⟩

/-- A dataset that is registered twice under one key stays accepted. -/
theorem dataset_laws_corpus :
    ∃ fact, AcceptedFor id
      (runInputs (System.step id) {} [(corpus, scopedBy (.ok ())), (corpus, scopedBy (.ok ()))]) 1
        corpus fact := by
  have returns : (corpus.run id (scopedBy (.ok ())) {}).isOk = true := by decide +kernel
  cases ran : corpus.run id (scopedBy (.ok ())) {} with
  | error error =>
    rw [ran] at returns
    cases returns
  | ok result =>
    exact ⟨result.1, (dataset_laws id _).2 [] [(corpus, scopedBy (.ok ()))] corpus
      (scopedBy (.ok ())) result.1 result.2 rfl rfl ran⟩

/-- An accepted call that is issued again is refused when its effect scope is retired. -/
theorem replay_refused :
    ¬ ∀ (digest : String → String) (request : Request) (here again : Surroundings),
      (request.run digest here {}).isOk = true →
        (request.run digest again (System.step digest {} (request, here))).isOk = true := by
  intro always
  have again := always (fun _ => "") corpus (scopedBy (.ok ())) (scopedBy (.error "scope_retired"))
    (by decide +kernel)
  revert again
  decide +kernel

end MetaResearch.Datasets

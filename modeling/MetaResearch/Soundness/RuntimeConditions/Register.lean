import MetaResearch.Model.RuntimeConditions.Store
import MetaResearch.ToMathlib.JsonDict
import Mathlib.Logic.Function.Basic

/-! # Runtime conditions as a register

What the tables are for: each scope holds a value, a read returns it and a save replaces the value that
its caller has seen. A request on the register happens at once. The tables are formed when every head
names a version, and every version is what its fields make and can be read; they then stand for a register.
-/

namespace MetaResearch.RuntimeConditions

variable {outside : Outside} {tables : Tables}

/-! ### The register -/

/-- The current value of every scope. -/
abbrev Register := String → Option Value

variable (outside) in
/-- A read at once. -/
def Register.read (initial : Initial) (register : Register) : Except Failure Value × Register :=
  match register initial.scope with
  | some value => (.ok (initial.withLibrary value), register)
  | none =>
    match legacyValue outside initial with
    | .ok (imported, _) =>
      (.ok (initial.withLibrary imported), Function.update register initial.scope (some imported))
    | .error failure => (.error failure, register)

variable (outside) in
/-- What a save would store. -/
def Register.made (initial : Initial) (request : SaveRequest) (register : Register) : Except Failure Value :=
  (register.read outside initial).1.bind fun current => savedValue outside request (editableConditions current)

variable (outside) in
/-- A save at once. -/
def Register.save (initial : Initial) (request : SaveRequest) (register : Register) :
    Except Failure Value × Register :=
  match checkText request with
  | .error failure => (.error failure, register)
  | .ok () =>
    match register.made outside initial request with
    | .error failure => (.error failure, (register.read outside initial).2)
    | .ok saved => (.ok (editableConditions saved),
        Function.update (register.read outside initial).2 initial.scope (some saved))

variable (outside) in
/-- A request at once. -/
def Request.apply (request : Request) (register : Register) : Except Failure Value × Register :=
  match request with
  | .read initial => ((register.read outside initial).1.map editableConditions, (register.read outside initial).2)
  | .save initial request => register.save outside initial request

/-- A request that has happened, with its answer. -/
structure Entry where
  request : Request
  answer : Except Failure Value

variable (outside) in
/-- The requests of a log happen one after the other, with the answers that it records. -/
inductive Replays (first : Register) : List Entry → Register → Prop
  | nil : Replays first [] first
  | snoc {log : List Entry} {before after : Register} {entry : Entry} (replays : Replays first log before)
      (happened : entry.request.apply outside before = (entry.answer, after)) :
      Replays first (log ++ [entry]) after

theorem Replays.single {before after : Register} {entry : Entry}
    (happened : entry.request.apply outside before = (entry.answer, after)) :
    Replays outside before [entry] after :=
  .snoc .nil happened

theorem Replays.append {first middle last : Register} {log log' : List Entry}
    (replays : Replays outside first log middle) (others : Replays outside middle log' last) :
    Replays outside first (log ++ log') last := by
  induction others with
  | nil => rwa [List.append_nil]
  | snoc _ happened ih =>
    rw [← List.append_assoc]
    exact .snoc ih happened

/-- A second read finds what the first one has left. -/
theorem Register.read_read (initial : Initial) (register : Register) :
    (register.read outside initial).2.read outside initial = register.read outside initial := by
  cases current : register initial.scope with
  | some value => simp only [Register.read, current]
  | none =>
    cases imports : legacyValue outside initial with
    | error failure => simp only [Register.read, current, imports]
    | ok result => simp only [Register.read, current, imports, Function.update_self]

theorem Register.save_of_made {initial : Initial} {request : SaveRequest} {register : Register} {saved : Value}
    (checked : checkText request = .ok ()) (made : register.made outside initial request = .ok saved) :
    register.save outside initial request = (.ok (editableConditions saved),
      Function.update (register.read outside initial).2 initial.scope (some saved)) := by
  rw [Register.save, checked, made]

theorem Register.save_of_not_made {initial : Initial} {request : SaveRequest} {register : Register}
    {failure : Failure} (checked : checkText request = .ok ())
    (failed : register.made outside initial request = .error failure) :
    register.save outside initial request = (.error failure, (register.read outside initial).2) := by
  rw [Register.save, checked, failed]

/-! ### Values -/

theorem length_strip_le (text : String) : (Text.strip text).length ≤ text.length := by
  rw [Text.strip_eq, String.length_ofList, ← String.length_toList]
  exact (List.rdropWhile_prefix _ _).length_le.trans (List.length_dropWhile_le _ _)

/-- A validated configuration is valid as it is. -/
theorem literatureConfiguration_again {value checked : Literature}
    (valid : literatureConfiguration outside value = .ok checked) :
    literatureConfiguration outside checked = .ok checked := by
  unfold literatureConfiguration at valid ⊢
  rw [check_then_eq_ok_iff, bind_eq_ok_iff] at valid
  obtain ⟨fits, url, checkedUrl, ⟨⟩⟩ := valid
  have again : validatedLibraryEntryUrl outside url = .ok url ∧ url.length ≤ value.libraryEntryUrl.length := by
    have shorter := length_strip_le value.libraryEntryUrl
    unfold validatedLibraryEntryUrl at checkedUrl ⊢
    dsimp only at checkedUrl ⊢
    split_ifs at checkedUrl with empty controls
    · cases checkedUrl
      rw [Text.strip_strip, if_pos empty]
      exact ⟨rfl, shorter⟩
    · cases fault : outside.urlFault (Text.strip value.libraryEntryUrl) with
      | some code =>
        rw [fault] at checkedUrl
        cases checkedUrl
      | none =>
        rw [fault] at checkedUrl
        cases checkedUrl
        rw [Text.strip_strip, if_neg empty, if_neg controls, fault]
        exact ⟨rfl, shorter⟩
  rw [require_eq_ok_iff, Bool.and_eq_true, decide_eq_true_eq] at fits
  rw [check_then_eq_ok_iff, require_eq_ok_iff, Bool.and_eq_true, decide_eq_true_eq, bind_eq_ok_iff]
  exact ⟨⟨again.2.trans fits.1, fits.2⟩, url, again.1, rfl⟩

theorem optionalLiterature_again {value checked : Option Literature}
    (valid : optionalLiterature outside value = .ok checked) :
    optionalLiterature outside checked = .ok checked := by
  cases value with
  | none =>
    cases valid
    rfl
  | some literature =>
    cases found : literatureConfiguration outside literature with
    | error failure =>
      simp only [optionalLiterature, found] at valid
      cases valid
    | ok literature =>
      simp only [optionalLiterature, found] at valid
      cases valid
      simp only [optionalLiterature, literatureConfiguration_again found]
      rfl

/-- The value is what its fields make. -/
def Value.Valid (outside : Outside) (value : Value) : Prop :=
  makeValue outside value.conditions = .ok value

theorem of_makeValue {conditions : Conditions} {value : Value} (made : makeValue outside conditions = .ok value) :
    value.Valid outside ∧ value.conditions.questRef = conditions.questRef ∧
      value.conditions.text = conditions.text ∧ value.conditions.researchStyle = conditions.researchStyle ∧
      value.conditions.stageModels = conditions.stageModels := by
  obtain ⟨literature, checked, ⟨⟩⟩ := bind_eq_ok_iff.mp made
  exact ⟨bind_eq_ok_iff.mpr ⟨literature, optionalLiterature_again checked, rfl⟩, rfl, rfl, rfl, rfl⟩

theorem Value.Valid.revision {value : Value} (valid : value.Valid outside) :
    value.revision = revisionOf outside value.conditions := by
  obtain ⟨_, _, same⟩ := bind_eq_ok_iff.mp valid
  have shown := Except.ok.inj same
  exact (congrArg Value.revision shown).symm.trans
    (congrArg (revisionOf outside) (congrArg Value.conditions shown))

/-! ### Revisions -/

theorem ResearchStyle.name_injective : Function.Injective ResearchStyle.name := by
  intro first second same
  cases first <;> cases second <;> first | rfl | simp [ResearchStyle.name] at same

theorem LiteratureMode.name_injective : Function.Injective LiteratureMode.name := by
  intro first second same
  cases first <;> cases second <;> first | rfl | simp [LiteratureMode.name] at same

theorem ModelRef.name_injective : Function.Injective ModelRef.name := by
  intro first second same
  cases first <;> cases second <;> first | rfl | simp [ModelRef.name] at same

/-- A field of one object is a field of any object that is the same. -/
theorem mem_of_same {fields others : List (String × Json)} (same : (Json.object fields).Same (.object others))
    (nodup : (fields.map Prod.fst).Nodup) {field : String × Json}
    (member : field ∈ Json.canonicalFields fields) : field ∈ Json.canonicalFields others :=
  ((Json.same_object_iff nodup).mp same).mem_iff.mp member

theorem Literature.eq_of_same {first second : Literature} (same : first.json.Same second.json) :
    first = second := by
  have kept {field : String × Json} := @mem_of_same _ _ same (by simp) field
  have mode : ("mode", Json.text first.mode.name) ∈ _ := kept (by simp [Json.canonicalFields, Json.canonical])
  have url : ("library_entry_url", Json.text first.libraryEntryUrl) ∈ _ :=
    kept (by simp [Json.canonicalFields, Json.canonical])
  have required : ("institution_required", Json.bool first.institutionRequired) ∈ _ :=
    kept (by simp [Json.canonicalFields, Json.canonical])
  simp only [Json.canonicalFields, Json.canonical, List.mem_cons, Prod.mk.injEq, Json.text.injEq,
    Json.bool.injEq, String.reduceEq, false_and, true_and, List.not_mem_nil, or_false, false_or,
    reduceCtorEq, and_false] at mode url required
  cases first
  cases second
  cases LiteratureMode.name_injective mode
  cases url
  cases required
  rfl

theorem StageModels.eq_of_same {first second : StageModels} (same : first.json.Same second.json) :
    first = second := by
  have kept {field : String × Json} := @mem_of_same _ _ same (by simp) field
  have idea : ("idea", Json.text first.idea.name) ∈ _ := kept (by simp [Json.canonicalFields, Json.canonical])
  have plan : ("plan", Json.text first.plan.name) ∈ _ := kept (by simp [Json.canonicalFields, Json.canonical])
  have bundle : ("bundle", Json.text first.bundle.name) ∈ _ :=
    kept (by simp [Json.canonicalFields, Json.canonical])
  have target : ("target", Json.text first.target.name) ∈ _ :=
    kept (by simp [Json.canonicalFields, Json.canonical])
  have reasoning : ("reasoning", Json.text first.reasoning.name) ∈ _ :=
    kept (by simp [Json.canonicalFields, Json.canonical])
  simp only [Json.canonicalFields, Json.canonical, List.mem_cons, Prod.mk.injEq, Json.text.injEq,
    String.reduceEq, false_and, true_and, List.not_mem_nil, or_false, false_or] at idea plan bundle target reasoning
  cases first
  cases second
  cases ModelRef.name_injective idea
  cases ModelRef.name_injective plan
  cases ModelRef.name_injective bundle
  cases ModelRef.name_injective target
  cases ModelRef.name_injective reasoning
  rfl

theorem Conditions.nodup_names (conditions : Conditions) :
    ((([("quest_ref", Json.text conditions.questRef), ("text", .text conditions.text),
      ("research_style", .text conditions.researchStyle.name)] ++
      (conditions.literatureConfiguration.elim [] fun literature =>
        [("literature_configuration", literature.json)]) ++
      conditions.stageModels.elim [] fun models => [("stage_models", models.json)])).map Prod.fst).Nodup := by
  cases conditions.literatureConfiguration <;> cases conditions.stageModels <;> simp

/-- The optional parts of conditions that are the same. -/
theorem Conditions.options_of_same {first second : Conditions} (same : first.json.Same second.json) :
    (∀ literature, first.literatureConfiguration = some literature →
      second.literatureConfiguration = some literature) ∧
    ∀ models, first.stageModels = some models → second.stageModels = some models := by
  have kept {field : String × Json} := @mem_of_same _ _ same first.nodup_names field
  simp only [Json.canonicalFields_eq_map] at kept
  constructor
  · intro literature present
    have field : ("literature_configuration", literature.json.canonical) ∈ _ := kept (by simp [present])
    cases other : second.literatureConfiguration with
    | none => cases models : second.stageModels <;> simp [other, models] at field
    | some found =>
      cases models : second.stageModels <;> simp [other, models] at field
      all_goals exact congrArg some (Literature.eq_of_same field).symm
  · intro models present
    have field : ("stage_models", models.json.canonical) ∈ _ := kept (by simp [present])
    cases other : second.stageModels with
    | none => cases literature : second.literatureConfiguration <;> simp [other, literature] at field
    | some found =>
      cases literature : second.literatureConfiguration <;> simp [other, literature] at field
      all_goals exact congrArg some (StageModels.eq_of_same field).symm

theorem Conditions.eq_of_same {first second : Conditions} (same : first.json.Same second.json) :
    first = second := by
  have kept {field : String × Json} := @mem_of_same _ _ same first.nodup_names field
  simp only [Json.canonicalFields_eq_map] at kept
  have questRef : ("quest_ref", Json.text first.questRef) ∈ _ := kept (by simp [Json.canonical])
  have text : ("text", Json.text first.text) ∈ _ := kept (by simp [Json.canonical])
  have style : ("research_style", Json.text first.researchStyle.name) ∈ _ := kept (by simp [Json.canonical])
  have plain : first.questRef = second.questRef ∧ first.text = second.text ∧
      first.researchStyle.name = second.researchStyle.name := by
    cases literature : second.literatureConfiguration <;> cases models : second.stageModels <;>
      simp [Json.canonical, literature, models] at questRef text style
    all_goals exact ⟨questRef, text, style⟩
  obtain ⟨literature, models⟩ := options_of_same same
  obtain ⟨literature', models'⟩ := options_of_same (Eq.symm same)
  have sameLiterature : first.literatureConfiguration = second.literatureConfiguration :=
    Option.ext fun value => ⟨literature value, literature' value⟩
  have sameModels : first.stageModels = second.stageModels :=
    Option.ext fun value => ⟨models value, models' value⟩
  have sameStyle := ResearchStyle.name_injective plain.2.2
  cases first
  cases second
  simp only [Conditions.mk.injEq]
  exact ⟨plain.1, plain.2.1, sameStyle, sameLiterature, sameModels⟩

theorem Conditions.wellFormed (conditions : Conditions) : conditions.json.wellFormed = true := by
  unfold Conditions.json
  cases conditions.literatureConfiguration <;> cases conditions.stageModels <;> rfl

/-- The revision determines the conditions, as the digest determines its text. -/
theorem revisionOf_injective (injective : Function.Injective outside.digest) :
    Function.Injective (revisionOf outside) := fun first second same =>
  Conditions.eq_of_same (Json.same_of_dumps_eq first.wellFormed second.wellFormed (injective same))

/-! ### Formed tables -/

structure VersionRow.Valid (outside : Outside) (row : VersionRow) : Prop where
  value : row.value.Valid outside
  scope : row.value.conditions.questRef = row.scopeRef
  revision : row.value.revision = row.revision
  readable : textReadable row.value.conditions.text = true

structure Tables.Formed (outside : Outside) (tables : Tables) : Prop where
  named : ∀ head ∈ tables.heads, ∃ row ∈ tables.versions,
    row.key = (head.scopeRef, head.currentRevision)
  headed : ∀ row ∈ tables.versions, ∃ head ∈ tables.heads, head.scopeRef = row.scopeRef
  valid : ∀ row ∈ tables.versions, row.Valid outside

/-- The register that tables stand for. -/
def Tables.register (tables : Tables) : Register := fun scope => (tables.lookup scope).map VersionRow.value

theorem formed_empty : ({} : Tables).Formed outside where
  named head member := (Table.not_mem_empty head member).elim
  headed row member := (Table.not_mem_empty row member).elim
  valid row member := (Table.not_mem_empty row member).elim

theorem Tables.Formed.lookup_of_head (formed : tables.Formed outside) {scope : String} {head : HeadRow}
    (found : tables.heads.find? scope = some head) :
    ∃ row ∈ tables.versions, tables.lookup scope = some row ∧ row.key = (scope, head.currentRevision) := by
  obtain ⟨member, rfl⟩ := Table.find?_eq_some_iff.mp found
  obtain ⟨row, present, named⟩ := formed.named head member
  refine ⟨row, present, ?_, named⟩
  rw [Tables.lookup, found]
  exact Table.find?_eq_some_iff.mpr ⟨present, named⟩

theorem Tables.of_lookup {scope : String} {row : VersionRow} (found : tables.lookup scope = some row) :
    row ∈ tables.versions ∧ row.scopeRef = scope ∧
      tables.heads.find? scope = some ⟨scope, row.revision⟩ := by
  obtain ⟨head, headed, there⟩ := Option.bind_eq_some_iff.mp found
  obtain ⟨member, named⟩ := Table.find?_eq_some_iff.mp there
  obtain ⟨rfl, same⟩ := Prod.mk.inj named
  obtain ⟨_, scope⟩ := Table.find?_eq_some_iff.mp headed
  refine ⟨member, rfl, headed.trans (congrArg some ?_)⟩
  rw [same, ← scope]

theorem Tables.Formed.head_of_lookup_none (formed : tables.Formed outside) {scope : String}
    (absent : tables.lookup scope = none) : tables.heads.find? scope = none := by
  cases found : tables.heads.find? scope with
  | none => rfl
  | some head =>
    obtain ⟨row, _, there, _⟩ := formed.lookup_of_head found
    rw [absent] at there
    cases there

/-- A valid version is read as it is. -/
theorem storedValue_of_valid {row : VersionRow} (valid : row.Valid outside) :
    storedValue outside row = .ok row.value := by
  have same : { row.value.conditions with questRef := row.scopeRef } = row.value.conditions := by
    rw [← valid.scope]
  have made : makeValue outside row.value.conditions = .ok row.value := valid.value
  unfold storedValue
  rw [same, made, check_then_eq_ok_iff]
  simp [valid.readable, bind, Except.bind, valid.revision, require, pure, Except.pure]

/-! ### Transactions -/

theorem inserted_eq_ok_iff {κ ρ : Type} {key : ρ → κ} {table : Option (Table key)} {result : Table key} :
    inserted table = .ok result ↔ table = some result := by
  cases table <;> simp [inserted]

theorem of_legacyValue {initial : Initial} {imported : Value} {sourceKind : SourceKind}
    (success : legacyValue outside initial = .ok (imported, sourceKind)) :
    imported.Valid outside ∧ imported.conditions.questRef = initial.scope := by
  unfold legacyValue at success
  cases file : initial.legacy with
  | missing =>
    rw [file] at success
    obtain ⟨value, made, ⟨⟩⟩ := bind_eq_ok_iff.mp success
    obtain ⟨valid, scope, _⟩ := of_makeValue made
    exact ⟨valid, scope⟩
  | undecodable =>
    rw [file] at success
    cases success
  | saved content =>
    rw [file] at success
    dsimp only at success
    rw [check_then_eq_ok_iff] at success
    obtain ⟨_, success⟩ := success
    cases written : content.researchStyle with
    | none =>
      rw [written] at success
      dsimp only at success
      rw [check_then_eq_ok_iff, bind_eq_ok_iff] at success
      obtain ⟨_, value, made, ⟨⟩⟩ := success
      obtain ⟨valid, scope, _⟩ := of_makeValue made
      exact ⟨valid, scope⟩
    | some name =>
      rw [written] at success
      dsimp only at success
      obtain ⟨style, _, success⟩ := bind_eq_ok_iff.mp success
      obtain ⟨value, made, success⟩ := bind_eq_ok_iff.mp success
      rw [check_then_eq_ok_iff] at success
      obtain ⟨_, ⟨⟩⟩ := success
      obtain ⟨valid, scope, _⟩ := of_makeValue made
      exact ⟨valid, scope⟩

variable (outside) in
/-- The conditions that a request may import can be read. -/
def Initial.Readable (initial : Initial) : Prop :=
  ∀ imported sourceKind, legacyValue outside initial = .ok (imported, sourceKind) →
    textReadable imported.conditions.text = true

/-- A read of a scope that has a head. -/
theorem Register.read_of_lookup {initial : Initial} {row : VersionRow}
    (found : tables.lookup initial.scope = some row) :
    tables.register.read outside initial = (.ok (initial.withLibrary row.value), tables.register) := by
  have current : tables.register initial.scope = some row.value := congrArg _ found
  rw [Register.read, current]

/-- A read of a scope without a head that finds nothing to import. -/
theorem Register.read_of_error {initial : Initial} {failure : Failure}
    (absent : tables.lookup initial.scope = none) (failed : legacyValue outside initial = .error failure) :
    tables.register.read outside initial = (.error failure, tables.register) := by
  have current : tables.register initial.scope = none := congrArg _ absent
  rw [Register.read, current, failed]

/-- What a transaction may do to formed tables. -/
structure Tables.Grown (outside : Outside) (tables after : Tables) : Prop where
  formed : after.Formed outside
  versions : ∀ row ∈ tables.versions, row ∈ after.versions

/-- The head of one scope now names a version with the value, and everything else is as it was. -/
structure Tables.Updated (outside : Outside) (tables : Tables) (scope : String) (row : VersionRow)
    (after : Tables) : Prop where
  valid : row.Valid outside
  owned : row.scopeRef = scope
  kept : ∀ other ∈ tables.versions, other ∈ after.versions
  versions : ∀ other ∈ after.versions, other ∈ tables.versions ∨ other = row
  there : row ∈ after.versions
  head : after.heads.find? scope = some ⟨scope, row.revision⟩
  heads : ∀ other, other ≠ scope → after.heads.find? other = tables.heads.find? other

theorem Tables.Updated.grown {after : Tables} {scope : String} {row : VersionRow}
    (updated : tables.Updated outside scope row after) (formed : tables.Formed outside) :
    tables.Grown outside after where
  versions := updated.kept
  formed := {
    named := fun head member => by
      have found := Table.find?_of_mem member
      by_cases here : head.scopeRef = scope
      · rw [here, updated.head] at found
        cases found
        exact ⟨row, updated.there, by rw [VersionRow.key, updated.owned]⟩
      · rw [updated.heads _ here] at found
        obtain ⟨old, present, named⟩ := formed.named head (Table.mem_of_find? found)
        exact ⟨old, updated.kept old present, named⟩
    headed := fun other member => by
      by_cases here : other.scopeRef = scope
      · exact ⟨_, Table.mem_of_find? updated.head, here.symm⟩
      · rcases updated.versions other member with present | rfl
        · obtain ⟨head, headed, named⟩ := formed.headed other present
          have found := Table.find?_of_mem headed
          rw [← updated.heads _ (fun same => here (named.symm.trans same))] at found
          exact ⟨head, Table.mem_of_find? found, named⟩
        · exact absurd updated.owned here
    valid := fun other member => by
      rcases updated.versions other member with present | rfl
      · exact formed.valid other present
      · exact updated.valid }

theorem Tables.Updated.register {after : Tables} {scope : String} {row : VersionRow}
    (updated : tables.Updated outside scope row after) (formed : tables.Formed outside) :
    after.register = Function.update tables.register scope (some row.value) := by
  funext other
  unfold Tables.register Tables.lookup
  by_cases here : other = scope
  · subst here
    have found : after.versions.find? (other, row.revision) = some row :=
      Table.find?_eq_some_iff.mpr ⟨updated.there, by rw [VersionRow.key, updated.owned]⟩
    rw [Function.update_self, updated.head, Option.bind_some, found, Option.map_some]
  · rw [Function.update_of_ne here, updated.heads other here]
    cases headed : tables.heads.find? other with
    | none => rfl
    | some head =>
      obtain ⟨old, present, _, named⟩ := formed.lookup_of_head headed
      have before : tables.versions.find? (other, head.currentRevision) = some old :=
        Table.find?_eq_some_iff.mpr ⟨present, named⟩
      have later : after.versions.find? (other, head.currentRevision) = some old :=
        Table.find?_eq_some_iff.mpr ⟨updated.kept old present, named⟩
      rw [Option.bind_some, Option.bind_some, before, later]

/-- A version of the scope of a request that shows a value. -/
def Tables.Has (tables : Tables) (initial : Initial) (value : Value) : Prop :=
  ∃ row ∈ tables.versions, row.scopeRef = initial.scope ∧ initial.withLibrary row.value = value

/-- Seeding with conditions that can be read is a read at once. -/
theorem of_seed (formed : tables.Formed outside) {initial : Initial} {imported : Value}
    {sourceKind : SourceKind} (import_eq : legacyValue outside initial = .ok (imported, sourceKind))
    (readable : textReadable imported.conditions.text = true) :
    ∃ value after, seed outside initial imported sourceKind tables = .ok (value, after) ∧
      tables.Grown outside after ∧ after.Has initial value ∧
      tables.register.read outside initial = (.ok value, after.register) := by
  unfold seed
  cases found : tables.lookup initial.scope with
  | some row =>
    obtain ⟨member, scope, _⟩ := Tables.of_lookup found
    dsimp only
    rw [Register.read_of_lookup found, storedValue_of_valid (formed.valid row member)]
    exact ⟨_, tables, rfl, ⟨formed, fun _ => id⟩, ⟨row, member, scope, rfl⟩, rfl⟩
  | none =>
    have headless := formed.head_of_lookup_none found
    obtain ⟨valid, scope⟩ := of_legacyValue import_eq
    have unversioned : ∀ row ∈ tables.versions, row.scopeRef ≠ initial.scope := fun row member same => by
      obtain ⟨head, headed, named⟩ := formed.headed row member
      exact Table.find?_eq_none_iff.mp headless head headed (named.trans same)
    obtain ⟨versions, added⟩ : ∃ versions, tables.versions.insert?
        ⟨initial.scope, imported.revision, imported, sourceKind⟩ = some versions :=
      Option.ne_none_iff_exists'.mp fun refused => by
        obtain ⟨row, member, same⟩ := Table.insert?_eq_none_iff.mp refused
        exact unversioned row member (Prod.mk.inj same).1
    obtain ⟨heads, headed⟩ : ∃ heads, tables.heads.insert? ⟨initial.scope, imported.revision⟩ = some heads :=
      Option.ne_none_iff_exists'.mp fun refused => by
        obtain ⟨head, member, same⟩ := Table.insert?_eq_none_iff.mp refused
        exact Table.find?_eq_none_iff.mp headless head member same
    have updated : tables.Updated outside initial.scope
        ⟨initial.scope, imported.revision, imported, sourceKind⟩ ⟨versions, heads⟩ := {
      valid := ⟨valid, scope, rfl, readable⟩
      owned := rfl
      kept := fun other member => (Table.mem_insert? added).mpr (.inl member)
      versions := fun other member => (Table.mem_insert? added).mp member
      there := (Table.mem_insert? added).mpr (.inr rfl)
      head := by rw [Table.find?_insert? headed, if_pos rfl]
      heads := fun other apart => by rw [Table.find?_insert? headed, if_neg apart.symm] }
    have current : tables.register initial.scope = none := congrArg _ found
    refine ⟨initial.withLibrary imported, ⟨versions, heads⟩, ?_, updated.grown formed,
      ⟨_, updated.there, rfl, rfl⟩, ?_⟩
    · dsimp only
      rw [added, headed]
      rfl
    · rw [Register.read, current, import_eq, updated.register formed]

/-- The transaction of a save replaces the head that was expected, and nothing else. -/
theorem of_replaceHead (injective : Function.Injective outside.digest) (formed : tables.Formed outside)
    {scope : String} (expected : String) {saved : Value} (valid : saved.Valid outside)
    (owned : saved.conditions.questRef = scope) (readable : textReadable saved.conditions.text = true)
    {head : HeadRow}
    (found : tables.heads.find? scope = some head) :
    (head.currentRevision = expected ∧ ∃ row after, row.value = saved ∧
      replaceHead scope expected saved tables = .ok ((), after) ∧
      tables.Updated outside scope row after) ∨
    (head.currentRevision ≠ expected ∧
      replaceHead scope expected saved tables = .error (.conflict "runtime_conditions_stale")) := by
  obtain ⟨member, named⟩ := Table.find?_eq_some_iff.mp found
  unfold replaceHead
  rw [found]
  dsimp only
  by_cases expects : head.currentRevision = expected
  · left
    have counted : tables.heads.count (fun head => decide (head.scopeRef = scope) &&
        head.currentRevision = expected) = 1 :=
      Table.count_eq_one member (by simp [named, expects]) fun other _ kept => by
        simp only [Bool.and_eq_true, decide_eq_true_eq] at kept
        exact kept.1.trans named.symm
    -- a version that is there already is the same one
    obtain ⟨row, versions, value, stored, valid, owned, revision, kept, others, there⟩ : ∃ row versions,
        row.value = saved ∧ (tables.versions.insert? ⟨scope, saved.revision, saved, .humanUpdate⟩).getD
          tables.versions = versions ∧ row.Valid outside ∧ row.scopeRef = scope ∧
        row.revision = saved.revision ∧ (∀ other ∈ tables.versions, other ∈ versions) ∧
        (∀ other ∈ versions, other ∈ tables.versions ∨ other = row) ∧ row ∈ versions := by
      cases added : tables.versions.insert? ⟨scope, saved.revision, saved, .humanUpdate⟩ with
      | some versions =>
        exact ⟨_, versions, rfl, rfl, ⟨valid, owned, rfl, readable⟩, rfl, rfl,
          fun other present => (Table.mem_insert? added).mpr (.inl present),
          fun other present => (Table.mem_insert? added).mp present, (Table.mem_insert? added).mpr (.inr rfl)⟩
      | none =>
        obtain ⟨row, present, same⟩ := Table.insert?_eq_none_iff.mp added
        obtain ⟨scope, revision⟩ := Prod.mk.inj same
        have genuine := formed.valid row present
        have conditions : row.value.conditions = saved.conditions := revisionOf_injective injective <| by
          rw [← genuine.value.revision, ← valid.revision, genuine.revision]
          exact revision
        have value : row.value = saved := by
          have made := genuine.value
          rw [Value.Valid, conditions, show makeValue outside saved.conditions = .ok saved from valid] at made
          exact (Except.ok.inj made).symm
        exact ⟨row, tables.versions, value, rfl, genuine, scope, revision, fun _ => id, fun _ => .inl, present⟩
    refine ⟨expects, row, ⟨versions, tables.heads.update (fun head => decide (head.scopeRef = scope) &&
      head.currentRevision = expected) ⟨fun head => { head with currentRevision := saved.revision },
        fun _ => rfl⟩⟩, value, ?_, ?_⟩
    · rw [stored, check_then_eq_ok_iff, require_eq_ok_iff]
      refine ⟨decide_eq_true expects, ?_⟩
      rw [check_then_eq_ok_iff, require_eq_ok_iff]
      exact ⟨decide_eq_true counted, rfl⟩
    · refine ⟨valid, owned, kept, others, there, ?_, fun other apart => ?_⟩
      · rw [Table.find?_update, found]
        simp [named, expects, revision]
      · rw [Table.find?_update]
        cases headed : tables.heads.find? other with
        | none => rfl
        | some old =>
          have key := (Table.find?_eq_some_iff.mp headed).2
          simp [key, apart]
  · right
    refine ⟨expects, ?_⟩
    simp only [require, decide_eq_false expects]
    rfl

end MetaResearch.RuntimeConditions

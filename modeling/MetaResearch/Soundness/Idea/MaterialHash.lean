import Mathlib.Logic.Relation
import MetaResearch.Model.Idea.IdeaContract
import MetaResearch.ToMathlib.JsonDict

/-! # The material hash of an Idea outcome

A normalized list is told by the texts of its items, so edits that leave the text of every normalized part
leave the hash. A note that is only punctuation is not blank, so it is kept where a blank one is not.
-/

namespace MetaResearch.Idea

open Json (Fields get)

variable {digest materialText : String → String}

/-! ### Normalized lists -/

/-- A dictionary holds each item of a list under its text. -/
structure Indexed (unique : Fields) (items : List Json) : Prop where
  nodup : (unique.map Prod.fst).Nodup
  names : ∀ name, name ∈ unique.map Prod.fst ↔ name ∈ items.map Json.dumps
  entries : ∀ entry ∈ unique, entry.2.dumps = entry.1 ∧ entry.2 ∈ items

theorem indexed_set {unique : Fields} {items : List Json} (indexed : Indexed unique items) (item : Json) :
    Indexed (Json.set unique item.dumps item) (items ++ [item]) where
  nodup := by
    rw [Json.names_set]
    split_ifs with present
    · exact indexed.nodup
    · exact List.nodup_append.mpr ⟨indexed.nodup, List.nodup_singleton _, fun name member other last same =>
        present (by rw [← List.mem_singleton.mp last, ← same]; exact member)⟩
  names name := by
    rw [Json.names_set]
    have known := indexed.names item.dumps
    split_ifs with present
    · rw [indexed.names, List.map_append, List.mem_append, List.map_singleton, List.mem_singleton]
      exact ⟨.inl, fun listed => listed.elim id fun same => same ▸ known.mp present⟩
    · rw [List.mem_append, indexed.names, List.map_append, List.mem_append, List.map_singleton]
  entries entry member := by
    rcases Json.mem_of_mem_set member with rfl | old
    · exact ⟨rfl, by simp⟩
    · obtain ⟨text, listed⟩ := indexed.entries entry old
      exact ⟨text, List.mem_append_left _ listed⟩

theorem indexed_uniqueByText (items : List Json) : Indexed (uniqueByText items) items := by
  have round : ∀ (rest done : List Json) (unique : Fields), Indexed unique done →
      Indexed (rest.foldl (fun unique item => Json.set unique item.dumps item) unique) (done ++ rest) := by
    intro rest
    induction rest with
    | nil =>
      intro done unique indexed
      rwa [List.append_nil]
    | cons item rest ih =>
      intro done unique indexed
      rw [List.append_cons]
      exact ih (done ++ [item]) _ (indexed_set indexed item)
  exact round items [] [] ⟨.nil, by simp, by simp⟩

/-- The texts of a normalized list, in their order. -/
theorem texts_sortedUnique (items : List Json) :
    (sortedUnique items).map Json.dumps = (Json.sortNamed (uniqueByText items)).map Prod.fst := by
  rw [sortedUnique, List.map_map]
  refine List.map_congr_left fun entry member => ?_
  exact ((indexed_uniqueByText items).entries entry ((Json.sortNamed_perm _).mem_iff.mp member)).1

theorem texts_sortedUnique_sorted (items : List Json) :
    ((sortedUnique items).map Json.dumps).Pairwise (· < ·) := by
  rw [texts_sortedUnique, List.pairwise_map]
  exact Json.sortNamed_sorted (indexed_uniqueByText items).nodup

theorem mem_texts_sortedUnique {items : List Json} {text : String} :
    text ∈ (sortedUnique items).map Json.dumps ↔ text ∈ items.map Json.dumps := by
  rw [texts_sortedUnique, ((Json.sortNamed_perm _).map Prod.fst).mem_iff]
  exact (indexed_uniqueByText items).names text

/-- Lists of the same texts are normalized to lists of the same texts. -/
theorem texts_sortedUnique_eq {items others : List Json}
    (same : ∀ text, text ∈ items.map Json.dumps ↔ text ∈ others.map Json.dumps) :
    (sortedUnique items).map Json.dumps = (sortedUnique others).map Json.dumps := by
  have sorted := texts_sortedUnique_sorted items
  have other := texts_sortedUnique_sorted others
  have permuted := (List.perm_ext_iff_of_nodup (sorted.imp fun less => less.ne)
    (other.imp fun less => less.ne)).mpr fun text => by
      rw [mem_texts_sortedUnique, mem_texts_sortedUnique, same]
  exact permuted.eq_of_pairwise (fun _ _ _ _ less more => absurd less more.asymm) sorted other

/-! ### The text of a normalized value -/

theorem dumps_array_congr {items others : List Json} (same : items.map Json.dumps = others.map Json.dumps) :
    (Json.array items).dumps = (Json.array others).dumps := by
  rw [Json.dumps, Json.dumps, Json.dumpsItems_eq_map, Json.dumpsItems_eq_map, same]

/-- The fields of an object with their texts -/
def fieldTexts (fields : Fields) : List (String × String) := fields.map fun field => (field.1, field.2.dumps)

theorem dumps_object_congr {fields others : Fields} (same : fieldTexts fields = fieldTexts others) :
    (Json.object fields).dumps = (Json.object others).dumps := by
  rw [Json.dumps, Json.dumps, Json.dumpsFields_eq_map, Json.dumpsFields_eq_map]
  exact congrArg (fun texts => "\x7b" ++ ",".intercalate ((Json.sortFields texts).map fun field =>
    Text.quote field.1 ++ ":" ++ field.2) ++ "\x7d") same

theorem materialItems_eq_map (items : List Json) :
    materialItems materialText items = items.map (materialValue materialText) := by
  induction items with
  | nil => rfl
  | cons item rest ih => rw [materialItems, ih, List.map_cons]

theorem materialFields_append (front back : Fields) :
    materialFields materialText (front ++ back) =
      materialFields materialText front ++ materialFields materialText back := by
  induction front with
  | nil => rfl
  | cons field rest ih =>
    obtain ⟨name, value⟩ := field
    rw [List.cons_append, materialFields, materialFields, ih]
    split_ifs <;> rfl

/-- The identity of an outcome is not material. -/
theorem materialFields_outside (fields : Fields) :
    materialFields materialText (Json.outside fields materialIdentityFields) =
      materialFields materialText fields := by
  induction fields with
  | nil => rfl
  | cons field rest ih =>
    obtain ⟨name, value⟩ := field
    unfold Json.outside at ih ⊢
    rw [List.filter_cons]
    by_cases identity : name ∈ materialIdentityFields
    · rw [if_neg (by simp [identity]), ih, materialFields, if_neg (by simp [isMaterial, identity])]
    · rw [if_pos (by simp [identity]), materialFields, materialFields, ih]

/-! ### Cosmetic edits -/

/-- A cosmetic edit at any depth of a value, where the value of a field may be replaced only if the
replacement is allowed. -/
inductive Edit (materialText : String → String) (allowed : String → Json → Json → Prop) : Json → Json → Prop
  | text {before after : String} (same : materialText before = materialText after) :
    Edit materialText allowed (.text before) (.text after)
  | permute {items others : List Json} (permuted : items.Perm others) :
    Edit materialText allowed (.array items) (.array others)
  | duplicate {items : List Json} {item : Json} (member : item ∈ items) :
    Edit materialText allowed (.array items) (.array (item :: items))
  | identity {fields others : Fields}
    (same : Json.outside fields materialIdentityFields = Json.outside others materialIdentityFields) :
    Edit materialText allowed (.object fields) (.object others)
  | addNotes {front back : Fields} {note : String} (blank : Text.isBlank note = true) :
    Edit materialText allowed (.object (front ++ back)) (.object (front ++ ("notes", .text note) :: back))
  | removeNotes {front back : Fields} {note : String} (blank : Text.isBlank note = true) :
    Edit materialText allowed (.object (front ++ ("notes", .text note) :: back)) (.object (front ++ back))
  | item {front back : List Json} {before after : Json} (edit : Edit materialText allowed before after) :
    Edit materialText allowed (.array (front ++ before :: back)) (.array (front ++ after :: back))
  | field {front back : Fields} {name : String} {before after : Json} (may : allowed name before after)
    (edit : Edit materialText allowed before after) :
    Edit materialText allowed (.object (front ++ (name, before) :: back))
      (.object (front ++ (name, after) :: back))

/-- Every replacement is allowed. -/
abbrev CosmeticEdit (materialText : String → String) : Json → Json → Prop :=
  Edit materialText fun _ _ _ => True

/-- Notes that are blank stay blank, and others stay others. -/
def KeepsNotes (name : String) (before after : Json) : Prop :=
  name = "notes" → isBlankNote before = isBlankNote after

theorem isMaterial_eq {name : String} {before after : Json} (keeps : KeepsNotes name before after) :
    isMaterial name before = isMaterial name after := by
  unfold isMaterial
  by_cases notes : name = "notes"
  · rw [keeps notes]
  · simp [notes]

theorem materialFields_blank {note : String} (blank : Text.isBlank note = true) (back : Fields) :
    materialFields materialText (("notes", .text note) :: back) = materialFields materialText back := by
  rw [materialFields, if_neg (by simp [isMaterial, isBlankNote, blank])]

/-- An edit that keeps the notes keeps the text of the normalized value. -/
theorem dumps_materialValue {before after : Json} (edit : Edit materialText KeepsNotes before after) :
    (materialValue materialText before).dumps = (materialValue materialText after).dumps := by
  induction edit with
  | text same => rw [materialValue, materialValue, same]
  | permute permuted =>
    rw [materialValue, materialValue, materialItems_eq_map, materialItems_eq_map]
    exact dumps_array_congr (texts_sortedUnique_eq fun text => ((permuted.map _).map _).mem_iff)
  | duplicate member =>
    rw [materialValue, materialValue, materialItems_eq_map, materialItems_eq_map]
    refine dumps_array_congr (texts_sortedUnique_eq fun text => ?_)
    rw [List.map_cons, List.map_cons, List.mem_cons]
    refine ⟨.inr, fun listed => listed.elim (fun here => ?_) id⟩
    rw [here]
    exact List.mem_map_of_mem (List.mem_map_of_mem member)
  | identity same =>
    rw [materialValue, materialValue, ← materialFields_outside, same, materialFields_outside]
  | addNotes blank =>
    rw [materialValue, materialValue, materialFields_append, materialFields_append,
      materialFields_blank blank]
  | removeNotes blank =>
    rw [materialValue, materialValue, materialFields_append, materialFields_append,
      materialFields_blank blank]
  | item edit ih =>
    rw [materialValue, materialValue, materialItems_eq_map, materialItems_eq_map]
    refine dumps_array_congr (texts_sortedUnique_eq fun text => ?_)
    rw [List.map_append, List.map_append, List.map_append, List.map_append, List.map_cons, List.map_cons,
      List.map_cons, List.map_cons, ih]
  | @field front back name before after may edit ih =>
    rw [materialValue, materialValue, materialFields_append, materialFields_append, materialFields,
      materialFields, isMaterial_eq may]
    refine dumps_object_congr ?_
    split_ifs
    · rw [fieldTexts, fieldTexts, List.map_append, List.map_append, List.map_cons, List.map_cons, ih]
    · rfl

theorem materialOutcomeHash_of_run {outcome edited : Fields}
    (run : Relation.ReflTransGen (Edit materialText KeepsNotes) (.object outcome) (.object edited)) :
    materialOutcomeHash digest materialText edited = materialOutcomeHash digest materialText outcome := by
  have texts : ∀ value, Relation.ReflTransGen (Edit materialText KeepsNotes) (.object outcome) value →
      (materialValue materialText value).dumps = (materialValue materialText (.object outcome)).dumps := by
    intro value run
    induction run with
    | refl => rfl
    | tail _ edit ih => rw [← dumps_materialValue edit, ih]
  rw [materialOutcomeHash, materialOutcomeHash, texts _ run]

/-! ### What the hash tells -/

/-- A value that Python reads from JSON: its objects have each name once, and its numbers are written so. -/
structure Proper (value : Json) : Prop where
  formed : value.wellFormed = true
  distinct : value.distinct = true

theorem proper_array_iff {items : List Json} : Proper (.array items) ↔ ∀ item ∈ items, Proper item := by
  constructor
  · rintro ⟨formed, distinct⟩ item member
    rw [Json.wellFormed, Json.itemsWellFormed_eq_all, List.all_eq_true] at formed
    rw [Json.distinct, Json.itemsDistinct_eq_all, List.all_eq_true] at distinct
    exact ⟨formed item member, distinct item member⟩
  · intro each
    constructor
    · rw [Json.wellFormed, Json.itemsWellFormed_eq_all, List.all_eq_true]
      exact fun item member => (each item member).formed
    · rw [Json.distinct, Json.itemsDistinct_eq_all, List.all_eq_true]
      exact fun item member => (each item member).distinct

theorem proper_object_iff {fields : Fields} :
    Proper (.object fields) ↔ (fields.map Prod.fst).Nodup ∧ ∀ field ∈ fields, Proper field.2 := by
  constructor
  · rintro ⟨formed, distinct⟩
    rw [Json.wellFormed, Json.fieldsWellFormed_eq_all, List.all_eq_true] at formed
    obtain ⟨nodup, distinct⟩ := Json.distinct_object_iff.mp distinct
    exact ⟨nodup, fun field member => ⟨formed field member, distinct field member⟩⟩
  · rintro ⟨nodup, each⟩
    constructor
    · rw [Json.wellFormed, Json.fieldsWellFormed_eq_all, List.all_eq_true]
      exact fun field member => (each field member).formed
    · exact Json.distinct_object_iff.mpr ⟨nodup, fun field member => (each field member).distinct⟩

theorem mem_of_mem_sortedUnique {items : List Json} {item : Json} (member : item ∈ sortedUnique items) :
    item ∈ items := by
  obtain ⟨entry, listed, rfl⟩ := List.mem_map.mp member
  exact ((indexed_uniqueByText items).entries entry ((Json.sortNamed_perm _).mem_iff.mp listed)).2

theorem names_materialFields (fields : Fields) :
    ((materialFields materialText fields).map Prod.fst).Sublist (fields.map Prod.fst) := by
  induction fields with
  | nil => exact .slnil
  | cons field rest ih =>
    obtain ⟨name, value⟩ := field
    rw [materialFields]
    split_ifs
    · exact ih.cons_cons name
    · exact ih.cons name

mutual

/-- A normalized value is proper as well. -/
theorem proper_materialValue : ∀ value : Json, Proper value → Proper (materialValue materialText value)
  | .array items, proper => by
    rw [materialValue, proper_array_iff]
    exact fun item member => proper_materialItems items (proper_array_iff.mp proper) item
      (mem_of_mem_sortedUnique member)
  | .object fields, proper => by
    obtain ⟨nodup, each⟩ := proper_object_iff.mp proper
    rw [materialValue, proper_object_iff]
    exact ⟨nodup.sublist (names_materialFields fields), proper_materialFields fields each⟩
  | .text value, _ => ⟨rfl, rfl⟩
  | .null, _ => ⟨rfl, rfl⟩
  | .bool _, _ => ⟨rfl, rfl⟩
  | .integer _, _ => ⟨rfl, rfl⟩
  | .number literal, proper => by rwa [materialValue]

theorem proper_materialItems : ∀ items : List Json, (∀ item ∈ items, Proper item) →
    ∀ item ∈ materialItems materialText items, Proper item
  | [], _ => by simp [materialItems]
  | item :: rest, each => by
    obtain ⟨here, later⟩ := List.forall_mem_cons.mp each
    rw [materialItems]
    exact List.forall_mem_cons.mpr ⟨proper_materialValue item here, proper_materialItems rest later⟩

theorem proper_materialFields : ∀ fields : Fields, (∀ field ∈ fields, Proper field.2) →
    ∀ field ∈ materialFields materialText fields, Proper field.2
  | [], _ => by simp [materialFields]
  | (name, value) :: rest, each => by
    obtain ⟨here, later⟩ := List.forall_mem_cons.mp each
    rw [materialFields]
    split_ifs
    · exact List.forall_mem_cons.mpr ⟨proper_materialValue value here, proper_materialFields rest later⟩
    · exact proper_materialFields rest later

end

/-- Outcomes of one hash have the same normalized value. -/
theorem same_of_materialOutcomeHash_eq (injective : Function.Injective digest) {first second : Fields}
    (firstProper : Proper (.object first)) (secondProper : Proper (.object second))
    (same : materialOutcomeHash digest materialText first = materialOutcomeHash digest materialText second) :
    (materialValue materialText (.object first)).Same (materialValue materialText (.object second)) :=
  Json.same_of_dumps_eq (proper_materialValue _ firstProper).formed (proper_materialValue _ secondProper).formed
    (injective same)

/-! ### Candidates that are accepted together -/

/-- The peers are left out of a material difference. -/
def withoutPeers : Json → Json
  | .object fields => .object (Json.without fields "from_peers")
  | value => value

/-- A field of a normalized candidate as it is compared with the peers of the candidate -/
def compared (field : String × Json) : String × Json :=
  (field.1, if field.1 = "material_difference" then withoutPeers field.2 else field.2)

theorem materialFields_without_identity {fields : Fields} {name : String}
    (identity : name ∈ materialIdentityFields) :
    materialFields materialText (Json.without fields name) = materialFields materialText fields := by
  have both : Json.outside (Json.without fields name) materialIdentityFields =
      Json.outside fields materialIdentityFields := by
    rw [Json.outside, Json.without, List.filter_filter]
    refine List.filter_congr fun field _ => ?_
    by_cases same : field.1 = name
    · simp [same, identity]
    · simp [same]
  rw [← materialFields_outside, both, materialFields_outside]

theorem materialFields_without (fields : Fields) (name : String) :
    materialFields materialText (Json.without fields name) =
      Json.without (materialFields materialText fields) name := by
  induction fields with
  | nil => rfl
  | cons field rest ih =>
    obtain ⟨key, value⟩ := field
    unfold Json.without at ih ⊢
    rw [List.filter_cons, materialFields]
    split_ifs with apart material material
    · rw [materialFields, if_pos material, List.filter_cons, if_pos apart, ih]
    · rw [materialFields, if_neg material, ih]
    · rw [List.filter_cons, if_neg apart, ih]
    · exact ih

theorem map_compared_of_absent {fields : Fields} (absent : "material_difference" ∉ fields.map Prod.fst) :
    fields.map compared = fields := by
  rw [List.map_congr_left (g := id) fun field member => ?_, List.map_id]
  have apart : field.1 ≠ "material_difference" := fun same => absent (same ▸ List.mem_map_of_mem member)
  rw [compared, if_neg apart]
  rfl

/-- A candidate is compared by its normalized fields. -/
theorem materialFields_materialCandidate {candidate : Fields} (nodup : (candidate.map Prod.fst).Nodup)
    (shaped : ∀ difference, candidate.lookup "material_difference" = some difference →
      ∃ fields, difference = .object fields) :
    materialFields materialText (materialCandidate candidate) =
      (materialFields materialText candidate).map compared := by
  unfold materialCandidate
  cases found : candidate.lookup "material_difference" with
  | none =>
    have absent : "material_difference" ∉ (materialFields materialText candidate).map Prod.fst := by
      intro listed
      obtain ⟨field, member, named⟩ := List.mem_map.mp ((names_materialFields candidate).subset listed)
      have missing := List.lookup_eq_none_iff.mp found field member
      simp [named] at missing
    rw [map_compared_of_absent absent]
    exact materialFields_without_identity (by decide)
  | some difference =>
    obtain ⟨fields, rfl⟩ := shaped difference found
    obtain ⟨front, back, rfl, before⟩ := List.lookup_eq_some_iff.mp found
    have new : "material_difference" ∉ front.map Prod.fst := by
      intro listed
      obtain ⟨field, member, named⟩ := List.mem_map.mp listed
      simpa [named] using before field member
    have once : "material_difference" ∉ back.map Prod.fst := by
      rw [List.map_append, List.map_cons] at nodup
      exact (List.nodup_cons.mp (List.nodup_append.mp nodup).2.1).1
    have absent {fields : Fields} (missing : "material_difference" ∉ fields.map Prod.fst) :
        (materialFields materialText fields).map compared = materialFields materialText fields :=
      map_compared_of_absent fun listed => missing ((names_materialFields fields).subset listed)
    have split : Json.without (front ++ ("material_difference", Json.object fields) :: back) "candidate_key" =
        Json.without front "candidate_key" ++
          ("material_difference", Json.object fields) :: Json.without back "candidate_key" := by
      rw [Json.without, List.filter_append, List.filter_cons, if_pos (by simp)]
      rfl
    have kept : "material_difference" ∉ (Json.without front "candidate_key").map Prod.fst :=
      fun listed => new ((List.filter_sublist.map Prod.fst).subset listed)
    have identity : "candidate_key" ∈ materialIdentityFields := by decide
    have material (value : Json) : isMaterial "material_difference" value = true := rfl
    simp only [split, Json.set_append kept, materialFields_append, materialFields, material, if_true,
      materialFields_without_identity identity, List.map_append, List.map_cons, absent new, absent once,
      compared, materialValue, withoutPeers, Json.object?, Option.getD_some, materialFields_without]

theorem canonicalFields_map_compared {fields : Fields} (each : ∀ field ∈ fields, Proper field.2) :
    Json.canonicalFields (fields.map compared) = (Json.canonicalFields fields).map compared := by
  have value {value : Json} (proper : Proper value) :
      (withoutPeers value).canonical = withoutPeers value.canonical := by
    cases value with
    | object inner =>
      have nodup := (proper_object_iff.mp proper).1
      have names : ((Json.canonicalFields inner).map Prod.fst).Nodup := by
        rw [Json.canonicalFields_eq_map, List.map_map]
        exact nodup
      rw [withoutPeers, Json.canonical, Json.canonical, Json.canonicalFields_without,
        Json.sortNamed_without names, withoutPeers]
    | _ => rfl
  rw [Json.canonicalFields_eq_map, Json.canonicalFields_eq_map, List.map_map, List.map_map]
  refine List.map_congr_left fun field member => Prod.ext rfl ?_
  simp only [Function.comp_apply, compared]
  split_ifs
  · exact value (each field member)
  · rfl

/-- Candidates with one normalized text are compared by one text. -/
theorem dumps_materialCandidate_eq {first second : Fields} (firstProper : Proper (.object first))
    (secondProper : Proper (.object second))
    (firstShaped : ∀ difference, first.lookup "material_difference" = some difference →
      ∃ fields, difference = .object fields)
    (secondShaped : ∀ difference, second.lookup "material_difference" = some difference →
      ∃ fields, difference = .object fields)
    (same : (materialValue materialText (.object first)).dumps =
      (materialValue materialText (.object second)).dumps) :
    (materialValue materialText (.object (materialCandidate first))).dumps =
      (materialValue materialText (.object (materialCandidate second))).dumps := by
  have firstNormal := @proper_materialValue materialText _ firstProper
  have secondNormal := @proper_materialValue materialText _ secondProper
  have alike := Json.same_of_dumps_eq firstNormal.formed secondNormal.formed same
  rw [materialValue] at firstNormal secondNormal
  obtain ⟨nodup, firstEach⟩ := proper_object_iff.mp firstNormal
  have secondEach := (proper_object_iff.mp secondNormal).2
  rw [materialValue, materialValue, Json.same_object_iff nodup] at alike
  rw [materialValue, materialValue, materialFields_materialCandidate (proper_object_iff.mp firstProper).1
    firstShaped, materialFields_materialCandidate (proper_object_iff.mp secondProper).1 secondShaped]
  refine Json.dumps_eq_of_same ((Json.same_object_iff ?_).mpr ?_)
  · rw [List.map_map]
    exact nodup
  · rw [canonicalFields_map_compared firstEach, canonicalFields_map_compared secondEach]
    exact alike.map compared

theorem checkPresent_eq_ok_iff {candidate : Fields} {field : String} {check : Json → Except String Unit} :
    checkPresent candidate field check = .ok () ↔
      ∀ value, candidate.lookup field = some value → check value = .ok () := by
  unfold checkPresent
  cases candidate.lookup field with
  | none => simp [pure, Except.pure]
  | some value => simp

/-- What is collected of a candidate -/
theorem collectCandidate_eq_ok {acceptedRefs : Option (List String)} {value : Json} {collected : String × String}
    (accepted : collectCandidate digest materialText acceptedRefs value = .ok collected) :
    ∃ candidate, value = .object candidate ∧
      (∀ difference, candidate.lookup "material_difference" = some difference →
        ∃ fields, difference = .object fields) ∧
      collected.2 = digest (materialValue materialText (.object (materialCandidate candidate))).dumps := by
  cases value with
  | object candidate =>
    refine ⟨candidate, rfl, ?_⟩
    simp only [collectCandidate, check_then_eq_ok_iff, bind_eq_ok_iff (α := String)] at accepted
    obtain ⟨-, -, key, -, -, -, -, -, -, -, -, -, difference, answer⟩ := accepted
    cases answer
    refine ⟨fun value found => ?_, rfl⟩
    have shaped := checkPresent_eq_ok_iff.mp difference value found
    cases value with
    | object fields => exact ⟨fields, rfl⟩
    | _ => cases shaped
  | _ => cases accepted

/-- Candidates with distinct hashes have distinct normalized texts. -/
theorem nodup_texts {acceptedRefs : Option (List String)} {candidates : List Json}
    {collected : List (String × String)} (proper : ∀ candidate ∈ candidates, Proper candidate)
    (accepted : List.Forall₂ (fun candidate result =>
      collectCandidate digest materialText acceptedRefs candidate = .ok result) candidates collected)
    (distinct : (collected.map Prod.snd).Nodup) :
    ((materialItems materialText candidates).map Json.dumps).Nodup := by
  rw [materialItems_eq_map, List.map_map]
  induction accepted with
  | nil => exact .nil
  | @cons candidate result rest results here later ih =>
    obtain ⟨new, distinct⟩ := List.nodup_cons.mp distinct
    obtain ⟨firstProper, restProper⟩ := List.forall_mem_cons.mp proper
    refine List.nodup_cons.mpr ⟨fun listed => new ?_, ih restProper distinct⟩
    obtain ⟨other, member, same⟩ := List.mem_map.mp listed
    obtain ⟨index, inside, rfl⟩ := List.mem_iff_getElem.mp member
    have there := later.get inside (later.length_eq ▸ inside)
    obtain ⟨first, rfl, firstShaped, firstHash⟩ := collectCandidate_eq_ok here
    obtain ⟨second, shape, secondShaped, secondHash⟩ := collectCandidate_eq_ok there
    simp only [List.get_eq_getElem] at shape secondHash
    have secondProper := restProper _ member
    simp only [shape, Function.comp_apply] at same secondProper
    rw [firstHash, dumps_materialCandidate_eq firstProper secondProper firstShaped secondShaped same.symm,
      ← secondHash]
    exact List.mem_map_of_mem (List.getElem_mem _)

/-- A list of distinct texts keeps its items. -/
theorem sortedUnique_perm {items : List Json} (distinct : (items.map Json.dumps).Nodup) :
    (sortedUnique items).Perm items := by
  have sorted := (texts_sortedUnique_sorted items).imp fun less => less.ne
  have lengths := ((List.perm_ext_iff_of_nodup sorted distinct).mpr fun _ => mem_texts_sortedUnique).length_eq
  rw [List.length_map, List.length_map] at lengths
  have unique : (sortedUnique items).Nodup := .of_map Json.dumps sorted
  exact (unique.subperm fun _ => mem_of_mem_sortedUnique).perm_of_length_le lengths.ge

theorem lookup_materialFields {fields : Fields} {name : String} (notes : name ≠ "notes")
    (named : name ∉ materialIdentityFields) :
    (materialFields materialText fields).lookup name =
      (fields.lookup name).map (materialValue materialText) := by
  induction fields with
  | nil => rfl
  | cons field rest ih =>
    obtain ⟨key, value⟩ := field
    by_cases same : name = key
    · subst same
      rw [materialFields, if_pos (by simp [isMaterial, notes, named]), List.lookup_cons_self,
        List.lookup_cons_self, Option.map_some]
    · rw [List.lookup_cons, beq_eq_false_iff_ne.mpr same, materialFields]
      split_ifs
      · rw [List.lookup_cons, beq_eq_false_iff_ne.mpr same]
        exact ih
      · exact ih

/-- The candidates of an accepted set are all kept. -/
theorem candidates_kept {outcome : Fields} {acceptedRefs : Option (List String)}
    (proper : Proper (.object outcome))
    (accepted : validateIdeaSet digest materialText outcome acceptedRefs = .ok ()) :
    ∃ candidates normalized, outcome.lookup "candidates" = some (.array candidates) ∧
      (materialFields materialText outcome).lookup "candidates" = some (.array normalized) ∧
      normalized.Perm (candidates.map (materialValue materialText)) := by
  simp only [validateIdeaSet, check_then_eq_ok_iff, require_eq_ok_iff,
    bind_eq_ok_iff (α := List (String × String))] at accepted
  obtain ⟨-, nonempty, collected, each, -, distinct, -⟩ := accepted
  unfold Json.get at nonempty each
  cases found : outcome.lookup "candidates" with
  | none => simp [found, Json.array?] at nonempty
  | some value =>
    cases value with
    | array candidates =>
      rw [found, Option.getD_some, Json.array?, Option.getD_some] at each
      obtain ⟨front, back, rfl, -⟩ := List.lookup_eq_some_iff.mp found
      have candidatesProper := proper_array_iff.mp
        ((proper_object_iff.mp proper).2 ("candidates", .array candidates) (by simp))
      have texts := nodup_texts candidatesProper (forall₂_of_mapM each) (of_decide_eq_true distinct)
      refine ⟨candidates, sortedUnique (materialItems materialText candidates), rfl, ?_, ?_⟩
      · rw [lookup_materialFields (by decide) (by decide), found, Option.map_some, materialValue]
      · rw [← materialItems_eq_map]
        exact sortedUnique_perm texts
    | _ => simp [found, Json.array?] at nonempty

/-- An outcome that is read from JSON -/
structure Outcome where
  fields : Fields
  proper : Proper (.object fields)

/-- Cosmetic edits that keep the notes keep the hash, through any run of them; outcomes of one hash have one
normalized value; and the candidates of an accepted set are kept apart. -/
theorem materialOutcomeHash_spec (digest materialText : String → String) :
    (∀ outcome edited : Fields,
        Relation.ReflTransGen (Edit materialText KeepsNotes) (.object outcome) (.object edited) →
        materialOutcomeHash digest materialText edited = materialOutcomeHash digest materialText outcome) ∧
      (Function.Injective digest → ∀ first second : Outcome,
        materialOutcomeHash digest materialText first.fields =
          materialOutcomeHash digest materialText second.fields →
        (materialValue materialText (.object first.fields)).Same
          (materialValue materialText (.object second.fields))) ∧
      ∀ (outcome : Outcome) (acceptedRefs : Option (List String)),
        validateIdeaSet digest materialText outcome.fields acceptedRefs = .ok () →
        ∃ candidates normalized, outcome.fields.lookup "candidates" = some (.array candidates) ∧
          (materialFields materialText outcome.fields).lookup "candidates" = some (.array normalized) ∧
          normalized.Perm (candidates.map (materialValue materialText)) :=
  ⟨fun _ _ => materialOutcomeHash_of_run,
    fun injective first second => same_of_materialOutcomeHash_eq injective first.proper second.proper,
    fun outcome _ => candidates_kept outcome.proper⟩

/-- The comparison key of a text of letters, points and spaces -/
def lettersOf (text : String) : String := String.ofList (text.toList.filter fun char => char ≠ ' ' && char ≠ '.')

/-- A point and a space have one comparison key, but the first is a note and the second is none. -/
theorem hash_of_punctuation_note :
    ¬ ∀ outcome edited : Fields,
      Relation.ReflTransGen (CosmeticEdit lettersOf) (.object outcome) (.object edited) →
      materialOutcomeHash id lettersOf edited = materialOutcomeHash id lettersOf outcome := by
  intro invariant
  have edit : CosmeticEdit lettersOf (.object [("kind", .text "IdeaSet"), ("notes", .text ".")])
      (.object [("kind", .text "IdeaSet"), ("notes", .text " ")]) :=
    @Edit.field lettersOf _ [("kind", .text "IdeaSet")] [] "notes" _ _ trivial (.text (by decide))
  exact absurd (invariant _ _ (.single edit)) (by decide +kernel)

end MetaResearch.Idea

import MetaResearch.Soundness.ChatProgress.Bound

/-! # The preview is the fold of the stream

A cached state stands for the bytes before its offset, however they were read: the complete records are accepted in
their order, and the last is kept or discarded. `accept` raises on some records; without them every observation
answers, and at the end of the file it answers with the fold over all complete records.
-/

namespace MetaResearch.ChatProgress

variable {F : Type} {runtime : Runtime F} {preview : Preview}

/-! ### Records that can be accepted -/

/-- Nothing, or one of the public channels. -/
def isPublic (value : PyJson F) : Bool := isNone value || publicChannels.any (isText value)

/-- What is looked up in a set has a hash: the type of an event, and three fields of a message of the agent, as far as
the fields before them are public. -/
def LookedUp (event : List (PyText × PyJson F)) : Prop :=
  hashable (get event "type") = true ∧
    (eventTypes.any (isText (get event "type")) = true → ∀ item, get event "item" = .object item →
      isText (get item "type") "agent_message" = true → hashable (get item "phase") = true ∧
        (isPublic (get item "phase") = true → hashable (get item "channel") = true ∧
          (isPublic (get item "channel") = true → hashable (get item "role") = true)))

theorem memberOf_eq {value : PyJson F} (hash : hashable value = true) (names : List String) :
    memberOf value names = .ok (names.any (isText value)) := if_pos hash

theorem absentOr_eq {value : PyJson F} (hash : hashable value = true) (names : List String) :
    absentOr value names = .ok (isNone value || names.any (isText value)) := if_pos hash

theorem absentOr_gate {α : Type} {value : PyJson F} {names : List String} {next : Except String (Option α)} :
    (∃ message, (absentOr value names >>= fun found => if !found then .ok none else next) = .ok message) ↔
      hashable value = true ∧
        ((isNone value || names.any (isText value)) = true → ∃ message, next = .ok message) := by
  cases hash : hashable value with
  | false => simp [absentOr, hash, bind, Except.bind]
  | true =>
    rw [absentOr_eq hash]
    cases found : isNone value || names.any (isText value) <;> simp [bind, Except.bind]

theorem memberOf_gate {α : Type} {value : PyJson F} {names : List String} {next : Except String (Option α)} :
    (∃ message, (memberOf value names >>= fun found => if !found then .ok none else next) = .ok message) ↔
      hashable value = true ∧ (names.any (isText value) = true → ∃ message, next = .ok message) := by
  cases hash : hashable value with
  | false => simp [memberOf, hash, bind, Except.bind]
  | true =>
    rw [memberOf_eq hash]
    cases found : names.any (isText value) <;> simp [bind, Except.bind]

theorem messageOf_ok_iff {event : List (PyText × PyJson F)} :
    (∃ message, messageOf event = .ok message) ↔ LookedUp event := by
  rw [messageOf, memberOf_gate, LookedUp]
  refine and_congr_right fun _ => forall_congr' fun _ => ?_
  cases get event "item" with
  | object item =>
    cases kind : isText (get item "type") "agent_message" with
    | false => simp [kind]
    | true =>
      simp only [Bool.not_true, Bool.false_eq_true, if_false, absentOr_gate, PyJson.object.injEq, forall_eq', kind,
        forall_const, isPublic]
      refine and_congr_right fun _ => forall_congr' fun _ => and_congr_right fun _ => forall_congr' fun _ => ?_
      -- Whatever the text is, the last of the gates is followed by an answer.
      refine and_iff_left fun _ => ?_
      split
      · exact ⟨_, rfl⟩
      · exact ⟨_, rfl⟩
  | _ => simp

/-- The record can be accepted: if it is an event that is no end of a turn, what is looked up has a hash, the answer
of a message can be read, and the identity of an answer that counts can be encoded. -/
def Readable (runtime : Runtime F) (preview : Preview) (record : List UInt8) : Prop :=
  ∀ event, runtime.event record = some event → isText (get event "type") "turn.completed" = false →
    LookedUp event ∧ ∀ item text, messageOf event = .ok (some (item, text)) →
      ∃ structured answer, answerText runtime.decimal runtime.limits runtime.float text = .ok (structured, answer) ∧
        (preview.ignores structured answer = false → PyText.encodable (identityOf item text) = true)

theorem answered_ok_iff {item : List (PyText × PyJson F)} {text answer : PyText} {structured : Bool} :
    (∃ next, preview.answered runtime item text structured answer = .ok next) ↔
      (preview.ignores structured answer = false → PyText.encodable (identityOf item text) = true) := by
  rw [Preview.answered]
  split_ifs with ignored encodable
  · simp [ignored]
  · simp [encodable]
  · simp [ignored, encodable]

theorem accept_ok_iff {record : List UInt8} :
    (∃ next, accept runtime preview record = .ok next) ↔ Readable runtime preview record := by
  rw [accept, Readable]
  cases found : runtime.event record with
  | none => simp
  | some event =>
    simp only [Option.some.injEq, forall_eq']
    cases ends : isText (get event "type") "turn.completed" with
    | true => simp
    | false =>
      simp only [Bool.false_eq_true, if_false, forall_const, ← messageOf_ok_iff]
      cases told : messageOf event with
      | error error => simp
      | ok message =>
        cases message with
        | none => simp
        | some message =>
          obtain ⟨item, text⟩ := message
          cases shown : answerText runtime.decimal runtime.limits runtime.float text with
          | error error => simp [shown]
          | ok shownAnswer =>
            obtain ⟨structured, answer⟩ := shownAnswer
            simp only [shown, answered_ok_iff]
            constructor
            · intro encodes
              refine ⟨⟨_, rfl⟩, ?_⟩
              rintro _ _ ⟨⟩
              exact ⟨structured, answer, shown, encodes⟩
            · rintro ⟨-, each⟩
              obtain ⟨_, _, same, encodes⟩ := each item text rfl
              cases shown.symm.trans same
              exact encodes

/-! ### Complete records -/

theorem split_cons_lineFeed (rest : List UInt8) :
    split (lineFeed :: rest) = ([] :: (split rest).1, (split rest).2) := by
  rw [split]
  exact if_pos rfl

theorem split_cons_of_ne {byte : UInt8} (different : byte ≠ lineFeed) (rest : List UInt8) :
    split (byte :: rest) = match (split rest).1 with
      | [] => ([], byte :: (split rest).2)
      | record :: others => ((byte :: record) :: others, (split rest).2) := if_neg different

/-- Bytes that were split are split on from their last record. -/
theorem split_append (seen content : List UInt8) :
    split (seen ++ content) =
      ((split seen).1 ++ (split ((split seen).2 ++ content)).1, (split ((split seen).2 ++ content)).2) := by
  induction seen with
  | nil => rfl
  | cons byte rest ih =>
    by_cases feed : byte = lineFeed
    · rw [feed, List.cons_append, split_cons_lineFeed, split_cons_lineFeed, ih, List.cons_append]
    · rw [List.cons_append, split_cons_of_ne feed, split_cons_of_ne feed, ih]
      cases (split rest).1 with
      | nil => exact (split_cons_of_ne feed _).symm
      | cons record others => rfl

/-- Without a line feed nothing is complete. -/
theorem split_of_not_mem {bytes : List UInt8} (without : lineFeed ∉ bytes) : split bytes = ([], bytes) := by
  induction bytes with
  | nil => rfl
  | cons byte rest ih =>
    rw [List.mem_cons, not_or] at without
    rw [split_cons_of_ne (Ne.symm without.1), ih without.2]

/-- The record up to a line feed is the first. -/
theorem split_lineFeed {bytes : List UInt8} (without : lineFeed ∉ bytes) (content : List UInt8) :
    split (bytes ++ lineFeed :: content) = (bytes :: (split content).1, (split content).2) := by
  induction bytes with
  | nil => exact split_cons_lineFeed content
  | cons byte rest ih =>
    rw [List.mem_cons, not_or] at without
    rw [List.cons_append, split_cons_of_ne (Ne.symm without.1), ih without.2]

theorem dropWhile_lineFeed {bytes : List UInt8} (without : lineFeed ∉ bytes) (content : List UInt8) :
    (bytes ++ lineFeed :: content).dropWhile (· ≠ lineFeed) = lineFeed :: content := by
  rw [List.dropWhile_append_of_pos, List.dropWhile_cons_of_neg]
  · simp
  · intro byte member
    simpa using fun same : byte = lineFeed => without (same ▸ member)

theorem not_mem_split (bytes : List UInt8) : lineFeed ∉ (split bytes).2 := by
  induction bytes with
  | nil => exact List.not_mem_nil
  | cons byte rest ih =>
    by_cases feed : byte = lineFeed
    · rw [feed, split_cons_lineFeed]
      exact ih
    · rw [split_cons_of_ne feed]
      cases (split rest).1 with
      | nil => exact List.not_mem_cons_of_ne_of_not_mem (Ne.symm feed) ih
      | cons record others => exact ih

theorem acceptAll_append {first second : List (List UInt8)} :
    acceptAll runtime preview (first ++ second) =
      acceptAll runtime preview first >>= fun next => acceptAll runtime next second := by
  rw [acceptAll, List.filter_append, List.foldlM_append]
  rfl

/-- A record that is too long is passed over. -/
theorem acceptAll_long {record : List UInt8} (long : readMaxBytes < record.length) (records : List (List UInt8)) :
    acceptAll runtime preview (record :: records) = acceptAll runtime preview records := by
  rw [acceptAll, List.filter_cons_of_neg, ← acceptAll]
  simpa using long

/-! ### What a state stands for -/

/-- The last record is kept, or it is too long and discarded. -/
def Keeps (progress : ReplyProgress) (last : List UInt8) : Prop :=
  if progress.discardRecord then progress.partialRecord = [] ∧ readMaxBytes < last.length
  else progress.partialRecord = last

/-- The state stands for the bytes before its offset. -/
structure Follows (runtime : Runtime F) (content : List UInt8) (progress : ReplyProgress) : Prop where
  offset : progress.offset ≤ content.length
  last : Keeps progress (split (content.take progress.offset)).2
  preview : acceptAll runtime {} (split (content.take progress.offset)).1 = .ok progress.preview

theorem follows_fresh (content : List UInt8) (identity : ℕ × ℕ) :
    Follows runtime content ⟨identity, 0, 0, 0, [], [], false, {}⟩ :=
  ⟨Nat.zero_le _, rfl, rfl⟩

/-- Bytes that are appended are not among those that were read. -/
theorem Follows.append {content : List UInt8} {progress : ReplyProgress} (follows : Follows runtime content progress)
    (bytes : List UInt8) : Follows runtime (content ++ bytes) progress := by
  have same : (content ++ bytes).take progress.offset = content.take progress.offset :=
    List.take_append_of_le_length follows.offset
  refine ⟨follows.offset.trans ?_, ?_, ?_⟩
  · rw [List.length_append]
    exact Nat.le_add_right _ _
  · rw [same]
    exact follows.last
  · rw [same]
    exact follows.preview

/-- What is accepted of the records, from the last one of those before on, is accepted by `consume`. -/
theorem consumeRecords_eq {progress : ReplyProgress} {last content : List UInt8} {next : Preview}
    (keeps : progress.discardRecord = false) (kept : progress.partialRecord = last)
    (accepted : acceptAll runtime progress.preview (split (last ++ content)).1 = .ok next) :
    ∃ consumed, progress.consumeRecords runtime content = .ok consumed ∧ consumed.offset = progress.offset ∧
      consumed.preview = next ∧ Keeps consumed (split (last ++ content)).2 := by
  rw [ReplyProgress.consumeRecords]
  simp only [kept, accepted]
  split_ifs with long
  · exact ⟨_, rfl, rfl, rfl, rfl, long⟩
  · refine ⟨_, rfl, rfl, rfl, ?_⟩
    rw [Keeps, if_neg (by simp [keeps])]

theorem consume_eq (progress : ReplyProgress) {last content : List UInt8} {next : Preview}
    (keeps : Keeps progress last) (without : lineFeed ∉ last)
    (accepted : acceptAll runtime progress.preview (split (last ++ content)).1 = .ok next) :
    ∃ consumed, progress.consume runtime content = .ok consumed ∧ consumed.offset = progress.offset ∧
      consumed.preview = next ∧ Keeps consumed (split (last ++ content)).2 := by
  rw [ReplyProgress.consume]
  cases discards : progress.discardRecord with
  | false =>
    rw [Keeps, discards] at keeps
    exact consumeRecords_eq discards keeps accepted
  | true =>
    rw [Keeps, discards, if_pos rfl] at keeps
    obtain ⟨empty, long⟩ := keeps
    rw [if_pos rfl]
    by_cases ends : lineFeed ∈ content
    · -- The record ends here, and is passed over.
      obtain ⟨skipped, rest, rfl, first⟩ := List.eq_append_cons_of_mem ends
      have pieces := split_lineFeed (List.not_mem_append without first) rest
      rw [List.append_assoc] at pieces
      rw [pieces, acceptAll_long] at accepted
      · rw [pieces, dropWhile_lineFeed first]
        have keeps : ({ progress with discardRecord := false } : ReplyProgress).discardRecord = false := rfl
        exact consumeRecords_eq keeps empty accepted
      · rw [List.length_append]
        exact long.trans_le (Nat.le_add_right _ _)
    · -- The record goes on, and stays too long.
      rw [split_of_not_mem (List.not_mem_append without ends)] at accepted ⊢
      have none : content.dropWhile (· ≠ lineFeed) = [] := by
        rw [List.dropWhile_eq_nil_iff]
        intro byte member
        simpa using fun same : byte = lineFeed => ends (same ▸ member)
      rw [none]
      refine ⟨progress, rfl, rfl, Except.ok.inj accepted, ?_⟩
      rw [Keeps, discards, if_pos rfl, List.length_append]
      exact ⟨empty, long.trans_le (Nat.le_add_right _ _)⟩

/-- All complete records can be accepted. -/
def Accepted (runtime : Runtime F) (content : List UInt8) : Prop :=
  ∃ next, acceptAll runtime {} (split content).1 = .ok next

/-- Then those of its beginning can. -/
theorem Accepted.of_append {content more : List UInt8} (accepted : Accepted runtime (content ++ more)) :
    Accepted runtime content := by
  obtain ⟨next, accepted⟩ := accepted
  rw [split_append, acceptAll_append] at accepted
  obtain ⟨between, here, -⟩ := bind_eq_ok_iff.mp accepted
  exact ⟨between, here⟩

/-- Reading on takes in more of the content. -/
theorem Follows.advance {file : File} {progress : ReplyProgress} (follows : Follows runtime file.content progress)
    (accepted : Accepted runtime file.content) (budget : ℕ) :
    ∃ advanced, advance runtime file budget progress = .ok advanced ∧ Follows runtime file.content advanced := by
  rw [ChatProgress.advance]
  split_ifs with more
  · simp only
    generalize read : bytesAt file progress.offset budget = content
    have part : content = (file.content.drop progress.offset).take content.length := by
      rw [← List.prefix_iff_eq_take, ← read]
      exact List.take_prefix _ _
    have seen : file.content.take (progress.offset + content.length) = file.content.take progress.offset ++ content := by
      rw [List.take_add, ← part]
    -- The bytes up to the new offset are the beginning of the content.
    rw [← List.take_append_drop (progress.offset + content.length) file.content] at accepted
    obtain ⟨next, accepted⟩ := accepted.of_append
    rw [seen, split_append, acceptAll_append, follows.preview] at accepted
    obtain ⟨consumed, run, offset, shown, keeps⟩ := consume_eq
      { progress with
        offset := progress.offset + content.length
        anchor := ChatProgress.last anchorBytes (progress.anchor ++ content) }
      follows.last (not_mem_split _) accepted
    refine ⟨consumed, run, ?_, ?_, ?_⟩
    · have room := congrArg List.length part
      rw [List.length_take, List.length_drop] at room
      rw [offset]
      change progress.offset + content.length ≤ file.content.length
      omega
    · rw [offset, seen, split_append]
      exact keeps
    · rw [offset, seen, split_append, acceptAll_append, follows.preview, shown]
      exact accepted
  · exact ⟨progress, rfl, follows⟩

theorem Follows.resume {file : File} {cached : Option ReplyProgress}
    (follows : ∀ progress, cached = some progress → Follows runtime file.content progress) :
    Follows runtime file.content (resume file cached).1 := by
  have fresh : Follows runtime file.content ⟨file.identity, 0, 0, 0, [], [], false, {}⟩ := follows_fresh _ _
  unfold ChatProgress.resume
  cases cached with
  | none => exact fresh
  | some progress =>
    have kept := follows progress rfl
    simp only
    split_ifs
    · exact fresh
    · exact fresh
    · exact fresh
    · exact fresh
    · exact kept
    · exact kept

theorem readChatReply_eq {file : File} {cached : Option ReplyProgress} (accepted : Accepted runtime file.content)
    (follows : ∀ progress, cached = some progress → Follows runtime file.content progress) :
    ∃ progress, readChatReply runtime file cached = (.ok progress.preview.text, some progress) ∧
      Follows runtime file.content progress := by
  obtain ⟨advanced, run, further⟩ := (Follows.resume follows).advance accepted (ChatProgress.resume file cached).2.2
  refine ⟨{ advanced with observedSize := file.content.length, modifiedNs := file.modifiedNs }, ?_,
    further.offset, further.last, further.preview⟩
  rw [readChatReply]
  simp only [run]

/-- A file that is read at once raises what its complete records raise. -/
theorem readChatReply_raises {file : File} {error : String} (short : file.content.length ≤ readMaxBytes)
    (raised : acceptAll runtime {} (split file.content).1 = .error (error, preview)) :
    (readChatReply runtime file none).1 = .error error := by
  have some : 0 < file.content.length := by
    rw [List.length_pos_iff]
    intro empty
    rw [empty] at raised
    cases raised
  have read : bytesAt file 0 readMaxBytes = file.content := List.take_of_length_le short
  have resumed : resume file none = (⟨file.identity, 0, 0, 0, [], [], false, {}⟩, false, readMaxBytes) := rfl
  rw [readChatReply, resumed]
  simp only [advance, some, if_true, read, ReplyProgress.consume, Bool.false_eq_true, if_false,
    ReplyProgress.consumeRecords, List.nil_append, raised]

/-! ### Runs -/

/-- The content grows. -/
theorem World.run_content (runtime : Runtime F) (world : World) (events : List Event) :
    world.file.content <+: (world.run runtime events).2.file.content := by
  induction events generalizing world with
  | nil => exact List.prefix_refl _
  | cons event rest ih =>
    have further := ih (world.step runtime event).1
    refine List.IsPrefix.trans ?_ further
    cases event with
    | append bytes modifiedNs => exact List.prefix_append _ _
    | evict => exact List.prefix_refl _
    | observe => exact List.prefix_refl _

/-- One observation is one answer. -/
theorem World.run_observe (world : World) :
    (world.run runtime [.observe]).1.map Observation.answer = [(readChatReply runtime world.file world.cached).1] := rfl

/-- The observation answers, with what its state stands for. -/
def Observation.Shows (runtime : Runtime F) (observation : Observation) : Prop :=
  ∃ progress, observation.cached = some progress ∧ observation.answer = .ok progress.preview.text ∧
    Follows runtime observation.file.content progress

theorem World.run_shows {world : World} {events : List Event}
    (follows : ∀ progress, world.cached = some progress → Follows runtime world.file.content progress)
    (accepted : Accepted runtime (world.run runtime events).2.file.content) :
    ∀ observation ∈ (world.run runtime events).1, observation.Shows runtime := by
  induction events generalizing world with
  | nil => exact List.forall_mem_nil _
  | cons event rest ih =>
    cases event with
    | append bytes modifiedNs =>
      exact ih (fun progress cached => (follows progress cached).append bytes) accepted
    | evict => exact ih (fun _ cached => nomatch cached) accepted
    | observe =>
      obtain ⟨more, whole⟩ := world.run_content runtime (.observe :: rest)
      obtain ⟨progress, read, here⟩ := readChatReply_eq (Accepted.of_append (whole ▸ accepted)) follows
      rw [World.run, World.step, read]
      refine List.forall_mem_cons.mpr ⟨⟨progress, rfl, rfl, here⟩, ih ?_ ?_⟩
      · rintro _ ⟨⟩
        exact here
      · rw [World.run, World.step, read] at accepted
        exact accepted

/-- The complete records that are not too long. -/
def shortRecords (content : List UInt8) : List (List UInt8) :=
  (split content).1.filter fun record => record.length ≤ readMaxBytes

/-- Each record can be accepted on the preview that those before it leave. -/
def AllReadable (runtime : Runtime F) : Preview → List (List UInt8) → Prop
  | _, [] => True
  | preview, record :: rest =>
    Readable runtime preview record ∧ ∀ next, accept runtime preview record = .ok next → AllReadable runtime next rest

theorem foldlM_accept_ok_iff {records : List (List UInt8)} :
    (∃ next, records.foldlM (accept runtime) preview = .ok next) ↔ AllReadable runtime preview records := by
  induction records generalizing preview with
  | nil => exact iff_of_true ⟨preview, rfl⟩ trivial
  | cons record rest ih =>
    rw [List.foldlM_cons, AllReadable, ← accept_ok_iff]
    cases accept runtime preview record with
    | error error => simp [bind, Except.bind]
    | ok next => simpa [bind, Except.bind] using ih

/-- ASCII, with the limits of the interpreter. -/
def asciiRuntime : Runtime Unit where
  decode bytes := some (bytes.map fun byte => .char (Char.ofNat byte.toNat))
  limits := ⟨1000, 4300⟩
  float _ := ()
  decimal _ := none
  digest identity := identity.map fun point => UInt8.ofNat point.code

def asciiBytes (chars : List Char) : List UInt8 := chars.map fun value => UInt8.ofNat value.toNat

def asciiText (chars : List Char) : PyText := chars.map Point.char

theorem asciiRuntime_event {chars inner : List Char} {pairs fields : List (PyText × PyJson Unit)}
    (ascii : asciiRuntime.decode (asciiBytes chars) = some (asciiText chars)) (begins : chars = '\x7b' :: inner)
    (writes : JsonDecode.Writes ⟨1000, 4300⟩ (.plain fun _ => ()) 999 (JsonDecode.skipSpace (asciiText inner))
      (.pairs pairs) []) (built : JsonDecode.dict pairs = fields) :
    asciiRuntime.event (asciiBytes chars) = some fields := by
  have object : JsonDecode.Writes ⟨1000, 4300⟩ (.plain fun _ => ()) 1000 (.char '\x7b' :: asciiText inner)
      (.value (.object fields)) [] := .object writes (congrArg some built)
  have read : JsonDecode.loads ⟨1000, 4300⟩ (.plain fun _ => ()) (.char '\x7b' :: asciiText inner) =
      .ok (.object fields) :=
    JsonDecode.loads_of_writes (by simp) object rfl
  have text : asciiText chars = .char '\x7b' :: asciiText inner := by
    rw [begins]
    rfl
  have limits : asciiRuntime.limits = ⟨1000, 4300⟩ := rfl
  have float : asciiRuntime.float = fun _ => () := rfl
  rw [Runtime.event, ascii, Option.map_some, text, limits, float, read]

/-- A message of the agent. -/
def itemChars : List Char :=
  ['\x7b', '"', 't', 'y', 'p', 'e', '"', ':', '"', 'a', 'g', 'e', 'n', 't', '_',
   'm', 'e', 's', 's', 'a', 'g', 'e', '"', ',', '"', 't', 'e', 'x', 't', '"', ':', '"', 'x', '"', '\x7d']

def messageRecord : List Char :=
  ['\x7b', '"', 't', 'y', 'p', 'e', '"', ':', '"', 'i', 't', 'e', 'm', '.',
   'c', 'o', 'm', 'p', 'l', 'e', 't', 'e', 'd', '"', ',', '"', 'i', 't', 'e', 'm', '"', ':'] ++ itemChars ++ ['\x7d']

def messageItem : List (PyText × PyJson Unit) :=
  [(PyText.ofString "type", .text (PyText.ofString "agent_message")), (PyText.ofString "text", .text [.char 'x'])]

def messageEvent : List (PyText × PyJson Unit) :=
  [(PyText.ofString "type", .text (PyText.ofString "item.completed")), (PyText.ofString "item", .object messageItem)]

theorem message_event : asciiRuntime.event (asciiBytes messageRecord) = some messageEvent := by
  have ascii : asciiRuntime.decode (asciiBytes messageRecord) = some (asciiText messageRecord) := by decide
  have item : JsonDecode.Writes ⟨1000, 4300⟩ (.plain fun _ => ()) 999 (asciiText (itemChars ++ ['\x7d']))
      (.value (.object messageItem)) [.char '\x7d'] := by
    have name : JsonDecode.IsString (asciiText ((itemChars ++ ['\x7d']).drop 2)) (PyText.ofString "type")
        (asciiText ((itemChars ++ ['\x7d']).drop 7)) := JsonDecode.isString_of_scanString rfl
    have kind : JsonDecode.IsString (asciiText ((itemChars ++ ['\x7d']).drop 9)) (PyText.ofString "agent_message")
        (asciiText ((itemChars ++ ['\x7d']).drop 23)) := JsonDecode.isString_of_scanString rfl
    have text : JsonDecode.IsString (asciiText ((itemChars ++ ['\x7d']).drop 25)) (PyText.ofString "text")
        (asciiText ((itemChars ++ ['\x7d']).drop 30)) := JsonDecode.isString_of_scanString rfl
    have value : JsonDecode.IsString (asciiText ((itemChars ++ ['\x7d']).drop 32)) [.char 'x']
        (asciiText ((itemChars ++ ['\x7d']).drop 34)) := JsonDecode.isString_of_scanString rfl
    exact .object (.pair name rfl (.text kind) rfl (.lastPair text rfl (.text value) rfl)) rfl
  have writes : JsonDecode.Writes ⟨1000, 4300⟩ (.plain fun _ => ()) 999 (asciiText (messageRecord.drop 1))
      (.pairs messageEvent) [] := by
    have name : JsonDecode.IsString (asciiText (messageRecord.drop 2)) (PyText.ofString "type")
        (asciiText (messageRecord.drop 7)) := JsonDecode.isString_of_scanString rfl
    have kind : JsonDecode.IsString (asciiText (messageRecord.drop 9)) (PyText.ofString "item.completed")
        (asciiText (messageRecord.drop 24)) := JsonDecode.isString_of_scanString rfl
    have second : JsonDecode.IsString (asciiText (messageRecord.drop 26)) (PyText.ofString "item")
        (asciiText (messageRecord.drop 31)) := JsonDecode.isString_of_scanString rfl
    exact .pair name rfl (.text kind) rfl (.lastPair second rfl item rfl)
  exact asciiRuntime_event ascii rfl writes rfl

theorem readable_message : Readable asciiRuntime {} (asciiBytes messageRecord) := by
  have message : messageOf messageEvent = .ok (some (messageItem, [.char 'x'])) := rfl
  rintro event decoded -
  obtain rfl := Option.some.inj (message_event.symm.trans decoded)
  refine ⟨messageOf_ok_iff.mp ⟨_, message⟩, ?_⟩
  intro item text same
  cases message.symm.trans same
  exact ⟨false, [.char 'x'], rfl, fun _ => rfl⟩

/-- An event whose type is an empty array. -/
def unhashableRecord : List Char := ['\x7b', '"', 't', 'y', 'p', 'e', '"', ':', '[', ']', '\x7d']

theorem unhashable_event :
    asciiRuntime.event (asciiBytes unhashableRecord) = some [(PyText.ofString "type", .array [])] := by
  have ascii : asciiRuntime.decode (asciiBytes unhashableRecord) = some (asciiText unhashableRecord) := by decide
  have name : JsonDecode.IsString (asciiText ['t', 'y', 'p', 'e', '"', ':', '[', ']', '\x7d']) (PyText.ofString "type") (asciiText [':', '[', ']', '\x7d']) :=
    JsonDecode.isString_of_scanString rfl
  have writes : JsonDecode.Writes ⟨1000, 4300⟩ (.plain fun _ => ()) 999 (asciiText (unhashableRecord.drop 1))
      (.pairs [(PyText.ofString "type", .array [])]) [] := .lastPair name rfl (.emptyArray rfl) rfl
  exact asciiRuntime_event ascii rfl writes rfl

end MetaResearch.ChatProgress

import MetaResearch.Soundness.RawOutput.Pages
import MetaResearch.ToMathlib.Check

/-! # Turning the pages of a mapped text

The mapped bytes are the UTF-8 form of a text. A cursor that a page returns is then at a character,
four bytes hold the next character whole, and so each page before the end goes on.
-/

namespace MetaResearch.RawOutput

/-! ### Boundaries of characters -/

theorem encodeText_append (first second : String) :
    encodeText (first ++ second) = encodeText first ++ encodeText second := by
  simp [encodeText]

theorem encodeText_ofList (chars : List Char) :
    encodeText (String.ofList chars) = chars.flatMap String.utf8EncodeChar := by
  rw [encodeText, String.toByteArray_ofList]
  simp [List.utf8Encode]

/-- A text that begins the bytes of another one is a prefix of it. -/
theorem text_of_isPrefix {front whole : String} (bytes : encodeText front <+: encodeText whole) :
    ∃ rest : String, whole = front ++ rest := by
  obtain ⟨others, same⟩ := bytes
  have joined : front.toByteArray ++ ⟨others.toArray⟩ = whole.toByteArray := by
    apply ByteArray.ext
    apply Array.toList_inj.mp
    simpa [encodeText] using same
  rw [← String.utf8Encode_toList (b := front), ← String.utf8Encode_toList (b := whole)] at joined
  obtain ⟨rest, split⟩ := List.isPrefix_of_utf8Encode_append_eq_utf8Encode _ joined
  exact ⟨String.ofList rest, by rw [← String.ofList_toList (s := whole), ← split, String.ofList_append,
    String.ofList_toList]⟩

/-- The cursor is at a character of the mapped text, or at its end. -/
def IsBoundary (mapped : Bytes) (cursor : ℕ) : Prop :=
  ∃ front back : String, mapped = encodeText (front ++ back) ∧ cursor = (encodeText front).length

namespace IsBoundary

variable {text : String} {mapped : Bytes} {cursor : ℕ}

theorem start (text : String) : IsBoundary (encodeText text) 0 :=
  ⟨"", text, by rw [String.empty_append], rfl⟩

theorem le (boundary : IsBoundary mapped cursor) : cursor ≤ mapped.length := by
  obtain ⟨front, back, rfl, rfl⟩ := boundary
  rw [encodeText_append, List.length_append]
  omega

/-- The first byte of a character is no continuation byte. -/
theorem not_splits (boundary : IsBoundary mapped cursor) : splitsCharacter mapped cursor = false := by
  obtain ⟨front, back, rfl, rfl⟩ := boundary
  have first (byte : UInt8) : byte.IsUTF8FirstByte → (byte &&& 0xc0 = 0x80) = False := by
    have each : ∀ byte : Fin 256, (UInt8.ofNat byte).IsUTF8FirstByte → UInt8.ofNat byte &&& 0xc0 ≠ 0x80 := by
      decide +kernel
    intro starts
    have here := each ⟨byte.toNat, byte.toNat_lt⟩
    simp only [UInt8.ofNat_toNat] at here
    exact eq_false (here starts)
  unfold splitsCharacter
  rw [encodeText_append, List.getElem?_append_right (Nat.le_refl _), Nat.sub_self]
  cases chars : back.toList with
  | nil =>
    rw [← String.ofList_toList (s := back), chars]
    rfl
  | cons char rest =>
    rw [← String.ofList_toList (s := back), chars, encodeText_ofList, List.flatMap_cons]
    have some : 0 < (String.utf8EncodeChar char).length := by
      rw [String.length_utf8EncodeChar]
      exact char.utf8Size_pos
    rw [List.getElem?_append_left some, List.getElem?_eq_getElem some]
    simp [first _ (UInt8.isUTF8FirstByte_getElem_utf8EncodeChar.mpr rfl)]

end IsBoundary

/-! ### One page -/

/-- What a page says of its cursors: they are at characters, and it goes on before the end. -/
structure Turns (mapped : Bytes) (start stop : ℕ) : Prop where
  boundary : IsBoundary mapped stop
  ordered : start ≤ stop
  progress : start < mapped.length → start < stop

/-- Bytes that are a text are not cut shorter. -/
theorem le_pageText {mapped : Bytes} {cursor count size : ℕ} (bound : size ≤ count)
    (decoded : ∃ text, decodeText (slice mapped cursor (cursor + size)) = some text) :
    cursor + size ≤ (pageText mapped cursor count).2 := by
  induction count with
  | zero =>
    obtain rfl := Nat.le_zero.mp bound
    exact Nat.le_refl _
  | succ count ih =>
    unfold pageText
    split
    · dsimp only
      omega
    · rename_i undecoded
      rcases Nat.lt_or_eq_of_le bound with shorter | rfl
      · exact ih (by omega)
      · obtain ⟨text, decoded⟩ := decoded
        rw [undecoded] at decoded
        cases decoded

theorem slice_encodeText (front part rest : String) :
    slice (encodeText (front ++ (part ++ rest))) (encodeText front).length
      ((encodeText front).length + (encodeText part).length) = encodeText part := by
  simp [slice, encodeText_append]

/-- From a character on, the longest text of at least four bytes ends at a later character. -/
theorem turns_pageText {mapped : Bytes} {cursor count : ℕ} (boundary : IsBoundary mapped cursor)
    (fits : count ≤ mapped.length - cursor) (wide : count = mapped.length - cursor ∨ pageMinBytes ≤ count) :
    Turns mapped cursor (pageText mapped cursor count).2 := by
  obtain ⟨bytes, ordered, within⟩ := encodeText_pageText mapped cursor count
  have inside := boundary.le
  obtain ⟨front, back, rfl, rfl⟩ := boundary
  refine ⟨?_, ordered, fun before => ?_⟩
  · generalize pageText (encodeText (front ++ back)) (encodeText front).length count = page
      at bytes ordered within
    have size : (encodeText page.1).length = page.2 - (encodeText front).length := by
      rw [bytes, slice, List.length_take, List.length_drop]
      omega
    have begins : encodeText page.1 <+: encodeText back := by
      rw [bytes, slice, encodeText_append, List.drop_left]
      exact List.take_prefix _ _
    obtain ⟨rest, rfl⟩ := text_of_isPrefix begins
    refine ⟨front ++ page.1, rest, by rw [String.append_assoc], ?_⟩
    rw [encodeText_append, List.length_append, size]
    omega
  · have more : 0 < (encodeText back).length := by
      rw [encodeText_append, List.length_append] at before
      omega
    obtain ⟨char, rest, split⟩ : ∃ char rest, back.toList = char :: rest := by
      cases chars : back.toList with
      | nil =>
        rw [← String.ofList_toList (s := back), chars] at more
        cases more
      | cons char rest => exact ⟨char, rest, rfl⟩
    have whole : back = String.ofList [char] ++ String.ofList rest := by
      rw [← String.ofList_append, List.singleton_append, ← split, String.ofList_toList]
    have width : (encodeText (String.ofList [char])).length = char.utf8Size := by
      rw [encodeText_ofList, List.flatMap_singleton, String.length_utf8EncodeChar]
    have narrow : char.utf8Size ≤ count := by
      have four := char.utf8Size_le_four
      have rest : char.utf8Size ≤ (encodeText back).length := by
        rw [whole, encodeText_append, List.length_append, width]
        omega
      rw [encodeText_append, List.length_append] at wide
      unfold pageMinBytes at wide
      omega
    have decoded : decodeText (slice (encodeText (front ++ back)) (encodeText front).length
        ((encodeText front).length + char.utf8Size)) = some (String.ofList [char]) := by
      rw [whole, ← width, slice_encodeText, decodeText_encodeText]
    have := le_pageText narrow ⟨_, decoded⟩
    have := char.utf8Size_pos
    omega

/-! ### Turning pages -/

/-- Pages from a cursor on, each from where the page before it ends, under limits of their own. -/
def turnPages (query : Query) (hash : String) (size : ℕ) (state : MappingState) :
    ℕ → List ℕ → Except QueryError (List TargetRawOutputPage)
  | _, [] => .ok []
  | cursor, limit :: limits => do
    let page ← answer { query with after := cursor, limit := limit } hash state (.ok size)
    let pages ← turnPages query hash size state page.nextOffset limits
    pure (page :: pages)

variable {query : Query} {hash : String} {size : ℕ} {state : MappingState}

/-- From a character on, a page of an admitted limit is returned and turns to a later character. -/
theorem page_of_boundary {cursor limit : ℕ} (sound : state.failureCode = none)
    (boundary : IsBoundary state.mapped cursor) (wide : pageMinBytes ≤ limit) :
    ∃ page, answer { query with after := cursor, limit := limit } hash state (.ok size) = .ok page ∧
      page.offset = cursor ∧ encodeText page.text = slice state.mapped cursor page.nextOffset ∧
      Turns state.mapped cursor page.nextOffset := by
  have inside := boundary.le
  have turns := @turns_pageText state.mapped cursor (min state.mapped.length (cursor + limit) - cursor)
    boundary (by omega) (by omega)
  have text := (encodeText_pageText state.mapped cursor
    (min state.mapped.length (cursor + limit) - cursor)).1
  have current : ¬ state.mapped.length < cursor := by omega
  simp only [answer, sound, pageOf, Int.toNat_natCast, current, boundary.not_splits, if_false,
    Bool.false_eq_true]
  have forward : ¬ ((decide (cursor < state.mapped.length) && decide ((pageText state.mapped cursor
      (min state.mapped.length (cursor + limit) - cursor)).2 = cursor)) = true) := by
    rw [Bool.and_eq_true, decide_eq_true_eq, decide_eq_true_eq]
    rintro ⟨before, stays⟩
    exact Nat.ne_of_gt (turns.progress before) stays
  rw [if_neg forward]
  exact ⟨_, rfl, rfl, text, turns⟩

/-- What pages that follow one another from a cursor on have in common. -/
structure Turned (mapped : Bytes) (cursor : ℕ) (pages : List TargetRawOutputPage) : Prop where
  texts : pages.flatMap (fun page => encodeText page.text) =
    slice mapped cursor (endCursor cursor pages)
  ordered : cursor ≤ endCursor cursor pages
  cursors : ∀ page ∈ pages, IsBoundary mapped page.offset ∧ Turns mapped page.offset page.nextOffset
  chained : ∀ first rest, pages = first :: rest → first.offset = cursor
  reaches : mapped.length ≤ cursor + pages.length → endCursor cursor pages = mapped.length

theorem turned_of_boundary {limits : List ℕ} (sound : state.failureCode = none)
    (wide : ∀ limit ∈ limits, pageMinBytes ≤ limit) {cursor : ℕ}
    (boundary : IsBoundary state.mapped cursor) :
    ∃ pages, turnPages query hash size state cursor limits = .ok pages ∧
      pages.length = limits.length ∧ Turned state.mapped cursor pages := by
  induction limits generalizing cursor with
  | nil =>
    have inside := boundary.le
    refine ⟨[], rfl, rfl, by simp [slice, endCursor], Nat.le_refl _, by simp, by simp, fun past => ?_⟩
    exact Nat.le_antisymm inside past
  | cons limit limits ih =>
    obtain ⟨here, later⟩ := List.forall_mem_cons.mp wide
    obtain ⟨page, answered, starts, text, turns⟩ :=
      @page_of_boundary query hash size state cursor limit sound boundary here
    obtain ⟨pages, turned, count, rest⟩ := ih later turns.boundary
    refine ⟨page :: pages, ?_, by rw [List.length_cons, count, List.length_cons], ?_, ?_, ?_, ?_, ?_⟩
    · rw [turnPages, answered]
      exact bind_eq_ok_iff.mpr ⟨page, rfl, bind_eq_ok_iff.mpr ⟨pages, turned, rfl⟩⟩
    · rw [List.flatMap_cons, text, rest.texts, endCursor]
      exact slice_append turns.ordered rest.ordered
    · exact Nat.le_trans turns.ordered rest.ordered
    · rw [List.forall_mem_cons, starts]
      exact ⟨⟨boundary, turns⟩, rest.cursors⟩
    · rintro first others ⟨⟩
      exact starts
    · rw [List.length_cons, endCursor]
      intro past
      refine rest.reaches ?_
      have inside := boundary.le
      have after := turns.boundary.le
      rcases Nat.lt_or_eq_of_le inside with before | ends
      · have := turns.progress before
        omega
      · have := turns.ordered
        omega

/-- Under any admitted limits, the pages from the first cursor on are all returned, end at characters and
go on before the end; their texts are the mapped bytes up to the last cursor, which is the end of the
mapped text after as many pages as it has bytes. -/
theorem paging_exact (query : Query) (hash : String) (size : ℕ) (state : MappingState) (text : String)
    (limits : List ℕ) (sound : state.failureCode = none) (whole : state.mapped = encodeText text)
    (admitted : ∀ limit ∈ limits, pageMinBytes ≤ limit ∧ limit ≤ pageMaxBytes) :
    ∃ pages, turnPages query hash size state 0 limits = .ok pages ∧ pages.length = limits.length ∧
      pages.flatMap (fun page => encodeText page.text) = state.mapped.take (endCursor 0 pages) ∧
      (∀ page ∈ pages, IsBoundary state.mapped page.offset ∧ IsBoundary state.mapped page.nextOffset ∧
        (page.offset < state.mapped.length → page.offset < page.nextOffset)) ∧
      (state.mapped.length ≤ limits.length →
        pages.flatMap (fun page => encodeText page.text) = state.mapped) := by
  have boundary : IsBoundary state.mapped 0 := by
    rw [whole]
    exact IsBoundary.start text
  obtain ⟨pages, turned, count, rest⟩ := @turned_of_boundary query hash size state limits sound
    (fun limit member => (admitted limit member).1) 0 boundary
  have texts : pages.flatMap (fun page => encodeText page.text) =
      state.mapped.take (endCursor 0 pages) := by
    rw [rest.texts]
    simp [slice]
  refine ⟨pages, turned, count, texts, fun page member => ?_, fun enough => ?_⟩
  · obtain ⟨starts, turns⟩ := rest.cursors page member
    exact ⟨starts, turns.boundary, turns.progress⟩
  · rw [texts, rest.reaches (by omega), List.take_length]

/-- Three pages of four bytes: the first one ends before a character of two bytes. -/
theorem paging_exact_accented :
    ∃ pages, turnPages sampleQuery sampleHash 9 { mapped := encodeText "abcé dél" } 0 [4, 4, 4] =
        .ok pages ∧ pages.map (·.text) = ["abc", "é d", "él"] := by
  obtain ⟨pages, turned, _⟩ := paging_exact sampleQuery sampleHash 9 { mapped := encodeText "abcé dél" }
    "abcé dél" [4, 4, 4] rfl rfl (by decide)
  refine ⟨pages, turned, ?_⟩
  have texts : (turnPages sampleQuery sampleHash 9 { mapped := encodeText "abcé dél" } 0 [4, 4, 4]).map
      (·.map (·.text)) = .ok ["abc", "é d", "él"] := by rfl
  rw [turned] at texts
  exact Except.ok.inj texts

end MetaResearch.RawOutput

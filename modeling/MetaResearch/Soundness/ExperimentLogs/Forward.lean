import MetaResearch.Model.ExperimentLogs.Reader

/-! # Paging forward through a log

A page ends where the decoder holds nothing, so the next page goes on as if there had been no boundary.
-/

namespace MetaResearch.ExperimentLogs

open Utf8 (decode Held)

variable {log : Log} {limit : PageLimit} {offset : ℕ}

/-! ### One page -/

/-- The bytes of the page after an offset. -/
theorem windowOf_after {bytes : List UInt8} {limit : ℕ} :
    windowOf bytes (some offset) none limit =
      ⟨(bytes.drop offset).take limit, offset, min bytes.length (offset + limit)⟩ := by
  have raw : bytesBetween bytes offset (min bytes.length (offset + limit)) =
      (bytes.drop offset).take limit := by
    rw [bytesBetween]
    rcases Nat.le_total bytes.length (offset + limit) with short | long
    · rw [Nat.min_eq_left short, List.take_of_length_le (by simp), List.take_of_length_le]
      rw [List.length_drop]
      omega
    · rw [Nat.min_eq_right long, Nat.add_sub_cancel_left]
  simp [windowOf, endOf, raw]

/-- The bytes of the page after an offset, and those that the decoder still holds at its end. -/
abbrev Log.rawAfter (log : Log) (limit : PageLimit) (offset : ℕ) : List UInt8 :=
  (log.bytes.drop offset).take limit.bytes

abbrev Log.heldAfter (log : Log) (limit : PageLimit) (offset : ℕ) : List UInt8 :=
  (decode [] (log.rawAfter limit offset)).2

theorem pageAfter_eq :
    log.pageAfter limit offset =
      pageOf log.generation ⟨log.rawAfter limit offset, offset, min log.bytes.length (offset + limit.bytes)⟩
        log.bytes.length := by
  rw [Log.pageAfter, windowOf_after]

theorem held_heldAfter : Held (log.heldAfter limit offset) := Utf8.held_decode trivial

/-- A page decodes its bytes up to those that are held at its end. -/
theorem exists_decoded :
    ∃ decoded, log.rawAfter limit offset = decoded ++ log.heldAfter limit offset ∧
      (log.pageAfter limit offset).nextOffset = offset + decoded.length := by
  obtain ⟨decoded, same⟩ := @Utf8.suffix_decode [] (log.rawAfter limit offset)
  refine ⟨decoded, same.symm, ?_⟩
  have lengths := congrArg List.length same
  rw [List.length_append, List.nil_append] at lengths
  rw [pageAfter_eq]
  simp only [pageOf]
  omega

/-- The next page begins with the bytes that are held at the end of a page. -/
theorem drop_nextOffset :
    log.bytes.drop (log.pageAfter limit offset).nextOffset =
      log.heldAfter limit offset ++ (log.bytes.drop offset).drop limit.bytes := by
  obtain ⟨decoded, raw, next⟩ := @exists_decoded log limit offset
  have whole : log.bytes.drop offset = decoded ++ (log.heldAfter limit offset ++
      (log.bytes.drop offset).drop limit.bytes) := by
    rw [← List.append_assoc, ← raw, List.take_append_drop]
  rw [next, ← List.drop_drop, whole, List.drop_left, ← whole]

theorem hasMore_iff : (log.pageAfter limit offset).hasMore = true ↔ offset + limit.bytes < log.bytes.length := by
  rw [pageAfter_eq]
  simp only [pageOf, decide_eq_true_eq]
  omega

/-- A page that is not the last one ends after its start. -/
theorem offset_lt_nextOffset (more : (log.pageAfter limit offset).hasMore = true) :
    offset < (log.pageAfter limit offset).nextOffset := by
  obtain ⟨decoded, raw, next⟩ := @exists_decoded log limit offset
  have more := hasMore_iff.mp more
  have few := Utf8.held_length (@held_heldAfter log limit offset)
  have lengths := congrArg List.length raw
  rw [List.length_append, Log.rawAfter, List.length_take, List.length_drop] at lengths
  have := limit.least
  omega

/-- What follows a page is decoded as if there had been no boundary. -/
theorem decode_drop :
    decode [] (log.bytes.drop offset) =
      ((decode [] (log.rawAfter limit offset)).1 ++
        (decode [] (log.bytes.drop (log.pageAfter limit offset).nextOffset)).1,
        (decode [] (log.bytes.drop (log.pageAfter limit offset).nextOffset)).2) := by
  rw [drop_nextOffset, Utf8.decode_resume held_heldAfter, ← Utf8.decode_append, List.take_append_drop]

/-! ### All pages -/

/-- The pages from an offset on, each from where the page before it ends, until there are no more. -/
def Log.forwardPages (log : Log) (limit : PageLimit) (offset : ℕ) : List Page :=
  if _ : (log.pageAfter limit offset).hasMore = true then
    log.pageAfter limit offset :: log.forwardPages limit (log.pageAfter limit offset).nextOffset
  else [log.pageAfter limit offset]
  termination_by log.bytes.length - offset
  decreasing_by
    have := offset_lt_nextOffset ‹_›
    have := hasMore_iff.mp ‹_›
    omega

/-- What the pages from an offset on have in common. -/
structure Paged (log : Log) (limit : PageLimit) (offset : ℕ) (pages : List Page) : Prop where
  /-- Each page is what a read after its offset answers. -/
  answered : ∀ page ∈ pages, page.offset ≤ log.bytes.length ∧ page = log.pageAfter limit page.offset
  /-- The pages follow one another from the offset on: no byte is decoded twice or dropped. -/
  first : ∃ page rest, pages = page :: rest ∧ page.offset = offset
  chained : pages.IsChain fun page next => next.offset = page.nextOffset
  /-- The last page reaches the end but for the bytes that are pending there. -/
  last : ∃ before page, pages = before ++ [page] ∧ page.hasMore = false ∧
    page.nextOffset + (decode [] (log.bytes.drop offset)).2.length = log.bytes.length
  texts : String.join (pages.map Page.text) = Utf8.text (decode [] (log.bytes.drop offset)).1

theorem text_append (first second : List Utf8.Piece) :
    Utf8.text (first ++ second) = Utf8.text first ++ Utf8.text second := by
  rw [Utf8.text, List.map_append, String.ofList_append]
  rfl

theorem pageAfter_offset : (log.pageAfter limit offset).offset = offset := by
  rw [pageAfter_eq]
  rfl

theorem pageAfter_text :
    (log.pageAfter limit offset).text = Utf8.text (decode [] (log.rawAfter limit offset)).1 := by
  rw [pageAfter_eq]
  rfl

theorem nextOffset_le (within : offset ≤ log.bytes.length) :
    (log.pageAfter limit offset).nextOffset ≤ log.bytes.length := by
  obtain ⟨decoded, raw, next⟩ := @exists_decoded log limit offset
  have lengths := congrArg List.length raw
  rw [List.length_append, Log.rawAfter, List.length_take, List.length_drop] at lengths
  omega

/-- The page that reaches the end has all the bytes from its offset on. -/
theorem rawAfter_of_last (final : (log.pageAfter limit offset).hasMore = false) :
    log.rawAfter limit offset = log.bytes.drop offset := by
  have final := mt hasMore_iff.mpr (Bool.eq_false_iff.mp final)
  refine List.take_of_length_le ?_
  rw [List.length_drop]
  omega

theorem paged_last (within : offset ≤ log.bytes.length)
    (final : (log.pageAfter limit offset).hasMore = false) :
    Paged log limit offset [log.pageAfter limit offset] where
  answered := by simp [pageAfter_offset, within]
  first := ⟨_, [], rfl, pageAfter_offset⟩
  chained := by simp
  last := by
    refine ⟨[], _, rfl, final, ?_⟩
    obtain ⟨decoded, raw, next⟩ := @exists_decoded log limit offset
    have lengths := congrArg List.length raw
    rw [rawAfter_of_last final, List.length_append, List.length_drop, Log.heldAfter,
      rawAfter_of_last final] at lengths
    omega
  texts := by
    rw [List.map_singleton, pageAfter_text, rawAfter_of_last final, String.join_cons]
    simp

theorem paged_cons (within : offset ≤ log.bytes.length) {pages : List Page}
    (paged : Paged log limit (log.pageAfter limit offset).nextOffset pages) :
    Paged log limit offset (log.pageAfter limit offset :: pages) where
  answered := List.forall_mem_cons.mpr ⟨by simp [pageAfter_offset, within], paged.answered⟩
  first := ⟨_, pages, rfl, pageAfter_offset⟩
  chained := by
    obtain ⟨page, rest, rfl, starts⟩ := paged.first
    exact List.isChain_cons_cons.mpr ⟨starts, paged.chained⟩
  last := by
    obtain ⟨before, page, rfl, final, ends⟩ := paged.last
    exact ⟨_ :: before, page, rfl, final, by rw [decode_drop]; exact ends⟩
  texts := by
    rw [List.map_cons, String.join_cons, paged.texts, pageAfter_text, ← text_append]
    exact congrArg (fun decoded => Utf8.text decoded.1) decode_drop.symm

theorem paged_forwardPages (within : offset ≤ log.bytes.length) :
    Paged log limit offset (log.forwardPages limit offset) := by
  induction size : log.bytes.length - offset using Nat.strong_induction_on generalizing offset with
  | _ size ih =>
    rw [Log.forwardPages]
    split_ifs with more
    · have forward := offset_lt_nextOffset more
      have room := hasMore_iff.mp more
      exact paged_cons within (ih _ (by omega) (nextOffset_le within) rfl)
    · exact paged_last within (Bool.eq_false_iff.mpr more)

end MetaResearch.ExperimentLogs

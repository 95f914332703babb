import Mathlib.Data.Nat.Find
import Mathlib.Order.Monotone.Basic
import MetaResearch.Model.ExperimentLogs.Reader

/-! # Paging backward through a log

A page that is asked for by its end begins with no continuation byte. A page of continuation bytes alone is
empty and the next one is asked for at the same offset; and the bytes of a code point that is cut short
before a page are decoded in no page.
-/

namespace MetaResearch.ExperimentLogs

open Utf8 (decode Held isContinuation)

/-! ### Where pages begin -/

/-- The byte at a position continues a code point. -/
def ContinuesAt (bytes : List UInt8) (position : ℕ) : Prop :=
  ∃ byte, bytes[position]? = some byte ∧ isContinuation byte = true

/-- The bytes before a position end with a code point that is cut short there. -/
def CutAt (bytes : List UInt8) (position : ℕ) : Prop :=
  ∃ held, held ≠ [] ∧ Held held ∧ held <:+ bytes.take position

/-- The first position, from `limit` bytes before the end of a page on, that holds no continuation byte. -/
def pageStart (bytes : List UInt8) (limit before : ℕ) : ℕ :=
  before - limit + if limit < before then
    (((bytes.take before).drop (before - limit)).takeWhile isContinuation).length else 0

/-- The positions where pages begin, from the end of the bytes backward. -/
def pageStarts (bytes : List UInt8) (limit : ℕ) : ℕ → ℕ
  | 0 => bytes.length
  | count + 1 => pageStart bytes limit (pageStarts bytes limit count)

variable {bytes : List UInt8} {limit before position count : ℕ}

theorem skipContinuation_eq (raw : List UInt8) (start : ℕ) :
    skipContinuation raw start =
      (raw.drop (raw.takeWhile isContinuation).length, start + (raw.takeWhile isContinuation).length) := by
  induction raw generalizing start with
  | nil => rfl
  | cons byte rest ih =>
    rw [skipContinuation, List.takeWhile_cons]
    cases isContinuation byte with
    | true =>
      rw [if_pos rfl, ih]
      simp only [if_true, List.length_cons, List.drop_succ_cons, Prod.mk.injEq, true_and]
      omega
    | false => rfl

theorem getElem?_takeWhile_length {raw : List UInt8}
    (short : (raw.takeWhile isContinuation).length < raw.length) :
    ∃ byte, raw[(raw.takeWhile isContinuation).length]? = some byte ∧ isContinuation byte = false := by
  induction raw with
  | nil => cases short
  | cons first rest ih =>
    rw [List.takeWhile_cons] at short ⊢
    cases here : isContinuation first with
    | true =>
      rw [here] at short
      simpa using ih (by simpa using short)
    | false => exact ⟨first, rfl, here⟩

theorem getElem?_of_lt_takeWhile_length {raw : List UInt8} {index : ℕ}
    (inside : index < (raw.takeWhile isContinuation).length) :
    ∃ byte, raw[index]? = some byte ∧ isContinuation byte = true := by
  induction raw generalizing index with
  | nil => cases inside
  | cons first rest ih =>
    rw [List.takeWhile_cons] at inside
    cases here : isContinuation first with
    | true =>
      rw [here, if_pos rfl, List.length_cons] at inside
      cases index with
      | zero => exact ⟨first, rfl, here⟩
      | succ index => exact ih (Nat.lt_of_succ_lt_succ inside)
    | false =>
      rw [here] at inside
      cases inside

/-- The bytes of a page that ends within the log. -/
theorem windowOf_before (within : before ≤ bytes.length) :
    windowOf bytes none (some before) limit =
      ⟨(bytes.take before).drop (pageStart bytes limit before), pageStart bytes limit before, before⟩ := by
  have ends : endOf bytes.length (some before) = before := Nat.min_eq_right within
  have stop : min before (before - limit + limit) = before := by omega
  have raw : bytesBetween bytes (before - limit) before = (bytes.take before).drop (before - limit) := by
    rw [bytesBetween, List.drop_take]
  simp only [windowOf, ends, Option.getD_none, stop, raw, Option.isNone_none, Bool.true_and,
    decide_eq_true_eq, pageStart, skipContinuation_eq]
  by_cases positive : limit < before
  · rw [if_pos (by omega), if_pos positive, List.drop_drop]
  · rw [if_neg (by omega), if_neg positive, Nat.add_zero]

/-! ### What a page start is -/

theorem getElem?_drop_take {start index : ℕ} (inside : start + index < before) :
    ((bytes.take before).drop start)[index]? = bytes[start + index]? := by
  rw [List.getElem?_drop, List.getElem?_take_of_lt inside]

theorem pageStart_le (within : before ≤ bytes.length) : pageStart bytes limit before ≤ before := by
  unfold pageStart
  split_ifs with positive
  · have short := (List.takeWhile_prefix (l := (bytes.take before).drop (before - limit))
      isContinuation).length_le
    rw [List.length_drop, List.length_take] at short
    omega
  · omega

/-- Every byte that a page start skips continues a code point. -/
theorem continuesAt_of_skipped (within : before ≤ bytes.length) (low : before - limit ≤ position)
    (high : position < pageStart bytes limit before) : ContinuesAt bytes position := by
  have bound := @pageStart_le bytes limit before within
  unfold pageStart at high bound
  split_ifs at high bound with positive
  · obtain ⟨byte, found, continues⟩ := @getElem?_of_lt_takeWhile_length
      ((bytes.take before).drop (before - limit)) (position - (before - limit)) (by omega)
    rw [getElem?_drop_take (by omega)] at found
    rw [show before - limit + (position - (before - limit)) = position by omega] at found
    exact ⟨byte, found, continues⟩
  · omega

/-- A page that is not empty and does not begin the log begins with no continuation byte. -/
theorem not_continuesAt_pageStart (within : before ≤ bytes.length) (positive : 0 < pageStart bytes limit before)
    (nonempty : pageStart bytes limit before < before) : ¬ ContinuesAt bytes (pageStart bytes limit before) := by
  unfold pageStart at positive nonempty ⊢
  split_ifs at positive nonempty ⊢ with far
  · rintro ⟨byte, found, continues⟩
    obtain ⟨other, there, stops⟩ := @getElem?_takeWhile_length
      ((bytes.take before).drop (before - limit)) (by
        rw [List.length_drop, List.length_take]
        omega)
    rw [getElem?_drop_take nonempty] at there
    obtain rfl := Option.some.inj (found.symm.trans there)
    rw [continues] at stops
    cases stops
  · omega

/-- Every log has a page before an offset, unless the bytes of the page all continue code points. -/
theorem pageStart_lt (within : before ≤ bytes.length) (positive : 0 < before)
    (begins : limit < before → ∃ index, before - limit ≤ index ∧ index < before ∧ ¬ ContinuesAt bytes index) :
    pageStart bytes limit before < before := by
  rcases Nat.lt_or_ge limit before with far | near
  · obtain ⟨index, low, high, stops⟩ := begins far
    by_contra stuck
    exact stops (continuesAt_of_skipped within low (by omega))
  · unfold pageStart
    rw [if_neg (by omega)]
    omega

/-! ### What a page decodes -/

/-- The bytes of the page before an offset. -/
def rawBefore (bytes : List UInt8) (limit before : ℕ) : List UInt8 :=
  (bytes.take before).drop (pageStart bytes limit before)

theorem length_rawBefore (within : before ≤ bytes.length) :
    (rawBefore bytes limit before).length = before - pageStart bytes limit before := by
  rw [rawBefore, List.length_drop, List.length_take, Nat.min_eq_left within]

/-- A code point that is cut short at the end of a page begins in the page. -/
theorem suffix_rawBefore {held : List UInt8} (within : before ≤ bytes.length)
    (nonempty : pageStart bytes limit before < before) (ok : Held held) (ending : held <:+ bytes.take before) :
    held <:+ rawBefore bytes limit before := by
  have length := @length_rawBefore bytes limit before within
  have raw : rawBefore bytes limit before <:+ bytes.take before := List.drop_suffix _ _
  rcases List.suffix_or_suffix_of_suffix ending raw with inside | ⟨front, same⟩
  · exact inside
  · by_cases nothing : front = []
    · rw [nothing, List.nil_append] at same
      rw [same]
    · -- Otherwise the page begins with a byte inside the code point.
      have lengths := congrArg List.length same
      have whole := ending.length_le
      have positive := List.length_pos_iff.mpr nothing
      rw [List.length_append, length] at lengths
      rw [List.length_take] at whole
      have starts : 0 < pageStart bytes limit before := by omega
      obtain ⟨byte, rest, cons⟩ := List.exists_cons_of_length_pos (l := rawBefore bytes limit before) (by omega)
      obtain ⟨first, others, rfl⟩ := List.exists_cons_of_ne_nil nothing
      have continues : isContinuation byte = true := by
        rw [← same] at ok
        have follows : Utf8.follows first (others ++ rawBefore bytes limit before) = true := ok.2
        refine Utf8.follows_continuation follows byte ?_
        rw [cons]
        simp
      have found : bytes[pageStart bytes limit before]? = some byte := by
        have head := @getElem?_drop_take bytes before (pageStart bytes limit before) 0 nonempty
        rw [← rawBefore, cons] at head
        exact head.symm
      exact absurd ⟨byte, found, continues⟩ (not_continuesAt_pageStart within starts nonempty)

/-- The decoder holds nothing at the end of a page unless a code point is cut short there. -/
theorem held_eq_nil_iff (within : before ≤ bytes.length) (nonempty : pageStart bytes limit before < before) :
    (decode [] (rawBefore bytes limit before)).2 = [] ↔ ¬ CutAt bytes before := by
  have raw : rawBefore bytes limit before <:+ bytes.take before := List.drop_suffix _ _
  constructor
  · rintro nothing ⟨held, something, ok, ending⟩
    obtain ⟨front, same⟩ := suffix_rawBefore within nonempty ok ending
    rw [← same, Utf8.decode_held_suffix ok something] at nothing
    exact something nothing
  · intro whole
    by_contra something
    exact whole ⟨_, something, Utf8.held_decode trivial, Utf8.suffix_decode.trans raw⟩

/-! ### The run of pages -/

variable {log : Log} {pageLimit : PageLimit}

/-- Where the page after some pages backward ends: at the end of the log, then at the offset of each page. -/
def Log.backwardCursor (log : Log) (limit : PageLimit) : ℕ → ℕ
  | 0 => log.bytes.length
  | count + 1 => (log.pageBefore limit (log.backwardCursor limit count)).offset

theorem pageBefore_eq (within : before ≤ log.bytes.length) :
    log.pageBefore pageLimit before =
      pageOf log.generation ⟨rawBefore log.bytes pageLimit.bytes before,
        pageStart log.bytes pageLimit.bytes before, before⟩ log.bytes.length := by
  rw [Log.pageBefore, windowOf_before within]
  rfl

theorem backwardCursor_eq (count : ℕ) :
    log.backwardCursor pageLimit count = pageStarts log.bytes pageLimit.bytes count ∧
      log.backwardCursor pageLimit count ≤ log.bytes.length := by
  induction count with
  | zero => exact ⟨rfl, Nat.le_refl _⟩
  | succ count ih =>
    obtain ⟨same, within⟩ := ih
    have here : log.backwardCursor pageLimit (count + 1) =
        pageStart log.bytes pageLimit.bytes (log.backwardCursor pageLimit count) := by
      rw [Log.backwardCursor, pageBefore_eq within]
      rfl
    exact ⟨by rw [here, same, pageStarts], by rw [here]; exact (pageStart_le within).trans within⟩

theorem backwardCursor_succ (count : ℕ) :
    log.backwardCursor pageLimit (count + 1) =
      pageStart log.bytes pageLimit.bytes (log.backwardCursor pageLimit count) := by
  rw [(backwardCursor_eq (count + 1)).1, pageStarts, ← (backwardCursor_eq count).1]

theorem backwardCursor_le (count : ℕ) : log.backwardCursor pageLimit count ≤ log.bytes.length :=
  (backwardCursor_eq count).2

theorem backwardCursor_antitone : Antitone (log.backwardCursor pageLimit) :=
  antitone_nat_of_succ_le fun count => by
    rw [backwardCursor_succ]
    exact pageStart_le (backwardCursor_le count)

/-- A page ends where the page asked for before it starts, less the bytes that are pending. -/
theorem nextOffset_pageBefore (count : ℕ) :
    (log.pageBefore pageLimit (log.backwardCursor pageLimit count)).nextOffset =
      log.backwardCursor pageLimit count -
        (log.pageBefore pageLimit (log.backwardCursor pageLimit count)).pendingUtf8Bytes := by
  have within := @backwardCursor_le log pageLimit count
  have start := @pageStart_le log.bytes pageLimit.bytes _ within
  rw [pageBefore_eq within]
  simp only [pageOf, length_rawBefore within]
  omega

theorem pendingUtf8Bytes_pageBefore (count : ℕ)
    (forward : log.backwardCursor pageLimit (count + 1) < log.backwardCursor pageLimit count) :
    (log.pageBefore pageLimit (log.backwardCursor pageLimit count)).pendingUtf8Bytes = 0 ↔
      ¬ CutAt log.bytes (log.backwardCursor pageLimit count) := by
  have within := @backwardCursor_le log pageLimit count
  rw [backwardCursor_succ] at forward
  rw [← held_eq_nil_iff within forward, pageBefore_eq within]
  exact List.length_eq_zero_iff

theorem pendingUtf8Bytes_le (count : ℕ) :
    (log.pageBefore pageLimit (log.backwardCursor pageLimit count)).pendingUtf8Bytes +
      log.backwardCursor pageLimit (count + 1) ≤ log.backwardCursor pageLimit count := by
  have within := @backwardCursor_le log pageLimit count
  have start := @pageStart_le log.bytes pageLimit.bytes _ within
  have held := (@Utf8.suffix_decode [] (rawBefore log.bytes pageLimit.bytes
    (log.backwardCursor pageLimit count))).length_le
  rw [List.nil_append, length_rawBefore within] at held
  rw [backwardCursor_succ, pageBefore_eq within]
  simp only [pageOf]
  omega

/-! ### Which logs are paged backward -/

/-- A byte lies in the part of the log that a page decodes. -/
def Page.Covers (page : Page) (position : ℕ) : Prop := page.offset ≤ position ∧ position < page.nextOffset

/-- Paging backward comes to the first offset, each page begins before the one asked for before it, and every
byte is decoded by a page or pending at the end of the log. -/
def Log.PagedBackward (log : Log) (limit : PageLimit) : Prop :=
  ∃ count, log.backwardCursor limit count = 0 ∧
    (∀ index < count, log.backwardCursor limit (index + 1) < log.backwardCursor limit index) ∧
    ∀ position < log.bytes.length,
      (∃ index < count, (log.pageBefore limit (log.backwardCursor limit index)).Covers position) ∨
        log.bytes.length ≤ position + (log.lastPage limit).pendingUtf8Bytes

/-- No `limit` bytes behind the first one all continue code points, and no code point is cut short where a page
begins. -/
structure Log.Pageable (log : Log) (limit : PageLimit) : Prop where
  begins : ∀ start, 0 < start → start + limit.bytes ≤ log.bytes.length →
    ∃ index, start ≤ index ∧ index < start + limit.bytes ∧ ¬ ContinuesAt log.bytes index
  whole : ∀ count, 0 < pageStarts log.bytes limit.bytes count →
    pageStarts log.bytes limit.bytes count < log.bytes.length →
    ¬ CutAt log.bytes (pageStarts log.bytes limit.bytes count)

theorem backwardCursor_lt (pageable : log.Pageable pageLimit) (count : ℕ)
    (positive : 0 < log.backwardCursor pageLimit count) :
    log.backwardCursor pageLimit (count + 1) < log.backwardCursor pageLimit count := by
  have within := @backwardCursor_le log pageLimit count
  rw [backwardCursor_succ]
  refine pageStart_lt within positive fun far => ?_
  obtain ⟨index, low, high, stops⟩ := pageable.begins (log.backwardCursor pageLimit count - pageLimit.bytes)
    (by omega) (by omega)
  exact ⟨index, low, by omega, stops⟩

theorem exists_backwardCursor_eq_zero (pageable : log.Pageable pageLimit) :
    ∃ count, log.backwardCursor pageLimit count = 0 := by
  have bound (count : ℕ) : log.backwardCursor pageLimit count ≤ log.bytes.length - count := by
    induction count with
    | zero => exact backwardCursor_le 0
    | succ count ih =>
      have antitone : log.backwardCursor pageLimit (count + 1) ≤ log.backwardCursor pageLimit count :=
        backwardCursor_antitone (Nat.le_succ count)
      rcases Nat.eq_zero_or_pos (log.backwardCursor pageLimit count) with zero | positive
      · omega
      · have := backwardCursor_lt pageable count positive
        omega
  refine ⟨log.bytes.length, Nat.eq_zero_of_le_zero ?_⟩
  simpa using bound log.bytes.length

/-- The page that a byte falls in. -/
theorem exists_page {position finish : ℕ} (within : position < log.bytes.length)
    (zero : log.backwardCursor pageLimit finish = 0) :
    ∃ index < finish, log.backwardCursor pageLimit (index + 1) ≤ position ∧
      position < log.backwardCursor pageLimit index := by
  have found : ∃ count, log.backwardCursor pageLimit count ≤ position := ⟨finish, by omega⟩
  have first := Nat.find_spec found
  have least := Nat.find_min' found (show log.backwardCursor pageLimit finish ≤ position by omega)
  cases at_ : Nat.find found with
  | zero =>
    rw [at_] at first
    change log.bytes.length ≤ position at first
    omega
  | succ index =>
    rw [at_] at first least
    refine ⟨index, by omega, first, ?_⟩
    have before := Nat.find_min found (show index < Nat.find found by omega)
    omega

theorem pagedBackward_of_pageable (pageable : log.Pageable pageLimit) : log.PagedBackward pageLimit := by
  have reached := exists_backwardCursor_eq_zero pageable
  have positive {index : ℕ} (before : index < Nat.find reached) : 0 < log.backwardCursor pageLimit index :=
    Nat.pos_of_ne_zero (Nat.find_min reached before)
  refine ⟨Nat.find reached, Nat.find_spec reached,
    fun index before => backwardCursor_lt pageable index (positive before), fun position within => ?_⟩
  obtain ⟨index, before, low, high⟩ := exists_page within (Nat.find_spec reached)
  have next := @nextOffset_pageBefore log pageLimit index
  have offset : (log.pageBefore pageLimit (log.backwardCursor pageLimit index)).offset ≤ position := low
  cases index with
  | zero =>
    -- What is pending at the end of the log is not decoded.
    rw [lastPage_eq]
    change _ = log.bytes.length - _ at next
    rcases Nat.lt_or_ge position (log.bytes.length -
      (log.pageBefore pageLimit log.bytes.length).pendingUtf8Bytes) with decoded | pending
    · exact .inl ⟨0, before, offset, by rw [next]; exact decoded⟩
    · exact .inr (by omega)
  | succ index =>
    have inner : log.backwardCursor pageLimit (index + 1) < log.bytes.length :=
      (backwardCursor_lt pageable index (positive (by omega))).trans_le (backwardCursor_le index)
    have whole : ¬ CutAt log.bytes (log.backwardCursor pageLimit (index + 1)) := by
      have same := (@backwardCursor_eq log pageLimit (index + 1)).1
      rw [same] at inner ⊢
      exact pageable.whole (index + 1) (same ▸ positive before) inner
    have none := (pendingUtf8Bytes_pageBefore (index + 1)
      (backwardCursor_lt pageable (index + 1) (positive before))).mpr whole
    refine .inl ⟨index + 1, before, offset, ?_⟩
    omega

/-- Once the cursor is behind a run of continuation bytes that fills a page, it stays there. -/
theorem stuck {start : ℕ} (positive : 0 < start)
    (run : ∀ index, start ≤ index → index < start + pageLimit.bytes → ContinuesAt log.bytes index)
    (within : start + pageLimit.bytes ≤ log.bytes.length) (count : ℕ) :
    start + pageLimit.bytes ≤ log.backwardCursor pageLimit count := by
  induction count with
  | zero => exact within
  | succ count ih =>
    have inside := @backwardCursor_le log pageLimit count
    rw [backwardCursor_succ]
    by_contra moved
    have low : log.backwardCursor pageLimit count - pageLimit.bytes ≤
        pageStart log.bytes pageLimit.bytes (log.backwardCursor pageLimit count) := Nat.le_add_right _ _
    have continues := run _ (low.trans' (by omega)) (Nat.lt_of_not_le moved)
    exact not_continuesAt_pageStart inside (by omega) (by omega) continues

theorem pageable_of_pagedBackward (paged : log.PagedBackward pageLimit) : log.Pageable pageLimit := by
  obtain ⟨finish, zero, forward, covered⟩ := paged
  refine ⟨fun start positive within => ?_, fun count positive inner cut => ?_⟩
  · by_contra run
    push Not at run
    have := @stuck log pageLimit start positive run within finish
    omega
  · -- The byte in front of the cut is in no page.
    rw [← (backwardCursor_eq count).1] at positive inner cut
    have first : 0 < count := by
      by_contra start
      obtain rfl : count = 0 := by omega
      exact absurd inner (Nat.lt_irrefl _)
    rcases covered (log.backwardCursor pageLimit count - 1) (by omega) with ⟨index, before, low, high⟩ | pending
    · have moves := forward index before
      rw [nextOffset_pageBefore] at high
      have low : log.backwardCursor pageLimit (index + 1) ≤ log.backwardCursor pageLimit count - 1 := low
      have later : count ≤ index := by
        by_contra early
        have : log.backwardCursor pageLimit count ≤ log.backwardCursor pageLimit (index + 1) :=
          backwardCursor_antitone (Nat.lt_of_not_le early)
        omega
      have earlier : log.backwardCursor pageLimit index ≤ log.backwardCursor pageLimit count :=
        backwardCursor_antitone later
      have same : log.backwardCursor pageLimit index = log.backwardCursor pageLimit count := by omega
      have pending := mt (pendingUtf8Bytes_pageBefore index moves).mp (not_not.mpr (same ▸ cut))
      omega
    · rw [lastPage_eq] at pending
      have most := @pendingUtf8Bytes_le log pageLimit 0
      have antitone : log.backwardCursor pageLimit count ≤ log.backwardCursor pageLimit (0 + 1) :=
        backwardCursor_antitone first
      change (log.pageBefore pageLimit log.bytes.length).pendingUtf8Bytes + _ ≤ log.bytes.length at most
      omega

/-- A letter and four continuation bytes. -/
def straySuffix : Log := ⟨[0x41, 0x80, 0x80, 0x80, 0x80], "stray", by decide⟩

end MetaResearch.ExperimentLogs

import Mathlib.Data.List.Infix
import Mathlib.Tactic.Common
import Mathlib.Tactic.SplitIfs

/-! # Decoding UTF-8 byte by byte

An incremental decoder that replaces what is not UTF-8. It holds the bytes of a sequence that is not
complete; a byte that does not continue the sequence ends it with a replacement and is read as the first
byte of another. What the decoder holds decodes to nothing, so decoding may stop and start again at it.
-/

namespace MetaResearch

namespace Utf8

/-- `byte & 0xC0 == 0x80` -/
def isContinuation (byte : UInt8) : Bool := byte &&& 0xC0 == 0x80

/-- A byte between two others. -/
def inRange (range : UInt8 × UInt8) (byte : UInt8) : Bool := range.1 ≤ byte && byte ≤ range.2

/-- How many bytes a sequence with this first byte has; none has an invalid one. -/
def lengthOf (first : UInt8) : ℕ :=
  if first < 0x80 then 1
  else if inRange (0xC2, 0xDF) first then 2
  else if inRange (0xE0, 0xEF) first then 3
  else if inRange (0xF0, 0xF4) first then 4
  else 0

/-- The second bytes that may follow a first one: no overlong form, no surrogate, nothing above U+10FFFF. -/
def secondRange (first : UInt8) : UInt8 × UInt8 :=
  if first = 0xE0 then (0xA0, 0xBF)
  else if first = 0xED then (0x80, 0x9F)
  else if first = 0xF0 then (0x90, 0xBF)
  else if first = 0xF4 then (0x80, 0x8F)
  else (0x80, 0xBF)

/-- The bytes that may follow a first one, as far as they were read. -/
def follows (first : UInt8) : List UInt8 → Bool
  | [] => true
  | second :: others => inRange (secondRange first) second && others.all isContinuation

/-- The bytes are the beginning of a sequence, or a whole one. -/
def admits : List UInt8 → Bool
  | [] => false
  | first :: rest => decide (rest.length < lengthOf first) && follows first rest

/-- The bytes are a whole sequence, when they are admitted. -/
def isWhole : List UInt8 → Bool
  | [] => false
  | first :: rest => rest.length + 1 = lengthOf first

/-- The character of a whole sequence. -/
def charOf : List UInt8 → Char
  | [] => '\x00'
  | first :: rest =>
    let lead := match rest.length with
      | 0 => first.toNat
      | 1 => first.toNat % 32
      | 2 => first.toNat % 16
      | _ => first.toNat % 8
    Char.ofNat (rest.foldl (fun value byte => value * 64 + byte.toNat % 64) lead)

/-- What the decoder writes. -/
inductive Piece where
  | char (value : Char)
  | replacement
  deriving DecidableEq

def Piece.value : Piece → Char
  | .char value => value
  | .replacement => '\ufffd'

/-- The text of the pieces. -/
def text (pieces : List Piece) : String := String.ofList (pieces.map Piece.value)

/-- Read a byte after the bytes of an admitted sequence. -/
def accept (bytes : List UInt8) : List Piece × List UInt8 :=
  if isWhole bytes then ([.char (charOf bytes)], []) else ([], bytes)

/-- Read a first byte. -/
def start (byte : UInt8) : List Piece × List UInt8 :=
  if admits [byte] then accept [byte] else ([.replacement], [])

/-- Read a byte after those that are held. -/
def step (held : List UInt8) (byte : UInt8) : List Piece × List UInt8 :=
  if admits (held ++ [byte]) then accept (held ++ [byte])
  else if held.isEmpty then ([.replacement], [])
  else (.replacement :: (start byte).1, (start byte).2)

/-- `decode` with `final=False`, after the bytes that are held; the bytes that are held then. -/
def decode (held : List UInt8) : List UInt8 → List Piece × List UInt8
  | [] => ([], held)
  | byte :: rest => ((step held byte).1 ++ (decode (step held byte).2 rest).1, (decode (step held byte).2 rest).2)

example : decode [] [0x41, 0xC3, 0xA9, 0xE2, 0x82, 0x41, 0xE2, 0x82] =
    ([.char 'A', .char 'é', .replacement, .char 'A'], [0xE2, 0x82]) := by decide

/-! ### Bytes -/

variable {first byte : UInt8} {held bytes rest front back : List UInt8}

/-- A fact about each byte. -/
private theorem forall_byte {holds : UInt8 → Bool}
    (each : ∀ code : Fin 256, holds (UInt8.ofNat code.val) = true) (byte : UInt8) : holds byte = true := by
  have here := each ⟨byte.toNat, byte.toNat_lt⟩
  simpa using here

theorem isContinuation_iff : isContinuation byte = inRange (0x80, 0xBF) byte := by
  have each := @forall_byte (fun byte => isContinuation byte == inRange (0x80, 0xBF) byte)
    (by decide +kernel) byte
  simpa using each

theorem isContinuation_of_second (second : inRange (secondRange first) byte = true) :
    isContinuation byte = true := by
  rw [isContinuation_iff]
  unfold secondRange at second
  simp only [inRange, Bool.and_eq_true, decide_eq_true_eq] at *
  split_ifs at second <;> simp only [UInt8.le_iff_toNat_le] at * <;> exact ⟨by grind, by grind⟩

/-- A byte that begins a longer sequence continues none. -/
theorem not_continuation_of_lengthOf (long : 1 < lengthOf byte) : isContinuation byte = false := by
  have each := @forall_byte (fun byte => !(decide (1 < lengthOf byte) && isContinuation byte))
    (by decide +kernel) byte
  simp only [Bool.not_eq_true', Bool.and_eq_false_iff, decide_eq_false_iff_not] at each
  exact each.resolve_left (not_not.mpr long)

theorem follows_continuation (ok : follows first rest = true) : ∀ byte ∈ rest, isContinuation byte = true := by
  cases rest with
  | nil => simp
  | cons second others =>
    rw [follows, Bool.and_eq_true, List.all_eq_true] at ok
    exact List.forall_mem_cons.mpr ⟨isContinuation_of_second ok.1, ok.2⟩

theorem follows_prefix (ok : follows first (front ++ back) = true) : follows first front = true := by
  cases front with
  | nil => rfl
  | cons second others =>
    rw [List.cons_append, follows, List.all_append, Bool.and_eq_true, Bool.and_eq_true] at ok
    rw [follows, Bool.and_eq_true]
    exact ⟨ok.1, ok.2.1⟩

theorem lengthOf_le : lengthOf byte ≤ 4 := by
  unfold lengthOf
  split_ifs <;> omega

/-! ### What is held -/

/-- The bytes can be held: none, or the beginning of a sequence that is not whole. -/
def Held : List UInt8 → Prop
  | [] => True
  | first :: rest => rest.length + 1 < lengthOf first ∧ follows first rest = true

theorem admits_of_held (held : Held (first :: rest)) : admits (first :: rest) = true := by
  rw [admits, Bool.and_eq_true, decide_eq_true_eq]
  exact ⟨by have := held.1; omega, held.2⟩

theorem held_length (ok : Held held) : held.length ≤ 3 := by
  cases held with
  | nil => simp
  | cons first rest =>
    have := ok.1
    have := @lengthOf_le first
    rw [List.length_cons]
    omega

theorem accept_of_held (ok : Held (first :: rest)) : accept (first :: rest) = ([], first :: rest) := by
  have short : isWhole (first :: rest) = false := by
    rw [isWhole, decide_eq_false_iff_not]
    exact ok.1.ne
  rw [accept, short]
  rfl

theorem held_accept (ok : admits bytes = true) : Held (accept bytes).2 := by
  cases bytes with
  | nil => cases ok
  | cons first rest =>
    rw [admits, Bool.and_eq_true, decide_eq_true_eq] at ok
    unfold accept
    split_ifs with whole
    · trivial
    · rw [isWhole, decide_eq_true_eq] at whole
      exact ⟨by omega, ok.2⟩

theorem held_start : Held (start byte).2 := by
  unfold start
  split_ifs with ok
  · exact held_accept ok
  · trivial

theorem held_step : Held (step held byte).2 := by
  unfold step
  split_ifs with ok
  · exact held_accept ok
  · trivial
  · exact held_start

theorem held_decode (ok : Held held) : Held (decode held bytes).2 := by
  induction bytes generalizing held with
  | nil => exact ok
  | cons byte rest ih => exact ih held_step

theorem held_prefix (some : front ≠ []) (ok : Held (front ++ back)) : Held front := by
  obtain ⟨first, rest, rfl⟩ := List.exists_cons_of_ne_nil some
  have room : (rest ++ back).length + 1 < lengthOf first := ok.1
  rw [List.length_append] at room
  exact ⟨by omega, follows_prefix ok.2⟩

/-- Bytes that can be held are held. -/
theorem decode_of_held (ok : Held (held ++ bytes)) : decode held bytes = ([], held ++ bytes) := by
  induction bytes generalizing held with
  | nil => simp [decode]
  | cons byte rest ih =>
    have whole : Held ((held ++ [byte]) ++ rest) := by simpa using ok
    have some : held ++ [byte] ≠ [] := List.append_ne_nil_of_right_ne_nil _ (List.cons_ne_nil _ _)
    have here := held_prefix some whole
    have taken : step held byte = ([], held ++ [byte]) := by
      obtain ⟨first, others, same⟩ := List.exists_cons_of_ne_nil some
      rw [same] at here
      rw [step, same, if_pos (admits_of_held here), accept_of_held here]
    rw [decode, taken, ih whole]
    simp

theorem decode_held (ok : Held held) : decode [] held = ([], held) :=
  @decode_of_held [] held ok

theorem decode_append :
    decode held (front ++ back) =
      ((decode held front).1 ++ (decode (decode held front).2 back).1, (decode (decode held front).2 back).2) := by
  induction front generalizing held with
  | nil => simp [decode]
  | cons byte rest ih => simp [decode, ih, List.append_assoc]

theorem suffix_accept : (accept bytes).2 <:+ bytes := by
  unfold accept
  split_ifs
  · exact List.nil_suffix
  · exact List.suffix_refl _

theorem suffix_step : (step held byte).2 <:+ held ++ [byte] := by
  unfold step
  split_ifs
  · exact suffix_accept
  · exact List.nil_suffix
  · unfold start
    split_ifs
    · exact suffix_accept.trans (List.suffix_append _ _)
    · exact List.nil_suffix

/-- What is held are the last bytes that were read. -/
theorem suffix_decode : (decode held bytes).2 <:+ held ++ bytes := by
  induction bytes generalizing held with
  | nil => simp [decode]
  | cons byte rest ih =>
    have later : (decode (step held byte).2 rest).2 <:+ (step held byte).2 ++ rest := ih
    have here : (step held byte).2 ++ rest <:+ (held ++ [byte]) ++ rest := by
      obtain ⟨before, same⟩ := @suffix_step byte held
      exact ⟨before, by rw [← List.append_assoc, same]⟩
    simpa [decode] using later.trans here

/-! ### Starting again -/

/-- Decoding may start again with what is held. -/
theorem decode_resume (ok : Held held) : decode [] (held ++ bytes) = decode held bytes := by
  rw [decode_append, decode_held ok]
  simp

/-- A byte that begins a longer sequence is held, whatever was held before it. -/
theorem step_lead (long : 1 < lengthOf byte) : (step held byte).2 = [byte] := by
  have lead : Held [byte] := ⟨by simpa using long, rfl⟩
  have fresh : start byte = ([], [byte]) := by
    rw [start, if_pos (admits_of_held lead), accept_of_held lead]
  cases held with
  | nil => rw [step, List.nil_append, if_pos (admits_of_held lead), accept_of_held lead]
  | cons first others =>
    have refused : admits (first :: others ++ [byte]) = false := by
      by_contra admitted
      rw [Bool.not_eq_false, List.cons_append, admits, Bool.and_eq_true] at admitted
      have continued := follows_continuation admitted.2 byte (by simp)
      rw [not_continuation_of_lengthOf long] at continued
      cases continued
    rw [step, refused]
    simp [fresh]

/-- What can be held at the end of the bytes is held there. -/
theorem decode_held_suffix (ok : Held bytes) (some : bytes ≠ []) : (decode [] (front ++ bytes)).2 = bytes := by
  obtain ⟨first, rest, rfl⟩ := List.exists_cons_of_ne_nil some
  have long : 1 < lengthOf first := by have := ok.1; omega
  rw [decode_append, decode, step_lead long]
  exact congrArg Prod.snd (@decode_of_held [first] rest ok)

end Utf8

end MetaResearch

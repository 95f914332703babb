import MetaResearch.Model.ProviderSupervisor.Capture

/-! # What a capture holds

The drain counts the bytes that it offers, not those that the destination takes. The flag is therefore right for
every way the stream is cut and written, and the destination only if every write takes all that it is given.
-/

namespace MetaResearch.ProviderSupervisor

/-- The bytes of a stream up to its end. -/
def content : List Read → List UInt8
  | .chunk chunk :: rest => if chunk = [] then [] else chunk ++ content rest
  | _ => []

/-- The pieces of a stream within a limit that are to be written, as the reads have cut it. -/
def offered : ℕ → List Read → List (List UInt8)
  | limit, .chunk chunk :: rest =>
    if chunk = [] ∨ limit = 0 then [] else chunk.take limit :: offered (limit - chunk.length) rest
  | _, _ => []

/-- How many bytes a write takes at most. -/
def Fate.count : Fate → ℕ
  | .wrote count => count
  | .failed _ => 0

/-- Each piece is taken as a whole by the write that it is given to. -/
def TakesWhole (fates : ℕ → Fate) : ℕ → List (List UInt8) → Prop
  | _, [] => True
  | index, piece :: rest => piece.length ≤ (fates index).count ∧ TakesWhole fates (index + 1) rest

/-- What the writes take of the pieces. -/
def landed (fates : ℕ → Fate) : ℕ → List (List UInt8) → List UInt8
  | _, [] => []
  | index, piece :: rest => piece.take (fates index).count ++ landed fates (index + 1) rest

/-- The destination holds the stream within the limit, and the flag says whether there was more. -/
structure Pipe.IsExact (pipe : Pipe) : Prop where
  bytes : pipe.boundedStdoutDrain.destination = (content pipe.reads).take pipe.limit
  flag : pipe.boundedStdoutDrain.exceeded = true ↔ pipe.limit < (content pipe.reads).length

/-- Every write takes all the bytes that it is given. -/
def Pipe.WritesWhole (pipe : Pipe) : Prop := TakesWhole pipe.fates 0 (offered pipe.limit pipe.reads)

/-- A receipt of completion seals the whole of both streams. -/
def SealsWhole (stdout result : Pipe) : Prop :=
  sealedReason "completed" stdout result = .ok "completed" →
    stdout.boundedStdoutDrain.destination = content stdout.reads ∧
      result.boundedStdoutDrain.destination = content result.reads

theorem offered_flatten (limit : ℕ) (reads : List Read) :
    (offered limit reads).flatten = (content reads).take limit := by
  induction reads generalizing limit with
  | nil => simp [offered, content]
  | cons read rest ih =>
    cases read with
    | failed error => simp [offered, content]
    | chunk chunk =>
      rw [offered, content]
      by_cases ended : chunk = []
      · simp [ended]
      · by_cases none : limit = 0
        · simp [none]
        · rw [if_neg (by tauto), if_neg ended, List.flatten_cons, ih, List.take_append]

theorem landed_length_le (fates : ℕ → Fate) (index : ℕ) (pieces : List (List UInt8)) :
    (landed fates index pieces).length ≤ pieces.flatten.length := by
  induction pieces generalizing index with
  | nil => exact Nat.le_refl 0
  | cons piece rest ih =>
    rw [landed, List.length_append, List.flatten_cons, List.length_append]
    exact Nat.add_le_add (List.length_take_le' _ _) (ih (index + 1))

/-- A byte that a write does not take is missing at the end. -/
theorem landed_eq_iff (fates : ℕ → Fate) (index : ℕ) (pieces : List (List UInt8)) :
    landed fates index pieces = pieces.flatten ↔ TakesWhole fates index pieces := by
  induction pieces generalizing index with
  | nil => simp [landed, TakesWhole]
  | cons piece rest ih =>
    have shorter := landed_length_le fates (index + 1) rest
    rw [landed, TakesWhole, List.flatten_cons]
    constructor
    · intro same
      have lengths := congrArg List.length same
      rw [List.length_append, List.length_append, List.length_take] at lengths
      have all : piece.length ≤ (fates index).count := by omega
      rw [List.take_of_length_le all] at same
      exact ⟨all, (ih (index + 1)).mp (List.append_cancel_left same)⟩
    · rintro ⟨taken, rests⟩
      rw [(ih (index + 1)).mpr rests, List.take_of_length_le taken]

theorem offered_chunk {limit : ℕ} {chunk : List UInt8} {rest : List Read} (more : chunk ≠ []) :
    offered limit (.chunk chunk :: rest) =
      (if limit = 0 then [] else [chunk.take limit]) ++ offered (limit - chunk.length) rest := by
  rw [offered]
  by_cases none : limit = 0
  · subst none
    rw [if_pos (.inr rfl), if_pos rfl, Nat.zero_sub, List.nil_append]
    cases rest with
    | nil => rfl
    | cons read rest => cases read <;> simp [offered]
  · rw [if_neg (by tauto), if_neg none, List.singleton_append]

theorem landed_append (fates : ℕ → Fate) (index : ℕ) (pieces others : List (List UInt8)) :
    landed fates index (pieces ++ others) =
      landed fates index pieces ++ landed fates (index + pieces.length) others := by
  induction pieces generalizing index with
  | nil => rfl
  | cons piece rest ih =>
    rw [List.cons_append, landed, landed, ih, List.append_assoc, List.length_cons, Nat.add_right_comm, Nat.add_assoc]

/-- What a turn of the loop does to a capture. -/
structure Accepted (limit : ℕ) (fates : ℕ → Fate) (chunk : List UInt8) (before after : Capture) : Prop where
  destination : after.destination = before.destination ++
    landed fates before.writes (if limit - before.written = 0 then [] else [chunk.take (limit - before.written)])
  writes : after.writes = before.writes + (if limit - before.written = 0 then [] else [chunk]).length
  left : limit - after.written = limit - before.written - chunk.length
  exceeded : after.exceeded = (before.exceeded || decide (limit - before.written < chunk.length))

theorem accept_spec {limit : ℕ} {fates : ℕ → Fate} {chunk : List UInt8} {before after : Capture}
    (accepted : before.accept limit fates chunk = .ok after) : Accepted limit fates chunk before after := by
  unfold Capture.accept at accepted
  simp only at accepted
  split_ifs at accepted with room
  · have positive : limit - before.written ≠ 0 := Nat.pos_iff_ne_zero.mp room
    cases fate : fates before.writes with
    | failed error => simp [fate] at accepted
    | wrote count =>
      simp only [fate] at accepted
      obtain rfl := Except.ok.inj accepted
      refine ⟨?_, ?_, ?_, rfl⟩
      · rw [if_neg positive, landed, landed, fate, Fate.count, List.append_nil]
      · rw [if_neg positive, List.length_singleton]
      · have least := List.length_take_le (limit - before.written) chunk
        simp only [List.length_take]
        omega
  · have none : limit - before.written = 0 := by omega
    obtain rfl := Except.ok.inj accepted
    refine ⟨?_, ?_, ?_, rfl⟩
    · rw [if_pos none, landed, List.append_nil]
    · rw [if_pos none, List.length_nil, Nat.add_zero]
    · rw [none, Nat.zero_sub]

/-- What a drain that records no error leaves. -/
structure Drained (limit : ℕ) (fates : ℕ → Fate) (reads : List Read) (before after : Capture) : Prop where
  destination : after.destination =
    before.destination ++ landed fates before.writes (offered (limit - before.written) reads)
  exceeded : after.exceeded = (before.exceeded || decide (limit - before.written < (content reads).length))

theorem drain_spec {limit : ℕ} {fates : ℕ → Fate} {reads : List Read} {capture : Capture}
    (clean : (drain limit fates reads capture).errors = []) :
    Drained limit fates reads capture (drain limit fates reads capture) := by
  induction reads generalizing capture with
  | nil => exact ⟨by simp [drain, offered, landed], by simp [drain, content]⟩
  | cons read rest ih =>
    cases read with
    | failed error => simp [drain] at clean
    | chunk chunk =>
      rw [drain] at clean ⊢
      by_cases ended : chunk = []
      · rw [if_pos ended]
        exact ⟨by simp [offered, landed, ended], by simp [content, ended]⟩
      rw [if_neg ended] at clean ⊢
      cases turn : capture.accept limit fates chunk with
      | error error => simp [turn] at clean
      | ok after =>
        simp only [turn] at clean ⊢
        obtain ⟨destination, writes, left, exceeded⟩ := accept_spec turn
        obtain ⟨later, flag⟩ := ih clean
        constructor
        · rw [later, destination, offered_chunk ended, landed_append, left, writes, List.append_assoc]
          split_ifs <;> rfl
        · rw [flag, exceeded, left, content, if_neg ended, List.length_append, Bool.or_assoc, ← Bool.decide_or]
          congr 2
          exact propext ⟨fun _ => by omega, fun _ => by omega⟩

variable {pipe : Pipe}

/-- The flag is right in any case. -/
theorem exceeded_iff (clean : pipe.boundedStdoutDrain.errors = []) :
    pipe.boundedStdoutDrain.exceeded = true ↔ pipe.limit < (content pipe.reads).length := by
  have flag := (drain_spec clean).exceeded
  rw [Pipe.boundedStdoutDrain, flag]
  simp

theorem isExact_iff (clean : pipe.boundedStdoutDrain.errors = []) : pipe.IsExact ↔ pipe.WritesWhole := by
  have held : pipe.boundedStdoutDrain.destination = landed pipe.fates 0 (offered pipe.limit pipe.reads) :=
    (drain_spec clean).destination
  rw [Pipe.WritesWhole, ← landed_eq_iff, ← held, offered_flatten]
  exact ⟨fun exact => exact.bytes, fun bytes => ⟨bytes, exceeded_iff clean⟩⟩

theorem sealsWhole_of_isExact {stdout result : Pipe} (output : stdout.IsExact) (message : result.IsExact) :
    SealsWhole stdout result := by
  intro completed
  unfold sealedReason at completed
  simp only at completed
  split_ifs at completed with failed limited
  · exact absurd (Except.ok.inj completed) (by decide)
  · simp only [Bool.or_eq_true, decide_eq_true_eq, not_or, output.flag, message.flag] at limited
    rw [output.bytes, message.bytes, List.take_of_length_le (by omega), List.take_of_length_le (by omega)]
    exact ⟨rfl, rfl⟩

/-- Both outputs are captured exactly, and sealed as completed only as a whole, if and only if every write takes
all that it is given. -/
theorem capture_exact_iff (stdout result : Pipe) (clean : stdout.boundedStdoutDrain.errors = [])
    (clear : result.boundedStdoutDrain.errors = []) :
    (stdout.IsExact ∧ result.IsExact ∧ SealsWhole stdout result) ↔ (stdout.WritesWhole ∧ result.WritesWhole) := by
  rw [← isExact_iff clean, ← isExact_iff clear]
  exact ⟨fun ⟨output, message, _⟩ => ⟨output, message⟩,
    fun ⟨output, message⟩ => ⟨output, message, sealsWhole_of_isExact output message⟩⟩

/-- A stream of two bytes, whose destination takes one byte a write. -/
def shortPipe : Pipe := ⟨8, [.chunk [1, 2]], fun _ => .wrote 1⟩

def wholePipe : Pipe := ⟨8, [.chunk [1, 2]], fun _ => .wrote 2⟩

/-- The second byte is lost without an error, and the receipt says that the provider has completed. -/
theorem short_write_sealed : shortPipe.boundedStdoutDrain.errors = [] ∧ ¬ shortPipe.IsExact ∧
    sealedReason "completed" shortPipe wholePipe = .ok "completed" ∧
    shortPipe.boundedStdoutDrain.destination = [1] ∧ content shortPipe.reads = [1, 2] := by
  refine ⟨rfl, fun exact => ?_, rfl, rfl, rfl⟩
  exact absurd exact.bytes (by decide)

theorem whole_write_exact :
    (wholePipe.IsExact ∧ wholePipe.IsExact ∧ SealsWhole wholePipe wholePipe) ↔
      (wholePipe.WritesWhole ∧ wholePipe.WritesWhole) :=
  capture_exact_iff wholePipe wholePipe rfl rfl

end MetaResearch.ProviderSupervisor

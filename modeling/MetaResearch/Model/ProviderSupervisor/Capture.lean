import Mathlib.Data.List.Basic

/-! # Capturing the output of a provider

`_bounded_stdout_drain` and what `_supervise_locked` makes of it, where both outputs of the provider are pipes.
The destination is an unbuffered file, whose `write` may take fewer bytes than it is given.
-/

namespace MetaResearch.ProviderSupervisor

/-- What a read of the stream gives: bytes, none at its end. -/
inductive Read where
  | chunk (bytes : List UInt8)
  | failed (error : String)

/-- What a write to the destination does: it takes so many of the bytes at most. -/
inductive Fate where
  | wrote (count : ℕ)
  | failed (error : String)

structure Capture where
  destination : List UInt8 := []
  writes : ℕ := 0
  written : ℕ := 0
  exceeded : Bool := false
  errors : List String := []
deriving DecidableEq

/-- One turn of the loop, with a chunk that is not empty. -/
def Capture.accept (limit : ℕ) (fates : ℕ → Fate) (capture : Capture) (chunk : List UInt8) : Except String Capture :=
  let remaining := limit - capture.written
  let exceeded := capture.exceeded || decide (remaining < chunk.length)
  if 0 < remaining then
    let accepted := chunk.take remaining
    match fates capture.writes with
    | .failed error => .error error
    | .wrote count => .ok
        { capture with
          destination := capture.destination ++ accepted.take count
          writes := capture.writes + 1
          written := capture.written + accepted.length
          exceeded }
  else .ok { capture with exceeded }

/-- The loop of `_bounded_stdout_drain`. -/
def drain (limit : ℕ) (fates : ℕ → Fate) : List Read → Capture → Capture
  | [], capture => capture
  | .failed error :: _, capture => { capture with errors := capture.errors ++ [error] }
  | .chunk chunk :: rest, capture =>
    if chunk = [] then capture
    else match capture.accept limit fates chunk with
      | .error error => { capture with errors := capture.errors ++ [error] }
      | .ok capture => drain limit fates rest capture

/-- A stream as it is read, its destination as it is written, and the limit. -/
structure Pipe where
  limit : ℕ
  reads : List Read
  fates : ℕ → Fate

/-- `_bounded_stdout_drain` -/
def Pipe.boundedStdoutDrain (pipe : Pipe) : Capture := drain pipe.limit pipe.fates pipe.reads {}

/-- The termination reason that `_supervise_locked` seals, once both drains have ended. -/
def sealedReason (terminationReason : String) (stdout result : Pipe) : Except String String :=
  let output := stdout.boundedStdoutDrain
  let message := result.boundedStdoutDrain
  if !(output.errors.isEmpty && message.errors.isEmpty) then .error "provider_stdout_capture_failed"
  else if output.exceeded || message.exceeded || decide (stdout.limit < output.destination.length) ||
      decide (result.limit < message.destination.length) then .ok "output_limit"
  else .ok terminationReason

end MetaResearch.ProviderSupervisor

import Mathlib.Data.List.Basic

/-! # Runs of a deterministic machine with inputs

A machine answers each input with a next state. A run feeds it a list of inputs, each of which may
have to be admissible in the state it meets. What holds at first and is kept by every admissible
step holds after every prefix of an admissible run.
-/

namespace MetaResearch

variable {σ ι : Type*}

/-- The state after a list of inputs. -/
def runInputs (step : σ → ι → σ) (start : σ) (inputs : List ι) : σ := inputs.foldl step start

/-- Every input is admissible in the state it meets. -/
def Admissible (step : σ → ι → σ) (allowed : σ → ι → Prop) : σ → List ι → Prop
  | _, [] => True
  | state, input :: rest => allowed state input ∧ Admissible step allowed (step state input) rest

instance decidableAdmissible {step : σ → ι → σ} {allowed : σ → ι → Prop}
    [∀ state input, Decidable (allowed state input)] :
    ∀ (start : σ) (inputs : List ι), Decidable (Admissible step allowed start inputs)
  | _, [] => isTrue True.intro
  | start, input :: rest =>
    have : Decidable (Admissible step allowed (step start input) rest) := decidableAdmissible _ rest
    inferInstanceAs (Decidable (_ ∧ _))

variable {step : σ → ι → σ} {allowed : σ → ι → Prop} {start : σ}

@[simp] theorem runInputs_nil : runInputs step start [] = start := rfl

@[simp] theorem runInputs_cons (input : ι) (rest : List ι) :
    runInputs step start (input :: rest) = runInputs step (step start input) rest := rfl

theorem runInputs_append (first second : List ι) :
    runInputs step start (first ++ second) = runInputs step (runInputs step start first) second :=
  List.foldl_append

theorem Admissible.append_iff {first second : List ι} :
    Admissible step allowed start (first ++ second) ↔
      Admissible step allowed start first ∧
        Admissible step allowed (runInputs step start first) second := by
  induction first generalizing start with
  | nil => simp [Admissible]
  | cons input rest ih => simp only [List.cons_append, Admissible, ih, runInputs_cons, and_assoc]

/-- Any run is admissible when nothing is asked of its inputs. -/
theorem Admissible.trivial (inputs : List ι) : Admissible step (fun _ _ => True) start inputs := by
  induction inputs generalizing start with
  | nil => exact True.intro
  | cons input rest ih => exact ⟨True.intro, ih⟩

/-- The induction over runs: an invariant of the first state that every admissible step keeps. -/
theorem Admissible.invariant {invariant : σ → Prop} {inputs : List ι} (initial : invariant start)
    (keeps : ∀ state input, invariant state → allowed state input → invariant (step state input))
    (run : Admissible step allowed start inputs) : invariant (runInputs step start inputs) := by
  induction inputs generalizing start with
  | nil => exact initial
  | cons input rest ih => exact ih (keeps start input initial run.1) run.2

theorem Admissible.mono {other : σ → ι → Prop} {inputs : List ι} (run : Admissible step allowed start inputs)
    (weaker : ∀ state input, allowed state input → other state input) :
    Admissible step other start inputs := by
  induction inputs generalizing start with
  | nil => exact True.intro
  | cons input rest ih => exact ⟨weaker start input run.1, ih run.2⟩

/-- What follows from an invariant and admissibility is met by every input of the run. -/
theorem Admissible.imp {other : σ → ι → Prop} {invariant : σ → Prop} {inputs : List ι}
    (run : Admissible step allowed start inputs) (initial : invariant start)
    (keeps : ∀ state input, invariant state → allowed state input → invariant (step state input))
    (weaker : ∀ state input, invariant state → allowed state input → other state input) :
    Admissible step other start inputs := by
  induction inputs generalizing start with
  | nil => exact True.intro
  | cons input rest ih =>
    exact ⟨weaker start input initial run.1, ih run.2 (keeps start input initial run.1)⟩

end MetaResearch

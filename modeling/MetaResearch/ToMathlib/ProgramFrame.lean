import MetaResearch.ToMathlib.Program
import Mathlib.Order.Defs.Unbundled

/-! # What a program may change

A relation between the worlds before and after a run frames a program when it holds however the
surroundings answer and however the run ends. For a preorder this is compositional without any
precondition, so a whole family of programs is framed part by part.

`Ends` is the triple whose last postcondition may depend on why the program stopped. A framed
program keeps every fact that the relation keeps.
-/

namespace MetaResearch

variable {ρ σ ε α β : Type}

namespace Prog

/-- However the run ends, it leaves a world that the relation allows after the first one. -/
def Leaves (R : σ → σ → Prop) (prog : Prog ρ σ ε α) : Prop :=
  ∀ env world, R world (prog env world).2

namespace Leaves

variable {R S : σ → σ → Prop} {prog : Prog ρ σ ε α}

theorem mono (leaves : Leaves R prog) (weaker : ∀ before after, R before after → S before after) :
    Leaves S prog :=
  fun env world => weaker _ _ (leaves env world)

theorem attempt (leaves : Leaves R prog) : Leaves R prog.attempt := by
  intro env world
  have reached := leaves env world
  unfold Prog.attempt
  rcases ran : prog env world with ⟨(_ | _) | _, after⟩ <;> simpa only [ran] using reached

section Preorder

variable [IsPreorder σ R]

theorem pure {value : α} : Leaves R (Pure.pure value : Prog ρ σ ε α) := fun _ world => refl_of R world

theorem raise {error : ε} : Leaves R (Prog.raise error : Prog ρ σ ε α) :=
  fun _ world => refl_of R world

theorem bind {next : α → Prog ρ σ ε β} (first : Leaves R prog) (rest : ∀ value, Leaves R (next value)) :
    Leaves R (prog >>= next) := by
  intro env world
  have reached := first env world
  change R world (Prog.bind prog next env world).2
  unfold Prog.bind
  rcases ran : prog env world with ⟨_ | value, after⟩
  · simpa only [ran] using reached
  · rw [ran] at reached
    exact trans_of R reached (rest value env after)

/-- The loop rule: a frame of every round is a frame of the loop. -/
theorem forEach {body : α → Prog ρ σ ε Unit} {items : List α} (round : ∀ item, Leaves R (body item)) :
    Leaves R (Prog.forEach body items) := by
  induction items with
  | nil => exact pure
  | cons item rest ih => exact bind (round item) fun _ => ih

end Preorder

section Interaction

variable {δ μ : Type} {R : World δ μ → World δ μ → Prop}

theorem observe [IsPreorder (World δ μ) R] {view : World δ μ → α} :
    Leaves R (Prog.observe view : Prog ρ (World δ μ) ε α) :=
  fun _ world => refl_of R world

theorem ask {answer : ρ → ℕ → α} (later : ∀ world, R world { world with tick := world.tick + 1 }) :
    Leaves R (Prog.ask answer : Prog ρ (World δ μ) ε α) :=
  fun _ world => later world

theorem remember {change : μ → μ} (moves : ∀ world, R world { world with memory := change world.memory }) :
    Leaves R (Prog.remember change : Prog ρ (World δ μ) ε Unit) :=
  fun _ world => moves world

/-- An atomic transaction only has to be framed where it succeeds. -/
theorem commit [Mortal ρ] {transaction : δ → Except ε (α × δ)}
    (later : ∀ world, R world { world with tick := world.tick + 1 })
    (moves : ∀ world value durable, transaction world.durable = .ok (value, durable) →
      R world { world with durable := durable, tick := world.tick + 1 }) :
    Leaves R (Prog.commit transaction : Prog ρ (World δ μ) ε α) := by
  intro env world
  unfold Prog.commit
  dsimp only
  split_ifs
  · exact later world
  · rcases ran : transaction world.durable with _ | ⟨value, durable⟩
    · exact later world
    · exact moves world value durable ran

end Interaction

end Leaves

end Prog

/-- In surroundings `env`, a run from a world of `pre` ends in `post` if it returns, and in
`stopped` of its reason if it stops. -/
def Ends (env : ρ) (pre : σ → Prop) (prog : Prog ρ σ ε α) (post : α → σ → Prop)
    (stopped : Stop ε → σ → Prop) : Prop :=
  ∀ world, pre world →
    match prog env world with
    | (.ok value, after) => post value after
    | (.error stop, after) => stopped stop after

namespace Ends

variable {env : ρ} {pre : σ → Prop} {stopped : Stop ε → σ → Prop} {prog : Prog ρ σ ε α}

theorem pure {post : α → σ → Prop} {value : α} (holds : ∀ world, pre world → post value world) :
    Ends env pre (Pure.pure value) post stopped :=
  fun world start => holds world start

theorem raise {post : α → σ → Prop} {error : ε}
    (holds : ∀ world, pre world → stopped (.raised error) world) :
    Ends env pre (Prog.raise error) post stopped :=
  fun world start => holds world start

theorem bind {next : α → Prog ρ σ ε β} {mid : α → σ → Prop} {post : β → σ → Prop}
    (first : Ends env pre prog mid stopped)
    (rest : ∀ value, Ends env (mid value) (next value) post stopped) :
    Ends env pre (prog >>= next) post stopped := by
  intro world start
  have reached := first world start
  change match Prog.bind prog next env world with
    | (.ok value, after) => post value after
    | (.error stop, after) => stopped stop after
  unfold Prog.bind
  rcases ran : prog env world with ⟨_ | value, after⟩
  · simpa only [ran] using reached
  · rw [ran] at reached
    exact rest value after reached

theorem consequence {pre' : σ → Prop} {post post' : α → σ → Prop} {stopped' : Stop ε → σ → Prop}
    (ends : Ends env pre prog post stopped) (stronger : ∀ world, pre' world → pre world)
    (weaker : ∀ value world, post value world → post' value world)
    (stops : ∀ stop world, stopped stop world → stopped' stop world) :
    Ends env pre' prog post' stopped' := by
  intro world start
  have reached := ends world (stronger world start)
  rcases ran : prog env world with ⟨stop | value, after⟩
  · rw [ran] at reached
    exact stops stop after reached
  · rw [ran] at reached
    exact weaker value after reached

/-- Strengthen only the precondition. -/
theorem assuming {pre' : σ → Prop} {post : α → σ → Prop} (ends : Ends env pre prog post stopped)
    (stronger : ∀ world, pre' world → pre world) : Ends env pre' prog post stopped :=
  ends.consequence stronger (fun _ _ => id) fun _ _ => id

/-- Weaken only the postcondition of a returning run. -/
theorem concluding {post post' : α → σ → Prop} (ends : Ends env pre prog post stopped)
    (weaker : ∀ value world, post value world → post' value world) : Ends env pre prog post' stopped :=
  ends.consequence (fun _ => id) weaker fun _ _ => id

/-- A framed program keeps what its frame keeps. -/
theorem framed {R : σ → σ → Prop} (leaves : prog.Leaves R)
    (kept : ∀ before after, R before after → pre before → pre after)
    (stops : ∀ stop world, pre world → stopped stop world) :
    Ends env pre prog (fun _ => pre) stopped := by
  intro world start
  have reached := kept _ _ (leaves env world) start
  rcases ran : prog env world with ⟨stop | value, after⟩
  · exact stops stop after (by simpa only [ran] using reached)
  · simpa only [ran] using reached

section Interaction

variable {δ μ : Type} {pre : World δ μ → Prop} {stopped : Stop ε → World δ μ → Prop}

theorem observe {view : World δ μ → α} {post : α → World δ μ → Prop}
    (holds : ∀ world, pre world → post (view world) world) :
    Ends env pre (Prog.observe view) post stopped :=
  fun world start => holds world start

/-- What is read is remembered. -/
theorem reads {view : World δ μ → α} :
    Ends env pre (Prog.observe view) (fun value world => pre world ∧ view world = value) stopped :=
  observe fun _ start => ⟨start, rfl⟩

/-- A reading whose value is known. -/
theorem known {view : World δ μ → α} {value : α} {next : α → Prog ρ (World δ μ) ε β}
    {post : β → World δ μ → Prop} (same : ∀ world, pre world → view world = value)
    (rest : Ends env pre (next value) post stopped) :
    Ends env pre (Prog.observe view >>= next) post stopped := by
  intro world start
  have reached := rest world start
  rwa [← same world start] at reached

theorem ask {answer : ρ → ℕ → α} {post : α → World δ μ → Prop}
    (holds : ∀ world, pre world →
      post (answer env world.tick) { world with tick := world.tick + 1 }) :
    Ends env pre (Prog.ask answer) post stopped :=
  fun world start => holds world start

/-- A transaction dies or raises without a trace, or changes the durable state as a whole. -/
theorem commit [Mortal ρ] {transaction : δ → Except ε (α × δ)} {post : α → World δ μ → Prop}
    (kept : ∀ stop world, pre world → stopped stop { world with tick := world.tick + 1 })
    (done : ∀ world value durable, pre world → transaction world.durable = .ok (value, durable) →
      post value { world with durable := durable, tick := world.tick + 1 }) :
    Ends env pre (Prog.commit transaction) post stopped := by
  intro world start
  unfold Prog.commit
  dsimp only
  split_ifs
  · exact kept .died world start
  · rcases ran : transaction world.durable with error | ⟨value, durable⟩
    · exact kept (.raised error) world start
    · exact done world value durable start ran

/-- A transaction that cannot raise. -/
theorem commit_total [Mortal ρ] {transaction : δ → δ} {post : Unit → World δ μ → Prop}
    (dies : ∀ world, pre world → stopped .died { world with tick := world.tick + 1 })
    (done : ∀ world, pre world →
      post () { world with durable := transaction world.durable, tick := world.tick + 1 }) :
    Ends env pre (Prog.commit fun durable => .ok ((), transaction durable)) post stopped := by
  intro world start
  unfold Prog.commit
  dsimp only
  split_ifs
  · exact dies world start
  · exact done world start

end Interaction

end Ends

end MetaResearch

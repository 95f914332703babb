import Mathlib.Data.Nat.Notation
import Mathlib.Tactic.SplitIfs

/-! # Programs over a durable store that may stop

A program reads its surroundings `ρ`, threads a world and either returns or stops: it raises an
exception of `ε`, or its process dies. The world is a durable part, the memory of the process, and
a count of the interactions so far. Surroundings answer the interaction of each number on their
own, so a statement about all surroundings covers every sequence of outside answers and every
point at which the process can die. Durable writes are atomic: a transaction that raises, or whose
process dies, changes nothing.

`Triple` is partial correctness with a second postcondition for stopped programs. Its rules are
compositional, so the proof of a program follows its text.
-/

namespace MetaResearch

/-- Why a program did not return. -/
inductive Stop (ε : Type) where
  | raised (error : ε)
  | died
deriving DecidableEq, Repr

/-- Durable state, process memory and the number of interactions so far. -/
structure World (δ μ : Type) where
  durable : δ
  memory : μ
  tick : ℕ

/-- Surroundings that decide at which interaction the process dies. -/
class Mortal (ρ : Type) where
  dies : ρ → ℕ → Bool

/-- A program over worlds `σ` in surroundings `ρ`. -/
def Prog (ρ σ ε α : Type) : Type := ρ → σ → Except (Stop ε) α × σ

namespace Prog

variable {ρ σ ε α β : Type}

protected def pure (value : α) : Prog ρ σ ε α := fun _ world => (.ok value, world)

protected def bind (prog : Prog ρ σ ε α) (next : α → Prog ρ σ ε β) : Prog ρ σ ε β :=
  fun env world =>
    match prog env world with
    | (.ok value, after) => next value env after
    | (.error stop, after) => (.error stop, after)

instance : Monad (Prog ρ σ ε) where
  pure := Prog.pure
  bind := Prog.bind

/-- Stop with an exception. -/
def raise (error : ε) : Prog ρ σ ε α := fun _ world => (.error (.raised error), world)

/-- Catch an exception; the death of the process cannot be caught. -/
def attempt (prog : Prog ρ σ ε α) : Prog ρ σ ε (Except ε α) := fun env world =>
  match prog env world with
  | (.ok value, after) => (.ok (.ok value), after)
  | (.error (.raised error), after) => (.ok (.error error), after)
  | (.error .died, after) => (.error .died, after)

/-- Run a program for each element of a list in order. -/
def forEach (body : α → Prog ρ σ ε Unit) : List α → Prog ρ σ ε Unit
  | [] => pure ()
  | item :: rest => body item >>= fun _ => forEach body rest

/-- What holds of the result if the program returns; a stopped run promises nothing. -/
def Returns (prog : Prog ρ σ ε α) (env : ρ) (world : σ) (post : α → σ → Prop) : Prop :=
  match prog env world with
  | (.ok value, after) => post value after
  | (.error _, _) => True

instance {prog : Prog ρ σ ε α} {env : ρ} {world : σ} {post : α → σ → Prop}
    [∀ value after, Decidable (post value after)] : Decidable (prog.Returns env world post) :=
  match ran : prog env world with
  | (.ok value, after) => decidable_of_iff (post value after) (by simp [Returns, ran])
  | (.error _, _) => isTrue (by simp [Returns, ran])

theorem returns_bind {prog : Prog ρ σ ε α} {next : α → Prog ρ σ ε β} {env : ρ} {world : σ}
    {post : β → σ → Prop} :
    (prog >>= next).Returns env world post ↔
      prog.Returns env world fun value after => (next value).Returns env after post := by
  change (Prog.bind prog next).Returns env world post ↔ _
  unfold Returns Prog.bind
  rcases prog env world with ⟨_ | _, after⟩ <;> rfl

theorem Returns.imp {prog : Prog ρ σ ε α} {env : ρ} {world : σ} {post post' : α → σ → Prop}
    (returns : prog.Returns env world post) (weaker : ∀ value after, post value after → post' value after) :
    prog.Returns env world post' := by
  unfold Returns at *
  split
  · rename_i ran
    exact weaker _ _ (by simpa only [ran] using returns)
  · exact True.intro

/-- A condition can be moved below the run. -/
theorem Returns.under {prog : Prog ρ σ ε α} {env : ρ} {world : σ} {condition : Prop}
    {post : α → σ → Prop} (returns : condition → prog.Returns env world post) :
    prog.Returns env world fun value after => condition → post value after := by
  unfold Returns at *
  split
  · rename_i ran
    exact fun on => by simpa only [ran] using returns on
  · exact True.intro

section Interaction

variable {δ μ : Type}

/-- Observe the world; other interactions cannot come between. -/
def observe (view : World δ μ → α) : Prog ρ (World δ μ) ε α := fun _ world => (.ok (view world), world)

/-- Change the memory of the process. -/
def remember (change : μ → μ) : Prog ρ (World δ μ) ε Unit := fun _ world =>
  (.ok (), { world with memory := change world.memory })

/-- Ask the surroundings; the answer depends on the number of the interaction. -/
def ask (answer : ρ → ℕ → α) : Prog ρ (World δ μ) ε α := fun env world =>
  (.ok (answer env world.tick), { world with tick := world.tick + 1 })

/-- Run one atomic transaction on the durable state. -/
def commit [Mortal ρ] (transaction : δ → Except ε (α × δ)) : Prog ρ (World δ μ) ε α :=
  fun env world =>
    let after := { world with tick := world.tick + 1 }
    if Mortal.dies env world.tick then (.error .died, after)
    else
      match transaction world.durable with
      | .error error => (.error (.raised error), after)
      | .ok (value, durable) => (.ok value, { after with durable := durable })

end Interaction

end Prog

/-- In surroundings `env`, a run from a world of `pre` ends in `post` if it returns, and in
`stopped` if it stops. -/
def Triple {ρ σ ε α : Type} (env : ρ) (pre : σ → Prop) (prog : Prog ρ σ ε α)
    (post : α → σ → Prop) (stopped : σ → Prop) : Prop :=
  ∀ world, pre world →
    match prog env world with
    | (.ok value, after) => post value after
    | (.error _, after) => stopped after

namespace Triple

variable {ρ σ ε α β : Type} {env : ρ} {pre : σ → Prop} {stopped : σ → Prop}

theorem pure {post : α → σ → Prop} {value : α} (holds : ∀ world, pre world → post value world) :
    Triple (ε := ε) env pre (Pure.pure value) post stopped :=
  fun world start => holds world start

theorem raise {post : α → σ → Prop} {error : ε} (holds : ∀ world, pre world → stopped world) :
    Triple env pre (Prog.raise error) post stopped :=
  fun world start => holds world start

theorem bind {prog : Prog ρ σ ε α} {next : α → Prog ρ σ ε β} {mid : α → σ → Prop}
    {post : β → σ → Prop} (first : Triple env pre prog mid stopped)
    (rest : ∀ value, Triple env (mid value) (next value) post stopped) :
    Triple env pre (prog >>= next) post stopped := by
  intro world start
  have reached := first world start
  change match Prog.bind prog next env world with
    | (.ok value, after) => post value after
    | (.error _, after) => stopped after
  unfold Prog.bind
  rcases ran : prog env world with ⟨_ | value, after⟩
  · simpa only [ran] using reached
  · rw [ran] at reached
    exact rest value after reached

theorem consequence {prog : Prog ρ σ ε α} {pre' : σ → Prop} {post post' : α → σ → Prop}
    {stopped' : σ → Prop} (triple : Triple env pre prog post stopped)
    (stronger : ∀ world, pre' world → pre world)
    (weaker : ∀ value world, post value world → post' value world)
    (stops : ∀ world, stopped world → stopped' world) : Triple env pre' prog post' stopped' := by
  intro world start
  have reached := triple world (stronger world start)
  rcases ran : prog env world with ⟨_ | value, after⟩
  · rw [ran] at reached
    exact stops after reached
  · rw [ran] at reached
    exact weaker value after reached

/-- Strengthen only the precondition. -/
theorem assuming {prog : Prog ρ σ ε α} {pre' : σ → Prop} {post : α → σ → Prop}
    (triple : Triple env pre prog post stopped) (stronger : ∀ world, pre' world → pre world) :
    Triple env pre' prog post stopped :=
  triple.consequence stronger (fun _ _ => id) (fun _ => id)

/-- Weaken only the postcondition of a returning run. -/
theorem concluding {prog : Prog ρ σ ε α} {post post' : α → σ → Prop}
    (triple : Triple env pre prog post stopped)
    (weaker : ∀ value world, post value world → post' value world) :
    Triple env pre prog post' stopped :=
  triple.consequence (fun _ => id) weaker (fun _ => id)

/-- A fact that does not mention the world can be used outside the run. -/
theorem given {prog : Prog ρ σ ε α} {fact : Prop} {post : α → σ → Prop}
    (triple : fact → Triple env pre prog post stopped) :
    Triple env (fun world => pre world ∧ fact) prog post stopped :=
  fun world start => triple start.2 world start.1

/-- What is asked of the returned world before the run holds there. -/
theorem returning {prog : Prog ρ σ ε α} {post asked : α → σ → Prop}
    (triple : Triple env pre prog post stopped) :
    Triple env (fun world => pre world ∧ prog.Returns env world asked) prog
      (fun value world => post value world ∧ asked value world) stopped := by
  rintro world ⟨start, returns⟩
  have reached := triple world start
  unfold Prog.Returns at returns
  rcases ran : prog env world with ⟨_ | value, after⟩
  · simpa only [ran] using reached
  · rw [ran] at reached returns
    exact ⟨reached, returns⟩

theorem attempt {prog : Prog ρ σ ε α} {post : Except ε α → σ → Prop}
    (triple : Triple env pre prog (fun value => post (.ok value)) stopped)
    (caught : ∀ error world, stopped world → post (.error error) world) :
    Triple env pre prog.attempt post stopped := by
  intro world start
  have reached := triple world start
  unfold Prog.attempt
  rcases ran : prog env world with ⟨(error | _) | value, after⟩
  · rw [ran] at reached
    exact caught error after reached
  · simpa only [ran] using reached
  · simpa only [ran] using reached

/-- The loop rule: an invariant of every round is an invariant of the loop. -/
theorem forEach {body : α → Prog ρ σ ε Unit} {items : List α} {invariant : σ → Prop}
    (round : ∀ item ∈ items, Triple env invariant (body item) (fun _ => invariant) stopped) :
    Triple env invariant (Prog.forEach body items) (fun _ => invariant) stopped := by
  induction items with
  | nil => exact pure fun _ => id
  | cons item rest ih =>
    exact bind (round item List.mem_cons_self)
      fun _ => ih fun other member => round other (List.mem_cons_of_mem _ member)

section Interaction

variable {δ μ : Type} {pre stopped : World δ μ → Prop}

theorem observe {view : World δ μ → α} {post : α → World δ μ → Prop}
    (holds : ∀ world, pre world → post (view world) world) :
    Triple (ε := ε) env pre (Prog.observe view) post stopped :=
  fun world start => holds world start

theorem remember {change : μ → μ} {post : Unit → World δ μ → Prop}
    (holds : ∀ world, pre world → post () { world with memory := change world.memory }) :
    Triple (ε := ε) env pre (Prog.remember change) post stopped :=
  fun world start => holds world start

theorem ask {answer : ρ → ℕ → α} {post : α → World δ μ → Prop}
    (holds : ∀ world, pre world →
      post (answer env world.tick) { world with tick := world.tick + 1 }) :
    Triple (ε := ε) env pre (Prog.ask answer) post stopped :=
  fun world start => holds world start

/-- A transaction either leaves the durable state as it was, or changes it as a whole. -/
theorem commit [Mortal ρ] {transaction : δ → Except ε (α × δ)} {post : α → World δ μ → Prop}
    (kept : ∀ world, pre world → stopped { world with tick := world.tick + 1 })
    (done : ∀ world value durable, pre world → transaction world.durable = .ok (value, durable) →
      post value { world with durable := durable, tick := world.tick + 1 }) :
    Triple env pre (Prog.commit transaction) post stopped := by
  intro world start
  unfold Prog.commit
  dsimp only
  split_ifs
  · exact kept world start
  · rcases ran : transaction world.durable with _ | ⟨value, durable⟩
    · exact kept world start
    · exact done world value durable start ran

end Interaction

end Triple

end MetaResearch

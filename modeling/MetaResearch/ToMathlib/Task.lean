import MetaResearch.ToMathlib.Run
import Mathlib.Order.Defs.Unbundled

/-! # Tasks that interleave over a shared store

A task performs one transaction after the other and then answers; between two of its transactions any
other task may run, and a task that is never run again has crashed. A transaction sees the store it
meets, and what the task does next may depend on it.

A proof may keep a log next to the store, that no task sees. A task is `Sound` for a preorder when the log
can be continued so that each of its transactions moves store and log along the preorder, and its answer is
right for whatever the others may leave by moves of their own. In a pool of sound tasks there is a log such
that store and log have moved along the preorder, whatever the schedule, and every answer given is right.
-/

namespace MetaResearch

/-- A task over stores `σ` that answers with an `α` or raises an `ε`. -/
inductive Task (σ ε α : Type) where
  | done (answer : Except ε α)
  | step (transaction : σ → σ) (rest : σ → Task σ ε α)

namespace Task

variable {σ ε α β γ : Type}

protected def bind : Task σ ε α → (α → Task σ ε β) → Task σ ε β
  | done (.ok value), next => next value
  | done (.error error), _ => done (.error error)
  | step transaction rest, next => step transaction fun state => (rest state).bind next

instance : Monad (Task σ ε) where
  pure value := done (.ok value)
  bind := Task.bind

/-- A check that does not touch the store. -/
def ofExcept (answer : Except ε α) : Task σ ε α := done answer

/-- One transaction; the store stays as it is when it raises. -/
def atomically (run : σ → Except ε (α × σ)) : Task σ ε α :=
  step (fun state => ((run state).toOption.map Prod.snd).getD state)
    fun state => done ((run state).map Prod.fst)

/-- The log can be continued so that the transactions move along a relation and the answer is right,
whatever moves along the relation come between the transactions. -/
def Sound (R : σ × γ → σ × γ → Prop) : Task σ ε α → (σ × γ → Prop) → (Except ε α → σ × γ → Prop) → Prop
  | done answer, pre, post => ∀ now, pre now → post answer now
  | step transaction rest, pre, post => ∀ state log, pre (state, log) →
      ∃ log', R (state, log) (transaction state, log') ∧
        (rest state).Sound R (fun later => R (transaction state, log') later) post

namespace Sound

variable {R : σ × γ → σ × γ → Prop} {task : Task σ ε α} {pre pre' : σ × γ → Prop}
  {post post' : Except ε α → σ × γ → Prop}

theorem consequence (sound : task.Sound R pre post) (stronger : ∀ now, pre' now → pre now)
    (weaker : ∀ answer now, post answer now → post' answer now) : task.Sound R pre' post' := by
  induction task generalizing pre pre' with
  | done answer => exact fun now holds => weaker _ _ (sound now (stronger now holds))
  | step transaction rest ih =>
    intro state log holds
    obtain ⟨log', moved, later⟩ := sound state log (stronger _ holds)
    exact ⟨log', moved, ih state later fun _ => id⟩

/-- A task may be started wherever the precondition holds. -/
theorem of_forall (sound : ∀ start, pre start → task.Sound R (fun now => now = start) post) :
    task.Sound R pre post := by
  cases task with
  | done answer => exact fun now holds => sound now holds now rfl
  | step transaction rest => exact fun state log holds => sound _ holds state log rfl

theorem ofExcept {answer : Except ε α} (right : ∀ now, pre now → post answer now) :
    (Task.ofExcept answer : Task σ ε α).Sound R pre post := right

theorem bind {next : α → Task σ ε β} {after : Except ε β → σ × γ → Prop} (first : task.Sound R pre post)
    (raised : ∀ error now, post (.error error) now → after (.error error) now)
    (rest : ∀ value, (next value).Sound R (post (.ok value)) after) :
    (task >>= next).Sound R pre after := by
  induction task generalizing pre with
  | done answer =>
    cases answer with
    | error error => exact fun now holds => raised error now (first now holds)
    | ok value => exact (rest value).consequence first fun _ _ => id
  | step transaction later ih =>
    intro state log holds
    obtain ⟨log', moved, sound⟩ := first state log holds
    exact ⟨log', moved, ih state sound⟩

/-- A transaction that returns moves the store, and one that raises leaves it. -/
theorem atomically {run : σ → Except ε (α × σ)}
    (returned : ∀ before log value after, pre (before, log) → run before = .ok (value, after) →
      ∃ log', R (before, log) (after, log') ∧ ∀ later, R (after, log') later → post (.ok value) later)
    (raised : ∀ before log error, pre (before, log) → run before = .error error →
      ∃ log', R (before, log) (before, log') ∧ ∀ later, R (before, log') later → post (.error error) later) :
    (atomically run).Sound R pre post := by
  intro state log holds
  cases ran : run state with
  | error error =>
    simp only [ran, Except.toOption, Option.map_none, Option.getD_none, Except.map]
    exact raised state log error holds ran
  | ok result =>
    simp only [ran, Except.toOption, Option.map_some, Option.getD_some, Except.map]
    exact returned state log result.1 result.2 holds ran

end Sound

end Task

/-! ### Pools -/

section Pool

variable {ι σ ε α γ : Type}

/-- A started request: the store it was started in, and what it has left to do. -/
structure Job (ι σ ε α : Type) where
  request : ι
  started : σ
  task : Task σ ε α

/-- A shared store and the requests that have been started over it. -/
structure Pool (ι σ ε α : Type) where
  shared : σ
  jobs : List (Job ι σ ε α) := []

/-- A request that was started in some store has been answered. -/
def Pool.Answered (pool : Pool ι σ ε α) (request : ι) (started : σ) (answer : Except ε α) : Prop :=
  ⟨request, started, .done answer⟩ ∈ pool.jobs

inductive Pool.Event (ι : Type) where
  | start (request : ι)
  /-- The job of this number performs its next transaction. -/
  | advance (number : ℕ)

variable (task : ι → Task σ ε α)

def Pool.next (pool : Pool ι σ ε α) : Pool.Event ι → Pool ι σ ε α
  | .start request => { pool with jobs := pool.jobs ++ [⟨request, pool.shared, task request⟩] }
  | .advance number =>
    match pool.jobs[number]? with
    | some ⟨request, started, .step transaction rest⟩ => {
        shared := transaction pool.shared
        jobs := pool.jobs.set number ⟨request, started, rest pool.shared⟩ }
    | _ => pool

/-- Store and log have moved along the relation since the job was started next to a log, and what the job
has left to do keeps the promise. -/
structure Job.Sound (R : σ × γ → σ × γ → Prop) (promise : ι → σ × γ → Except ε α → σ × γ → Prop)
    (first now : σ × γ) (job : Job ι σ ε α) (log : γ) : Prop where
  later : R first (job.started, log)
  moved : R (job.started, log) now
  task : job.task.Sound R (R now) (promise job.request (job.started, log))

variable {task} {R : σ × γ → σ × γ → Prop} {promise : ι → σ × γ → Except ε α → σ × γ → Prop}
  {first now after : σ × γ}

theorem Job.Sound.move [IsPreorder (σ × γ) R] {job : Job ι σ ε α} {log : γ}
    (sound : job.Sound R promise first now log) (moved : R now after) : job.Sound R promise first after log where
  later := sound.later
  moved := trans_of R sound.moved moved
  task := sound.task.consequence (fun _ => trans_of R moved) fun _ _ => id

/-- Store and log have moved along the relation, and every job is sound. -/
structure Pool.Sound (R : σ × γ → σ × γ → Prop) (promise : ι → σ × γ → Except ε α → σ × γ → Prop)
    (first : σ × γ) (pool : Pool ι σ ε α) (log : γ) : Prop where
  reached : R first (pool.shared, log)
  jobs : ∀ job ∈ pool.jobs, ∃ start, job.Sound R promise first (pool.shared, log) start

/-- An answer that has been given keeps the promise. -/
theorem Pool.Sound.promised [IsPreorder (σ × γ) R] {pool : Pool ι σ ε α} {log : γ} {request : ι} {started : σ}
    {answer : Except ε α} (sound : pool.Sound R promise first log)
    (answered : pool.Answered request started answer) :
    ∃ start, R first (started, start) ∧ promise request (started, start) answer (pool.shared, log) := by
  obtain ⟨start, job⟩ := sound.jobs _ answered
  exact ⟨start, job.later, job.task _ (refl_of R _)⟩

variable (task R promise first) in
/-- A request may continue the log when it is started, and is sound from there on. -/
def Promised : Prop :=
  ∀ request now, R first now → ∃ log, R now (now.1, log) ∧
    (task request).Sound R (R (now.1, log)) (promise request now)

theorem Pool.Sound.next [IsPreorder (σ × γ) R] {pool : Pool ι σ ε α} {log : γ}
    (promised : Promised task R promise first) (sound : pool.Sound R promise first log)
    (event : Pool.Event ι) : ∃ log', (pool.next task event).Sound R promise first log' := by
  cases event with
  | start request =>
    obtain ⟨log', moved, left⟩ := promised request (pool.shared, log) sound.reached
    refine ⟨log', trans_of R sound.reached moved,
      List.forall_mem_append.mpr ⟨fun job member => ?_, List.forall_mem_singleton.mpr ?_⟩⟩
    · obtain ⟨start, job⟩ := sound.jobs job member
      exact ⟨start, job.move moved⟩
    · exact ⟨log, sound.reached, moved, left⟩
  | advance number =>
    unfold Pool.next
    dsimp only
    split
    · rename_i request started transaction rest here
      obtain ⟨start, later, before, job⟩ := sound.jobs _ (List.mem_of_getElem? here)
      obtain ⟨log', moved, left⟩ := job pool.shared log (refl_of R _)
      refine ⟨log', trans_of R sound.reached moved, fun other member => ?_⟩
      rcases List.mem_or_eq_of_mem_set member with present | rfl
      · obtain ⟨start, other⟩ := sound.jobs other present
        exact ⟨start, other.move moved⟩
      · exact ⟨start, later, trans_of R before moved, left⟩
    · exact ⟨log, sound⟩

/-- The rule for pools: requests that keep their promises make every pool sound that a schedule leads to. -/
theorem Pool.Sound.run [IsPreorder (σ × γ) R] {pool : Pool ι σ ε α} {log : γ}
    (promised : Promised task R promise first) (sound : pool.Sound R promise first log)
    (events : List (Pool.Event ι)) :
    ∃ log', (runInputs (Pool.next task) pool events).Sound R promise first log' := by
  induction events generalizing pool log with
  | nil => exact ⟨log, sound⟩
  | cons event rest ih =>
    obtain ⟨log', sound⟩ := sound.next promised event
    exact ih sound

end Pool

end MetaResearch

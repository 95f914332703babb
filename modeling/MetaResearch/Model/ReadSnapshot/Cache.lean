import MetaResearch.ToMathlib.Dict

/-! # Cached queries of a read snapshot

A query runs over rows that the snapshot has frozen and over files that it has not. The files are
counted in moments: each check meets those of its own.
-/

namespace MetaResearch.ReadSnapshot

/-- A query over frozen rows. It depends on the files through wrapped checks, and of a query that it calls it
catches any exception but a failed check. -/
inductive Query (Call Check Answer Value Error : Type) where
  | done (value : Value)
  | raises (error : Error)
  | verify (check : Check) (next : Answer → Query Call Check Answer Value Error)
  | call (call : Call) (next : Value → Query Call Check Answer Value Error)
    (caught : Error → Query Call Check Answer Value Error)

/-- The key under which a check is collected: that of the check and its arguments, or a new object where these
have no hash. -/
inductive CheckKey (Check Key : Type) where
  | hashed (key : Key)
  | object (check : Check) (moment : ℕ)
deriving DecidableEq

/-- The cached queries and the wrapped checks, by what they were called with. A check that passes has compared the
whole file with what is recorded of it, so its answer is fixed. -/
structure Queries (Call Check Key Files Answer Value Error Failure : Type) where
  body : Call → Query Call Check Answer Value Error
  key : Call → Option Key
  checkKey : Check → Option Key
  answer : Check → Answer
  failure : Files → Check → Option Failure

abbrev Checks (Check Key : Type) := List (CheckKey Check Key × Check)

/-- What `_read_cache` holds for a key. -/
structure Entry (Check Key Value : Type) where
  value : Value
  checks : Checks Check Key

/-- The cache is there inside `read_snapshot`. -/
structure Session (Check Key Value : Type) where
  cache : Option (List (Key × Entry Check Key Value))
  moment : ℕ

inductive Raised (Error Failure : Type) where
  | failed (failure : Failure)
  | other (error : Error)
deriving DecidableEq

/-- What a call leaves: its outcome, the `_file_checks` of its caller and the session. -/
structure Result (Check Key Value Error Failure : Type) where
  outcome : Except (Raised Error Failure) Value
  checks : Option (Checks Check Key)
  session : Session Check Key Value

variable {Call Check Key Files Answer Value Error Failure : Type}

/-- `read_snapshot` -/
def Session.begin (moment : ℕ) : Session Check Key Value := ⟨some [], moment⟩

/-- A call outside of a snapshot. -/
def Session.outside (moment : ℕ) : Session Check Key Value := ⟨none, moment⟩

def Session.tick (session : Session Check Key Value) : Session Check Key Value :=
  { session with moment := session.moment + 1 }

section

variable [DecidableEq Key]

/-- `cache[key] = (value, checks)` -/
def Session.store (session : Session Check Key Value) (key : Key) (entry : Entry Check Key Value) :
    Session Check Key Value :=
  { session with cache := session.cache.map (Dict.set key entry) }

/-- The entry that a call hits. -/
def Queries.cached? (queries : Queries Call Check Key Files Answer Value Error Failure)
    (session : Session Check Key Value) (call : Call) : Option (Entry Check Key Value) :=
  session.cache.bind fun cache => (queries.key call).bind fun key => cache.lookup key

/-- `parent_checks.update(checks)` -/
def propagate [DecidableEq Check] (made : Checks Check Key) (parent : Option (Checks Check Key)) :
    Option (Checks Check Key) :=
  parent.map fun checks => Dict.update checks made

/-- What `snapshot_cached` does with the outcome of a query that was not in the cache. -/
def keep [DecidableEq Check] (key : Key) (checks : Option (Checks Check Key))
    (result : Result Check Key Value Error Failure) : Result Check Key Value Error Failure :=
  match result.outcome with
  | .error raised => ⟨.error raised, checks, result.session⟩
  | .ok value =>
    let made := result.checks.getD []
    ⟨.ok value, propagate made checks, result.session.store key ⟨value, made⟩⟩

end

namespace Queries

variable (queries : Queries Call Check Key Files Answer Value Error Failure) (files : ℕ → Files)

/-- The key of a successful check in `snapshot_file_check`. -/
def collectedKey (check : Check) (moment : ℕ) : CheckKey Check Key :=
  match queries.checkKey check with
  | some key => .hashed key
  | none => .object check moment

/-- The replay of the checks of an entry, up to the first that fails. -/
def replay : List Check → Session Check Key Value → Option Failure × Session Check Key Value
  | [], session => (none, session)
  | check :: rest, session =>
    match queries.failure (files session.moment) check with
    | some failure => (some failure, session.tick)
    | none => replay rest session.tick

variable [DecidableEq Check] [DecidableEq Key]

/-- `checks[key] = (check, args, kwargs)` -/
def collect (check : Check) (moment : ℕ) (checks : Option (Checks Check Key)) : Option (Checks Check Key) :=
  checks.map (Dict.set (queries.collectedKey check moment) check)

/-- A cache hit of `snapshot_cached`. -/
def reuse (entry : Entry Check Key Value) (checks : Option (Checks Check Key)) (session : Session Check Key Value) :
    Result Check Key Value Error Failure :=
  match queries.replay files (entry.checks.map Prod.snd) session with
  | (some failure, session) => ⟨.error (.failed failure), checks, session⟩
  | (none, session) => ⟨.ok entry.value, propagate entry.checks checks, session⟩

/-- The run of a query, with `reading` for the queries that it calls. -/
def run (reading : Call → Option (Checks Check Key) → Session Check Key Value →
      Option (Result Check Key Value Error Failure)) :
    Query Call Check Answer Value Error → Option (Checks Check Key) → Session Check Key Value →
      Option (Result Check Key Value Error Failure)
  | .done value, checks, session => some ⟨.ok value, checks, session⟩
  | .raises error, checks, session => some ⟨.error (.other error), checks, session⟩
  | .verify check next, checks, session =>
    match queries.failure (files session.moment) check with
    | some failure => some ⟨.error (.failed failure), checks, session.tick⟩
    | none => run reading (next (queries.answer check)) (queries.collect check session.moment checks) session.tick
  | .call called next caught, checks, session =>
    (reading called checks session).bind fun result =>
      match result.outcome with
      | .ok value => run reading (next value) result.checks result.session
      | .error (.other error) => run reading (caught error) result.checks result.session
      | .error (.failed failure) => some ⟨.error (.failed failure), result.checks, result.session⟩

/-- `snapshot_cached`, with fuel for the depth of the calls. -/
def read : ℕ → Call → Option (Checks Check Key) → Session Check Key Value →
    Option (Result Check Key Value Error Failure)
  | 0, _, _, _ => none
  | fuel + 1, call, checks, session =>
    match session.cache, queries.key call with
    | some cache, some key =>
      match cache.lookup key with
      | some entry => some (queries.reuse files entry checks session)
      | none => (queries.run files (read fuel) (queries.body call) (some []) session).map (keep key checks)
    | _, _ => queries.run files (read fuel) (queries.body call) checks session

/-- The sessions of a snapshot: checks and calls, one after another, inside of a query as outside. -/
inductive Reaches : Session Check Key Value → Prop
  | begin (moment : ℕ) : Reaches (.begin moment)
  | tick {session : Session Check Key Value} (reached : Reaches session) : Reaches session.tick
  | call {session : Session Check Key Value} {fuel : ℕ} {call : Call} {checks : Option (Checks Check Key)}
    {result : Result Check Key Value Error Failure} (reached : Reaches session)
    (ran : queries.read files fuel call checks session = some result) : Reaches result.session

end Queries

end MetaResearch.ReadSnapshot

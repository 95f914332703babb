import MetaResearch.Model.ReadSnapshot.Cache

/-! # What a cached query answers

The rows are frozen and a passing check has one answer, so a query makes one list of checks as long as these
pass, and ends in one way. The cache keeps those of them that were not made inside a cached query that raised.
-/

namespace MetaResearch.ReadSnapshot

variable {Call Check Key Files Answer Value Error Failure : Type}

namespace Queries

variable (queries : Queries Call Check Key Files Answer Value Error Failure)

/-- The checks that an exception of a query leaves with its caller. -/
def surviving (call : Call) (kept : List Check) : List Check :=
  if (queries.key call).isSome then [] else kept

/-- The checks that a query and those that it calls make when they all pass, those of them that reach its
entry, and how it ends. -/
inductive Yields : Query Call Check Answer Value Error → List Check → List Check → Except Error Value → Prop
  | done (value : Value) : Yields (.done value) [] [] (.ok value)
  | raises (error : Error) : Yields (.raises error) [] [] (.error error)
  | verify {check : Check} {next : Answer → Query Call Check Answer Value Error} {made kept : List Check}
    {outcome : Except Error Value} (rest : Yields (next (queries.answer check)) made kept outcome) :
    Yields (.verify check next) (check :: made) (check :: kept) outcome
  | call {call : Call} {next : Value → Query Call Check Answer Value Error}
    {caught : Error → Query Call Check Answer Value Error} {value : Value} {inner innerKept made kept : List Check}
    {outcome : Except Error Value} (called : Yields (queries.body call) inner innerKept (.ok value))
    (rest : Yields (next value) made kept outcome) :
    Yields (.call call next caught) (inner ++ made) (innerKept ++ kept) outcome
  | caught {call : Call} {next : Value → Query Call Check Answer Value Error}
    {caught : Error → Query Call Check Answer Value Error} {error : Error} {inner innerKept made kept : List Check}
    {outcome : Except Error Value} (called : Yields (queries.body call) inner innerKept (.error error))
    (rest : Yields (caught error) made kept outcome) :
    Yields (.call call next caught) (inner ++ made) (queries.surviving call innerKept ++ kept) outcome

/-- Calls with one key are one query, and so are checks. -/
structure FaithfulKeys : Prop where
  calls : ∀ call other key, queries.key call = some key → queries.key other = some key →
    queries.body call = queries.body other
  checks : ∀ check other key, queries.checkKey check = some key → queries.checkKey other = some key →
    check = other

def Passes (now : Files) (check : Check) : Prop := queries.failure now check = none

variable {queries}

/-- A query has one list of checks and one end. -/
theorem Yields.unique {query : Query Call Check Answer Value Error} {made kept made' kept' : List Check}
    {outcome outcome' : Except Error Value} (first : queries.Yields query made kept outcome)
    (second : queries.Yields query made' kept' outcome') :
    made = made' ∧ kept = kept' ∧ outcome = outcome' := by
  induction first generalizing made' kept' outcome' with
  | done value => cases second; exact ⟨rfl, rfl, rfl⟩
  | raises error => cases second; exact ⟨rfl, rfl, rfl⟩
  | verify rest ih =>
    cases second with
    | verify rest' =>
      obtain ⟨rfl, rfl, rfl⟩ := ih rest'
      exact ⟨rfl, rfl, rfl⟩
  | call called rest ihCalled ihRest =>
    cases second with
    | call called' rest' =>
      obtain ⟨rfl, rfl, same⟩ := ihCalled called'
      obtain rfl := Except.ok.inj same
      obtain ⟨rfl, rfl, rfl⟩ := ihRest rest'
      exact ⟨rfl, rfl, rfl⟩
    | caught called' rest' => exact absurd (ihCalled called').2.2 (by simp)
  | caught called rest ihCalled ihRest =>
    cases second with
    | call called' rest' => exact absurd (ihCalled called').2.2 (by simp)
    | caught called' rest' =>
      obtain ⟨rfl, rfl, same⟩ := ihCalled called'
      obtain rfl := Except.error.inj same
      obtain ⟨rfl, rfl, rfl⟩ := ihRest rest'
      exact ⟨rfl, rfl, rfl⟩

theorem surviving_subset (queries : Queries Call Check Key Files Answer Value Error Failure) (call : Call)
    (kept : List Check) : queries.surviving call kept ⊆ kept := by
  unfold surviving
  split_ifs
  · exact List.nil_subset kept
  · exact List.Subset.refl kept

/-- No check reaches the entry that the query did not make. -/
theorem Yields.kept_subset {query : Query Call Check Answer Value Error} {made kept : List Check}
    {outcome : Except Error Value} (yields : queries.Yields query made kept outcome) : kept ⊆ made := by
  induction yields with
  | done value => exact List.Subset.refl []
  | raises error => exact List.Subset.refl []
  | verify rest ih => exact List.cons_subset_cons _ ih
  | call called rest ihCalled ihRest =>
    exact List.append_subset.mpr ⟨List.subset_append_of_subset_left _ ihCalled,
      List.subset_append_of_subset_right _ ihRest⟩
  | caught called rest ihCalled ihRest =>
    exact List.append_subset.mpr
      ⟨List.subset_append_of_subset_left _ (List.Subset.trans (queries.surviving_subset _ _) ihCalled),
        List.subset_append_of_subset_right _ ihRest⟩

/-- A query that catches nothing of those that it calls. -/
inductive CatchesNothing : Query Call Check Answer Value Error → Prop
  | done (value : Value) : CatchesNothing (.done value)
  | raises (error : Error) : CatchesNothing (.raises error)
  | verify {check : Check} {next : Answer → Query Call Check Answer Value Error}
    (rest : ∀ answer, CatchesNothing (next answer)) : CatchesNothing (.verify check next)
  | call {call : Call} {next : Value → Query Call Check Answer Value Error}
    (rest : ∀ value, CatchesNothing (next value)) : CatchesNothing (.call call next .raises)

/-- Then it keeps every check, if it returns. -/
theorem Yields.kept_eq (catches : ∀ call, CatchesNothing (queries.body call))
    {query : Query Call Check Answer Value Error} {made kept : List Check} {outcome : Except Error Value}
    (yields : queries.Yields query made kept outcome) (uncaught : CatchesNothing query) {value : Value}
    (returns : outcome = .ok value) : kept = made := by
  induction yields generalizing value with
  | done other => rfl
  | raises error => rfl
  | verify rest ih =>
    cases uncaught with
    | verify uncaught => rw [ih (uncaught _) returns]
  | call called rest ihCalled ihRest =>
    cases uncaught with
    | call uncaught => rw [ihCalled (catches _) rfl, ihRest (uncaught _) returns]
  | caught called rest ihCalled ihRest =>
    cases uncaught with
    | call uncaught =>
      cases rest
      cases returns

/-- The end of a query whose checks may fail. -/
def concluded (queries : Queries Call Check Key Files Answer Value Error Failure) (now : Files) (made : List Check)
    (outcome : Except Error Value) : Except (Raised Error Failure) Value :=
  match made.findSome? (queries.failure now) with
  | some failure => .error (.failed failure)
  | none => outcome.mapError .other

theorem concluded_eq_ok_iff {now : Files} {made : List Check} {outcome : Except Error Value} {value : Value} :
    queries.concluded now made outcome = .ok value ↔
      outcome = .ok value ∧ ∀ check ∈ made, queries.Passes now check := by
  unfold concluded
  cases found : made.findSome? (queries.failure now) with
  | some failure =>
    obtain ⟨check, member, fails⟩ := List.exists_of_findSome?_eq_some found
    refine ⟨nofun, fun ⟨_, passes⟩ => ?_⟩
    exact absurd ((passes check member).symm.trans fails) nofun
  | none =>
    have passes := List.findSome?_eq_none_iff.mp found
    cases outcome with
    | ok other => exact ⟨fun same => ⟨by simpa [Except.mapError] using same, passes⟩, fun ⟨same, _⟩ => by simpa [Except.mapError] using same⟩
    | error error => exact ⟨nofun, fun ⟨same, _⟩ => nomatch same⟩

theorem concluded_passes {now : Files} {made : List Check}
    (passes : ∀ check ∈ made, queries.Passes now check) (value : Value) :
    queries.concluded now made (.ok value : Except Error Value) = .ok value :=
  concluded_eq_ok_iff.mpr ⟨rfl, passes⟩

theorem concluded_of_fails {now : Files} {made : List Check} (outcome : Except Error Value)
    (fails : ∃ check ∈ made, ¬ queries.Passes now check) :
    ∃ failure, queries.concluded now made outcome = .error (.failed failure) := by
  unfold concluded
  cases found : made.findSome? (queries.failure now) with
  | some failure => exact ⟨failure, rfl⟩
  | none =>
    obtain ⟨check, member, fails⟩ := fails
    exact absurd (List.findSome?_eq_none_iff.mp found check member) fails

theorem replay_now (queries : Queries Call Check Key Files Answer Value Error Failure) (now : Files)
    (checks : List Check) (session : Session Check Key Value) :
    (queries.replay (fun _ => now) checks session).1 = checks.findSome? (queries.failure now) := by
  induction checks generalizing session with
  | nil => rfl
  | cons check rest ih =>
    rw [replay, List.findSome?_cons]
    cases queries.failure now check with
    | some failure => rfl
    | none => exact ih session.tick

theorem concluded_append {now : Files} {inner made : List Check} {outcome : Except Error Value} :
    queries.concluded now (inner ++ made) outcome =
      match inner.findSome? (queries.failure now) with
      | some failure => .error (.failed failure)
      | none => queries.concluded now made outcome := by
  rw [concluded, List.findSome?_append]
  cases inner.findSome? (queries.failure now) <;> rfl

/-! ### Collecting -/

/-- What the key of a collected check says of the check. -/
def KeyNames (queries : Queries Call Check Key Files Answer Value Error Failure) :
    CheckKey Check Key → Check → Prop
  | .hashed key, check => queries.checkKey check = some key
  | .object own _, check => own = check

theorem keyNames_collectedKey (queries : Queries Call Check Key Files Answer Value Error Failure)
    (check : Check) (moment : ℕ) :
    queries.KeyNames (queries.collectedKey check moment) check := by
  unfold collectedKey
  split
  · assumption
  · rfl

theorem FaithfulKeys.functional (faithful : queries.FaithfulKeys) (key : CheckKey Check Key) (check other : Check)
    (names : queries.KeyNames key check) (also : queries.KeyNames key other) : check = other := by
  cases key with
  | hashed key => exact faithful.checks check other key names also
  | object own moment => exact names.symm.trans also

/-- After these checks the collector holds them and what it held before. -/
def Collected (queries : Queries Call Check Key Files Answer Value Error Failure)
    (before after : Option (Checks Check Key)) (kept : List Check) : Prop :=
  ∀ checks, before = some checks → Dict.Named queries.KeyNames checks →
    ∃ more, after = some more ∧ Dict.Named queries.KeyNames more ∧
      ∀ check, check ∈ more.map Prod.snd ↔ check ∈ checks.map Prod.snd ∨ check ∈ kept

theorem Collected.none (checks : Option (Checks Check Key)) : queries.Collected checks checks [] := by
  intro held same named
  exact ⟨held, same, named, by simp⟩

theorem Collected.trans {before middle after : Option (Checks Check Key)} {first second : List Check}
    (here : queries.Collected before middle first) (there : queries.Collected middle after second) :
    queries.Collected before after (first ++ second) := by
  intro checks same named
  obtain ⟨more, same, named, held⟩ := here checks same named
  obtain ⟨most, same, named, holds⟩ := there more same named
  refine ⟨most, same, named, fun check => ?_⟩
  rw [holds, held, List.mem_append, or_assoc]

/-! ### The cache of a session -/

theorem replay_cache (queries : Queries Call Check Key Files Answer Value Error Failure)
    (files : ℕ → Files) (checks : List Check) (session : Session Check Key Value) :
    (queries.replay files checks session).2.cache = session.cache := by
  induction checks generalizing session with
  | nil => rfl
  | cons check rest ih =>
    rw [replay]
    split
    · rfl
    · exact ih session.tick

/-- An entry is that of a query that returned its value, and holds the checks that reached it. -/
structure IsProof (queries : Queries Call Check Key Files Answer Value Error Failure) (key : Key)
    (entry : Entry Check Key Value) (call : Call) (made kept : List Check) : Prop where
  key : queries.key call = some key
  yields : queries.Yields (queries.body call) made kept (.ok entry.value)
  named : Dict.Named queries.KeyNames entry.checks
  checks : ∀ check, check ∈ entry.checks.map Prod.snd ↔ check ∈ kept

variable [DecidableEq Key]

/-- A session of a snapshot, each of whose entries is such a proof. -/
structure Sound (queries : Queries Call Check Key Files Answer Value Error Failure)
    (session : Session Check Key Value) : Prop where
  inside : session.cache.isSome = true
  proofs : ∀ cache, session.cache = some cache → ∀ key entry, cache.lookup key = some entry →
    ∃ call made kept, queries.IsProof key entry call made kept

theorem Sound.begin (moment : ℕ) : queries.Sound (.begin moment) :=
  ⟨rfl, by rintro cache ⟨⟩ key entry ⟨⟩⟩

theorem Sound.tick {session : Session Check Key Value} (sound : queries.Sound session) :
    queries.Sound session.tick := ⟨sound.inside, sound.proofs⟩

theorem Sound.store {session : Session Check Key Value} (sound : queries.Sound session) {key : Key}
    {entry : Entry Check Key Value} {call : Call} {made kept : List Check}
    (proof : queries.IsProof key entry call made kept) : queries.Sound (session.store key entry) := by
  obtain ⟨cache, inside⟩ := Option.isSome_iff_exists.mp sound.inside
  refine ⟨by simp [Session.store, inside], ?_⟩
  intro stored same other found there
  have table : stored = Dict.set key entry cache := by simpa [Session.store, inside] using same.symm
  subst table
  rcases Dict.lookup_set_cases there with ⟨rfl, rfl⟩ | before
  · exact ⟨call, made, kept, proof⟩
  · exact sound.proofs cache inside other found before

/-- The proof under the key of a call is one of that call. -/
theorem Sound.proof {session : Session Check Key Value} (sound : queries.Sound session)
    (faithful : queries.FaithfulKeys) {call : Call} {entry : Entry Check Key Value}
    (hit : queries.cached? session call = some entry) :
    ∃ key made kept, queries.IsProof key entry call made kept := by
  obtain ⟨cache, inside, found⟩ := Option.bind_eq_some_iff.mp hit
  obtain ⟨key, named, found⟩ := Option.bind_eq_some_iff.mp found
  obtain ⟨other, made, kept, proof⟩ := sound.proofs cache inside key entry found
  refine ⟨key, made, kept, named, ?_, proof.named, proof.checks⟩
  rw [faithful.calls call other key named proof.key]
  exact proof.yields

/-! ### A query inside a snapshot -/

variable [DecidableEq Check] {files : ℕ → Files}

theorem Collected.collect (faithful : queries.FaithfulKeys) (check : Check) (moment : ℕ)
    (checks : Option (Checks Check Key)) :
    queries.Collected checks (queries.collect check moment checks) [check] := by
  rintro held rfl named
  have names := queries.keyNames_collectedKey check moment
  refine ⟨_, rfl, named.set names, fun found => ?_⟩
  rw [named.mem_values_set faithful.functional names, List.mem_singleton, or_comm]

theorem Collected.propagate (faithful : queries.FaithfulKeys) {made : Checks Check Key} {kept : List Check}
    (named : Dict.Named queries.KeyNames made) (same : ∀ check, check ∈ made.map Prod.snd ↔ check ∈ kept)
    (checks : Option (Checks Check Key)) :
    queries.Collected checks (ReadSnapshot.propagate made checks) kept := by
  rintro held rfl already
  refine ⟨_, rfl, already.update named, fun found => ?_⟩
  rw [already.mem_values_update faithful.functional named, same]

/-- The end of a query, unless a check failed. -/
def ends : Except (Raised Error Failure) Value → Option (Except Error Value)
  | .ok value => some (.ok value)
  | .error (.other error) => some (.error error)
  | .error (.failed _) => none

/-- A run keeps the session sound, and has collected what its query keeps. -/
structure Conducts (queries : Queries Call Check Key Files Answer Value Error Failure)
    (query : Query Call Check Answer Value Error) (checks : Option (Checks Check Key))
    (result : Result Check Key Value Error Failure) : Prop where
  sound : queries.Sound result.session
  collected : ∀ outcome, ends result.outcome = some outcome →
    ∃ made kept, queries.Yields query made kept outcome ∧ queries.Collected checks result.checks kept

/-- The same of a cached call, whose exceptions leave less behind. -/
structure Serves (queries : Queries Call Check Key Files Answer Value Error Failure) (call : Call)
    (checks : Option (Checks Check Key)) (result : Result Check Key Value Error Failure) : Prop where
  sound : queries.Sound result.session
  returned : ∀ value, result.outcome = .ok value →
    ∃ made kept, queries.Yields (queries.body call) made kept (.ok value) ∧
      queries.Collected checks result.checks kept
  raised : ∀ error, result.outcome = .error (.other error) →
    ∃ made kept, queries.Yields (queries.body call) made kept (.error error) ∧
      queries.Collected checks result.checks (queries.surviving call kept)

theorem run_conducts (faithful : queries.FaithfulKeys)
    {reading : Call → Option (Checks Check Key) → Session Check Key Value →
      Option (Result Check Key Value Error Failure)}
    (serves : ∀ call checks session result, queries.Sound session →
      reading call checks session = some result → queries.Serves call checks result)
    (query : Query Call Check Answer Value Error) {checks : Option (Checks Check Key)}
    {session : Session Check Key Value} {result : Result Check Key Value Error Failure}
    (sound : queries.Sound session) (ran : queries.run files reading query checks session = some result) :
    queries.Conducts query checks result := by
  induction query generalizing checks session with
  | done value =>
    obtain rfl := Option.some.inj ran
    refine ⟨sound, fun outcome same => ⟨[], [], ?_, .none checks⟩⟩
    obtain rfl := Option.some.inj same
    exact .done value
  | raises error =>
    obtain rfl := Option.some.inj ran
    refine ⟨sound, fun outcome same => ⟨[], [], ?_, .none checks⟩⟩
    obtain rfl := Option.some.inj same
    exact .raises error
  | verify check next ih =>
    rw [run] at ran
    split at ran
    · obtain rfl := Option.some.inj ran
      exact ⟨sound.tick, fun outcome same => nomatch same⟩
    · obtain ⟨kept, collected⟩ := ih _ sound.tick ran
      refine ⟨kept, fun outcome same => ?_⟩
      obtain ⟨made, kept, yields, collected⟩ := collected outcome same
      exact ⟨check :: made, check :: kept, .verify yields,
        (Collected.collect faithful check session.moment checks).trans collected⟩
  | call called next caught ihNext ihCaught =>
    rw [run] at ran
    obtain ⟨inner, read, ran⟩ := Option.bind_eq_some_iff.mp ran
    have served := serves called checks session inner sound read
    split at ran
    · rename_i value returned
      obtain ⟨innerMade, innerKept, yields, collected⟩ := served.returned value returned
      obtain ⟨sound, later⟩ := ihNext value served.sound ran
      refine ⟨sound, fun outcome same => ?_⟩
      obtain ⟨made, kept, rest, more⟩ := later outcome same
      exact ⟨_, _, .call yields rest, collected.trans more⟩
    · rename_i error raised
      obtain ⟨innerMade, innerKept, yields, collected⟩ := served.raised error raised
      obtain ⟨sound, later⟩ := ihCaught error served.sound ran
      refine ⟨sound, fun outcome same => ?_⟩
      obtain ⟨made, kept, rest, more⟩ := later outcome same
      exact ⟨_, _, .caught yields rest, collected.trans more⟩
    · obtain rfl := Option.some.inj ran
      exact ⟨served.sound, fun outcome same => nomatch same⟩

theorem reuse_serves (faithful : queries.FaithfulKeys) {session : Session Check Key Value} {call : Call}
    {entry : Entry Check Key Value} (sound : queries.Sound session)
    (hit : queries.cached? session call = some entry) (checks : Option (Checks Check Key)) :
    queries.Serves call checks (queries.reuse files entry checks session) := by
  obtain ⟨key, made, kept, proof⟩ := sound.proof faithful hit
  have cache := queries.replay_cache files (entry.checks.map Prod.snd) session
  have inside : ∀ after : Session Check Key Value, after.cache = session.cache → queries.Sound after :=
    fun after same => ⟨same ▸ sound.inside, same ▸ sound.proofs⟩
  unfold reuse
  split
  · rename_i failure after replayed
    rw [replayed] at cache
    exact ⟨inside after cache, nofun, nofun⟩
  · rename_i after replayed
    rw [replayed] at cache
    refine ⟨inside after cache, fun value same => ?_, nofun⟩
    obtain rfl := Except.ok.inj same
    exact ⟨made, kept, proof.yields, .propagate faithful proof.named proof.checks checks⟩

theorem keep_serves (faithful : queries.FaithfulKeys) {call : Call} {key : Key}
    (named : queries.key call = some key) {result : Result Check Key Value Error Failure}
    (conducts : queries.Conducts (queries.body call) (some []) result) (checks : Option (Checks Check Key)) :
    queries.Serves call checks (keep key checks result) := by
  unfold keep
  split
  · rename_i raised same
    refine ⟨conducts.sound, nofun, fun error other => ?_⟩
    obtain rfl := Except.error.inj other
    obtain ⟨made, kept, yields, _⟩ := conducts.collected (.error error) (by rw [same]; rfl)
    refine ⟨made, kept, yields, ?_⟩
    rw [surviving, named]
    exact .none checks
  · rename_i value same
    obtain ⟨made, kept, yields, collected⟩ := conducts.collected (.ok value) (by rw [same]; rfl)
    obtain ⟨more, held, namedMore, holds⟩ := collected [] rfl (fun entry member => absurd member List.not_mem_nil)
    have checksOf : ∀ check, check ∈ more.map Prod.snd ↔ check ∈ kept := fun check => by simpa using holds check
    rw [held]
    refine ⟨conducts.sound.store ⟨named, yields, namedMore, checksOf⟩, fun other returned => ?_, nofun⟩
    obtain rfl := Except.ok.inj returned
    exact ⟨made, kept, yields, .propagate faithful namedMore checksOf checks⟩

/-- Every read of a sound session keeps it sound, whatever becomes of the files. -/
theorem read_serves (faithful : queries.FaithfulKeys) (fuel : ℕ) (call : Call) (checks : Option (Checks Check Key))
    (session : Session Check Key Value) (result : Result Check Key Value Error Failure)
    (sound : queries.Sound session) (ran : queries.read files fuel call checks session = some result) :
    queries.Serves call checks result := by
  induction fuel generalizing call checks session result with
  | zero => cases ran
  | succ fuel ih =>
    obtain ⟨cache, inside⟩ := Option.isSome_iff_exists.mp sound.inside
    rw [read, inside] at ran
    cases named : queries.key call with
    | none =>
      rw [named] at ran
      have conducts := run_conducts faithful ih (queries.body call) sound ran
      refine ⟨conducts.sound, fun value same => conducts.collected (.ok value) (by rw [same]; rfl),
        fun error same => ?_⟩
      obtain ⟨made, kept, yields, collected⟩ := conducts.collected (.error error) (by rw [same]; rfl)
      exact ⟨made, kept, yields, by rwa [surviving, named]⟩
    | some key =>
      rw [named] at ran
      cases found : cache.lookup key with
      | some entry =>
        simp only [found] at ran
        obtain rfl := Option.some.inj ran
        exact reuse_serves faithful sound (by rw [cached?, inside, named]; exact found) checks
      | none =>
        simp only [found] at ran
        obtain ⟨inner, missed, rfl⟩ := Option.map_eq_some_iff.mp ran
        exact keep_serves faithful named (run_conducts faithful ih (queries.body call) sound missed) checks

/-- So every session of a snapshot is sound. -/
theorem Reaches.sound (faithful : queries.FaithfulKeys) {session : Session Check Key Value}
    (reached : queries.Reaches files session) : queries.Sound session := by
  induction reached with
  | begin moment => exact .begin moment
  | tick reached ih => exact ih.tick
  | call reached ran ih => exact (read_serves faithful _ _ _ _ _ ih ran).sound

/-! ### Reuse and recomputation -/

variable (queries)

/-- What a cached call answers with the files as they are now, inside of a query or not. -/
def Answers (now : Files) (session : Session Check Key Value) (call : Call)
    (outcome : Except (Raised Error Failure) Value) : Prop :=
  ∀ fuel checks, ∃ result, queries.read (fun _ => now) (fuel + 1) call checks session = some result ∧
    result.outcome = outcome

/-- What the call answers without a cache, however deep its calls may go. -/
def Recomputes (now : Files) (call : Call) (outcome : Except (Raised Error Failure) Value) : Prop :=
  ∃ depth, ∀ fuel, depth ≤ fuel → ∀ moment, ∃ result,
    queries.read (fun _ => now) fuel call none (.outside moment) = some result ∧ result.outcome = outcome

/-- The call returns what recomputation returns as long as every check passes that it made, and raises when
one fails. -/
structure IsTransparent (now : Files) (session : Session Check Key Value) (call : Call) (made : List Check) :
    Prop where
  returns : (∃ value, queries.Answers now session call (.ok value) ∧ queries.Recomputes now call (.ok value)) ↔
    ∀ check ∈ made, queries.Passes now check
  raises : (∃ check ∈ made, ¬ queries.Passes now check) →
    ∃ failure, queries.Answers now session call (.error (.failed failure))

variable {queries}

/-- A cached call answers as its entry and its own checks say. -/
theorem answers_of_hit {session : Session Check Key Value} {call : Call} {entry : Entry Check Key Value}
    (hit : queries.cached? session call = some entry) (now : Files) :
    queries.Answers now session call (queries.concluded now (entry.checks.map Prod.snd) (.ok entry.value)) := by
  obtain ⟨cache, inside, found⟩ := Option.bind_eq_some_iff.mp hit
  obtain ⟨key, named, found⟩ := Option.bind_eq_some_iff.mp found
  intro fuel checks
  refine ⟨queries.reuse (fun _ => now) entry checks session, ?_, ?_⟩
  · rw [read, inside, named]
    simp only [found]
  · have replayed := queries.replay_now now (entry.checks.map Prod.snd) session
    unfold reuse
    split
    · rename_i failure after same
      rw [same] at replayed
      rw [concluded, ← replayed]
    · rename_i after same
      rw [same] at replayed
      rw [concluded, ← replayed]
      rfl

theorem Answers.unique {now : Files} {session : Session Check Key Value} {call : Call}
    {outcome other : Except (Raised Error Failure) Value} (first : queries.Answers now session call outcome)
    (second : queries.Answers now session call other) : outcome = other := by
  obtain ⟨result, ran, rfl⟩ := first 0 none
  obtain ⟨again, ranAgain, rfl⟩ := second 0 none
  exact congrArg Result.outcome (Option.some.inj (ran.symm.trans ranAgain))

theorem Recomputes.unique {now : Files} {call : Call} {outcome other : Except (Raised Error Failure) Value}
    (first : queries.Recomputes now call outcome) (second : queries.Recomputes now call other) :
    outcome = other := by
  obtain ⟨depth, enough⟩ := first
  obtain ⟨depth', enough'⟩ := second
  obtain ⟨result, ran, rfl⟩ := enough (max depth depth') (Nat.le_max_left _ _) 0
  obtain ⟨again, ranAgain, rfl⟩ := enough' (max depth depth') (Nat.le_max_right _ _) 0
  exact congrArg Result.outcome (Option.some.inj (ran.symm.trans ranAgain))

theorem read_outside (now : Files) (fuel : ℕ) (call : Call) (moment : ℕ) :
    queries.read (fun _ => now) (fuel + 1) call none (.outside moment) =
      queries.run (fun _ => now) (queries.read (fun _ => now) fuel) (queries.body call) none (.outside moment) := by
  rw [read]
  rfl

/-- Without a cache a query makes its checks up to the first that fails, and ends as it does when none fails. -/
theorem run_outside {query : Query Call Check Answer Value Error} {made kept : List Check}
    {outcome : Except Error Value} (yields : queries.Yields query made kept outcome) (now : Files) :
    ∃ depth, ∀ fuel, depth ≤ fuel → ∀ moment, ∃ after,
      queries.run (fun _ => now) (queries.read (fun _ => now) fuel) query none (.outside moment) =
        some ⟨queries.concluded now made outcome, none, .outside after⟩ := by
  induction yields with
  | done value => exact ⟨0, fun fuel _ moment => ⟨moment, rfl⟩⟩
  | raises error => exact ⟨0, fun fuel _ moment => ⟨moment, rfl⟩⟩
  | @verify check next made kept outcome rest ih =>
    obtain ⟨depth, enough⟩ := ih
    refine ⟨depth, fun fuel deep moment => ?_⟩
    rw [run, concluded, List.findSome?_cons]
    cases queries.failure now check with
    | some failure => exact ⟨moment + 1, rfl⟩
    | none => exact enough fuel deep (moment + 1)
  | call called rest ihCalled ihRest =>
    obtain ⟨depth, enough⟩ := ihCalled
    obtain ⟨depth', enough'⟩ := ihRest
    refine ⟨max (depth + 1) depth', fun fuel deep moment => ?_⟩
    obtain ⟨fuel, rfl⟩ := Nat.exists_eq_add_one.mpr (show 0 < fuel by omega)
    obtain ⟨after, ran⟩ := enough fuel (by omega) moment
    rw [run, read_outside, ran, concluded_append, concluded]
    cases List.findSome? (queries.failure now) _ with
    | some failure => exact ⟨after, rfl⟩
    | none => exact enough' (fuel + 1) (by omega) after
  | caught called rest ihCalled ihRest =>
    obtain ⟨depth, enough⟩ := ihCalled
    obtain ⟨depth', enough'⟩ := ihRest
    refine ⟨max (depth + 1) depth', fun fuel deep moment => ?_⟩
    obtain ⟨fuel, rfl⟩ := Nat.exists_eq_add_one.mpr (show 0 < fuel by omega)
    obtain ⟨after, ran⟩ := enough fuel (by omega) moment
    rw [run, read_outside, ran, concluded_append, concluded]
    cases List.findSome? (queries.failure now) _ with
    | some failure => exact ⟨after, rfl⟩
    | none => exact enough' (fuel + 1) (by omega) after

theorem recomputes_of_yields {call : Call} {made kept : List Check} {outcome : Except Error Value}
    (yields : queries.Yields (queries.body call) made kept outcome) (now : Files) :
    queries.Recomputes now call (queries.concluded now made outcome) := by
  obtain ⟨depth, enough⟩ := run_outside yields now
  refine ⟨depth + 1, fun fuel deep moment => ?_⟩
  obtain ⟨fuel, rfl⟩ := Nat.exists_eq_add_one.mpr (show 0 < fuel by omega)
  obtain ⟨after, ran⟩ := enough fuel (by omega) moment
  exact ⟨_, (read_outside now fuel call moment).trans ran, rfl⟩

theorem IsProof.transparent_iff {key : Key} {entry : Entry Check Key Value} {call : Call} {made kept : List Check}
    (proof : queries.IsProof key entry call made kept) {session : Session Check Key Value}
    (hit : queries.cached? session call = some entry) (now : Files) :
    queries.IsTransparent now session call made ↔
      ((∀ check ∈ kept, queries.Passes now check) → ∀ check ∈ made, queries.Passes now check) := by
  have answers := answers_of_hit hit now
  have recomputes := recomputes_of_yields proof.yields now
  have passKept : (∀ check ∈ entry.checks.map Prod.snd, queries.Passes now check) ↔
      ∀ check ∈ kept, queries.Passes now check := forall_congr' fun check => by rw [proof.checks]
  constructor
  · intro transparent passes
    by_contra fails
    simp only [not_forall] at fails
    obtain ⟨check, member, fails⟩ := fails
    obtain ⟨failure, raised⟩ := transparent.raises ⟨check, member, fails⟩
    have returned := concluded_passes (passKept.mpr passes) entry.value
    exact absurd (returned.symm.trans (answers.unique raised)) nofun
  · intro retained
    refine ⟨⟨?_, ?_⟩, ?_⟩
    · rintro ⟨value, _, again⟩
      exact (concluded_eq_ok_iff.mp (recomputes.unique again)).2
    · intro passes
      have passesKept := passKept.mpr fun check member => passes check (proof.yields.kept_subset member)
      rw [concluded_passes passes] at recomputes
      rw [concluded_passes passesKept] at answers
      exact ⟨entry.value, answers, recomputes⟩
    · rintro ⟨check, member, fails⟩
      have lost : ∃ check ∈ entry.checks.map Prod.snd, ¬ queries.Passes now check := by
        by_contra none
        refine fails (retained (passKept.mp fun check member => ?_) check member)
        by_contra fails
        exact none ⟨check, member, fails⟩
      obtain ⟨failure, raised⟩ := concluded_of_fails (.ok entry.value : Except Error Value) lost
      exact ⟨failure, raised ▸ answers⟩

/-- A hit is as good as recomputation exactly as long as no check fails that was lost, while those that were kept
all pass. A check is lost when each query that made it raised. -/
theorem hit_transparent_iff (queries : Queries Call Check Key Files Answer Value Error Failure)
    (faithful : queries.FaithfulKeys) (files : ℕ → Files) {session : Session Check Key Value}
    (reached : queries.Reaches files session) {call : Call} {entry : Entry Check Key Value}
    (hit : queries.cached? session call = some entry) (now : Files) :
    ∃ made kept, queries.Yields (queries.body call) made kept (.ok entry.value) ∧
      (queries.IsTransparent now session call made ↔
        ((∀ check ∈ kept, queries.Passes now check) → ∀ check ∈ made, queries.Passes now check)) := by
  obtain ⟨key, made, kept, proof⟩ := (Reaches.sound faithful reached).proof faithful hit
  exact ⟨made, kept, proof.yields, proof.transparent_iff hit now⟩

/-- Where no query catches anything, every hit is. -/
theorem hit_transparent_of_catchesNothing (queries : Queries Call Check Key Files Answer Value Error Failure)
    (faithful : queries.FaithfulKeys) (catches : ∀ call, CatchesNothing (queries.body call)) (files : ℕ → Files)
    {session : Session Check Key Value} (reached : queries.Reaches files session) {call : Call}
    {entry : Entry Check Key Value} (hit : queries.cached? session call = some entry) :
    ∃ made, queries.Yields (queries.body call) made made (.ok entry.value) ∧
      ∀ now, queries.IsTransparent now session call made := by
  obtain ⟨key, made, kept, proof⟩ := (Reaches.sound faithful reached).proof faithful hit
  obtain rfl := proof.yields.kept_eq catches (catches call) rfl
  exact ⟨_, proof.yields, fun now => (proof.transparent_iff hit now).mpr id⟩

end Queries

/-! ### A query that falls back -/

inductive FallbackCall where
  | leaf
  | parent
deriving DecidableEq

/-- The leaf checks a file and raises, and its caller takes a default instead. -/
def fallback : Queries FallbackCall Unit FallbackCall Bool Unit ℕ String String where
  body
    | .leaf => .verify () fun _ => .raises "absent"
    | .parent => .call .leaf .done fun _ => .done 0
  key := some
  checkKey _ := some .leaf
  answer _ := ()
  failure intact _ := if intact then none else some "custody_unavailable"

/-- The session after the first call of the parent. -/
def fallbackSession : Session Unit FallbackCall ℕ := ⟨some [(.parent, ⟨0, []⟩)], 1⟩

private theorem fallback_first : fallback.read (fun _ => true) 2 .parent none (.begin 0) =
    some ⟨.ok 0, none, fallbackSession⟩ := by
  simp only [Queries.read, Session.begin, fallback, Queries.run, keep, List.lookup_nil, if_true,
    Option.map_some, Option.bind_some]
  rfl

private theorem fallbackSession_reached : fallback.Reaches (fun _ => true) fallbackSession :=
  .call (.begin 0) fallback_first

private theorem fallback_yields : fallback.Yields (fallback.body .parent) [()] [] (.ok 0) := by
  have leaf : fallback.Yields (fallback.body .leaf) [()] [()] (.error "absent") := .verify (.raises "absent")
  exact .caught leaf (.done 0)

/-- The file of the leaf changes after the parent was cached: the parent still answers, and does not without
the cache. -/
theorem fallback_stale : fallback.Reaches (fun _ => true) fallbackSession ∧
    fallback.Yields (fallback.body .parent) [()] [] (.ok 0) ∧
    fallback.Answers false fallbackSession .parent (.ok 0) ∧
    fallback.Recomputes false .parent (.error (.failed "custody_unavailable")) ∧
    ¬ fallback.IsTransparent false fallbackSession .parent [()] := by
  have answers : fallback.Answers false fallbackSession .parent (.ok 0) :=
    Queries.answers_of_hit (rfl : fallback.cached? fallbackSession .parent = some ⟨0, []⟩) false
  refine ⟨fallbackSession_reached, fallback_yields, answers,
    Queries.recomputes_of_yields fallback_yields false, fun transparent => ?_⟩
  obtain ⟨failure, raised⟩ := transparent.raises ⟨(), List.mem_singleton.mpr rfl, nofun⟩
  exact absurd (answers.unique raised) nofun

/-- The same parent while the file is as it was. -/
theorem fallback_transparent : ∃ made kept, fallback.Yields (fallback.body .parent) made kept (.ok 0) ∧
    (fallback.IsTransparent true fallbackSession .parent made ↔
      ((∀ check ∈ kept, fallback.Passes true check) → ∀ check ∈ made, fallback.Passes true check)) := by
  have faithful : fallback.FaithfulKeys := by
    refine ⟨fun call other key same also => ?_, fun _ _ _ _ _ => rfl⟩
    rw [Option.some.inj (same.trans also.symm)]
  have hit : fallback.cached? fallbackSession .parent = some ⟨0, []⟩ := rfl
  exact Queries.hit_transparent_iff fallback faithful (fun _ => true) fallbackSession_reached hit true

end MetaResearch.ReadSnapshot

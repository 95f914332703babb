import MetaResearch.Soundness.RuntimeConditions.Register

/-! # Reads and saves happen at once

A save reads, validates and then replaces the head that it has read, in transactions between which other
requests come. Every schedule nevertheless has a log of requests that happen at once: run one after the
other they lead to the register that the tables stand for, and the answers are those of the log. A save is
logged as a read when it reads, and as a save when it is clear what it answers: with its read if nothing
can be made of the request, with its last transaction otherwise.

The conditions that a read imports are not checked for what later reads reject; the results are about
requests that import readable conditions only.
-/

namespace MetaResearch.RuntimeConditions

variable {outside : Outside} {asked : Set Request} {first : Register} {initial : Initial}
  {started before now : Tables × List Entry} {after : Tables} {log : List Entry}

/-! ### Logs -/

/-- A request that has been asked for, or the read that a save begins with. -/
def Within (asked : Set Request) (request : Request) : Prop :=
  ∃ own ∈ asked, request = own ∨ request = .read own.initial

variable (outside asked first) in
/-- The tables are formed and stand for the register that the log leads to. -/
structure Tracked (now : Tables × List Entry) : Prop where
  formed : now.1.Formed outside
  replays : Replays outside first now.2 now.1.register
  within : ∀ entry ∈ now.2, Within asked entry.request

variable (outside asked first) in
/-- Tracked tables stay tracked, no version is lost and the log is continued. -/
def Evolves (before now : Tables × List Entry) : Prop :=
  Tracked outside asked first before →
    Tracked outside asked first now ∧ (∀ row ∈ before.1.versions, row ∈ now.1.versions) ∧ before.2 <+: now.2

instance : IsPreorder (Tables × List Entry) (Evolves outside asked first) where
  refl now tracked := ⟨tracked, fun _ => id, List.prefix_refl now.2⟩
  trans _ _ _ one other tracked := by
    obtain ⟨tracked, versions, continued⟩ := one tracked
    obtain ⟨tracked, versions', continued'⟩ := other tracked
    exact ⟨tracked, fun row member => versions' row (versions row member), continued.trans continued'⟩

/-- A transaction that does what requests at once do is logged as these. -/
theorem Evolves.of_replays (grown : before.1.Grown outside after)
    (replays : Replays outside before.1.register log after.register)
    (within : ∀ entry ∈ log, Within asked entry.request) :
    Evolves outside asked first before (after, before.2 ++ log) := fun tracked => by
  refine ⟨⟨grown.formed, tracked.replays.append replays, ?_⟩, grown.versions, List.prefix_append _ _⟩
  exact List.forall_mem_append.mpr ⟨tracked.within, within⟩

/-- The entries have been logged, after what had been logged at the start. -/
def LoggedSince (entries : List Entry) (started now : Tables × List Entry) : Prop :=
  ∃ log, started.2 <+: log ∧ log ++ entries <+: now.2

theorem LoggedSince.right {entries : List Entry} (logged : LoggedSince (log ++ entries) started now) :
    LoggedSince entries started now := by
  obtain ⟨earlier, continued, logged⟩ := logged
  refine ⟨earlier ++ log, continued.trans (List.prefix_append _ _), ?_⟩
  rwa [List.append_assoc]

/-- What is logged for a transaction stays logged. -/
theorem LoggedSince.of_replays (tracked : Tracked outside asked first started)
    (reached : Evolves outside asked first started before) (grown : before.1.Grown outside after)
    (replays : Replays outside before.1.register log after.register)
    (within : ∀ entry ∈ log, Within asked entry.request) :
    Evolves outside asked first before (after, before.2 ++ log) ∧
      ∀ later, Evolves outside asked first (after, before.2 ++ log) later →
        LoggedSince log started later ∧ ∀ row ∈ after.versions, row ∈ later.1.versions := by
  have step : Evolves outside asked first before (after, before.2 ++ log) := .of_replays grown replays within
  refine ⟨step, fun later evolves => ?_⟩
  obtain ⟨current, _, continued⟩ := reached tracked
  obtain ⟨_, kept, logged⟩ := evolves (step current).1
  exact ⟨⟨before.2, continued, logged⟩, kept⟩

/-- The request has happened since the start, with this answer. -/
def AtOnce (request : Request) (started : Tables × List Entry) (answer : Except Failure Value)
    (now : Tables × List Entry) : Prop :=
  LoggedSince [⟨request, answer⟩] started now

theorem AtOnce.of_happened (tracked : Tracked outside asked first started) {request : Request}
    {answer : Except Failure Value} (within : Within asked request)
    (reached : Evolves outside asked first started before) (grown : before.1.Grown outside after)
    (happened : request.apply outside before.1.register = (answer, after.register)) :
    ∃ log, Evolves outside asked first before (after, log) ∧
      ∀ later, Evolves outside asked first (after, log) later → AtOnce request started answer later := by
  obtain ⟨step, logged⟩ := LoggedSince.of_replays tracked reached grown
    (@Replays.single _ _ _ ⟨request, answer⟩ happened) (List.forall_mem_singleton.mpr within)
  exact ⟨_, step, fun later evolves => (logged later evolves).1⟩

/-! ### Reads -/

variable (outside asked initial) in
/-- What may be logged when a read returns or raises. -/
structure Logs (entries : Except Failure Value → List Entry) : Prop where
  within : ∀ answer, ∀ entry ∈ entries answer, Within asked entry.request
  replays : ∀ register : Register, Replays outside register (entries (register.read outside initial).1)
    (register.read outside initial).2

variable (outside asked first initial) in
/-- The read has been logged, and what it returns is a stored version. -/
structure HasRead (entries : Except Failure Value → List Entry) (started : Tables × List Entry)
    (answer : Except Failure Value) (now : Tables × List Entry) : Prop where
  reached : Evolves outside asked first started now
  logged : LoggedSince (entries answer) started now
  has : ∀ value, answer = .ok value → now.1.Has initial value

theorem Tables.Has.mono {tables : Tables} {value : Value} (has : tables.Has initial value)
    (kept : ∀ row ∈ tables.versions, row ∈ after.versions) : after.Has initial value := by
  obtain ⟨row, member, shown⟩ := has
  exact ⟨row, kept row member, shown⟩

section Reads

variable {entries : Except Failure Value → List Entry} (logs : Logs outside asked initial entries)
  (tracked : Tracked outside asked first started)

include logs tracked

/-- A transaction that reads at once is logged as a read. -/
theorem HasRead.of_happened {answer : Except Failure Value} (reached : Evolves outside asked first started before)
    (grown : before.1.Grown outside after)
    (happened : before.1.register.read outside initial = (answer, after.register))
    (has : ∀ value, answer = .ok value → after.Has initial value) :
    ∃ log, Evolves outside asked first before (after, log) ∧ ∀ later,
      Evolves outside asked first (after, log) later → HasRead outside asked first initial entries started answer later := by
  have replays := logs.replays before.1.register
  rw [happened] at replays
  obtain ⟨step, logged⟩ := LoggedSince.of_replays tracked reached grown replays (logs.within answer)
  exact ⟨_, step, fun later evolves => {
    reached := trans_of _ reached (trans_of _ step evolves)
    logged := (logged later evolves).1
    has := fun value same => (has value same).mono (logged later evolves).2 }⟩

omit logs tracked in
variable (outside asked first initial) in
/-- A look has found nothing, or it was all that the read has done. -/
def HasLooked (entries : Except Failure Value → List Entry) (started : Tables × List Entry)
    (answer : Except Failure (Option VersionRow)) (now : Tables × List Entry) : Prop :=
  ∃ found, answer = .ok found ∧ Evolves outside asked first started now ∧
    (∀ row, found = some row → HasRead outside asked first initial entries started
      (initial.withLibrary <$> storedValue outside row) now) ∧
    ∀ failure, found = none → legacyValue outside initial = .error failure →
      HasRead outside asked first initial entries started (.error failure) now

theorem look_sound : (Task.atomically fun tables : Tables => .ok (tables.lookup initial.scope, tables)).Sound
    (Evolves outside asked first) (Evolves outside asked first started)
    (HasLooked outside asked first initial entries started) := by
  refine Task.Sound.atomically (fun before log found after reached looked => ?_) fun _ _ _ _ raised => nomatch raised
  cases looked
  have current := (reached tracked).1.formed
  have same : before.Grown outside before := ⟨current, fun _ => id⟩
  cases found : before.lookup initial.scope with
  | some row =>
    obtain ⟨member, scope, _⟩ := Tables.of_lookup found
    obtain ⟨log', step, done⟩ := HasRead.of_happened logs tracked reached same (Register.read_of_lookup found)
      fun value shown => ⟨row, member, scope, Except.ok.inj shown⟩
    refine ⟨log', step, fun later evolves => ⟨_, rfl, trans_of _ reached (trans_of _ step evolves), ?_, nofun⟩⟩
    rintro _ ⟨⟩
    rw [storedValue_of_valid (current.valid row member)]
    exact done later evolves
  | none =>
    cases imports : legacyValue outside initial with
    | error failure =>
      obtain ⟨log', step, done⟩ := HasRead.of_happened logs tracked reached same
        (Register.read_of_error found imports) nofun
      refine ⟨log', step, fun later evolves => ⟨_, rfl, trans_of _ reached (trans_of _ step evolves), nofun, ?_⟩⟩
      rintro failure _ raised
      rw [imports] at raised
      cases raised
      exact done later evolves
    | ok result =>
      refine ⟨log, refl_of _ _, fun later evolves => ⟨_, rfl, trans_of _ reached evolves, nofun, ?_⟩⟩
      rintro failure _ raised
      rw [imports] at raised
      cases raised

/-- Seeding reads at once, whatever has happened since the scope was found empty. -/
theorem seed_sound {imported : Value} {sourceKind : SourceKind}
    (import_eq : legacyValue outside initial = .ok (imported, sourceKind))
    (readable : textReadable imported.conditions.text = true) :
    (Task.atomically (seed outside initial imported sourceKind)).Sound (Evolves outside asked first)
      (Evolves outside asked first started) (HasRead outside asked first initial entries started) := by
  refine Task.Sound.atomically (fun before log value after reached seeded => ?_)
    fun before log error reached seeded => ?_
  all_goals
    obtain ⟨shown, next, returned, grown, has, happened⟩ := of_seed (reached tracked).1.formed import_eq readable
    rw [returned] at seeded
    cases seeded
  exact HasRead.of_happened logs tracked reached grown happened fun _ same => Except.ok.inj same ▸ has

theorem read_sound (readable : initial.Readable outside) :
    (read outside initial).Sound (Evolves outside asked first) (Evolves outside asked first started)
      (HasRead outside asked first initial entries started) := by
  unfold read
  refine (look_sound logs tracked).bind ?_ fun found => ?_
  · rintro error later ⟨_, raised, _⟩
    cases raised
  · cases found with
    | some row =>
      refine Task.Sound.ofExcept ?_
      rintro later ⟨_, same, _, shown, _⟩
      exact shown row (Except.ok.inj same).symm
    | none =>
      dsimp only
      cases imports : legacyValue outside initial with
      | error failure =>
        rintro later ⟨_, same, _, _, failed⟩
        exact failed failure (Except.ok.inj same).symm imports
      | ok result =>
        refine (seed_sound logs tracked imports (readable _ _ imports)).consequence ?_ fun _ _ => id
        exact fun later ⟨_, _, reached, _⟩ => reached

/-- A read with the models that it offers for editing. -/
theorem readRuntimeConditions_sound (readable : initial.Readable outside) :
    (readRuntimeConditions outside initial).Sound (Evolves outside asked first)
      (Evolves outside asked first started) fun answer later => ∃ read, answer = read.map editableConditions ∧
        HasRead outside asked first initial entries started read later := by
  unfold readRuntimeConditions
  refine (read_sound logs tracked readable).bind (fun error later done => ⟨.error error, rfl, done⟩) fun value => ?_
  exact fun later done => ⟨.ok value, rfl, done⟩

end Reads

def readEntry (initial : Initial) (answer : Except Failure Value) : Entry :=
  ⟨.read initial, answer.map editableConditions⟩

theorem readEntry_happens (register : Register) :
    (readEntry initial (register.read outside initial).1).request.apply outside register =
      ((readEntry initial (register.read outside initial).1).answer, (register.read outside initial).2) :=
  rfl

theorem logs_read (within : Within asked (.read initial)) :
    Logs outside asked initial fun answer => [readEntry initial answer] where
  within _ := List.forall_mem_singleton.mpr within
  replays register := .single (readEntry_happens register)

/-! ### Saves -/

theorem savedValue_eq_ok {request : SaveRequest} {current saved : Value}
    (made : savedValue outside request current = .ok saved) :
    request.expectedRevision = current.revision ∧ saved.Valid outside ∧
      saved.conditions.questRef = current.conditions.questRef ∧ saved.conditions.text = request.text := by
  unfold savedValue at made
  rw [check_then_eq_ok_iff, require_eq_ok_iff, decide_eq_true_eq] at made
  obtain ⟨valid, questRef, text, _⟩ := of_makeValue made.2
  exact ⟨made.1, valid, questRef, text⟩

theorem savedValue_of_ne {request : SaveRequest} {current : Value}
    (stale : request.expectedRevision ≠ current.revision) :
    savedValue outside request current = .error (.conflict "runtime_conditions_stale") := by
  simp only [savedValue, require, decide_eq_false stale]
  rfl

variable (outside) in
/-- What is logged when a save has read: the save as well, if nothing can be made of it. -/
def saveEntries (initial : Initial) (request : SaveRequest) (answer : Except Failure Value) : List Entry :=
  readEntry initial answer ::
    match answer.bind fun current => savedValue outside request (editableConditions current) with
    | .error failure => [⟨.save initial request, .error failure⟩]
    | .ok _ => []

theorem saveEntries_of_error {request : SaveRequest} {answer : Except Failure Value} {failure : Failure}
    (failed : (answer.bind fun current => savedValue outside request (editableConditions current)) =
      .error failure) :
    saveEntries outside initial request answer =
      [readEntry initial answer] ++ [⟨.save initial request, .error failure⟩] := by
  rw [saveEntries, failed]
  rfl

theorem saveEntries_of_ok {request : SaveRequest} {answer : Except Failure Value} {saved : Value}
    (made : (answer.bind fun current => savedValue outside request (editableConditions current)) = .ok saved) :
    saveEntries outside initial request answer = [readEntry initial answer] := by
  rw [saveEntries, made]

theorem logs_save {request : SaveRequest} (checked : checkText request = .ok ())
    (within : Within asked (.read initial)) (within' : Within asked (.save initial request)) :
    Logs outside asked initial (saveEntries outside initial request) where
  within answer := by
    cases made : answer.bind fun current => savedValue outside request (editableConditions current) with
    | ok saved =>
      rw [saveEntries_of_ok made]
      exact List.forall_mem_singleton.mpr within
    | error failure =>
      rw [saveEntries_of_error made]
      exact List.forall_mem_append.mpr
        ⟨List.forall_mem_singleton.mpr within, List.forall_mem_singleton.mpr within'⟩
  replays register := by
    have read := Replays.single (@readEntry_happens outside initial register)
    cases made : register.made outside initial request with
    | ok saved =>
      rw [saveEntries_of_ok made]
      exact read
    | error failure =>
      rw [saveEntries_of_error made]
      have failed : (register.read outside initial).2.made outside initial request = .error failure := by
        rw [Register.made, Register.read_read]
        exact made
      have happened : (register.read outside initial).2.save outside initial request =
          (.error failure, (register.read outside initial).2) := by
        rw [Register.save_of_not_made checked failed, Register.read_read]
      exact read.snoc happened

/-- The last transaction of a save is a save at once, also when the head has been replaced. -/
theorem replaceHead_happens (injective : Function.Injective outside.digest) {tables : Tables}
    (formed : tables.Formed outside) {request : SaveRequest} {raw saved : Value} (has : tables.Has initial raw)
    (checked : checkText request = .ok ())
    (made : savedValue outside request (editableConditions raw) = .ok saved) :
    (∃ after, replaceHead raw.conditions.questRef request.expectedRevision saved tables = .ok ((), after) ∧
      tables.Grown outside after ∧ tables.register.save outside initial request =
        (.ok (editableConditions saved), after.register)) ∨
    (replaceHead raw.conditions.questRef request.expectedRevision saved tables =
        .error (.conflict "runtime_conditions_stale") ∧
      tables.register.save outside initial request =
        (.error (.conflict "runtime_conditions_stale"), tables.register)) := by
  obtain ⟨expected, valid, questRef, text⟩ := savedValue_eq_ok made
  have readable : textReadable saved.conditions.text = true := by
    rw [text]
    exact require_eq_ok_iff.mp checked
  obtain ⟨row, member, scope, shown⟩ := has
  have genuine := formed.valid row member
  have questRef_raw : raw.conditions.questRef = initial.scope := by
    rw [← shown, ← scope]
    exact genuine.scope
  have revision_raw : raw.revision = row.revision := by
    rw [← shown]
    exact genuine.revision
  obtain ⟨head, headed, named⟩ := formed.headed row member
  have found : tables.heads.find? initial.scope = some head :=
    Table.find?_eq_some_iff.mpr ⟨headed, named.trans scope⟩
  obtain ⟨current, present, there, key⟩ := formed.lookup_of_head found
  have read_eq : tables.register.read outside initial =
      (.ok (initial.withLibrary current.value), tables.register) := Register.read_of_lookup there
  rw [questRef_raw]
  rcases of_replaceHead injective formed request.expectedRevision valid (questRef.trans questRef_raw)
      readable found with ⟨expects, stored, after, same, returned, updated⟩ | ⟨stale, raised⟩
  · left
    -- the head names the version that was read
    have read_again : current = row := Table.eq_of_key present member <| by
      rw [key, VersionRow.key, scope, ← revision_raw, expects, expected]
      rfl
    have made_again : tables.register.made outside initial request = .ok saved := by
      rw [Register.made, read_eq, read_again, shown]
      exact made
    refine ⟨after, returned, updated.grown formed, ?_⟩
    rw [Register.save_of_made checked made_again, read_eq, updated.register formed, same]
  · right
    have failed : tables.register.made outside initial request =
        .error (.conflict "runtime_conditions_stale") := by
      rw [Register.made, read_eq]
      refine savedValue_of_ne fun same => stale ?_
      rw [same]
      exact (Prod.mk.inj key).2.symm.trans (formed.valid current present).revision.symm
    refine ⟨raised, ?_⟩
    rw [Register.save_of_not_made checked failed, read_eq]

section Saves

variable {request : SaveRequest} (tracked : Tracked outside asked first started)

include tracked

theorem replaceHead_sound (injective : Function.Injective outside.digest) {raw saved : Value}
    (within : Within asked (.save initial request)) (checked : checkText request = .ok ())
    (made : savedValue outside request (editableConditions raw) = .ok saved) :
    (Task.atomically (replaceHead raw.conditions.questRef request.expectedRevision saved)).Sound
      (Evolves outside asked first) (fun now => Evolves outside asked first started now ∧ now.1.Has initial raw)
      fun answer now => AtOnce (.save initial request) started
        (answer.map fun _ => editableConditions saved) now := by
  refine Task.Sound.atomically (fun before log value after pre returned => ?_)
    fun before log error pre raised => ?_
  all_goals have formed := (pre.1 tracked).1.formed
  · obtain ⟨next, returned', grown, happened⟩ | ⟨raised, _⟩ :=
      replaceHead_happens injective formed pre.2 checked made
    · rw [returned'] at returned
      cases returned
      exact AtOnce.of_happened tracked within pre.1 grown happened
    · rw [raised] at returned
      cases returned
  · obtain ⟨next, returned, _⟩ | ⟨raised', happened⟩ :=
      replaceHead_happens injective formed pre.2 checked made
    · rw [returned] at raised
      cases raised
    · rw [raised'] at raised
      cases raised
      exact AtOnce.of_happened tracked within pre.1 ⟨formed, fun _ => id⟩ happened

/-- A save whose text is accepted. -/
theorem saveRuntimeConditions_sound (injective : Function.Injective outside.digest)
    (readable : initial.Readable outside) (checked : checkText request = .ok ())
    (within : Within asked (.read initial)) (within' : Within asked (.save initial request)) :
    (saveRuntimeConditions outside initial request).Sound (Evolves outside asked first)
      (Evolves outside asked first started) (AtOnce (.save initial request) started) := by
  unfold saveRuntimeConditions
  rw [checked]
  refine (readRuntimeConditions_sound (logs_save checked within within') tracked readable).bind ?_ fun current => ?_
  · rintro error later ⟨read, raised, done⟩
    cases read with
    | ok value => cases raised
    | error failure =>
      cases raised
      have logged := done.logged
      rw [saveEntries_of_error rfl] at logged
      exact logged.right
  · refine Task.Sound.of_forall fun start => ?_
    rintro ⟨read, returned, done⟩
    cases read with
    | error failure => cases returned
    | ok raw =>
      cases returned
      cases made : savedValue outside request (editableConditions raw) with
      | error failure =>
        rintro later rfl
        have logged := done.logged
        rw [@saveEntries_of_error _ _ _ (.ok raw) _ made] at logged
        exact logged.right
      | ok saved =>
        change (Task.atomically _ >>= _).Sound _ _ _
        refine ((replaceHead_sound tracked injective within' checked made).consequence ?_ fun _ _ => id).bind
          (fun _ _ => id) fun _ _ => id
        rintro now rfl
        exact ⟨done.reached, done.has raw rfl⟩

end Saves

/-! ### Runs -/

/-- Every request that is asked for keeps its promise; a save whose text is refused is logged at once. -/
theorem Request.promised (injective : Function.Injective outside.digest)
    (readable : ∀ request ∈ asked, request.initial.Readable outside) {request : Request} (own : request ∈ asked)
    (tracked : Tracked outside asked first started) :
    ∃ log, Evolves outside asked first started (started.1, log) ∧
      (request.task outside).Sound (Evolves outside asked first) (Evolves outside asked first (started.1, log))
        (AtOnce request started) := by
  have within : Within asked request := ⟨request, own, .inl rfl⟩
  have readable := readable request own
  cases request with
  | read initial =>
    refine ⟨started.2, refl_of _ started, ?_⟩
    refine (readRuntimeConditions_sound (logs_read within) tracked readable).consequence (fun _ => id) ?_
    rintro answer later ⟨read, rfl, done⟩
    exact done.logged
  | save initial request =>
    cases checked : checkText request with
    | error failure =>
      have happened : (Request.save initial request).apply outside started.1.register =
          (.error failure, started.1.register) := by
        rw [Request.apply, Register.save, checked]
      obtain ⟨log, step, logged⟩ := AtOnce.of_happened tracked within (refl_of _ started)
        ⟨tracked.formed, fun _ => id⟩ happened
      refine ⟨log, step, ?_⟩
      unfold Request.task saveRuntimeConditions
      dsimp only
      rw [checked]
      exact logged
    | ok _ =>
      exact ⟨started.2, refl_of _ started, saveRuntimeConditions_sound tracked injective readable checked
        ⟨_, own, .inr rfl⟩ within⟩

variable (outside) in
/-- What a schedule of requests that are asked for makes of tables. -/
def run (asked : Set Request) (tables : Tables) (events : List (Pool.Event asked)) :
    Pool asked Tables Failure Value :=
  runInputs (Pool.next fun request => request.1.task outside) ⟨tables, []⟩ events

theorem tracked_nil {tables : Tables} (formed : tables.Formed outside) :
    Tracked outside asked tables.register (tables, []) :=
  ⟨formed, .nil, fun _ member => (List.not_mem_nil member).elim⟩

theorem run_sound (injective : Function.Injective outside.digest)
    (readable : ∀ request ∈ asked, request.initial.Readable outside) {tables : Tables}
    (formed : tables.Formed outside) (events : List (Pool.Event asked)) :
    ∃ log, (run outside asked tables events).Sound (Evolves outside asked tables.register)
      (fun request => AtOnce request.1) (tables, []) log := by
  have start : Pool.Sound (Evolves outside asked tables.register) (fun request => AtOnce request.1) (tables, [])
      (⟨tables, []⟩ : Pool asked Tables Failure Value) [] :=
    ⟨refl_of _ _, fun _ member => (List.not_mem_nil member).elim⟩
  refine start.run (fun request now reached => ?_) events
  exact Request.promised injective readable request.2 (reached (tracked_nil formed)).1

/-- A read of a new scope. -/
def firstRead : Request := .read { scope := "quest", text := "conditions" }

theorem firstRead_readable : ∀ request ∈ ({firstRead} : Set Request),
    request.initial.Readable ⟨id, fun _ => none⟩ := by
  rintro _ rfl _ _ imports
  cases imports
  decide

theorem readRevision_of_mem {tables : Tables} (formed : tables.Formed outside) {row : VersionRow}
    (member : row ∈ tables.versions) : readRevision outside tables row.scopeRef row.revision = .ok row.value := by
  have found : tables.versions.find? (row.scopeRef, row.revision) = some row := Table.find?_of_mem member
  rw [readRevision, found]
  exact storedValue_of_valid (formed.valid row member)

end MetaResearch.RuntimeConditions

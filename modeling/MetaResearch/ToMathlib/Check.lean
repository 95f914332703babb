import Mathlib.Data.List.Basic

/-! # Checks that raise

A check returns nothing or raises. A sequence of checks passes when each of them does.
-/

namespace MetaResearch

variable {ε α β : Type}

theorem bind_eq_ok_iff {first : Except ε α} {next : α → Except ε β} {result : β} :
    (first >>= next) = .ok result ↔ ∃ value, first = .ok value ∧ next value = .ok result := by
  cases first <;> simp [bind, Except.bind]

theorem check_then_eq_ok_iff {check : Except ε Unit} {next : Except ε β} {result : β} :
    (check >>= fun _ => next) = .ok result ↔ check = .ok () ∧ next = .ok result := by
  rw [bind_eq_ok_iff]
  exact ⟨fun ⟨(), passed, done⟩ => ⟨passed, done⟩, fun ⟨passed, done⟩ => ⟨(), passed, done⟩⟩

/-- Raise unless the condition holds. -/
def require (condition : Bool) (error : ε) : Except ε Unit :=
  if condition then .ok () else .error error

@[simp] theorem require_eq_ok_iff {condition : Bool} {error : ε} {value : Unit} :
    require condition error = .ok value ↔ condition = true := by
  unfold require
  split_ifs <;> simp_all

/-- Run a check on each element in order. -/
def checkAll (check : α → Except ε Unit) : List α → Except ε Unit
  | [] => .ok ()
  | item :: rest => check item >>= fun _ => checkAll check rest

@[simp] theorem checkAll_eq_ok_iff {check : α → Except ε Unit} {items : List α} {value : Unit} :
    checkAll check items = .ok value ↔ ∀ item ∈ items, check item = .ok () := by
  induction items with
  | nil => simp [checkAll]
  | cons item rest ih => rw [checkAll, check_then_eq_ok_iff, ih, List.forall_mem_cons]

theorem discard_eq_ok_iff {check : Except ε α} :
    check.map (fun _ => ()) = .ok () ↔ ∃ value, check = .ok value := by
  cases check <;> simp [Except.map]

/-- Answers that another function gives as well are collected to the same list. -/
theorem mapM_eq_ok_of_imp {first second : α → Except ε β} {items : List α} {results : List β}
    (collected : items.mapM first = .ok results)
    (each : ∀ item ∈ items, ∀ result, first item = .ok result → second item = .ok result) :
    items.mapM second = .ok results := by
  induction items generalizing results with
  | nil => exact collected
  | cons item rest ih =>
    rw [List.mapM_cons, bind_eq_ok_iff] at collected ⊢
    obtain ⟨result, here, later⟩ := collected
    obtain ⟨others, there, built⟩ := bind_eq_ok_iff.mp later
    refine ⟨result, each item (by simp) result here, bind_eq_ok_iff.mpr ⟨others, ?_, built⟩⟩
    exact ih there fun item member => each item (by simp [member])

/-- Each item is answered by one of the results, in their order. -/
theorem forall₂_of_mapM {check : α → Except ε β} {items : List α} {results : List β}
    (collected : items.mapM check = .ok results) :
    List.Forall₂ (fun item result => check item = .ok result) items results := by
  induction items generalizing results with
  | nil =>
    cases collected
    exact .nil
  | cons item rest ih =>
    rw [List.mapM_cons, bind_eq_ok_iff] at collected
    obtain ⟨result, here, later⟩ := collected
    obtain ⟨others, there, ⟨⟩⟩ := bind_eq_ok_iff.mp later
    exact .cons here (ih there)

theorem exists_result_of_mapM {check : α → Except ε β} {items : List α} {results : List β}
    (collected : items.mapM check = .ok results) :
    ∀ item ∈ items, ∃ result ∈ results, check item = .ok result := by
  have each := forall₂_of_mapM collected
  clear collected
  induction each with
  | nil => exact List.forall_mem_nil _
  | cons here _ ih =>
    refine List.forall_mem_cons.mpr ⟨⟨_, List.mem_cons_self, here⟩, fun item member => ?_⟩
    obtain ⟨result, present, checked⟩ := ih item member
    exact ⟨result, List.mem_cons_of_mem _ present, checked⟩

theorem exists_item_of_mapM {check : α → Except ε β} {items : List α} {results : List β}
    (collected : items.mapM check = .ok results) :
    ∀ result ∈ results, ∃ item ∈ items, check item = .ok result := by
  have each := forall₂_of_mapM collected
  clear collected
  induction each with
  | nil => exact List.forall_mem_nil _
  | cons here _ ih =>
    refine List.forall_mem_cons.mpr ⟨⟨_, List.mem_cons_self, here⟩, fun result member => ?_⟩
    obtain ⟨item, present, checked⟩ := ih result member
    exact ⟨item, List.mem_cons_of_mem _ present, checked⟩

/-- What each round of a loop preserves holds after the loop, of all the items. -/
theorem foldlM_ok_induction {step : β → α → Except ε β} {items : List α} {state result : β}
    {motive : List α → β → Prop} (start : motive [] state)
    (round : ∀ done state item next, motive done state → step state item = .ok next →
      motive (done ++ [item]) next)
    (folded : items.foldlM step state = .ok result) : motive items result := by
  have general : ∀ (rest done : List α) (state : β), motive done state →
      rest.foldlM step state = .ok result → motive (done ++ rest) result := by
    intro rest
    induction rest with
    | nil =>
      rintro done state held ⟨⟩
      simpa using held
    | cons item rest ih =>
      intro done state held run
      obtain ⟨next, here, later⟩ := bind_eq_ok_iff.mp run
      simpa using ih (done ++ [item]) next (round done state item next held here) later
  exact general items [] state start folded

/-- The answer is this error. -/
def isError [DecidableEq ε] (answer : Except ε α) (error : ε) : Bool :=
  match answer with
  | .error raised => raised = error
  | .ok _ => false

theorem isError_iff [DecidableEq ε] {answer : Except ε α} {error : ε} :
    isError answer error = true ↔ answer = .error error := by
  cases answer <;> simp [isError]

/-! ### Errors that a check does not raise -/

theorem bind_ne_error {first : Except ε α} {next : α → Except ε β} {error : ε}
    (here : first ≠ .error error) (later : ∀ value, first = .ok value → next value ≠ .error error) :
    (first >>= next) ≠ .error error := by
  cases result : first with
  | error other => simpa [bind, Except.bind, result] using here
  | ok value => exact later value result

theorem require_ne_error {condition : Bool} {raised error : ε} (apart : raised ≠ error) :
    require condition raised ≠ .error error := by
  unfold require
  split_ifs
  · simp
  · simpa using apart

theorem mapM_ne_error {check : α → Except ε β} {items : List α} {error : ε}
    (each : ∀ item, check item ≠ .error error) : items.mapM check ≠ .error error := by
  induction items with
  | nil => simp [pure, Except.pure]
  | cons item rest ih =>
    rw [List.mapM_cons]
    exact bind_ne_error (each item) fun _ _ => bind_ne_error ih fun _ _ => by simp [pure, Except.pure]

theorem foldlM_ne_error {step : β → α → Except ε β} {items : List α} {state : β} {error : ε}
    (each : ∀ state item, step state item ≠ .error error) :
    items.foldlM step state ≠ .error error := by
  induction items generalizing state with
  | nil => simp [pure, Except.pure]
  | cons item rest ih =>
    rw [List.foldlM_cons]
    exact bind_ne_error (each state item) fun _ _ => ih

/-! ### What a check may raise -/

/-- Every error of the answer is permitted. -/
def RaisesOnly (permitted : ε → Prop) (answer : Except ε α) : Prop :=
  ∀ error, answer = .error error → permitted error

section RaisesOnly

variable {permitted : ε → Prop}

@[simp] theorem raisesOnly_ok {value : α} : RaisesOnly permitted (.ok value) :=
  fun _ raised => by cases raised

@[simp] theorem raisesOnly_pure {value : α} : RaisesOnly permitted (pure value : Except ε α) :=
  raisesOnly_ok

@[simp] theorem raisesOnly_error {error : ε} :
    RaisesOnly permitted (.error error : Except ε α) ↔ permitted error :=
  ⟨fun only => only error rfl, fun allowed _ raised => by cases raised; exact allowed⟩

@[simp] theorem raisesOnly_require {condition : Bool} {error : ε} :
    RaisesOnly permitted (require condition error) ↔ (condition = false → permitted error) := by
  cases condition <;> simp [require]

theorem raisesOnly_bind_iff {first : Except ε α} {next : α → Except ε β} :
    RaisesOnly permitted (first >>= next) ↔
      RaisesOnly permitted first ∧ ∀ value, first = .ok value → RaisesOnly permitted (next value) := by
  cases first <;> simp [bind, Except.bind]

theorem raisesOnly_check_iff {check : Except ε Unit} {next : Except ε β} :
    RaisesOnly permitted (check >>= fun _ => next) ↔
      RaisesOnly permitted check ∧ (check = .ok () → RaisesOnly permitted next) := by
  rw [raisesOnly_bind_iff]
  constructor
  · rintro ⟨first, later⟩
    exact ⟨first, later ()⟩
  · rintro ⟨first, later⟩
    exact ⟨first, fun _ passed => later passed⟩

theorem RaisesOnly.map {answer : Except ε α} (only : RaisesOnly permitted answer) (f : α → β) :
    RaisesOnly permitted (answer.map f) := by
  cases answer with
  | error error => exact raisesOnly_error.mpr (only error rfl)
  | ok value => exact raisesOnly_ok

theorem raisesOnly_checkAll {check : α → Except ε Unit} {items : List α}
    (each : ∀ item ∈ items, RaisesOnly permitted (check item)) :
    RaisesOnly permitted (checkAll check items) := by
  induction items with
  | nil => exact raisesOnly_ok
  | cons item rest ih =>
    obtain ⟨here, later⟩ := List.forall_mem_cons.mp each
    exact raisesOnly_check_iff.mpr ⟨here, fun _ => ih later⟩

theorem raisesOnly_mapM {check : α → Except ε β} {items : List α}
    (each : ∀ item ∈ items, RaisesOnly permitted (check item)) :
    RaisesOnly permitted (items.mapM check) := by
  induction items with
  | nil => exact raisesOnly_pure
  | cons item rest ih =>
    obtain ⟨here, later⟩ := List.forall_mem_cons.mp each
    rw [List.mapM_cons, raisesOnly_bind_iff]
    exact ⟨here, fun _ _ => raisesOnly_bind_iff.mpr ⟨ih later, fun _ _ => raisesOnly_pure⟩⟩

theorem raisesOnly_foldlM {step : β → α → Except ε β} {items : List α} {state : β}
    (each : ∀ state, ∀ item ∈ items, RaisesOnly permitted (step state item)) :
    RaisesOnly permitted (items.foldlM step state) := by
  induction items generalizing state with
  | nil => exact raisesOnly_pure
  | cons item rest ih =>
    rw [List.foldlM_cons, raisesOnly_bind_iff]
    exact ⟨each state item (by simp), fun _ _ => ih fun state item member => each state item (by simp [member])⟩

end RaisesOnly

end MetaResearch

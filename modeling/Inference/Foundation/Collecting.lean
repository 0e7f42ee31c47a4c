import Mathlib.Data.Finset.Basic

/-! # Computations that collect errors

A computation reads and writes a state, reports errors and goes on after an error.
It stops early only by a panic. A run without errors is a run of all its parts
without errors. The states that a run writes are kept, so that a panic hides none.
-/

namespace Inference.Foundation

/-- The states that a computation writes, in order, and how it ends; `none` is a panic. -/
structure Run (state error result : Type) where
  states : List state
  outcome : Option (result × state × List error)

/-- A computation over `state` that collects errors. -/
def Collecting (state error result : Type) : Type :=
  state → Run state error result

namespace Collecting

variable {state error result other : Type}

protected def pure (value : result) : Collecting state error result :=
  fun current => ⟨[], some (value, current, [])⟩

protected def bind (first : Collecting state error result)
    (next : result → Collecting state error other) : Collecting state error other :=
  fun current =>
    match first current with
    | ⟨states, none⟩ => ⟨states, none⟩
    | ⟨states, some (value, middle, errors)⟩ =>
        let rest := next value middle
        ⟨states ++ rest.states,
          rest.outcome.map fun (last, final, more) => (last, final, errors ++ more)⟩

instance : Monad (Collecting state error) where
  pure := Collecting.pure
  bind := Collecting.bind

/-- Adds an error to the errors collected. -/
def report (problem : error) : Collecting state error Unit :=
  fun current => ⟨[], some ((), current, [problem])⟩

/-- Stops the computation. -/
def abort : Collecting state error result :=
  fun _ => ⟨[], none⟩

def read (view : state → result) : Collecting state error result :=
  fun current => ⟨[], some (view current, current, [])⟩

def update (change : state → state) : Collecting state error Unit :=
  fun current => ⟨[change current], some ((), change current, [])⟩

/-- The value of a partial function that panics outside its domain. -/
def expect (value : Option result) : Collecting state error result :=
  fun current => ⟨[], value.map fun known => (known, current, [])⟩

/-! ## Runs without errors -/

/-- The computation ends in `final` with `value` and reports no error. -/
def Accepts (computation : Collecting state error result) (initial : state) (value : result)
    (final : state) : Prop :=
  (computation initial).outcome = some (value, final, [])

@[simp] theorem accepts_pure {value expected : result} {initial final : state} :
    (pure value : Collecting state error result).Accepts initial expected final ↔
      expected = value ∧ final = initial := by
  simp only [Accepts, pure, Collecting.pure, Option.some.injEq, Prod.mk.injEq, and_true]
  exact and_congr eq_comm eq_comm

/-- How a sequence ends. -/
theorem outcome_bind (first : Collecting state error result)
    (next : result → Collecting state error other) (initial : state) :
    ((first >>= next) initial).outcome =
      (first initial).outcome.bind fun (value, middle, errors) =>
        (next value middle).outcome.map fun (last, final, more) =>
          (last, final, errors ++ more) := by
  simp only [bind, Collecting.bind]
  cases first initial with
  | mk states outcome => cases outcome <;> rfl

/-- A sequence that starts by reading goes on from the same state. -/
theorem read_bind (view : state → result) (next : result → Collecting state error other)
    (initial : state) : (read view >>= next) initial = next (view initial) initial := by
  have unfolded : (read view >>= next) initial =
      ⟨[] ++ (next (view initial) initial).states,
        (next (view initial) initial).outcome.map fun (last, final, more) =>
          (last, final, [] ++ more)⟩ := rfl
  rw [unfolded]
  rcases next (view initial) initial with ⟨states, outcome⟩
  cases outcome <;> rfl

/-- The states of a sequence whose first part ends. -/
theorem states_bind {first : Collecting state error result}
    {next : result → Collecting state error other} {initial middle : state} {value : result}
    {errors : List error} (ended : (first initial).outcome = some (value, middle, errors)) :
    ((first >>= next) initial).states = (first initial).states ++ (next value middle).states := by
  simp only [bind, Collecting.bind]
  cases run : first initial with
  | mk states outcome =>
      rw [run] at ended
      cases ended
      rfl

@[simp] theorem accepts_bind {first : Collecting state error result}
    {next : result → Collecting state error other} {initial final : state} {value : other} :
    (first >>= next).Accepts initial value final ↔
      ∃ middleValue middle, first.Accepts initial middleValue middle ∧
        (next middleValue).Accepts middle value final := by
  simp only [Accepts, outcome_bind]
  constructor
  · intro accepted
    cases run : (first initial).outcome with
    | none => simp [run] at accepted
    | some outcome =>
        rcases outcome with ⟨middleValue, middle, errors⟩
        cases rest : (next middleValue middle).outcome with
        | none => simp [run, rest] at accepted
        | some restOutcome =>
            rcases restOutcome with ⟨last, lastState, more⟩
            simp only [run, rest, Option.bind_some, Option.map_some, Option.some.injEq,
              Prod.mk.injEq, List.append_eq_nil_iff] at accepted
            rcases accepted with ⟨rfl, rfl, rfl, rfl⟩
            exact ⟨middleValue, middle, rfl, rest⟩
  · rintro ⟨middleValue, middle, run, rest⟩
    simp [run, rest]

@[simp] theorem accepts_report {problem : error} {initial final : state} {value : Unit} :
    (report problem).Accepts initial value final ↔ False := by
  simp [Accepts, report]

@[simp] theorem accepts_abort {initial final : state} {value : result} :
    (abort : Collecting state error result).Accepts initial value final ↔ False := by
  simp [Accepts, abort]

@[simp] theorem accepts_read {view : state → result} {initial final : state} {value : result} :
    (read view : Collecting state error result).Accepts initial value final ↔
      value = view initial ∧ final = initial := by
  simp only [Accepts, read, Option.some.injEq, Prod.mk.injEq, and_true]
  exact and_congr eq_comm eq_comm

@[simp] theorem accepts_update {change : state → state} {initial final : state} {value : Unit} :
    (update change : Collecting state error Unit).Accepts initial value final ↔
      final = change initial := by
  simp only [Accepts, update, Option.some.injEq, Prod.mk.injEq, and_true, true_and]
  exact eq_comm

@[simp] theorem accepts_expect {partialValue : Option result} {initial final : state}
    {value : result} :
    (expect partialValue : Collecting state error result).Accepts initial value final ↔
      partialValue = some value ∧ final = initial := by
  cases partialValue with
  | none => simp [Accepts, expect]
  | some known =>
      simp only [Accepts, expect, Option.map_some, Option.some.injEq, Prod.mk.injEq, and_true]
      exact and_congr Iff.rfl eq_comm

@[simp] theorem accepts_ite {condition : Prop} [Decidable condition]
    {first second : Collecting state error result} {initial final : state} {value : result} :
    (if condition then first else second).Accepts initial value final ↔
      (condition ∧ first.Accepts initial value final) ∨
        (¬condition ∧ second.Accepts initial value final) := by
  split <;> simp_all

/-! ## Runs that end -/

/-- The computation ends in `final` with `value` and reports `errors`. -/
def Ends (computation : Collecting state error result) (initial : state) (value : result)
    (final : state) (errors : List error) : Prop :=
  (computation initial).outcome = some (value, final, errors)

theorem Ends.unique {computation : Collecting state error result} {initial : state}
    {first second : result} {firstFinal secondFinal : state} {firstErrors secondErrors : List error}
    (left : computation.Ends initial first firstFinal firstErrors)
    (right : computation.Ends initial second secondFinal secondErrors) :
    first = second ∧ firstFinal = secondFinal ∧ firstErrors = secondErrors := by
  have equal := Option.some.inj (left.symm.trans right)
  simpa only [Prod.mk.injEq] using equal

theorem ends_pure {value expected : result} {initial final : state} {errors : List error} :
    (pure value : Collecting state error result).Ends initial expected final errors ↔
      expected = value ∧ final = initial ∧ errors = [] := by
  simp only [Ends, pure, Collecting.pure, Option.some.injEq, Prod.mk.injEq]
  exact and_congr eq_comm (and_congr eq_comm eq_comm)

theorem ends_bind {first : Collecting state error result}
    {next : result → Collecting state error other} {initial final : state} {value : other}
    {errors : List error} :
    (first >>= next).Ends initial value final errors ↔
      ∃ middleValue middle firstErrors restErrors,
        first.Ends initial middleValue middle firstErrors ∧
          (next middleValue).Ends middle value final restErrors ∧
          errors = firstErrors ++ restErrors := by
  simp only [Ends, outcome_bind]
  constructor
  · intro ended
    cases run : (first initial).outcome with
    | none => simp [run] at ended
    | some outcome =>
        rcases outcome with ⟨middleValue, middle, firstErrors⟩
        cases rest : (next middleValue middle).outcome with
        | none => simp [run, rest] at ended
        | some restOutcome =>
            rcases restOutcome with ⟨last, lastState, restErrors⟩
            simp only [run, rest, Option.bind_some, Option.map_some, Option.some.injEq,
              Prod.mk.injEq] at ended
            rcases ended with ⟨rfl, rfl, rfl⟩
            exact ⟨middleValue, middle, firstErrors, restErrors, rfl, rest, rfl⟩
  · rintro ⟨middleValue, middle, firstErrors, restErrors, run, rest, rfl⟩
    simp [run, rest]

theorem ends_report {problem : error} {initial final : state} {value : Unit}
    {errors : List error} :
    (report problem).Ends initial value final errors ↔ final = initial ∧ errors = [problem] := by
  simp only [Ends, report, Option.some.injEq, Prod.mk.injEq, true_and]
  exact and_congr eq_comm eq_comm

theorem ends_abort {initial final : state} {value : result} {errors : List error} :
    (abort : Collecting state error result).Ends initial value final errors ↔ False := by
  simp [Ends, abort]

theorem ends_read {view : state → result} {initial final : state} {value : result}
    {errors : List error} :
    (read view : Collecting state error result).Ends initial value final errors ↔
      value = view initial ∧ final = initial ∧ errors = [] := by
  simp only [Ends, read, Option.some.injEq, Prod.mk.injEq]
  exact and_congr eq_comm (and_congr eq_comm eq_comm)

theorem ends_update {change : state → state} {initial final : state} {value : Unit}
    {errors : List error} :
    (update change : Collecting state error Unit).Ends initial value final errors ↔
      final = change initial ∧ errors = [] := by
  simp only [Ends, update, Option.some.injEq, Prod.mk.injEq, true_and]
  exact and_congr eq_comm eq_comm

theorem ends_expect {partialValue : Option result} {initial final : state} {value : result}
    {errors : List error} :
    (expect partialValue : Collecting state error result).Ends initial value final errors ↔
      partialValue = some value ∧ final = initial ∧ errors = [] := by
  cases partialValue with
  | none => simp [Ends, expect]
  | some known =>
      simp only [Ends, expect, Option.map_some, Option.some.injEq, Prod.mk.injEq]
      exact and_congr Iff.rfl (and_congr eq_comm eq_comm)

theorem ends_ite {condition : Prop} [Decidable condition]
    {first second : Collecting state error result} {initial final : state} {value : result}
    {errors : List error} :
    (if condition then first else second).Ends initial value final errors ↔
      (condition ∧ first.Ends initial value final errors) ∨
        (¬condition ∧ second.Ends initial value final errors) := by
  split <;> simp_all

/-! ## Loops -/

/-- What every step of a loop keeps, the loop keeps. -/
theorem accepts_forM_keeps {item : Type} {step : item → Collecting state error PUnit}
    (keeps : state → Prop)
    (stepKeeps : ∀ {element initial final value}, (step element).Accepts initial value final →
      keeps initial → keeps final)
    {items : List item} {initial final : state} {value : PUnit}
    (accepted : (items.forM step).Accepts initial value final) (kept : keeps initial) :
    keeps final := by
  induction items generalizing initial with
  | nil =>
      rcases accepts_pure.mp accepted with ⟨-, rfl⟩
      exact kept
  | cons head tail induction =>
      rcases accepts_bind.mp accepted with ⟨_, middle, first, rest⟩
      exact induction rest (stepKeeps first kept)

/-- A loop whose steps all end visits what one of its steps visits. -/
theorem forM_visits {item : Type} {body : item → Collecting state error PUnit}
    {invariant goal : state → Prop} {items : List item}
    (ends : ∀ element ∈ items, ∀ {current}, invariant current → ∃ value final errors,
      (body element current).outcome = some (value, final, errors) ∧ invariant final)
    {element : item} (member : element ∈ items)
    (visits : ∀ {current}, invariant current → ∃ point ∈ (body element current).states, goal point)
    {initial : state} (holds : invariant initial) :
    ∃ point ∈ (items.forM body initial).states, goal point := by
  induction items generalizing initial with
  | nil => cases member
  | cons head tail induction =>
      have unfolded : (head :: tail).forM body = body head >>= fun _ => tail.forM body := rfl
      rcases ends head List.mem_cons_self holds with ⟨value, final, errors, ended, kept⟩
      rw [unfolded, states_bind ended]
      rcases List.mem_cons.mp member with rfl | inTail
      · rcases visits holds with ⟨point, visited, reached⟩
        exact ⟨point, List.mem_append_left _ visited, reached⟩
      · rcases induction (fun other inOther => ends other (List.mem_cons_of_mem _ inOther)) inTail
          kept with ⟨point, visited, reached⟩
        exact ⟨point, List.mem_append_right _ visited, reached⟩

end Collecting

end Inference.Foundation

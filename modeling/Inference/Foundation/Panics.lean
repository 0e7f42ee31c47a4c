import Inference.Foundation.Collecting

/-! # Computations that panic

A computation returns from every state or panics from every state, where only a condition on its
text decides which. The condition of a sequence is put together from those of its parts.
-/

namespace Inference.Foundation

namespace Collecting

variable {state error result other : Type}

/-- From every state, the computation returns if and only if the condition holds. -/
structure ReturnsIff (condition : Prop) (computation : Collecting state error result) :
    Prop where
  outcome : ∀ initial, (computation initial).outcome.isSome ↔ condition

namespace ReturnsIff

theorem of_iff {condition expected : Prop} {computation : Collecting state error result}
    (returns : ReturnsIff condition computation) (same : condition ↔ expected) :
    ReturnsIff expected computation :=
  ⟨fun initial => (returns.outcome initial).trans same⟩

theorem pure (value : result) :
    ReturnsIff True (pure value : Collecting state error result) :=
  ⟨fun _ => iff_of_true rfl trivial⟩

theorem report (problem : error) :
    ReturnsIff True (Collecting.report problem : Collecting state error Unit) :=
  ⟨fun _ => iff_of_true rfl trivial⟩

theorem read (view : state → result) :
    ReturnsIff True (Collecting.read view : Collecting state error result) :=
  ⟨fun _ => iff_of_true rfl trivial⟩

theorem update (change : state → state) :
    ReturnsIff True (Collecting.update change : Collecting state error Unit) :=
  ⟨fun _ => iff_of_true rfl trivial⟩

theorem expect (value : Option result) :
    ReturnsIff value.isSome (Collecting.expect value : Collecting state error result) := by
  constructor
  intro initial
  cases value with
  | none => rfl
  | some known => exact iff_of_true rfl rfl

/-- A sequence returns if both of its parts do, whatever the first one hands to the second. -/
theorem bind {front back : Prop} {first : Collecting state error result}
    {next : result → Collecting state error other} (firstReturns : ReturnsIff front first)
    (nextReturns : ∀ value, ReturnsIff back (next value)) :
    ReturnsIff (front ∧ back) (first >>= next) := by
  constructor
  intro initial
  rw [outcome_bind]
  cases run : (first initial).outcome with
  | none =>
      have stopped : ¬front := by
        rw [← firstReturns.outcome initial, run]
        exact Bool.false_ne_true
      exact iff_of_false Bool.false_ne_true fun both => stopped both.1
  | some ended =>
      rcases ended with ⟨value, middle, errors⟩
      have reached : front := by
        rw [← firstReturns.outcome initial, run]
        rfl
      rw [Option.bind_some, Option.isSome_map, (nextReturns value).outcome middle]
      exact (and_iff_right reached).symm

/-- A first part that always returns leaves the condition to the rest. -/
theorem bind_total {back : Prop} {first : Collecting state error result}
    {next : result → Collecting state error other} (firstReturns : ReturnsIff True first)
    (nextReturns : ∀ value, ReturnsIff back (next value)) : ReturnsIff back (first >>= next) :=
  (firstReturns.bind nextReturns).of_iff (iff_of_eq (true_and back))

/-- A last part that always returns leaves the condition to the part before it. -/
theorem bind_front {front : Prop} {first : Collecting state error result}
    {next : result → Collecting state error other} (firstReturns : ReturnsIff front first)
    (nextReturns : ∀ value, ReturnsIff True (next value)) : ReturnsIff front (first >>= next) :=
  (firstReturns.bind nextReturns).of_iff (iff_of_eq (and_true front))

theorem ite {condition returning : Prop} [Decidable condition]
    {first second : Collecting state error result} (yes : ReturnsIff returning first)
    (no : ReturnsIff returning second) :
    ReturnsIff returning (if condition then first else second) := by
  split
  · exact yes
  · exact no

/-- A loop returns if all of its steps do. -/
theorem forM {item : Type} {condition : item → Prop} {body : item → Collecting state error PUnit}
    {items : List item} (single : ∀ element ∈ items, ReturnsIff (condition element) (body element)) :
    ReturnsIff (∀ element ∈ items, condition element) (items.forM body) := by
  induction items with
  | nil => exact (pure _).of_iff (iff_of_true trivial fun _ member => nomatch member)
  | cons head tail induction =>
      have tailReturns := induction fun element member => single element (.tail _ member)
      exact ((single head (.head _)).bind fun _ => tailReturns).of_iff List.forall_mem_cons.symm

/-- A loop whose steps all return. -/
theorem forM_total {item : Type} {body : item → Collecting state error PUnit} {items : List item}
    (single : ∀ element, ReturnsIff True (body element)) : ReturnsIff True (items.forM body) :=
  (forM fun element _ => single element).of_iff (iff_of_true (fun _ _ => trivial) trivial)

end ReturnsIff

end Collecting

end Inference.Foundation

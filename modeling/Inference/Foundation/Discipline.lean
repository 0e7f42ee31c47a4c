import Mathlib.Data.List.Chain
import Inference.Foundation.Collecting

/-! # Disciplines of runs

A discipline says what a single write may do and what a run does as a whole. The rules
put the runs of a computation together from the runs of its parts, so that a discipline
is proved for a computation along its text.
-/

namespace Inference.Foundation

variable {state error result other : Type}

/-! ## Paths -/

/-- The states are written one after the other, each one by a step. -/
inductive Path (step : state → state → Prop) : state → List state → state → Prop where
  | nil (current : state) : Path step current [] current
  | cons {first second last : state} {rest : List state} (single : step first second)
      (path : Path step second rest last) : Path step first (second :: rest) last

namespace Path

variable {step other : state → state → Prop} {first middle last : state} {states more : List state}

theorem append (left : Path step first states middle) (right : Path step middle more last) :
    Path step first (states ++ more) last := by
  induction left with
  | nil current => exact right
  | cons single _ induction => exact .cons single (induction right)

theorem isChain (path : Path step first states last) : (first :: states).IsChain step := by
  induction path with
  | nil current => exact .singleton current
  | cons single _ induction => exact .cons_cons single induction

/-- What steps keep holds of all states of a path. -/
theorem keeps (invariant : state → Prop)
    (kept : ∀ {before after}, step before after → invariant before → invariant after)
    (path : Path step first states last) (start : invariant first) :
    ∀ point ∈ first :: states, invariant point := by
  induction path with
  | nil current =>
      intro point member
      rw [List.mem_singleton.mp member]
      exact start
  | cons single _ induction =>
      intro point member
      rcases List.mem_cons.mp member with rfl | member
      · exact start
      · exact induction (kept single start) point member

/-- A transitive relation that steps follow holds between all states of a path in order. -/
theorem pairwise (related : state → state → Prop) (refl : ∀ current, related current current)
    (trans : ∀ {before between after}, related before between → related between after →
      related before after)
    (kept : ∀ {before after}, step before after → related before after)
    (path : Path step first states last) : (first :: states).Pairwise related := by
  induction path with
  | nil current => exact List.pairwise_singleton _ _
  | @cons first second last rest single path induction =>
      apply List.pairwise_cons.mpr
      constructor
      · have reached : ∀ point ∈ second :: rest, related second point :=
          path.keeps (related second) (fun single holds => trans holds (kept single)) (refl second)
        intro point member
        exact trans (kept single) (reached point member)
      · exact induction

/-- A transitive relation that steps follow holds between any state of a path and the last. -/
theorem reaches (related : state → state → Prop) (refl : ∀ current, related current current)
    (trans : ∀ {before between after}, related before between → related between after →
      related before after)
    (kept : ∀ {before after}, step before after → related before after)
    (path : Path step first states last) : ∀ point ∈ first :: states, related point last := by
  induction path with
  | nil current =>
      intro point member
      rw [List.mem_singleton.mp member]
      exact refl current
  | @cons first second last rest single path induction =>
      intro point member
      rcases List.mem_cons.mp member with rfl | member
      · exact trans (kept single) (induction second List.mem_cons_self)
      · exact induction point member

theorem last_mem (path : Path step first states last) : last ∈ first :: states := by
  induction path with
  | nil current => exact List.mem_singleton_self current
  | cons _ _ induction => exact List.mem_cons_of_mem _ induction

end Path

/-! ## Disciplines -/

structure Discipline (state error : Type) where
  /-- Holds between the parts of a run. -/
  invariant : state → Prop
  /-- What a write may do. -/
  step : state → state → Prop
  /-- What a run does that ends. -/
  whole : state → List error → state → Prop
  start : ∀ {current}, invariant current → whole current [] current
  join : ∀ {first middle last errors more}, whole first errors middle → whole middle more last →
    whole first (errors ++ more) last

/-- The run writes by steps, and where it ends it leaves the invariant and has done what a
whole run does. -/
structure Run.Follows (discipline : Discipline state error) (initial : state)
    (run : Run state error result) : Prop where
  path : ∃ last, Path discipline.step initial run.states last
  ends : ∀ {value final errors}, run.outcome = some (value, final, errors) →
    Path discipline.step initial run.states final ∧ discipline.invariant final ∧
      discipline.whole initial errors final

/-- All runs of the computation from states with the invariant follow the discipline. -/
structure Follows (discipline : Discipline state error)
    (computation : Collecting state error result) : Prop where
  run : ∀ {initial}, discipline.invariant initial →
    (computation initial).Follows discipline initial

variable {discipline : Discipline state error} {initial : state}

namespace Run.Follows

open Collecting

theorem pure (holds : discipline.invariant initial) (value : result) :
    ((pure value : Collecting state error result) initial).Follows discipline initial where
  path := ⟨initial, .nil initial⟩
  ends := by
    intro found final errors ended
    cases ended
    exact ⟨.nil initial, holds, discipline.start holds⟩

theorem report (holds : discipline.invariant initial) {problem : error}
    (reported : discipline.whole initial [problem] initial) :
    (Collecting.report problem initial).Follows discipline initial where
  path := ⟨initial, .nil initial⟩
  ends := by
    intro found final errors ended
    cases ended
    exact ⟨.nil initial, holds, reported⟩

theorem abort :
    ((Collecting.abort : Collecting state error result) initial).Follows discipline initial where
  path := ⟨initial, .nil initial⟩
  ends ended := by cases ended

theorem update {change : state → state} (single : discipline.step initial (change initial))
    (holds : discipline.invariant (change initial))
    (whole : discipline.whole initial [] (change initial)) :
    ((Collecting.update change : Collecting state error Unit) initial).Follows
      discipline initial where
  path := ⟨change initial, .cons single (.nil _)⟩
  ends := by
    intro found final errors ended
    cases ended
    exact ⟨.cons single (.nil _), holds, whole⟩

theorem expect (holds : discipline.invariant initial) (value : Option result) :
    ((Collecting.expect value : Collecting state error result) initial).Follows
      discipline initial where
  path := ⟨initial, .nil initial⟩
  ends := by
    intro found final errors ended
    cases value with
    | none => cases ended
    | some known =>
        cases ended
        exact ⟨.nil initial, holds, discipline.start holds⟩

/-- A part of a run and what comes behind it. -/
theorem bind {first : Collecting state error result}
    {next : result → Collecting state error other}
    (front : (first initial).Follows discipline initial)
    (back : ∀ {value middle errors}, (first initial).outcome = some (value, middle, errors) →
      (next value middle).Follows discipline middle) :
    ((first >>= next) initial).Follows discipline initial := by
  rcases run : first initial with ⟨states, outcome⟩
  rw [run] at front
  have unfolded : (first >>= next) initial = Collecting.bind first next initial := rfl
  rw [unfolded, Collecting.bind, run]
  cases outcome with
  | none => exact ⟨front.path, fun ended => by cases ended⟩
  | some ended =>
      rcases ended with ⟨value, middle, errors⟩
      rcases front.ends rfl with ⟨reached, -, frontWhole⟩
      have rest := back (congrArg Run.outcome run)
      constructor
      · rcases rest.path with ⟨last, path⟩
        exact ⟨last, reached.append path⟩
      · intro found final all ended
        rcases Option.map_eq_some_iff.mp ended with ⟨⟨last, lastState, more⟩, restEnded, same⟩
        cases same
        rcases rest.ends restEnded with ⟨path, holds, whole⟩
        exact ⟨reached.append path, holds, discipline.join frontWhole whole⟩

/-- A part of a run between a write and the one that takes it back. -/
theorem bracket {enter leave : state → state} {body : Collecting state error Unit}
    (enters : discipline.step initial (enter initial))
    (inside : (body (enter initial)).Follows discipline (enter initial))
    (leaves : ∀ {final errors}, (body (enter initial)).outcome = some ((), final, errors) →
      discipline.step final (leave final) ∧ discipline.invariant (leave final) ∧
        discipline.whole initial errors (leave final)) :
    ((do
      Collecting.update enter
      body
      Collecting.update leave) initial).Follows discipline initial := by
  change (Collecting.bind (Collecting.update enter)
    (fun _ => Collecting.bind body fun _ => Collecting.update leave) initial).Follows
      discipline initial
  simp only [Collecting.bind, Collecting.update]
  rcases run : body (enter initial) with ⟨states, outcome⟩
  rw [run] at inside leaves
  cases outcome with
  | none =>
      rcases inside.path with ⟨last, path⟩
      exact ⟨⟨last, .cons enters path⟩, fun ended => by cases ended⟩
  | some ended =>
      rcases ended with ⟨_, final, errors⟩
      rcases leaves rfl with ⟨single, holds, whole⟩
      have path : Path discipline.step initial (enter initial :: (states ++ [leave final]))
          (leave final) :=
        .cons enters ((inside.ends rfl).1.append (.cons single (.nil _)))
      refine ⟨⟨_, path⟩, ?_⟩
      intro value last all ended
      simp only [List.append_nil, List.nil_append, Option.map_some, Option.some.injEq,
        Prod.mk.injEq] at ended
      rcases ended with ⟨_, rfl, rfl⟩
      exact ⟨path, holds, whole⟩

end Run.Follows

namespace Follows

theorem pure (value : result) :
    Follows discipline (pure value : Collecting state error result) :=
  ⟨fun holds => .pure holds value⟩

theorem abort : Follows discipline (Collecting.abort : Collecting state error result) :=
  ⟨fun _ => .abort⟩

theorem expect (value : Option result) :
    Follows discipline (Collecting.expect value : Collecting state error result) :=
  ⟨fun holds => .expect holds value⟩

theorem read (view : state → result) :
    Follows discipline (Collecting.read view : Collecting state error result) := by
  constructor
  intro initial holds
  refine ⟨⟨initial, .nil initial⟩, ?_⟩
  intro value final errors ended
  cases ended
  exact ⟨.nil initial, holds, discipline.start holds⟩

theorem bind {first : Collecting state error result}
    {next : result → Collecting state error other} (front : Follows discipline first)
    (back : ∀ value, Follows discipline (next value)) : Follows discipline (first >>= next) := by
  constructor
  intro initial holds
  apply Run.Follows.bind (front.run holds)
  intro value middle errors ended
  exact (back value).run ((front.run holds).ends ended).2.1

/-- What comes behind the value of a partial function. -/
theorem expect_bind {value : Option result} {next : result → Collecting state error other}
    (back : ∀ known, value = some known → Follows discipline (next known)) :
    Follows discipline (Collecting.expect value >>= next) := by
  constructor
  intro initial holds
  apply Run.Follows.bind (Run.Follows.expect holds value)
  intro known middle errors ended
  rcases Option.map_eq_some_iff.mp ended with ⟨found, isValue, same⟩
  cases same
  exact (back _ isValue).run holds

theorem ite {condition : Prop} [Decidable condition]
    {first second : Collecting state error result} (yes : Follows discipline first)
    (no : Follows discipline second) :
    Follows discipline (if condition then first else second) := by
  split
  · exact yes
  · exact no

/-- A loop follows what its steps follow. -/
theorem forM {item : Type} {body : item → Collecting state error PUnit} {items : List item}
    (single : ∀ element ∈ items, Follows discipline (body element)) :
    Follows discipline (items.forM body) := by
  induction items with
  | nil => exact pure _
  | cons head tail induction =>
      apply bind (single head List.mem_cons_self)
      intro _
      exact induction fun element member => single element (List.mem_cons_of_mem _ member)

end Follows

/-! ## Goals -/

/-- Every run of the computation that ends reaches the goal. -/
structure Attains (discipline : Discipline state error) (computation : Collecting state error result)
    (goal : state → Prop) : Prop where
  reached : ∀ {initial value final errors}, discipline.invariant initial →
    (computation initial).outcome = some (value, final, errors) → goal final

namespace Attains

variable {goal : state → Prop} {first : Collecting state error result}
  {next : result → Collecting state error other}

/-- A goal that is reached in the first part and that no step takes back. -/
theorem bind_front
    (stable : ∀ {before after}, discipline.step before after → goal before → goal after)
    (follows : Follows discipline first) (front : Attains discipline first goal)
    (back : ∀ value, Follows discipline (next value)) :
    Attains discipline (first >>= next) goal := by
  constructor
  intro initial value final errors holds ended
  rw [Collecting.outcome_bind] at ended
  rcases Option.bind_eq_some_iff.mp ended with ⟨⟨found, middle, reported⟩, run, rest⟩
  rcases Option.map_eq_some_iff.mp rest with ⟨⟨last, lastState, more⟩, restRun, same⟩
  have isFinal : lastState = final := congrArg (fun ended => ended.2.1) same
  rw [← isFinal]
  have reached : goal middle := front.reached holds run
  have middleHolds : discipline.invariant middle := ((follows.run holds).ends run).2.1
  have path := (((back found).run middleHolds).ends restRun).1
  have kept : ∀ point ∈ middle :: (next found middle).states, goal point :=
    path.keeps goal stable reached
  exact kept lastState path.last_mem

theorem bind_back (front : Follows discipline first)
    (back : ∀ value, Attains discipline (next value) goal) :
    Attains discipline (first >>= next) goal := by
  constructor
  intro initial value final errors holds ended
  rw [Collecting.outcome_bind] at ended
  rcases Option.bind_eq_some_iff.mp ended with ⟨⟨found, middle, reported⟩, run, rest⟩
  rcases Option.map_eq_some_iff.mp rest with ⟨⟨last, lastState, more⟩, restRun, same⟩
  have isFinal : lastState = final := congrArg (fun ended => ended.2.1) same
  rw [← isFinal]
  exact (back found).reached ((front.run holds).ends run).2.1 restRun

/-- A loop reaches what one of its steps reaches. -/
theorem forM {item : Type} {body : item → Collecting state error PUnit} {items : List item}
    (stable : ∀ {before after}, discipline.step before after → goal before → goal after)
    (follows : ∀ element ∈ items, Follows discipline (body element)) {element : item}
    (member : element ∈ items) (attains : Attains discipline (body element) goal) :
    Attains discipline (items.forM body) goal := by
  induction items with
  | nil => cases member
  | cons head tail induction =>
      have tailFollows : ∀ element ∈ tail, Follows discipline (body element) :=
        fun element member => follows element (List.mem_cons_of_mem _ member)
      rcases List.mem_cons.mp member with rfl | member
      · exact bind_front stable (follows _ List.mem_cons_self) attains fun _ =>
          .forM tailFollows
      · exact bind_back (follows _ List.mem_cons_self) fun _ => induction tailFollows member

end Attains

end Inference.Foundation

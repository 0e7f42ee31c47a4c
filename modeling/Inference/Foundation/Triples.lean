import Inference.Foundation.Effects

/-! # Preconditions and postconditions of fallible programs

A triple says of all states with some property what every run of a program keeps to from there, and
what holds where it ends with a value and where it ends with an error. What the guarantee of a
triple keeps can be added to all three of its conditions.
-/

namespace Inference.Effects

variable {Request : Type} {Answer : Request → Type} {State α β ε : Type}
  {answers answers' : Semantics Request Answer State} {guarantee guarantee' : State → State → Prop}

/-- What is guaranteed of more answers is guaranteed of fewer ones. -/
theorem Guaranteed.restrict {program : Program Request Answer α} {state : State}
    {post : α → State → Prop} (holds : Guaranteed answers guarantee program state post)
    (fewer : ∀ request state answer state', answers' request state answer state' →
      answers request state answer state') :
    Guaranteed answers' guarantee program state post := by
  induction program generalizing state with
  | done value => exact holds
  | ask request next induction =>
      intro answer state' answered
      rcases holds answer state' (fewer _ _ _ _ answered) with ⟨step, later⟩
      exact ⟨step, induction answer later⟩

theorem Guaranteed.and {program : Program Request Answer α} {state : State}
    {post post' : α → State → Prop} (holds : Guaranteed answers guarantee program state post)
    (holds' : Guaranteed answers guarantee' program state post') :
    Guaranteed answers (fun before after => guarantee before after ∧ guarantee' before after)
      program state fun value state' => post value state' ∧ post' value state' := by
  induction program generalizing state with
  | done value => exact ⟨holds, holds'⟩
  | ask request next induction =>
      intro answer state' answered
      rcases holds answer state' answered with ⟨step, later⟩
      rcases holds' answer state' answered with ⟨step', later'⟩
      exact ⟨⟨step, step'⟩, induction answer later later'⟩

/-- What every step keeps holds at the end too. -/
theorem Guaranteed.keeping {program : Program Request Answer α} {state : State}
    {invariant : State → Prop} {post : α → State → Prop}
    (holds : Guaranteed answers guarantee program state post)
    (kept : ∀ before after, invariant before → guarantee before after → invariant after)
    (initially : invariant state) :
    Guaranteed answers guarantee program state fun value state' =>
      invariant state' ∧ post value state' :=
  (holds.mono (fun before after step holds => ⟨step, kept before after holds step⟩)
    fun _ _ later => later).relative initially

/-- What holds where a fallible program ends. -/
def Ends (post : α → State → Prop) (failed : State → Prop) : Except ε α → State → Prop
  | .ok value, state => post value state
  | .error _, state => failed state

variable (answers guarantee) in
def Triple (pre : State → Prop) (program : Program.Fallible Request Answer ε α)
    (post : α → State → Prop) (failed : State → Prop) : Prop :=
  ∀ state, pre state → Guaranteed answers guarantee program.run state (Ends post failed)

section Rules

variable {pre pre' failed failed' : State → Prop} {post post' : α → State → Prop}
  {program : Program.Fallible Request Answer ε α}

theorem triple_pure {value : α} :
    Triple answers guarantee (post value) (pure value : Program.Fallible Request Answer ε α) post
      failed :=
  fun _ holds => holds

theorem Triple.bind {rest : α → Program.Fallible Request Answer ε β} {final : β → State → Prop}
    (first : Triple answers guarantee pre program post failed)
    (later : ∀ value, Triple answers guarantee (post value) (rest value) final failed) :
    Triple answers guarantee pre (program >>= rest) final failed := by
  intro state holds
  refine guaranteed_bind_fallible.mpr ((first state holds).weaken ?_)
  intro result state' ended
  cases result with
  | ok value => exact later value state' ended
  | error error => exact ended

theorem Triple.consequence (holds : Triple answers guarantee pre program post failed)
    (stronger : ∀ state, pre' state → pre state)
    (weaker : ∀ value state, post value state → post' value state)
    (fails : ∀ state, failed state → failed' state) :
    Triple answers guarantee pre' program post' failed' := by
  intro state initially
  refine (holds state (stronger state initially)).weaken ?_
  intro result state' ended
  cases result with
  | ok value => exact weaker value state' ended
  | error error => exact fails state' ended

/-- What the steps keep is kept beside the conditions. -/
theorem Triple.frame {invariant : State → Prop}
    (holds : Triple answers guarantee pre program post failed)
    (kept : ∀ before after, invariant before → guarantee before after → invariant after) :
    Triple answers guarantee (fun state => invariant state ∧ pre state) program
      (fun value state => invariant state ∧ post value state)
      (fun state => invariant state ∧ failed state) := by
  rintro state ⟨initially, holds'⟩
  refine ((holds state holds').keeping kept initially).weaken ?_
  rintro result state' ⟨kept', ended⟩
  cases result with
  | ok value => exact ⟨kept', ended⟩
  | error error => exact ⟨kept', ended⟩

theorem Triple.lift {asked : Program Request Answer α}
    (holds : ∀ state, pre state → Guaranteed answers guarantee asked state post) :
    Triple answers guarantee pre (liftM asked : Program.Fallible Request Answer ε α) post failed :=
  fun state initially => guaranteed_lift.mpr (holds state initially)

end Rules

end Inference.Effects

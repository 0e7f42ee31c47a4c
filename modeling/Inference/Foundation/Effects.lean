import Mathlib.Logic.Basic

/-! # Programs that ask their environment

A program asks requests, one after the other, and goes on with the answers. What an answer may be
and what it does to the state of the environment is a relation, so that an answer may also report a
failure. A guarantee bounds every single step of every run. It is proved by rules that follow the
program, and it holds wherever a run is stopped.
-/

namespace Inference.Effects

/-- A program over requests, each with its own kind of answer. -/
inductive Program (Request : Type) (Answer : Request → Type) (α : Type)
  | done (value : α)
  | ask (request : Request) (next : Answer request → Program Request Answer α)

variable {Request : Type} {Answer : Request → Type} {State α β ε : Type}

namespace Program

def bind : Program Request Answer α → (α → Program Request Answer β) → Program Request Answer β
  | .done value, rest => rest value
  | .ask request next, rest => .ask request fun answer => (next answer).bind rest

instance : Monad (Program Request Answer) where
  pure := .done
  bind := bind

/-- A program that may end early with an error. -/
abbrev Fallible (Request : Type) (Answer : Request → Type) (ε α : Type) : Type :=
  ExceptT ε (Program Request Answer) α

/-- One request, answered. -/
def request (asked : Request) : Program Request Answer (Answer asked) :=
  .ask asked .done

end Program

/-- The answers a request may have in a state, with the state they leave. -/
abbrev Semantics (Request : Type) (Answer : Request → Type) (State : Type) : Type :=
  (request : Request) → State → Answer request → State → Prop

variable (answers : Semantics Request Answer State)

/-- What is left of a program after some of its requests, and the state then. -/
inductive Steps : Program Request Answer α → State → Program Request Answer α → State → Prop
  | refl : Steps program state program state
  | ask (answered : answers request state answer state')
      (rest : Steps (next answer) state' program' state'') :
      Steps (.ask request next) state program' state''

/-- Every step of every run is within `guarantee`, and where the program ends, `post` holds. -/
def Guaranteed (guarantee : State → State → Prop) :
    Program Request Answer α → State → (α → State → Prop) → Prop
  | .done value, state, post => post value state
  | .ask request next, state, post =>
      ∀ answer state', answers request state answer state' →
        guarantee state state' ∧ Guaranteed guarantee (next answer) state' post

variable {answers} {guarantee guarantee' : State → State → Prop}

section Rules

theorem guaranteed_pure {value : α} {state : State} {post : α → State → Prop} :
    Guaranteed answers guarantee (pure value : Program Request Answer α) state post ↔
      post value state :=
  Iff.rfl

theorem Guaranteed.mono {program : Program Request Answer α} {state : State}
    {post post' : α → State → Prop} (holds : Guaranteed answers guarantee program state post)
    (within : ∀ before after, guarantee before after → guarantee' before after)
    (implies : ∀ value state, post value state → post' value state) :
    Guaranteed answers guarantee' program state post' := by
  induction program generalizing state with
  | done value => exact implies value state holds
  | ask request next induction =>
      intro answer state' answered
      rcases holds answer state' answered with ⟨step, rest⟩
      exact ⟨within state state' step, induction answer rest⟩

/-- The post condition alone can be weakened. -/
theorem Guaranteed.weaken {program : Program Request Answer α} {state : State}
    {post post' : α → State → Prop} (holds : Guaranteed answers guarantee program state post)
    (implies : ∀ value state, post value state → post' value state) :
    Guaranteed answers guarantee program state post' :=
  holds.mono (fun _ _ step => step) implies

theorem guaranteed_bind {program : Program Request Answer α} {rest : α → Program Request Answer β}
    {state : State} {post : β → State → Prop} :
    Guaranteed answers guarantee (program >>= rest) state post ↔
      Guaranteed answers guarantee program state fun value state' =>
        Guaranteed answers guarantee (rest value) state' post := by
  induction program generalizing state with
  | done value => exact Iff.rfl
  | ask request next induction =>
      constructor
      · intro holds answer state' answered
        rcases holds answer state' answered with ⟨step, later⟩
        exact ⟨step, (induction answer).mp later⟩
      · intro holds answer state' answered
        rcases holds answer state' answered with ⟨step, later⟩
        exact ⟨step, (induction answer).mpr later⟩

/-- An error ends a fallible program, a value goes on to the rest of it. -/
theorem guaranteed_bind_fallible {program : Program.Fallible Request Answer ε α}
    {rest : α → Program.Fallible Request Answer ε β} {state : State}
    {post : Except ε β → State → Prop} :
    Guaranteed answers guarantee (program >>= rest).run state post ↔
      Guaranteed answers guarantee program.run state fun result state' =>
        match result with
        | .ok value => Guaranteed answers guarantee (rest value).run state' post
        | .error error => post (.error error) state' := by
  refine guaranteed_bind.trans ?_
  constructor
  · intro holds
    refine holds.weaken ?_
    intro result state' later
    cases result with
    | ok value => exact later
    | error error => exact later
  · intro holds
    refine holds.weaken ?_
    intro result state' later
    cases result with
    | ok value => exact later
    | error error => exact later

theorem guaranteed_lift {program : Program Request Answer α} {state : State}
    {post : Except ε α → State → Prop} :
    Guaranteed answers guarantee (liftM program : Program.Fallible Request Answer ε α).run state
        post ↔
      Guaranteed answers guarantee program state fun value state' => post (.ok value) state' :=
  guaranteed_bind

theorem guaranteed_pure_fallible {value : α} {state : State} {post : Except ε α → State → Prop} :
    Guaranteed answers guarantee (pure value : Program.Fallible Request Answer ε α).run state
        post ↔ post (.ok value) state :=
  Iff.rfl

/-- A guarantee may rely on an invariant that every step keeps. -/
theorem Guaranteed.relative {program : Program Request Answer α} {state : State}
    {invariant : State → Prop} {post : α → State → Prop}
    (holds : Guaranteed answers
      (fun before after => invariant before → guarantee before after ∧ invariant after) program state
      post)
    (initially : invariant state) :
    Guaranteed answers guarantee program state fun value state' =>
      invariant state' ∧ post value state' := by
  induction program generalizing state with
  | done value => exact ⟨initially, holds⟩
  | ask request next induction =>
      intro answer state' answered
      rcases holds answer state' answered with ⟨step, later⟩
      rcases step initially with ⟨within, kept⟩
      exact ⟨within, induction answer later kept⟩

/-- A loop keeps to the guarantee when its body does so in every state. -/
theorem guaranteed_forM {body : α → Program.Fallible Request Answer ε Unit} {values : List α}
    {state : State}
    (each : ∀ value ∈ values, ∀ state,
      Guaranteed answers guarantee (body value).run state fun _ _ => True) :
    Guaranteed answers guarantee (values.forM body).run state fun _ _ => True := by
  induction values generalizing state with
  | nil => trivial
  | cons value values induction =>
      refine guaranteed_bind_fallible.mpr ((each value List.mem_cons_self state).weaken ?_)
      intro result state' _
      cases result with
      | error error => trivial
      | ok value =>
          exact induction fun other member => each other (List.mem_cons_of_mem _ member)

end Rules

/-! ## What a guarantee says about runs -/

section Runs

variable {program rest : Program Request Answer α} {state state' : State}
  {post : α → State → Prop}

theorem Guaranteed.steps (holds : Guaranteed answers guarantee program state post)
    (steps : Steps answers program state rest state') :
    Guaranteed answers guarantee rest state' post := by
  induction steps with
  | refl => exact holds
  | ask answered _ induction => exact induction (holds _ _ answered).2

/-- Every step of a run is within the guarantee. -/
theorem Guaranteed.step (holds : Guaranteed answers guarantee program state post)
    {request : Request} {next : Answer request → Program Request Answer α}
    (steps : Steps answers program state (.ask request next) state') {answer : Answer request}
    {state'' : State} (answered : answers request state' answer state'') :
    guarantee state' state'' :=
  (holds.steps steps answer state'' answered).1

theorem Guaranteed.returns (holds : Guaranteed answers guarantee program state post) {value : α}
    (steps : Steps answers program state (.done value) state') : post value state' :=
  holds.steps steps

/-- What the guarantee keeps holds wherever the program is stopped. -/
theorem Guaranteed.invariant {invariant : State → Prop}
    (holds : Guaranteed answers guarantee program state post)
    (kept : ∀ before after, invariant before → guarantee before after → invariant after)
    (initially : invariant state) (steps : Steps answers program state rest state') :
    invariant state' := by
  induction steps with
  | refl => exact initially
  | ask answered _ induction =>
      rcases holds _ _ answered with ⟨step, later⟩
      exact induction later (kept _ _ initially step)

/-- A guarantee says nothing but this about the steps and the ends of runs. -/
theorem guaranteed_iff :
    Guaranteed answers guarantee program state post ↔
      (∀ (request : Request) (next : Answer request → Program Request Answer α) (state' : State)
        (answer : Answer request) (state'' : State),
          Steps answers program state (.ask request next) state' →
            answers request state' answer state'' → guarantee state' state'') ∧
        ∀ value state', Steps answers program state (.done value) state' → post value state' := by
  constructor
  · intro holds
    exact ⟨fun _ _ _ _ _ steps answered => holds.step steps answered,
      fun _ _ steps => holds.returns steps⟩
  · rintro ⟨steps, ends⟩
    induction program generalizing state with
    | done value => exact ends value state .refl
    | ask request next induction =>
        intro answer state' answered
        refine ⟨steps request next state answer state' .refl answered, ?_⟩
        apply induction
        · intro _ _ _ _ _ later laterAnswered
          exact steps _ _ _ _ _ (.ask answered later) laterAnswered
        · intro value final later
          exact ends value final (.ask answered later)

end Runs

/-! ## Deterministic environments -/

def Program.run (perform : (request : Request) → State → Answer request × State) :
    Program Request Answer α → State → α × State
  | .done value, state => (value, state)
  | .ask request next, state =>
      (next (perform request state).1).run perform (perform request state).2

theorem Program.run_bind (perform : (request : Request) → State → Answer request × State)
    (program : Program Request Answer α) (rest : α → Program Request Answer β) (state : State) :
    (program >>= rest).run perform state =
      (rest (program.run perform state).1).run perform (program.run perform state).2 := by
  induction program generalizing state with
  | done value => rfl
  | ask request next induction => exact induction _ _

section Deterministic

variable {perform : (request : Request) → State → Answer request × State}
  {program : Program Request Answer α} {state : State}

/-- The run of a deterministic environment is a run of any environment that allows its answers. -/
theorem steps_run (allowed : ∀ request state,
    answers request state (perform request state).1 (perform request state).2) :
    Steps answers program state (.done (program.run perform state).1)
      (program.run perform state).2 := by
  induction program generalizing state with
  | done value => exact .refl
  | ask request next induction =>
      exact .ask (allowed request state) (induction (perform request state).1)

end Deterministic

end Inference.Effects

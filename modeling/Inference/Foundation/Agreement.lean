import Inference.Foundation.Effects

/-! # Programs that ask the same

Two programs agree when they ask the same requests in the same order and, given the same answers,
end in related values. Nothing that an environment sees of them is different then, whatever it
answers.
-/

namespace Inference.Effects

variable {Request : Type} {Answer : Request → Type} {State α β γ δ ε ε' : Type}

inductive Agree (related : α → β → Prop) :
    Program Request Answer α → Program Request Answer β → Prop
  | done {value : α} {value' : β} (holds : related value value') :
      Agree related (.done value) (.done value')
  | ask {request : Request} {next : Answer request → Program Request Answer α}
      {next' : Answer request → Program Request Answer β}
      (later : ∀ answer, Agree related (next answer) (next' answer)) :
      Agree related (.ask request next) (.ask request next')

variable {related : α → β → Prop} {program : Program Request Answer α}
  {program' : Program Request Answer β}

theorem Agree.bind {related' : γ → δ → Prop} {rest : α → Program Request Answer γ}
    {rest' : β → Program Request Answer δ} (agree : Agree related program program')
    (later : ∀ value value', related value value' → Agree related' (rest value) (rest' value')) :
    Agree related' (program >>= rest) (program' >>= rest') := by
  induction agree with
  | done holds => exact later _ _ holds
  | ask _ induction => exact .ask induction

theorem Agree.weaken {related' : α → β → Prop} (agree : Agree related program program')
    (implies : ∀ value value', related value value' → related' value value') :
    Agree related' program program' := by
  induction agree with
  | done holds => exact .done (implies _ _ holds)
  | ask _ induction => exact .ask induction

theorem bind_pure_program (program : Program Request Answer α) : program >>= pure = program := by
  induction program with
  | done value => rfl
  | ask request next induction => exact congrArg (Program.ask request) (funext induction)

/-- One of the programs goes on with what asks nothing. -/
theorem Agree.bind_right {related' : α → γ → Prop} {rest : β → Program Request Answer γ}
    (agree : Agree related program program')
    (later : ∀ value value', related value value' → Agree related' (pure value) (rest value')) :
    Agree related' program (program' >>= rest) := by
  rw [← bind_pure_program program]
  exact agree.bind later

/-- Every run of the one program that ends is a run of the other. -/
theorem Agree.steps {answers : Semantics Request Answer State} {state state' : State} {value : α}
    (agree : Agree related program program')
    (steps : Steps answers program state (.done value) state') :
    ∃ value', related value value' ∧ Steps answers program' state (.done value') state' := by
  induction agree generalizing state with
  | done holds =>
      cases steps
      exact ⟨_, holds, .refl⟩
  | ask _ induction =>
      cases steps with
      | ask answered rest =>
          rcases induction _ rest with ⟨value', holds, steps'⟩
          exact ⟨value', holds, .ask answered steps'⟩

/-! ## Programs that may end early -/

theorem bind_assoc_program (first : Program Request Answer α) (second : α → Program Request Answer β)
    (third : β → Program Request Answer γ) :
    first >>= second >>= third = first >>= fun value => second value >>= third := by
  induction first with
  | done value => rfl
  | ask request next induction => exact congrArg (Program.ask request) (funext induction)

theorem bind_pure_fallible (program : Program.Fallible Request Answer ε α) :
    program >>= pure = program := by
  change program.run >>= ExceptT.bindCont pure = program.run
  have unchanged : ExceptT.bindCont (pure : α → Program.Fallible Request Answer ε α) = pure := by
    funext result
    cases result with
    | ok value => rfl
    | error exit => rfl
  rw [unchanged, bind_pure_program]

theorem bind_assoc_fallible (first : Program.Fallible Request Answer ε α)
    (second : α → Program.Fallible Request Answer ε β)
    (third : β → Program.Fallible Request Answer ε γ) :
    first >>= second >>= third = first >>= fun value => second value >>= third := by
  refine (bind_assoc_program _ _ _).trans (congrArg _ (funext fun result => ?_))
  cases result with
  | ok value => rfl
  | error exit => rfl

/-- The two ends are both values or both early ends. -/
def Ending (related : α → β → Prop) (exits : ε → ε' → Prop) : Except ε α → Except ε' β → Prop
  | .ok value, .ok value' => related value value'
  | .error exit, .error exit' => exits exit exit'
  | .ok _, .error _ | .error _, .ok _ => False

section Fallible

variable {exits : ε → ε' → Prop} {fallible : Program.Fallible Request Answer ε α}
  {fallible' : Program.Fallible Request Answer ε' β}

theorem agree_pure {value : α} {value' : β} (holds : related value value') :
    Agree (Ending related exits) (pure value : Program.Fallible Request Answer ε α).run
      (pure value' : Program.Fallible Request Answer ε' β).run :=
  .done holds

theorem Agree.weaken_values {related' : α → β → Prop}
    (agree : Agree (Ending related exits) fallible.run fallible'.run)
    (implies : ∀ value value', related value value' → related' value value') :
    Agree (Ending related' exits) fallible.run fallible'.run := by
  refine agree.weaken fun result result' ending => ?_
  cases result with
  | ok value =>
      cases result' with
      | ok value' => exact implies value value' ending
      | error exit' => exact ending.elim
  | error exit =>
      cases result' with
      | ok value' => exact ending.elim
      | error exit' => exact ending

theorem Agree.bind_fallible {related' : γ → δ → Prop}
    {rest : α → Program.Fallible Request Answer ε γ}
    {rest' : β → Program.Fallible Request Answer ε' δ}
    (agree : Agree (Ending related exits) fallible.run fallible'.run)
    (later : ∀ value value', related value value' →
      Agree (Ending related' exits) (rest value).run (rest' value').run) :
    Agree (Ending related' exits) (fallible >>= rest).run (fallible' >>= rest').run := by
  refine Agree.bind agree fun result result' ending => ?_
  cases result with
  | ok value =>
      cases result' with
      | ok value' => exact later value value' ending
      | error exit' => exact ending.elim
  | error exit =>
      cases result' with
      | ok value' => exact ending.elim
      | error exit' => exact .done ending

end Fallible

end Inference.Effects

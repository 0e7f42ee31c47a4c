import Inference.Foundation.Effects

/-! # The requests of a run

The list of what a program asks in a deterministic environment, and programs that ask only certain
requests, whatever they are answered.
-/

namespace Inference.Effects

variable {Request : Type} {Answer : Request → Type} {State α β ε : Type}

namespace Program

/-- The requests of the run, one after the other. -/
def asked (perform : (request : Request) → State → Answer request × State) :
    Program Request Answer α → State → List Request
  | .done _, _ => []
  | .ask request next, state =>
      request :: (next (perform request state).1).asked perform (perform request state).2

theorem asked_bind (perform : (request : Request) → State → Answer request × State)
    (program : Program Request Answer α) (rest : α → Program Request Answer β) (state : State) :
    (program >>= rest).asked perform state =
      program.asked perform state ++
        (rest (program.run perform state).1).asked perform (program.run perform state).2 := by
  induction program generalizing state with
  | done value => rfl
  | ask request next induction => exact congrArg (request :: ·) (induction _ _)

variable (allowed : Request → Prop)

/-- Whatever it is answered, the program asks only such requests. -/
def Asks : Program Request Answer α → Prop
  | .done _ => True
  | .ask request next => allowed request ∧ ∀ answer, (next answer).Asks

variable {allowed}

theorem Asks.asked {program : Program Request Answer α} (asks : program.Asks allowed)
    {perform : (request : Request) → State → Answer request × State} {state : State} :
    ∀ request ∈ program.asked perform state, allowed request := by
  induction program generalizing state with
  | done value =>
      intro request member
      cases member
  | ask first next induction =>
      intro request member
      rcases List.mem_cons.mp member with rfl | later
      · exact asks.1
      · exact induction _ (asks.2 _) request later

section Rules

theorem asks_request {request : Request} (isAllowed : allowed request) :
    (Program.request request : Program Request Answer (Answer request)).Asks allowed :=
  ⟨isAllowed, fun _ => trivial⟩

theorem Asks.bind {program : Program Request Answer α} {rest : α → Program Request Answer β}
    (first : program.Asks allowed) (later : ∀ value, (rest value).Asks allowed) :
    (program >>= rest).Asks allowed := by
  induction program with
  | done value => exact later value
  | ask request next induction => exact ⟨first.1, fun answer => induction answer (first.2 answer)⟩

theorem Asks.bind_fallible {program : Program.Fallible Request Answer ε α}
    {rest : α → Program.Fallible Request Answer ε β} (first : program.run.Asks allowed)
    (later : ∀ value, (rest value).run.Asks allowed) :
    (program >>= rest).run.Asks allowed := by
  refine Asks.bind first fun result => ?_
  cases result with
  | ok value => exact later value
  | error error => trivial

theorem Asks.lift {program : Program Request Answer α} (asks : program.Asks allowed) :
    (liftM program : Program.Fallible Request Answer ε α).run.Asks allowed :=
  Asks.bind asks fun _ => trivial

theorem asks_forM {body : α → Program.Fallible Request Answer ε Unit} {values : List α}
    (each : ∀ value ∈ values, (body value).run.Asks allowed) :
    (values.forM body).run.Asks allowed := by
  induction values with
  | nil => trivial
  | cons value values induction =>
      refine Asks.bind_fallible (each value List.mem_cons_self) fun _ => ?_
      exact induction fun other member => each other (List.mem_cons_of_mem _ member)

end Rules

end Program

end Inference.Effects

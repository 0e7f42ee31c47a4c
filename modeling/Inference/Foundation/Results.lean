import Inference.Foundation.Collecting

/-! # What computations return

A condition on the values that a computation returns, whatever state it starts in. That of a
sequence is the one of its last part.
-/

namespace Inference.Foundation

namespace Collecting

variable {state error result other : Type}

/-- Every value that the computation returns meets the condition. -/
structure Returns (condition : result → Prop) (computation : Collecting state error result) :
    Prop where
  value : ∀ {initial returned final errors}, computation.Ends initial returned final errors →
    condition returned

namespace Returns

variable {condition : result → Prop}

theorem pure {value : result} (holds : condition value) :
    Returns condition (pure value : Collecting state error result) := by
  constructor
  intro initial returned final errors ended
  rw [(ends_pure.mp ended).1]
  exact holds

theorem expect {value : Option result} (holds : ∀ known, value = some known → condition known) :
    Returns condition (Collecting.expect value : Collecting state error result) :=
  ⟨fun ended => holds _ (ends_expect.mp ended).1⟩

theorem bind {first : Collecting state error other} {next : other → Collecting state error result}
    (returns : ∀ value, Returns condition (next value)) : Returns condition (first >>= next) := by
  constructor
  intro initial returned final errors ended
  rcases ends_bind.mp ended with ⟨value, middle, _, _, _, rest, _⟩
  exact (returns value).value rest

/-- The rest of a sequence may use what its first part returns. -/
theorem bind_of {before : other → Prop} {first : Collecting state error other}
    {next : other → Collecting state error result} (firstReturns : Returns before first)
    (returns : ∀ value, before value → Returns condition (next value)) :
    Returns condition (first >>= next) := by
  constructor
  intro initial returned final errors ended
  rcases ends_bind.mp ended with ⟨value, middle, _, _, firstEnded, rest, _⟩
  exact (returns value (firstReturns.value firstEnded)).value rest

end Returns

end Collecting

end Inference.Foundation

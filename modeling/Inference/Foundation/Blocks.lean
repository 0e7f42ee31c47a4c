import Mathlib.Algebra.BigOperators.Intervals
import Mathlib.Algebra.Order.BigOperators.Group.Finset

/-! # Consecutive blocks

Blocks of varying lengths lie next to each other, starting with a first one.
A position lies in one of them, at an offset. A loop that takes one block after
another off a position keeps the sum of the start and of what is left.
-/

namespace Inference.Foundation

/-- Where a block starts, counted from the first block. -/
def blockStart (length : Nat → Nat) (first index : Nat) : Nat :=
  ∑ block ∈ Finset.Ico first index, length block

/-- A position lies in a block, at an offset. -/
structure InBlock (length : Nat → Nat) (first position index offset : Nat) : Prop where
  behindFirst : first ≤ index
  inside : offset < length index
  position_eq : position = blockStart length first index + offset

section

variable {length : Nat → Nat} {first : Nat}

@[simp] theorem blockStart_first : blockStart length first first = 0 := by
  simp [blockStart]

theorem blockStart_succ {index : Nat} (behindFirst : first ≤ index) :
    blockStart length first (index + 1) = blockStart length first index + length index :=
  Finset.sum_Ico_succ_top behindFirst length

/-- Blocks that are as long as a bound at least start no earlier than the bound says. -/
theorem mul_le_blockStart {bound index : Nat} (long : ∀ block, bound ≤ length block) :
    bound * (index - first) ≤ blockStart length first index := by
  calc bound * (index - first)
      = ∑ _block ∈ Finset.Ico first index, bound := by
        rw [Finset.sum_const_nat fun _ _ => rfl, Nat.card_Ico, Nat.mul_comm]
    _ ≤ ∑ block ∈ Finset.Ico first index, length block :=
        Finset.sum_le_sum fun block _ => long block

end

end Inference.Foundation

import Inference.Ast.NonDeterminism
import Mathlib.Logic.Relation

/-! # Void blocks

What `isVoid` answers for nested blocks. A block that is void counts as a return of the block around
it, so that the answer alternates with the nesting.
-/

namespace Inference.Ast

namespace BlockType

/-- A return among the statements of the block itself. -/
def HasReturn (block : BlockType) : Prop :=
  ∃ node expression, .return_ node expression ∈ block.statements

/-- A block among the statements of another one. -/
def Nests (outer inner : BlockType) : Prop :=
  .block inner ∈ outer.statements

/-- A return in the block or in a block inside of it at any depth. -/
def ContainsReturn (block : BlockType) : Prop :=
  ∃ inner ∈ block.blocks, inner.HasReturn

end BlockType

theorem findsReturn_iff (statements : List Statement) :
    findsReturn statements = true ↔
      (∃ node expression, .return_ node expression ∈ statements) ∨
        ∃ inner, .block inner ∈ statements ∧ inner.isVoid = true := by
  induction statements with
  | nil => simp [findsReturn]
  | cons head tail induction =>
      cases head with
      | return_ node expression =>
          simp only [findsReturn, true_iff]
          exact .inl ⟨node, expression, List.mem_cons_self⟩
      | block block =>
          simp only [findsReturn, Bool.or_eq_true, induction, List.mem_cons, reduceCtorEq,
            false_or, Statement.block.injEq, or_and_right, exists_or, exists_eq_left]
          rw [or_left_comm]
      | _ => simp only [findsReturn, induction, List.mem_cons, reduceCtorEq, false_or]

namespace BlockType

/-- The rule by which `isVoid` alternates. -/
theorem isVoid_rule (block : BlockType) :
    block.isVoid = true ↔
      ¬ block.HasReturn ∧ ∀ inner, block.Nests inner → ¬ inner.isVoid = true := by
  cases block with
  | mk kind node statements =>
      rw [isVoid, Bool.not_eq_true', ← Bool.not_eq_true, findsReturn_iff, not_or]
      exact and_congr_right fun _ => not_exists.trans (forall_congr' fun _ => not_and)

theorem nests_wellFounded : WellFounded (Function.swap Nests) := by
  refine Subrelation.wf ?_ (measure (sizeOf : BlockType → Nat)).wf
  intro inner outer nested
  cases outer with
  | mk kind node statements =>
      have smaller := List.sizeOf_lt_of_mem (show Statement.block inner ∈ statements from nested)
      change sizeOf inner < sizeOf (BlockType.mk kind node statements)
      simp only [BlockType.mk.sizeOf_spec, Statement.block.sizeOf_spec] at smaller ⊢
      omega

theorem statementBlocks_subset {statement : Statement} {statements : List Statement}
    (member : statement ∈ statements) : statement.blocks ⊆ statementListBlocks statements := by
  induction member with
  | head tail => exact List.subset_append_left _ _
  | tail head _ induction => exact List.subset_append_of_subset_right _ induction

theorem Nests.containsReturn {outer inner : BlockType} (nested : outer.Nests inner)
    (contains : inner.ContainsReturn) : outer.ContainsReturn := by
  rcases contains with ⟨deepest, member, returns⟩
  cases outer with
  | mk kind node statements =>
      exact ⟨deepest, List.mem_cons_of_mem _ (statementBlocks_subset nested member), returns⟩

theorem HasReturn.containsReturn {block : BlockType} (returns : block.HasReturn) :
    block.ContainsReturn :=
  ⟨block, block.self_mem_blocks, returns⟩

/-- A block around an empty one has no return and is not void. -/
theorem nestedEmpty_notVoid :
    ¬ ∀ block : BlockType, block.isVoid = true ↔ ¬ block.ContainsReturn := by
  intro right
  have contains := not_not.mp fun none =>
    absurd ((right (.mk .forall_ ⟨1, {}⟩ [.block (.mk .block ⟨2, {}⟩ [])])).mpr none) (by decide)
  rcases contains with ⟨inner, member, node, expression, returns⟩
  simp only [blocks, statementListBlocks, Statement.blocks, List.append_nil, List.mem_cons,
    List.not_mem_nil, or_false] at member
  rcases member with rfl | rfl <;> simp [statements] at returns

/-! ## Blocks that are answered rightly at every depth -/

/-- What a block has to look like when `isVoid` is right for the blocks that it nests. -/
def Plain (block : BlockType) : Prop :=
  block.HasReturn ∨
    (block.ContainsReturn ∧ ∃ inner, block.Nests inner ∧ ¬ inner.ContainsReturn) ∨
      (¬ block.ContainsReturn ∧ ∀ inner, ¬ block.Nests inner)

/-- Where `isVoid` is right for every nested block, it is right for the block itself exactly if the
block has a return of its own, nests a block without any return beside the returns that are deeper,
or has neither returns nor nested blocks. -/
theorem isVoid_iff_plain {block : BlockType}
    (nestedRight : ∀ inner, block.Nests inner →
      (inner.isVoid = true ↔ ¬ inner.ContainsReturn)) :
    (block.isVoid = true ↔ ¬ block.ContainsReturn) ↔ block.Plain := by
  have void : block.isVoid = true ↔
      ¬ block.HasReturn ∧ ∀ inner, block.Nests inner → inner.ContainsReturn := by
    rw [isVoid_rule]
    exact and_congr_right fun _ => forall₂_congr fun inner nested => by
      rw [nestedRight inner nested, not_not]
  have deeper : ∀ inner, block.Nests inner → inner.ContainsReturn → block.ContainsReturn :=
    fun inner nested => nested.containsReturn
  have own : block.HasReturn → block.ContainsReturn := HasReturn.containsReturn
  rw [void, Plain]
  constructor
  · intro right
    by_cases returns : block.HasReturn
    · exact .inl returns
    · by_cases contains : block.ContainsReturn
      · refine .inr (.inl ⟨contains, ?_⟩)
        by_contra none
        refine right.mp ⟨returns, fun inner nested => ?_⟩ contains
        by_contra without
        exact none ⟨inner, nested, without⟩
      · exact .inr (.inr ⟨contains, fun inner nested =>
          contains (deeper inner nested ((right.mpr contains).2 inner nested))⟩)
  · rintro (returns | ⟨contains, inner, nested, without⟩ | ⟨without, noBlocks⟩)
    · exact iff_of_false (fun isVoid => isVoid.1 returns) (not_not.mpr (own returns))
    · exact iff_of_false (fun isVoid => without (isVoid.2 inner nested)) (not_not.mpr contains)
    · exact iff_of_true ⟨fun returns => without (own returns), fun inner nested =>
        absurd nested (noBlocks inner)⟩ without

/-- `isVoid` is right for a block and all blocks nested in it exactly if all of them are plain. -/
theorem isVoid_right_everywhere (block : BlockType) :
    (∀ inner, Relation.ReflTransGen Nests block inner →
        (inner.isVoid = true ↔ ¬ inner.ContainsReturn)) ↔
      ∀ inner, Relation.ReflTransGen Nests block inner → inner.Plain := by
  constructor
  · intro right inner inside
    exact (isVoid_iff_plain fun next nested => right next (inside.tail nested)).mp
      (right inner inside)
  · intro plain inner inside
    induction inner using nests_wellFounded.induction with
    | _ inner induction =>
      exact (isVoid_iff_plain fun next nested =>
        induction next nested (inside.tail nested)).mpr (plain inner inside)

end BlockType

end Inference.Ast

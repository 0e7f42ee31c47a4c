import Inference.WasmToV.Reconstruction

/-! # Nesting depth

How many blocks and conditions of the expression tree each operator lies under. For a well-nested
body that is what a count over the flat operators gives.
-/

namespace Inference.WasmToV

mutual

/-- The operators of an expression with the number of blocks and conditions around each. -/
def Expression.depths (depth : Nat) : Expression → List (Operator × Nat)
  | .mk parts _ => partsDepths depth parts

def partsDepths (depth : Nat) : List ExpressionPart → List (Operator × Nat)
  | [] => []
  | part :: rest => part.depths depth ++ partsDepths depth rest

def ExpressionPart.depths (depth : Nat) : ExpressionPart → List (Operator × Nat)
  | .operator op => [(op, depth)]
  | .block label parts => (label, depth) :: parts.depths (depth + 1)
  | .condition label thenArm elseArm =>
      (label, depth) :: (thenArm.depths (depth + 1) ++ elseArm.depths (depth + 1))

end

/-- The depth behind an operator. -/
def depthBehind (depth : Nat) (op : Operator) : Nat :=
  match op.role with
  | .opensBlock | .opensCondition => depth + 1
  | .closes => if op = .end_ then depth - 1 else depth
  | .ordinary => depth

/-- Flat operators with the number of blocks around each. -/
def flatDepths : Nat → List Operator → List (Operator × Nat)
  | _, [] => []
  | depth, op :: rest => (op, depth) :: flatDepths (depthBehind depth op) rest

@[simp] theorem partsDepths_nil (depth : Nat) : partsDepths depth [] = [] := by
  simp [partsDepths]

@[simp] theorem partsDepths_cons (depth : Nat) (part : ExpressionPart)
    (rest : List ExpressionPart) :
    partsDepths depth (part :: rest) = part.depths depth ++ partsDepths depth rest := by
  simp [partsDepths]

@[simp] theorem depths_mk (depth : Nat) (parts : List ExpressionPart) (names : Option NameMap) :
    (Expression.mk parts names).depths depth = partsDepths depth parts := by
  simp [Expression.depths]

@[simp] theorem depths_operator (depth : Nat) (op : Operator) :
    (ExpressionPart.operator op).depths depth = [(op, depth)] := by
  simp [ExpressionPart.depths]

@[simp] theorem depths_block (depth : Nat) (label : Operator) (parts : Expression) :
    (ExpressionPart.block label parts).depths depth =
      (label, depth) :: parts.depths (depth + 1) := by
  simp [ExpressionPart.depths]

@[simp] theorem depths_condition (depth : Nat) (label : Operator) (thenArm elseArm : Expression) :
    (ExpressionPart.condition label thenArm elseArm).depths depth =
      (label, depth) :: (thenArm.depths (depth + 1) ++ elseArm.depths (depth + 1)) := by
  simp [ExpressionPart.depths]

theorem partsDepths_append (depth : Nat) (first second : List ExpressionPart) :
    partsDepths depth (first ++ second) = partsDepths depth first ++ partsDepths depth second := by
  induction first with
  | nil => simp
  | cons part rest induction => simp [induction]

theorem flatDepths_append (depth : Nat) (first second : List Operator) :
    flatDepths depth (first ++ second) =
      flatDepths depth first ++ flatDepths (first.foldl depthBehind depth) second := by
  induction first generalizing depth with
  | nil => rfl
  | cons op rest induction =>
      rw [List.cons_append, flatDepths, flatDepths, induction]
      rfl

variable {ops : List Operator} {op : Operator}

theorem flatDepths_getElem {depth position : Nat} (found : ops[position]? = some op) :
    (flatDepths depth ops)[position]? =
      some (op, (ops.take position).foldl depthBehind depth) := by
  induction ops generalizing depth position with
  | nil => cases found
  | cons head rest induction =>
      cases position with
      | zero =>
          cases found
          rfl
      | succ position => exact induction found

theorem depthBehind_ordinary (role : op.role = .ordinary) (depth : Nat) :
    depthBehind depth op = depth := by
  rw [depthBehind, role]

theorem depthBehind_block (role : op.role = .opensBlock) (depth : Nat) :
    depthBehind depth op = depth + 1 := by
  rw [depthBehind, role]

theorem depthBehind_condition (role : op.role = .opensCondition) (depth : Nat) :
    depthBehind depth op = depth + 1 := by
  rw [depthBehind, role]

@[simp] theorem depthBehind_end (depth : Nat) : depthBehind (depth + 1) .end_ = depth := rfl

@[simp] theorem depthBehind_else (depth : Nat) : depthBehind depth .else_ = depth := rfl

/-- A well-nested sequence ends at the depth at which it starts. -/
theorem Structures.foldl_depthBehind {parts : List ExpressionPart}
    (structures : Structures ops parts) (depth : Nat) : ops.foldl depthBehind depth = depth := by
  induction structures generalizing depth with
  | nil => rfl
  | ordinary role _ restInduction =>
      rw [List.foldl_cons, depthBehind_ordinary role, restInduction]
  | block role _ _ bodyInduction restInduction =>
      rw [List.foldl_cons, depthBehind_block role, List.foldl_append, bodyInduction,
        List.foldl_cons, depthBehind_end, restInduction]
  | ifThen role _ _ thenInduction restInduction =>
      rw [List.foldl_cons, depthBehind_condition role, List.foldl_append, thenInduction,
        List.foldl_cons, depthBehind_end, restInduction]
  | ifElse role _ _ _ thenInduction elseInduction restInduction =>
      rw [List.foldl_cons, depthBehind_condition role, List.foldl_append, thenInduction,
        List.foldl_cons, depthBehind_else, List.foldl_append, elseInduction, List.foldl_cons,
        depthBehind_end, restInduction]

/-- In the tree every operator lies as deep as in the flat sequence. -/
theorem Structures.depths {parts : List ExpressionPart}
    (structures : Structures ops parts) (depth : Nat) :
    partsDepths depth parts = flatDepths depth ops := by
  induction structures generalizing depth with
  | nil => simp [flatDepths]
  | ordinary role _ restInduction =>
      rw [partsDepths_cons, depths_operator, restInduction, flatDepths, depthBehind_ordinary role]
      rfl
  | block role body _ bodyInduction restInduction =>
      rw [partsDepths_cons, depths_block, depths_mk, partsDepths_append, bodyInduction,
        restInduction, flatDepths, depthBehind_block role, flatDepths_append,
        body.foldl_depthBehind, flatDepths, depthBehind_end]
      simp
  | ifThen role thenArm _ thenInduction restInduction =>
      rw [partsDepths_cons, depths_condition, depths_mk, depths_mk, partsDepths_append,
        thenInduction, restInduction, flatDepths, depthBehind_condition role, flatDepths_append,
        thenArm.foldl_depthBehind, flatDepths, depthBehind_end]
      simp
  | ifElse role thenArm elseArm _ thenInduction elseInduction restInduction =>
      rw [partsDepths_cons, depths_condition, depths_mk, depths_mk, partsDepths_append,
        partsDepths_append, thenInduction, elseInduction, restInduction, flatDepths,
        depthBehind_condition role, flatDepths_append, thenArm.foldl_depthBehind, flatDepths,
        depthBehind_else, flatDepths_append, elseArm.foldl_depthBehind, flatDepths,
        depthBehind_end]
      simp

/-- The tree of a function body, with the end of the function behind it. -/
theorem WellNested.translateExpression_depths (nested : WellNested ops) :
    ∃ expression, translateExpression ((ops ++ [Operator.end_]).map .ok) = .ok (expression, []) ∧
      expression.depths 0 = flatDepths 0 (ops ++ [Operator.end_]) := by
  rcases nested.structures with ⟨parts, structures⟩
  refine ⟨.mk (parts ++ [.operator .end_]) none, ?_, ?_⟩
  · rw [List.map_append, translateExpression_eq (Nat.lt_succ_self _)]
    rw [show [Operator.end_].map Except.ok = [(.ok .end_ : OperatorItem)] from rfl,
      structures.build rfl [] (by simp)]
    rfl
  · rw [depths_mk, partsDepths_append, structures.depths, flatDepths_append,
      structures.foldl_depthBehind]
    simp [flatDepths]

end Inference.WasmToV

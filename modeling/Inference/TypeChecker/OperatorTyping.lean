import Inference.TypeChecker.ExpressionChecker

/-! # Typing of operators

The documented rules of the operators, and what the checker makes of an operator whose operands have
types. Both agree on everything but the order of values that are no numbers, which the checker lets
pass.
-/

namespace Inference.TypeChecker

open Inference.Ast Inference.Foundation Collecting

/-! ## The documented rules -/

/-- What an operator is, as far as the rules tell operators apart. -/
inductive OperatorClass where
  | arithmetic
  | bitwise
  | equality
  | ordering
  | logical
deriving DecidableEq, Repr

def operatorClass : OperatorKind → OperatorClass
  | .pow | .add | .sub | .mul | .div | .mod => .arithmetic
  | .bitAnd | .bitOr | .bitXor | .bitNot | .shl | .shr => .bitwise
  | .eq | .ne => .equality
  | .lt | .le | .gt | .ge => .ordering
  | .and | .or => .logical

/-- The type of a binary expression; the operands have one type in every rule. -/
def binaryRule (operator : OperatorKind) (leftType rightType : TypeInfo) : Option TypeInfo :=
  if leftType = rightType then
    match operatorClass operator with
    | .arithmetic | .bitwise => if leftType.isNumber then some leftType else none
    | .equality => some TypeInfo.boolean
    | .ordering => if leftType.isNumber then some TypeInfo.boolean else none
    | .logical => if leftType.isBool then some TypeInfo.boolean else none
  else none

def unaryRule (operator : UnaryOperatorKind) (operandType : TypeInfo) : Option TypeInfo :=
  match operator with
  | .not => if operandType.isBool then some operandType else none
  | .neg => if operandType.isSignedInteger then some operandType else none
  | .bitNot => if operandType.isNumber then some operandType else none

/-- Whether an ordering is applied to equal types that are no numbers. -/
def ordersNonNumbers (operator : OperatorKind) (leftType rightType : TypeInfo) : Bool :=
  operatorClass operator = .ordering && leftType = rightType && !leftType.isNumber

/-! ## Operators applied to types -/

variable {value : Option TypeInfo} {errors : List TypeCheckError}

section Applying

variable {node : Node} {before after : CheckState} {typeInfo : TypeInfo}

theorem recordType_accepts_iff {recorded : TypeInfo} :
    (recordType node recorded).Accepts before (some typeInfo) after ↔
      recorded = typeInfo ∧ after = before.setNodeType node.id typeInfo := by
  simp only [recordType, setNodeTypeinfo, accepts_bind, accepts_update, accepts_pure,
    Option.some.injEq]
  constructor
  · rintro ⟨_, _, rfl, rfl, rfl⟩
    exact ⟨rfl, rfl⟩
  · rintro ⟨rfl, rfl⟩
    exact ⟨(), _, rfl, rfl, rfl⟩

theorem pushError_accepts_iff {error : TypeCheckError} {value : Unit} :
    (pushError error).Accepts before value after ↔ False :=
  accepts_report

theorem failWith_accepts_iff {error : TypeCheckError} :
    (failWith error).Accepts before value after ↔ False := by
  simp [failWith, pushError_accepts_iff]

/-- A unary operator is accepted as its rule says. -/
theorem applyUnary_accepts_iff {operator : UnaryOperatorKind} {operandType : TypeInfo} :
    (applyUnary node operator operandType).Accepts before (some typeInfo) after ↔
      unaryRule operator operandType = some typeInfo ∧
        after = before.setNodeType node.id typeInfo := by
  rw [applyUnary, accepts_ite, recordType_accepts_iff, failWith_accepts_iff]
  cases operator <;> simp only [unaryOperand, unaryRule] <;> split <;> simp_all

theorem pushMismatch_accepts_iff {operator : OperatorKind} {leftType rightType : TypeInfo}
    {value : Unit} :
    (pushMismatch node operator leftType rightType).Accepts before value after ↔
      leftType = rightType ∧ after = before := by
  simp [pushMismatch, pushError_accepts_iff]

/-- A binary operator is accepted as its rule says, or else for an order of other values. -/
theorem applyBinary_accepts_iff {operator : OperatorKind} {leftType rightType : TypeInfo} :
    (applyBinary node operator leftType rightType).Accepts before (some typeInfo) after ↔
      (binaryRule operator leftType rightType = some typeInfo ∨
          ordersNonNumbers operator leftType rightType = true ∧ typeInfo = TypeInfo.boolean) ∧
        after = before.setNodeType node.id typeInfo := by
  by_cases equal : leftType = rightType
  · subst equal
    rw [applyBinary.eq_def, accepts_bind]
    simp only [pushMismatch_accepts_iff, binaryRule, ordersNonNumbers, if_true]
    cases operator with
    | and | or =>
        simp only [accepts_ite, failWith_accepts_iff, recordType_accepts_iff, operatorClass]
        cases leftType.isBool <;> simp [eq_comm]
    | eq | ne | lt | le | gt | ge =>
        simp only [recordType_accepts_iff, operatorClass]
        cases leftType.isNumber <;> simp [eq_comm]
    | _ =>
        simp only [accepts_ite, accepts_bind, pushMismatch_accepts_iff, pushError_accepts_iff,
          recordType_accepts_iff, operatorClass]
        cases leftType.isNumber <;> simp
  · simp [applyBinary.eq_def, pushMismatch_accepts_iff, binaryRule, ordersNonNumbers, equal]

theorem cached_ends_iff {infer : CheckM (Option TypeInfo)}
    :
    (cached node infer).Ends before value after errors ↔
      match before.nodeTypes node.id with
      | some typeInfo => value = some typeInfo ∧ after = before ∧ errors = []
      | none => infer.Ends before value after errors := by
  simp only [cached, getNodeTypeinfo, ends_bind, ends_read]
  cases before.nodeTypes node.id with
  | some typeInfo =>
      constructor
      · rintro ⟨_, _, _, _, ⟨rfl, rfl, rfl⟩, ended, rfl⟩
        exact ends_pure.mp ended
      · rintro ⟨rfl, rfl, rfl⟩
        exact ⟨_, _, _, _, ⟨rfl, rfl, rfl⟩, ends_pure.mpr ⟨rfl, rfl, rfl⟩, rfl⟩
  | none =>
      constructor
      · rintro ⟨_, _, _, _, ⟨rfl, rfl, rfl⟩, ended, rfl⟩
        exact ended
      · intro ended
        exact ⟨_, _, _, _, ⟨rfl, rfl, rfl⟩, ended, rfl⟩

end Applying

/-! ## Operators in expressions -/

/-- An operator with its operands. -/
inductive Operation where
  | unary (operator : UnaryOperatorKind) (operand : Expression)
  | binary (left : Expression) (operator : OperatorKind) (right : Expression)

variable {operandTypes : List TypeInfo}

namespace Operation

def expression (node : Node) : Operation → Expression
  | .unary operator operand => .prefixUnary node operand operator
  | .binary left operator right => .binary node left operator right

/-- Only a binary expression is not inferred again. -/
def isCached : Operation → Bool
  | .unary _ _ => false
  | .binary _ _ _ => true

def rule : Operation → List TypeInfo → Option TypeInfo
  | .unary operator _, [operandType] => unaryRule operator operandType
  | .binary _ operator _, [leftType, rightType] => binaryRule operator leftType rightType
  | _, _ => none

def ordersNonNumbers : Operation → List TypeInfo → Bool
  | .binary _ operator _, [leftType, rightType] =>
      TypeChecker.ordersNonNumbers operator leftType rightType
  | _, _ => false

/-- What an operator adds to its operands. -/
def apply (node : Node) : Operation → List (Option TypeInfo) → CheckM (Option TypeInfo)
  | .unary operator _, [operandType] => withType operandType (applyUnary node operator)
  | .binary _ operator _, [some leftType, some rightType] =>
      applyBinary node operator leftType rightType
  | _, _ => pure none

theorem apply_accepts_iff {node : Node} (operation : Operation) {before after : CheckState}
    {typeInfo : TypeInfo} :
    (operation.apply node (operandTypes.map some)).Accepts before (some typeInfo) after ↔
      (operation.rule operandTypes = some typeInfo ∨
          operation.ordersNonNumbers operandTypes = true ∧ typeInfo = TypeInfo.boolean) ∧
        after = before.setNodeType node.id typeInfo := by
  match operation, operandTypes with
  | .unary operator _, [operandType] =>
      simp [apply, rule, ordersNonNumbers, withType, applyUnary_accepts_iff]
  | .binary _ operator _, [leftType, rightType] =>
      simp [apply, rule, ordersNonNumbers, applyBinary_accepts_iff]
  | .unary _ _, [] | .unary _ _, _ :: _ :: _ | .binary _ _ _, [] | .binary _ _ _, [_]
  | .binary _ _ _, _ :: _ :: _ :: _ =>
      simp [apply, rule, ordersNonNumbers]

/-- No rule gives a type to the order of other values than numbers. -/
theorem rule_of_ordersNonNumbers (operation : Operation)
    (orders : operation.ordersNonNumbers operandTypes = true) :
    operation.rule operandTypes = none := by
  match operation, operandTypes with
  | .binary _ operator _, [leftType, rightType] =>
      simp only [ordersNonNumbers, TypeChecker.ordersNonNumbers, Bool.and_eq_true, Bool.not_eq_true',
        decide_eq_true_eq] at orders
      rcases orders with ⟨⟨isOrdering, rfl⟩, noNumber⟩
      simp [rule, binaryRule, isOrdering, noNumber]
  | .unary _ _, _ => cases orders
  | .binary _ _ _, [] | .binary _ _ _, [_] | .binary _ _ _, _ :: _ :: _ :: _ => cases orders

variable [UnicodeCase]

/-- The operands, in the order in which they are inferred. -/
def inferOperands : Operation → CheckM (List (Option TypeInfo))
  | .unary _ operand => do
      let operandType ← inferExpression operand
      return [operandType]
  | .binary left _ right => do
      let leftType ← inferExpression left
      let rightType ← inferExpression right
      return [leftType, rightType]

/-- The expression has a type that is recorded for it, and adds no error to those of its operands. -/
def Accepted (node : Node) (operation : Operation) (state : CheckState)
    (operandErrors : List TypeCheckError) (typeInfo : TypeInfo) : Prop :=
  ∃ final, (inferExpression (operation.expression node)).Ends state (some typeInfo) final
      operandErrors ∧
    final.nodeTypes node.id = some typeInfo

/-- The operands are inferred first, then the operator is applied to their types. -/
theorem ends_expression {node : Node} (operation : Operation) {state middle final : CheckState}
    {operandTypes : List (Option TypeInfo)}
    {all : List TypeCheckError} (first : operation.isCached = true → state.nodeTypes node.id = none)
    (operands : operation.inferOperands.Ends state operandTypes middle errors) :
    (inferExpression (operation.expression node)).Ends state value final all ↔
      ∃ more, (operation.apply node operandTypes).Ends middle value final more ∧
        all = errors ++ more := by
  cases operation with
  | unary operator operand =>
      rcases ends_bind.mp operands with ⟨operandType, _, _, _, inferred, returned, same⟩
      rcases ends_pure.mp returned with ⟨rfl, rfl, rfl⟩
      rw [List.append_nil] at same
      subst same
      rw [expression, inferExpression, ends_bind]
      constructor
      · rintro ⟨_, _, _, more, inferred', applied, rfl⟩
        rcases inferred.unique inferred' with ⟨rfl, rfl, rfl⟩
        exact ⟨more, applied, rfl⟩
      · rintro ⟨more, applied, rfl⟩
        exact ⟨_, _, _, more, inferred, applied, rfl⟩
  | binary left operator right =>
      rcases ends_bind.mp operands with ⟨leftType, _, _, _, leftInferred, operands, same⟩
      rcases ends_bind.mp operands with ⟨rightType, _, _, _, rightInferred, returned, same'⟩
      rcases ends_pure.mp returned with ⟨rfl, rfl, rfl⟩
      rw [List.append_nil] at same'
      subst same' same
      rw [expression, inferExpression, cached_ends_iff, first rfl]
      constructor
      · intro ended
        rcases ends_bind.mp ended with ⟨_, _, _, _, leftInferred', rightEnded, rfl⟩
        rcases leftInferred.unique leftInferred' with ⟨rfl, rfl, rfl⟩
        rcases ends_bind.mp rightEnded with ⟨_, _, _, more, rightInferred', applied, same⟩
        rcases rightInferred.unique rightInferred' with ⟨rfl, rfl, rfl⟩
        rw [same, ← List.append_assoc]
        refine ⟨more, ?_, rfl⟩
        cases leftType <;> cases rightType <;> exact applied
      · rintro ⟨more, applied, rfl⟩
        refine ends_bind.mpr ⟨_, _, _, _, leftInferred, ends_bind.mpr
          ⟨_, _, _, more, rightInferred, ?_, rfl⟩, List.append_assoc _ _ _⟩
        cases leftType <;> cases rightType <;> exact applied

/-- An operator on operands that have types. -/
theorem accepted_iff {node : Node} (operation : Operation) {state middle : CheckState}
    {typeInfo : TypeInfo} (first : operation.isCached = true → state.nodeTypes node.id = none)
    (operands : operation.inferOperands.Ends state (operandTypes.map some) middle errors) :
    Accepted node operation state errors typeInfo ↔
      operation.rule operandTypes = some typeInfo ∨
        operation.ordersNonNumbers operandTypes = true ∧ typeInfo = TypeInfo.boolean := by
  have whole : ∀ final all, (inferExpression (operation.expression node)).Ends state (some typeInfo)
      final all ↔ ∃ more, (operation.apply node (operandTypes.map some)).Ends middle (some typeInfo)
        final more ∧ all = errors ++ more :=
    fun _ _ => ends_expression operation first operands
  constructor
  · rintro ⟨final, ended, _⟩
    rcases (whole final errors).mp ended with ⟨more, applied, same⟩
    rw [List.self_eq_append_right.mp same] at applied
    exact ((apply_accepts_iff operation).mp applied).1
  · intro ruled
    refine ⟨middle.setNodeType node.id typeInfo, (whole _ _).mpr ⟨[], ?_, by simp⟩, ?_⟩
    · exact (apply_accepts_iff operation).mpr ⟨ruled, rfl⟩
    · simp [CheckState.setNodeType]

/-- A binary expression with a recorded type keeps it. -/
theorem accepted_recorded_iff {node : Node} {operation : Operation} {later : CheckState}
    {typeInfo : TypeInfo}
    (isCached : operation.isCached = true) (recorded : later.nodeTypes node.id = some typeInfo)
    {other : TypeInfo} : Accepted node operation later [] other ↔ other = typeInfo := by
  cases operation with
  | unary _ _ => cases isCached
  | binary left operator right =>
      simp only [Accepted, expression, inferExpression, cached_ends_iff, recorded]
      constructor
      · rintro ⟨_, ⟨same, rfl, _⟩, found⟩
        exact Option.some.inj same
      · rintro rfl
        exact ⟨later, ⟨rfl, rfl, trivial⟩, recorded⟩

end Operation

/-! ## The rules and the checker -/

/-- The operation is accepted as its rule says, with the type that the rule gives, and with no other
type when it is visited again. -/
structure TypedByRule [UnicodeCase] (node : Node) (operation : Operation) (state : CheckState)
    (operandTypes : List TypeInfo) (operandErrors : List TypeCheckError) : Prop where
  accepted : ∀ typeInfo, operation.Accepted node state operandErrors typeInfo ↔
    operation.rule operandTypes = some typeInfo
  revisited : ∀ typeInfo, operation.Accepted node state operandErrors typeInfo →
    ∀ later : CheckState, operation.isCached = true → later.nodeTypes node.id = some typeInfo →
      ∀ other, operation.Accepted node later [] other ↔ other = typeInfo

/-- The checker and the rules agree on every operator but the order of other values than
numbers. -/
theorem typedByRule_iff [UnicodeCase] (node : Node) (operation : Operation)
    (state middle : CheckState) (operandTypes : List TypeInfo) (operandErrors : List TypeCheckError)
    (first : operation.isCached = true → state.nodeTypes node.id = none)
    (operands : operation.inferOperands.Ends state (operandTypes.map some) middle operandErrors) :
    TypedByRule node operation state operandTypes operandErrors ↔
      operation.ordersNonNumbers operandTypes = false := by
  have accepted : ∀ typeInfo, operation.Accepted node state operandErrors typeInfo ↔
      operation.rule operandTypes = some typeInfo ∨
        operation.ordersNonNumbers operandTypes = true ∧ typeInfo = TypeInfo.boolean :=
    fun _ => operation.accepted_iff first operands
  constructor
  · intro byRule
    by_contra orders
    rw [Bool.not_eq_false] at orders
    have ruled := (byRule.accepted TypeInfo.boolean).mp ((accepted _).mpr (.inr ⟨orders, rfl⟩))
    rw [operation.rule_of_ordersNonNumbers orders] at ruled
    cases ruled
  · intro orders
    constructor
    · intro typeInfo
      rw [accepted, orders]
      simp
    · intro typeInfo _ later isCached recorded other
      exact Operation.accepted_recorded_iff isCached recorded

/-- A state in which nothing is recorded and no scope is open. -/
def blankState : CheckState :=
  { symbolTable := {} }

def numberAt (nodeId : Nat) : Expression :=
  .literal (.number { id := nodeId, location := {} } "1")

def boolAt (nodeId : Nat) (value : Bool) : Expression :=
  .literal (.bool { id := nodeId, location := {} } value)

theorem typedByRule_iff_number :
    TypedByRule { id := 1, location := {} } (.binary (numberAt 2) .lt (numberAt 3)) blankState
      [⟨.number .i32, []⟩, ⟨.number .i32, []⟩] [] :=
  (typedByRule_iff { id := 1, location := {} } (.binary (numberAt 2) .lt (numberAt 3)) blankState
    ((blankState.setNodeType 2 ⟨.number .i32, []⟩).setNodeType 3 ⟨.number .i32, []⟩)
    [⟨.number .i32, []⟩, ⟨.number .i32, []⟩] [] (fun _ => rfl) rfl).mpr rfl

/-- Of two truth values the one may be compared by an order with the other. -/
theorem orderedBools_notTypedByRule :
    (Operation.binary (boolAt 2 true) .lt (boolAt 3 false)).inferOperands.Ends blankState
        [some TypeInfo.boolean, some TypeInfo.boolean]
        ((blankState.setNodeType 2 TypeInfo.boolean).setNodeType 3 TypeInfo.boolean) [] ∧
      ¬ TypedByRule { id := 1, location := {} }
        (.binary (boolAt 2 true) .lt (boolAt 3 false)) blankState
        [TypeInfo.boolean, TypeInfo.boolean] [] := by
  refine ⟨rfl, fun byRule => ?_⟩
  have accepted : (Operation.binary (boolAt 2 true) .lt (boolAt 3 false)).Accepted
      { id := 1, location := {} } blankState [] TypeInfo.boolean :=
    ⟨_, rfl, rfl⟩
  cases (byRule.accepted TypeInfo.boolean).mp accepted

end Inference.TypeChecker

import Inference.Codegen.Compiler

/-! # What the lowering emits

The shapes of the instructions that a statement is lowered to are read off the
statement; they do not depend on the names and types known to the generator.
-/

namespace Inference.Codegen

open Inference.Ast Inference.TypeChecker

/-! ## Runs of the lowering -/

section

variable {names : Type}

theorem Lowering.bind_eq_some {first second : Type} {computation : Lowering names first}
    {next : first → Lowering names second} {builder after : Builder names} {result : second} :
    (computation >>= next) builder = some (result, after) ↔
      ∃ value middle, computation builder = some (value, middle) ∧
        next value middle = some (result, after) := by
  change (computation builder).bind (fun (value, middle) => next value middle) = _ ↔ _
  simp [Option.bind_eq_some_iff, Prod.exists]

theorem Lowering.pure_eq_some {result : Type} {value found : result}
    {builder after : Builder names} :
    (pure value : Lowering names result) builder = some (found, after) ↔
      found = value ∧ after = builder := by
  change some (value, builder) = some (found, after) ↔ _
  simp [eq_comm]

theorem build_eq_some {instruction : Instruction} {builder after : Builder names}
    {place : Place} :
    build instruction builder = some (place, after) ↔
      place = ⟨builder.function, builder.instructions.length⟩ ∧
        after = { builder with instructions := builder.instructions ++ [instruction] } := by
  simp [build, eq_comm]

end

/-! ## Shapes -/

/-- An instruction up to its operands and names. -/
inductive Shape where
  | marker (intrinsic : Intrinsic)
  | uzumaki
  | return_
  | other
deriving DecidableEq, Repr

def Instruction.shape : Instruction → Shape
  | .call .uzumakiI32 _ | .call .uzumakiI64 _ => .uzumaki
  | .call intrinsic _ => .marker intrinsic
  | .ret _ => .return_
  | .alloca _ _ | .store _ _ | .load _ _ _ => .other

def markerShapes (intrinsic : Option Intrinsic) : List Shape :=
  intrinsic.toList.map Shape.marker

def expressionShapes : Expression → List Shape
  | .identifier _ => [.other]
  | .uzumaki _ => [.uzumaki]
  | _ => []

def temporaryShapes (temporary : Bool) : List Shape :=
  if temporary then [.other, .other] else []

mutual

/-- The shapes for a statement; `temporary` tells whether the values of expression
statements are kept. -/
def statementShapes (temporary : Bool) : Statement → List Shape
  | .block (.mk kind _ statements) =>
      markerShapes (startIntrinsic kind) ++ statementListShapes temporary statements ++
        markerShapes (endIntrinsic kind)
  | .expression expression => expressionShapes expression ++ temporaryShapes temporary
  | .return_ _ expression => expressionShapes expression ++ [.return_]
  | .constantDefinition _ => [.other, .other]
  | .variableDefinition _ _ _ _ | .assign _ _ _ | .loop _ _ _ | .break_ _ => []
  | .if_ _ _ _ _ | .typeDefinition _ _ _ | .assert _ _ => []

def statementListShapes (temporary : Bool) : List Statement → List Shape
  | [] => []
  | head :: tail => statementShapes temporary head ++ statementListShapes temporary tail

end

/-- Every run that completes stays in the function and appends instructions of the shapes. -/
def Emits {names result : Type} (computation : Lowering names result) (shapes : List Shape) :
    Prop :=
  ∀ builder value after, computation builder = some (value, after) →
    after.function = builder.function ∧
      ∃ added, after.instructions = builder.instructions ++ added ∧
        added.map Instruction.shape = shapes

namespace Emits

variable {names : Type}

theorem pure {result : Type} (value : result) :
    Emits (pure value : Lowering names result) [] := by
  intro builder found after run
  rcases Lowering.pure_eq_some.mp run with ⟨-, rfl⟩
  exact ⟨rfl, [], by simp, rfl⟩

theorem todo {result : Type} (shapes : List Shape) :
    Emits (todo : Lowering names result) shapes := by
  intro builder value after run
  exact absurd run (by simp [Codegen.todo])

theorem build (instruction : Instruction) :
    Emits (build instruction : Lowering names Place) [instruction.shape] := by
  intro builder value after run
  rcases build_eq_some.mp run with ⟨-, rfl⟩
  exact ⟨rfl, [instruction], rfl, rfl⟩

theorem bind {first second : Type} {computation : Lowering names first}
    {next : first → Lowering names second} {before behind : List Shape}
    (emits : Emits computation before) (rest : ∀ value, Emits (next value) behind) :
    Emits (computation >>= next) (before ++ behind) := by
  intro builder result after run
  rcases Lowering.bind_eq_some.mp run with ⟨value, middle, firstRun, secondRun⟩
  rcases emits builder value middle firstRun with
    ⟨firstFunction, firstAdded, firstEqual, firstShapes⟩
  rcases rest value middle result after secondRun with
    ⟨secondFunction, secondAdded, secondEqual, secondShapes⟩
  refine ⟨secondFunction.trans firstFunction, firstAdded ++ secondAdded, ?_, ?_⟩
  · rw [secondEqual, firstEqual, List.append_assoc]
  · rw [List.map_append, firstShapes, secondShapes]

theorem lookupVariable (name : String) : Emits (lookupVariable name) [] := by
  intro builder value after run
  simp only [Codegen.lookupVariable, Option.map_eq_some_iff] at run
  rcases run with ⟨found, -, equal⟩
  cases equal
  exact ⟨rfl, [], by simp, rfl⟩

theorem insertVariable (name : String) (place : Place) (type : IntType) :
    Emits (insertVariable name place type) [] := by
  intro builder value after run
  cases run
  exact ⟨rfl, [], by simp, rfl⟩

end Emits

/-! ## Lowered statements -/

section

variable {names : Type}

theorem emits_lowerLiteral (literal : Literal) :
    Emits (lowerLiteral literal : Lowering names IntValue) [] := by
  cases literal with
  | bool _ _ | number _ _ => exact Emits.pure _
  | array _ _ | string _ _ | unit _ => exact Emits.todo _

theorem emits_lowerUzumaki (context : TypedContext) (node : Node) :
    Emits (lowerUzumaki context node : Lowering names IntValue) [.uzumaki] := by
  rw [lowerUzumaki]
  split
  · exact Emits.bind (Emits.build _) fun _ => Emits.pure _
  · split
    · exact Emits.bind (Emits.build _) fun _ => Emits.pure _
    · exact Emits.todo _

theorem shape_call {intrinsic : Intrinsic} (kind : BlockKind)
    (marks : startIntrinsic kind = some intrinsic ∨ endIntrinsic kind = some intrinsic)
    (name : String) : (Instruction.call intrinsic name).shape = .marker intrinsic := by
  cases kind <;> rcases marks with marks | marks <;> cases marks <;> rfl

theorem emits_buildCall {intrinsic : Option Intrinsic} (kind : BlockKind)
    (marks : startIntrinsic kind = intrinsic ∨ endIntrinsic kind = intrinsic) :
    Emits (buildCall intrinsic : Lowering names Unit) (markerShapes intrinsic) := by
  cases intrinsic with
  | none => exact Emits.pure ()
  | some intrinsic =>
      rw [buildCall, markerShapes, Option.toList_some, List.map_singleton,
        ← shape_call kind marks ""]
      exact Emits.bind (Emits.build _) fun _ => Emits.pure ()

def keepsTemporary (first : BlockType) : Bool :=
  first.isNonDet && first.isVoid

theorem emits_keepTemporary {parents : List BlockType} {first : BlockType}
    (outermost : parents.head? = some first) (value : IntValue) :
    Emits (keepTemporary parents value : Lowering names Unit)
      (temporaryShapes (keepsTemporary first)) := by
  rw [temporaryShapes, keepsTemporary]
  simp only [keepTemporary, outermost]
  cases first.isNonDet && first.isVoid with
  | false => exact Emits.pure ()
  | true =>
      apply Emits.bind (Emits.build (.alloca value.type "temp"))
      intro pointer
      exact Emits.bind (Emits.build (.store pointer value)) fun _ => Emits.pure ()

def voidReturnShapes (definition : FunctionDefinition) : List Shape :=
  if definition.isVoid then [.return_] else []

theorem emits_buildVoidReturn (definition : FunctionDefinition) :
    Emits (buildVoidReturn definition : Lowering names Unit) (voidReturnShapes definition) := by
  rw [buildVoidReturn, voidReturnShapes]
  cases definition.isVoid with
  | false => exact Emits.pure ()
  | true => exact Emits.bind (Emits.build (.ret none)) fun _ => Emits.pure ()

end

theorem emits_lowerExpression (context : TypedContext) (expression : Expression) :
    Emits (lowerExpression context expression) (expressionShapes expression) := by
  cases expression with
  | literal literal => exact emits_lowerLiteral literal
  | identifier identifier =>
      apply Emits.bind (Emits.lookupVariable identifier.name)
      intro found
      exact Emits.bind (Emits.build _) fun _ => Emits.pure _
  | uzumaki node => exact emits_lowerUzumaki context node
  | _ => exact Emits.todo _

theorem emits_lowerConstant (context : TypedContext) (definition : ConstantDefinition) :
    Emits (lowerConstant context definition) [.other, .other] := by
  rw [lowerConstant]
  split
  · split
    · apply Emits.bind (Emits.build _)
      intro pointer
      exact Emits.bind (Emits.build _) fun _ => Emits.insertVariable _ _ _
    · exact Emits.todo _
  · exact Emits.todo _

mutual

theorem emits_lowerStatement (context : TypedContext) {parents : List BlockType}
    {first : BlockType} (outermost : parents.head? = some first) :
    ∀ statement : Statement, Emits (lowerStatement context parents statement)
      (statementShapes (keepsTemporary first) statement)
  | .block (.mk kind node statements) => by
      rw [lowerStatement, statementShapes, List.append_assoc]
      apply Emits.bind (emits_buildCall kind (.inl rfl))
      intro _
      apply Emits.bind (emits_lowerStatements context (by simp [outermost]) statements)
      intro _
      exact emits_buildCall kind (.inr rfl)
  | .expression expression => by
      rw [lowerStatement, statementShapes]
      exact Emits.bind (emits_lowerExpression context expression)
        fun value => emits_keepTemporary outermost value
  | .return_ _ expression => by
      rw [lowerStatement, statementShapes]
      apply Emits.bind (emits_lowerExpression context expression)
      intro value
      exact Emits.bind (Emits.build (.ret (some value))) fun _ => Emits.pure ()
  | .constantDefinition definition => by
      rw [lowerStatement, statementShapes]
      exact emits_lowerConstant context definition
  | .variableDefinition _ _ _ _ => Emits.pure ()
  | .assign _ _ _ => Emits.todo _
  | .loop _ _ _ => Emits.todo _
  | .break_ _ => Emits.todo _
  | .if_ _ _ _ _ => Emits.todo _
  | .typeDefinition _ _ _ => Emits.todo _
  | .assert _ _ => Emits.todo _

theorem emits_lowerStatements (context : TypedContext) {parents : List BlockType}
    {first : BlockType} (outermost : parents.head? = some first) :
    ∀ statements : List Statement, Emits (lowerStatements context parents statements)
      (statementListShapes (keepsTemporary first) statements)
  | [] => Emits.pure ()
  | head :: tail => by
      rw [lowerStatements, statementListShapes]
      exact Emits.bind (emits_lowerStatement context outermost head)
        fun _ => emits_lowerStatements context outermost tail

end

def functionShapes (definition : FunctionDefinition) : List Shape :=
  statementShapes (keepsTemporary definition.body) (.block definition.body) ++
    voidReturnShapes definition

theorem emits_lowerBody (context : TypedContext) (definition : FunctionDefinition) :
    Emits (lowerBody context definition) (functionShapes definition) := by
  rw [lowerBody, functionShapes]
  exact Emits.bind (emits_lowerStatement context rfl (.block definition.body))
    fun _ => emits_buildVoidReturn definition

/-- What a completed visit adds to the module. -/
theorem visitFunctionDefinition_ok {context : TypedContext} {definition : FunctionDefinition}
    {compiler after : Compiler}
    (run : visitFunctionDefinition context definition compiler = some after) :
    ∃ function builder,
      after.functions = compiler.functions ++ [function] ∧
      lowerBody context definition
          { function := compiler.functions.length, variables_ := compiler.variables_ } =
        some ((), builder) ∧
      (functionType definition).isSome ∧
      after.variables_ = builder.variables_ ∧
      function.attributes = functionAttributes definition ∧
      function.blocks = [{ name := "entry", instructions := builder.instructions }] := by
  simp only [visitFunctionDefinition, Option.bind_eq_bind, Option.bind_eq_some_iff,
    Option.pure_def, Option.some.injEq] at run
  rcases run with ⟨returnType, typed, ⟨⟨⟩, builder⟩, lowered, rfl⟩
  exact ⟨_, builder, rfl, lowered, by simp [typed], rfl, rfl, rfl⟩

/-- The instructions of a lowered function have the shapes of its definition. -/
theorem visitFunctionDefinition_shapes {context : TypedContext}
    {definition : FunctionDefinition} {compiler after : Compiler} {function : FunctionValue}
    (run : visitFunctionDefinition context definition compiler = some after)
    (added : after.functions = compiler.functions ++ [function]) :
    ∃ instructions, function.blocks = [{ name := "entry", instructions }] ∧
      instructions.map Instruction.shape = functionShapes definition := by
  rcases visitFunctionDefinition_ok run with ⟨found, builder, foundAdded, lowered, -, -, -, blocks⟩
  have same : function = found := by
    rw [added] at foundAdded
    simpa using foundAdded
  rcases emits_lowerBody context definition _ _ _ lowered with
    ⟨-, instructions, equal, shapes⟩
  refine ⟨instructions, ?_, shapes⟩
  rw [same, blocks, equal, List.nil_append]

end Inference.Codegen

import Inference.Codegen.Emission

/-! # Lowering with lexical scopes

What the code of a function is when every identifier stands for the innermost definition
of its name: the lowering of the generator over a scope in place of its map. The scope
ends with its block, starts anew in each function, and also has the names that have
no slot, parameters and variables.
-/

namespace Inference.Codegen

open Inference.Ast Inference.TypeChecker

abbrev Slot :=
  Place × IntType

/-- The definitions in scope, the innermost first; a name without a slot has `none`. -/
abbrev Scope :=
  List (String × Option Slot)

namespace Lexical

def lookupVariable (name : String) : Lowering Scope Slot := fun builder =>
  (builder.variables_.lookup name).join.map fun found => (found, builder)

def declare (name : String) (slot : Option Slot) : Lowering Scope Unit := fun builder =>
  some ((), { builder with variables_ := (name, slot) :: builder.variables_ })

/-- The definitions of the computation are gone after it. -/
def inScope (computation : Lowering Scope Unit) : Lowering Scope Unit := fun builder =>
  (computation builder).map fun ((), after) =>
    ((), { after with variables_ := builder.variables_ })

def lowerExpression (context : TypedContext) : Expression → Lowering Scope IntValue
  | .literal literal => lowerLiteral literal
  | .identifier identifier => do
      let (pointer, type) ← lookupVariable identifier.name
      let place ← build (.load type pointer identifier.name)
      pure (.made type place)
  | .uzumaki node => lowerUzumaki context node
  | _ => todo

def lowerConstant (context : TypedContext) (definition : ConstantDefinition) :
    Lowering Scope Unit :=
  match (context.getNodeTypeinfo definition.id).map TypeInfo.kind with
  | some (.number .i32) =>
      match definition.value with
      | .number _ value => do
          let pointer ← build (.alloca .i32 definition.name.name)
          let _ ← build (.store pointer (IntType.i32.constInt ((parseU64 value).getD 0)))
          declare definition.name.name (some (pointer, .i32))
      | _ => todo
  | _ => todo

mutual

def lowerStatement (context : TypedContext) (parents : List BlockType) :
    Statement → Lowering Scope Unit
  | .block (.mk kind node statements) => do
      buildCall (startIntrinsic kind)
      inScope (lowerStatements context (parents ++ [.mk kind node statements]) statements)
      buildCall (endIntrinsic kind)
  | .expression expression => do
      let value ← lowerExpression context expression
      keepTemporary parents value
  | .return_ _ expression => do
      let value ← lowerExpression context expression
      let _ ← build (.ret (some value))
      pure ()
  | .variableDefinition _ name _ _ => declare name.name none
  | .constantDefinition definition => lowerConstant context definition
  | .assign _ _ _ | .loop _ _ _ | .break_ _ | .if_ _ _ _ _ => todo
  | .typeDefinition _ _ _ | .assert _ _ => todo

def lowerStatements (context : TypedContext) (parents : List BlockType) :
    List Statement → Lowering Scope Unit
  | [] => pure ()
  | head :: tail => do
      lowerStatement context parents head
      lowerStatements context parents tail

end

def parameterNames (definition : FunctionDefinition) : List String :=
  (definition.arguments.getD []).filterMap fun
    | .argument _ name _ => some name.name
    | .selfReference _ | .ignoreArgument _ _ | .type_ _ => none

def lowerBody (context : TypedContext) (definition : FunctionDefinition) :
    Lowering Scope Unit := do
  lowerStatement context [definition.body] (.block definition.body)
  buildVoidReturn definition

def visitFunctionDefinition (context : TypedContext) (definition : FunctionDefinition)
    (functions : List FunctionValue) : Option (List FunctionValue) := do
  let returnType ← functionType definition
  let (_, builder) ← lowerBody context definition
    { function := functions.length,
      variables_ := (parameterNames definition).map fun name => (name, none) }
  pure (functions ++ [functionValue definition returnType builder.instructions])

def visitFunctionDefinitions (context : TypedContext) :
    List FunctionDefinition → List FunctionValue → Option (List FunctionValue)
  | [], functions => some functions
  | head :: tail, functions => do
      let functions ← visitFunctionDefinition context head functions
      visitFunctionDefinitions context tail functions

end Lexical

/-! ## Reading the program text

The constant definitions are numbered in the order in which they are compiled. At a use,
the last definition of the name that was read is compared with the innermost one.
-/

structure Reader where
  /-- All definitions read, the last one first. -/
  latest : List (String × Nat) := []
  /-- The definitions in scope, the innermost first. -/
  scope : List (String × Option Nat) := []

structure Use where
  latest : Option Nat
  innermost : Option Nat

/-- The last definition of the name is the innermost one in scope. -/
def Use.Agrees (use : Use) : Prop :=
  use.latest = use.innermost

namespace Reader

def use (reader : Reader) (name : String) : Use where
  latest := reader.latest.lookup name
  innermost := (reader.scope.lookup name).join

def define (reader : Reader) (name : String) : Reader where
  latest := (name, reader.latest.length) :: reader.latest
  scope := (name, some reader.latest.length) :: reader.scope

def hide (reader : Reader) (name : String) : Reader :=
  { reader with scope := (name, none) :: reader.scope }

/-- Behind a block the scope is the one before it. -/
def leave (inside outside : Reader) : Reader :=
  { inside with scope := outside.scope }

def uses (reader : Reader) : Expression → List Use
  | .identifier identifier => [reader.use identifier.name]
  | _ => []

mutual

def read (reader : Reader) : Statement → Reader
  | .block (.mk _ _ statements) => leave (readAll reader statements) reader
  | .variableDefinition _ name _ _ => reader.hide name.name
  | .constantDefinition definition => reader.define definition.name.name
  | .expression _ | .assign _ _ _ | .return_ _ _ | .loop _ _ _ | .break_ _ => reader
  | .if_ _ _ _ _ | .typeDefinition _ _ _ | .assert _ _ => reader

def readAll (reader : Reader) : List Statement → Reader
  | [] => reader
  | head :: tail => readAll (read reader head) tail

end

mutual

/-- The uses in what is lowered of a statement. -/
def statementUses (reader : Reader) : Statement → List Use
  | .block (.mk _ _ statements) => statementListUses reader statements
  | .expression expression | .return_ _ expression => reader.uses expression
  | .variableDefinition _ _ _ _ | .constantDefinition _ | .assign _ _ _ | .loop _ _ _ => []
  | .break_ _ | .if_ _ _ _ _ | .typeDefinition _ _ _ | .assert _ _ => []

def statementListUses (reader : Reader) : List Statement → List Use
  | [] => []
  | head :: tail =>
      statementUses reader head ++ statementListUses (read reader head) tail

end

def enter (reader : Reader) (definition : FunctionDefinition) : Reader :=
  { reader with scope := (Lexical.parameterNames definition).map fun name => (name, none) }

def functionUses (reader : Reader) : List FunctionDefinition → List Use
  | [] => []
  | head :: tail =>
      statementUses (reader.enter head) (.block head.body) ++
        functionUses (read (reader.enter head) (.block head.body)) tail

end Reader

/-- At every use the last definition compiled under the name, in whatever function or
block, is the innermost definition in scope. -/
def LatestIsInnermost (definitions : List FunctionDefinition) : Prop :=
  ∀ use ∈ Reader.functionUses {} definitions, use.Agrees

/-! ## Shapes of the lexical lowering -/

namespace Lexical

theorem emits_lookupVariable (name : String) : Emits (lookupVariable name) [] := by
  intro builder value after run
  simp only [lookupVariable, Option.map_eq_some_iff] at run
  rcases run with ⟨found, -, equal⟩
  cases equal
  exact ⟨rfl, [], by simp, rfl⟩

theorem emits_declare (name : String) (slot : Option Slot) : Emits (declare name slot) [] := by
  intro builder value after run
  cases run
  exact ⟨rfl, [], by simp, rfl⟩

theorem Emits.inScope {computation : Lowering Scope Unit} {shapes : List Shape}
    (emits : Emits computation shapes) : Emits (inScope computation) shapes := by
  intro builder value after run
  simp only [Lexical.inScope, Option.map_eq_some_iff] at run
  rcases run with ⟨⟨⟨⟩, middle⟩, inner, equal⟩
  cases equal
  exact emits builder () middle inner

theorem emits_lowerExpression (context : TypedContext) (expression : Expression) :
    Emits (lowerExpression context expression) (expressionShapes expression) := by
  cases expression with
  | literal literal => exact emits_lowerLiteral literal
  | identifier identifier =>
      apply Emits.bind (emits_lookupVariable identifier.name)
      intro found
      exact Emits.bind (Emits.build _) fun _ => Emits.pure _
  | uzumaki node => exact emits_lowerUzumaki context node
  | _ => exact Emits.todo _

theorem emits_lowerConstant (context : TypedContext) (definition : ConstantDefinition) :
    Emits (lowerConstant context definition) [.other, .other] := by
  rw [lowerConstant]
  split
  · split
    · apply Emits.bind (Emits.build _)
      intro pointer
      exact Emits.bind (Emits.build _) fun _ => emits_declare _ _
    · exact Emits.todo _
  · exact Emits.todo _

end Lexical

end Inference.Codegen

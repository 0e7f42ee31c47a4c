import Inference.Ast.NonDeterminism
import Inference.Codegen.Llvm
import Inference.TypeChecker.ProgramChecker

/-! # The code generator

`none` is a panic. A function has one basic block; the builder stands at its end and
the names of all constants lowered so far are in one map.
-/

namespace Inference.Codegen

open Inference.Ast Inference.TypeChecker

/-- The map of the names: where a constant is stored, and its type. -/
abbrev Variables :=
  AList fun _ : String => Place × IntType

/-- The state while the function at the position `function` of the module is lowered;
`names` is what the names are kept in. -/
structure Builder (names : Type) where
  function : Nat
  instructions : List Instruction := []
  variables_ : names

abbrev Lowering (names : Type) := StateT (Builder names) Option

def todo {names result : Type} : Lowering names result :=
  fun _ => none

/-- Append an instruction to the block. -/
def build {names : Type} (instruction : Instruction) : Lowering names Place := fun builder =>
  some (⟨builder.function, builder.instructions.length⟩,
    { builder with instructions := builder.instructions ++ [instruction] })

def lookupVariable (name : String) : Lowering Variables (Place × IntType) := fun builder =>
  (builder.variables_.lookup name).map fun found => (found, builder)

def insertVariable (name : String) (place : Place) (type : IntType) :
    Lowering Variables Unit := fun builder =>
  some ((), { builder with variables_ := builder.variables_.insert name (place, type) })

/-- Rust's `parse::<u64>`. -/
def parseU64 (text : String) : Option Nat :=
  let digits :=
    match text.toList with
    | '+' :: digits => digits
    | digits => digits
  if digits ≠ [] ∧ digits.all Char.isDigit then
    let value := Nat.ofDigitChars 10 digits 0
    if value < 2 ^ 64 then some value else none
  else
    none

def lowerLiteral {names : Type} : Literal → Lowering names IntValue
  | .bool _ value => pure (IntType.i32.constInt value.toNat)
  | .number _ value => pure (IntType.i32.constInt ((parseU64 value).getD 0))
  | .array _ _ | .string _ _ | .unit _ => todo

def isNodeI32 (context : TypedContext) (nodeId : Nat) : Bool :=
  (context.getNodeTypeinfo nodeId).any fun info => info.kind == .number .i32

def isNodeI64 (context : TypedContext) (nodeId : Nat) : Bool :=
  (context.getNodeTypeinfo nodeId).any fun info => info.kind == .number .i64

def lowerUzumakiI32Expression {names : Type} : Lowering names IntValue := do
  let place ← build (.call .uzumakiI32 "uz_i32")
  pure (.made .i32 place)

def lowerUzumakiI64Expression {names : Type} : Lowering names IntValue := do
  let place ← build (.call .uzumakiI64 "uz_i64")
  pure (.made .i64 place)

def lowerUzumaki {names : Type} (context : TypedContext) (node : Node) :
    Lowering names IntValue :=
  if isNodeI32 context node.id then
    lowerUzumakiI32Expression
  else if isNodeI64 context node.id then
    lowerUzumakiI64Expression
  else
    todo

def lowerExpression (context : TypedContext) : Expression → Lowering Variables IntValue
  | .literal literal => lowerLiteral literal
  | .identifier identifier => do
      let (pointer, type) ← lookupVariable identifier.name
      let place ← build (.load type pointer identifier.name)
      pure (.made type place)
  | .uzumaki node => lowerUzumaki context node
  | .arrayIndexAccess _ _ _ | .binary _ _ _ _ | .memberAccess _ _ _ => todo
  | .typeMemberAccess _ _ _ | .functionCall _ _ _ _ | .struct_ _ _ _ => todo
  | .prefixUnary _ _ _ | .parenthesized _ _ | .type_ _ => todo

def startIntrinsic : BlockKind → Option Intrinsic
  | .block => none
  | .forall_ => some .forallStart
  | .assume_ => some .assumeStart
  | .exists_ => some .existsStart
  | .unique => some .uniqueStart

def endIntrinsic : BlockKind → Option Intrinsic
  | .block => none
  | .forall_ => some .forallEnd
  | .assume_ => some .assumeEnd
  | .exists_ => some .existsEnd
  | .unique => some .uniqueEnd

/-- The call at the start or at the end of a block. -/
def buildCall {names : Type} : Option Intrinsic → Lowering names Unit
  | none => pure ()
  | some intrinsic => do
      let _ ← build (.call intrinsic "")
      pure ()

/-- What becomes of the value of an expression statement: when the outermost block
is non-deterministic and void, it is kept in a temporary. -/
def keepTemporary {names : Type} (parents : List BlockType) (value : IntValue) :
    Lowering names Unit :=
  match parents.head? with
  | none => todo
  | some first =>
      if first.isNonDet && first.isVoid then do
        let pointer ← build (.alloca value.type "temp")
        let _ ← build (.store pointer value)
        pure ()
      else
        pure ()

def lowerConstant (context : TypedContext) (definition : ConstantDefinition) :
    Lowering Variables Unit :=
  match (context.getNodeTypeinfo definition.id).map TypeInfo.kind with
  | some (.number .i32) =>
      match definition.value with
      | .number _ value => do
          let pointer ← build (.alloca .i32 definition.name.name)
          let _ ← build (.store pointer (IntType.i32.constInt ((parseU64 value).getD 0)))
          insertVariable definition.name.name pointer .i32
      | _ => todo
  | _ => todo

mutual

def lowerStatement (context : TypedContext) (parents : List BlockType) :
    Statement → Lowering Variables Unit
  | .block (.mk kind node statements) => do
      buildCall (startIntrinsic kind)
      lowerStatements context (parents ++ [.mk kind node statements]) statements
      buildCall (endIntrinsic kind)
  | .expression expression => do
      let value ← lowerExpression context expression
      keepTemporary parents value
  | .return_ _ expression => do
      let value ← lowerExpression context expression
      let _ ← build (.ret (some value))
      pure ()
  | .variableDefinition _ _ _ _ => pure ()
  | .constantDefinition definition => lowerConstant context definition
  | .assign _ _ _ | .loop _ _ _ | .break_ _ | .if_ _ _ _ _ => todo
  | .typeDefinition _ _ _ | .assert _ _ => todo

def lowerStatements (context : TypedContext) (parents : List BlockType) :
    List Statement → Lowering Variables Unit
  | [] => pure ()
  | head :: tail => do
      lowerStatement context parents head
      lowerStatements context parents tail

end

/-! ## Functions -/

structure Compiler where
  functions : List FunctionValue := []
  variables_ : Variables := ∅
  hasMain : Bool := false

/-- The result type of the LLVM function; `none` inside is void. -/
def functionType (definition : FunctionDefinition) : Option (Option IntType) :=
  match definition.returns with
  | none | some (.simple .unit) => some none
  | some (.simple .bool) => some (some .i1)
  | some (.simple .i8) | some (.simple .u8) => some (some .i8)
  | some (.simple .i16) | some (.simple .u16) => some (some .i16)
  | some (.simple .i32) | some (.simple .u32) => some (some .i32)
  | some (.simple .i64) | some (.simple .u64) => some (some .i64)
  | some _ => none

def barriers : List Attribute :=
  [.optnone, .noinline]

def functionAttributes (definition : FunctionDefinition) : List Attribute :=
  (if definition.visibility = .public_ ∧ definition.name.name ≠ "main" then
    [.wasmExportName definition.name.name]
  else
    []) ++
  (if definition.isNonDet then barriers else [])

/-- The return at the end of a void function. -/
def buildVoidReturn {names : Type} (definition : FunctionDefinition) : Lowering names Unit :=
  if definition.isVoid then do
    let _ ← build (.ret none)
    pure ()
  else
    pure ()

def lowerBody (context : TypedContext) (definition : FunctionDefinition) :
    Lowering Variables Unit := do
  lowerStatement context [definition.body] (.block definition.body)
  buildVoidReturn definition

def functionValue (definition : FunctionDefinition) (returnType : Option IntType)
    (instructions : List Instruction) : FunctionValue where
  name := definition.name.name
  returnType
  attributes := functionAttributes definition
  blocks := [{ name := "entry", instructions }]

def visitFunctionDefinition (context : TypedContext) (definition : FunctionDefinition)
    (compiler : Compiler) : Option Compiler := do
  let returnType ← functionType definition
  let (_, builder) ← lowerBody context definition
    { function := compiler.functions.length, variables_ := compiler.variables_ }
  let function := functionValue definition returnType builder.instructions
  pure
    { functions := compiler.functions ++ [function], variables_ := builder.variables_,
      hasMain := compiler.hasMain ||
        (definition.name.name = "main" ∧ definition.visibility = .public_) }

def SourceFile.functionDefinitions (file : SourceFile) : List FunctionDefinition :=
  file.definitions.filterMap fun
    | .function definition => some definition
    | _ => none

def visitFunctionDefinitions (context : TypedContext) :
    List FunctionDefinition → Compiler → Option Compiler
  | [], compiler => some compiler
  | head :: tail, compiler => do
      let compiler ← visitFunctionDefinition context head compiler
      visitFunctionDefinitions context tail compiler

/-- The module of a program of one file. -/
def codegen (context : TypedContext) : Option Compiler :=
  match context.program with
  | [] => some {}
  | [file] => visitFunctionDefinitions context (SourceFile.functionDefinitions file) {}
  | _ :: _ :: _ => none

end Inference.Codegen

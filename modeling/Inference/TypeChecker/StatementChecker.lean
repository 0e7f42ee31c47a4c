import Inference.TypeChecker.ExpressionChecker

/-! # Checking of statements

Each statement is checked against the type that its function returns. A block, the
body of a loop and the arms of an `if` open a scope of their own.
-/

namespace Inference.TypeChecker

open Inference.Ast Inference.Foundation

variable [UnicodeCase]

def pushVariable (name : Identifier) (location : Location) (typeInfo : TypeInfo) : CheckM Unit :=
  register (fun table => table.pushVariableToScope name.name typeInfo) fun reason =>
    .registrationFailed .variable_ name.name (some reason) location

/-- Runs the checks of a block in a scope of its own. -/
def inScope (body : CheckM Unit) : CheckM Unit := do
  updateSymbolTable SymbolTable.pushScope
  body
  updateSymbolTable SymbolTable.popScope

def checkCondition (location : Location) (conditionType : Option TypeInfo) : CheckM Unit :=
  match conditionType with
  | some typeInfo =>
      if typeInfo.kind = .bool then pure ()
      else pushError (.typeMismatch TypeInfo.boolean typeInfo .condition location)
  | none => pushError (.typeMismatch TypeInfo.boolean default .condition location)

/-- Compares two types where a value of the second is put in place of the first. -/
def compareTypes (expected found : TypeInfo) (context : TypeMismatchContext)
    (location : Location) : CheckM Unit :=
  if expected = found then pure ()
  else pushError (.typeMismatch expected found context location)

/-- An uzumaki takes the type of the place that it is assigned to. -/
def assignUzumaki (value : Node) (targetType : Option TypeInfo) : CheckM Unit :=
  match targetType with
  | some targetType => setNodeTypeinfo value.id targetType
  | none => pushError (.cannotInferUzumakiType value.location)

def compareAssigned (node : Node) (targetType valueType : Option TypeInfo) : CheckM Unit :=
  match targetType, valueType with
  | some targetType, some valueType =>
      compareTypes targetType valueType .assignment node.location
  | _, _ => pure ()

def compareInitial (node : Node) (targetType : TypeInfo) (initType : Option TypeInfo) :
    CheckM Unit :=
  match initType with
  | some initType => compareTypes targetType initType .variableDefinition node.location
  | none => pure ()

/-- Infers the value of a variable definition against the type that is declared. -/
def inferInitial (node : Node) (targetType : TypeInfo) : Option Expression → CheckM Unit
  | some (.uzumaki value) => setNodeTypeinfo value.id targetType
  | some value => do
      let initType ← inferExpression value
      compareInitial node targetType initType
  | none => pure ()

def inferAssigned (node : Node) (targetType : Option TypeInfo) : Expression → CheckM Unit
  | .uzumaki value => assignUzumaki value targetType
  | right => do
      let valueType ← inferExpression right
      compareAssigned node targetType valueType

def inferReturned (node : Node) (returnType : TypeInfo) : Expression → CheckM Unit
  | .uzumaki value => setNodeTypeinfo value.id returnType
  | value => do
      let valueType ← inferExpression value
      compareTypes returnType (valueType.getD default) .return_ node.location

mutual

def inferStatement (returnType : TypeInfo) : Statement → CheckM Unit
  | .assign node left right => do
      let targetType ← inferExpression left
      inferAssigned node targetType right
  | .block block => inScope (inferBlock returnType block)
  | .expression expression => do
      let _ ← inferExpression expression
  | .return_ node expression => inferReturned node returnType expression
  | .loop node condition body => do
      match condition with
      | some condition => do
          let conditionType ← inferExpression condition
          checkCondition node.location conditionType
      | none => pure ()
      inScope (inferBlock returnType body)
  | .break_ _ => pure ()
  | .if_ node condition ifArm elseArm => do
      let conditionType ← inferExpression condition
      checkCondition node.location conditionType
      inScope (inferBlock returnType ifArm)
      match elseArm with
      | some elseArm => inScope (inferBlock returnType elseArm)
      | none => pure ()
  | .variableDefinition node name ty value => do
      let targetType ← typeInfoOf ty
      inferInitial node targetType value
      pushVariable name node.location targetType
      setNodeTypeinfo name.id targetType
      setNodeTypeinfo node.id targetType
  | .typeDefinition node name ty => do
      let typeInfo ← typeInfoOf ty
      register (fun table => table.registerType name.name typeInfo) fun reason =>
        .registrationFailed .type_ name.name (some reason) node.location
  | .assert node expression => do
      let conditionType ← inferExpression expression
      checkCondition node.location conditionType
  | .constantDefinition definition => do
      let constantType ← typeInfoOf definition.ty
      pushVariable definition.name definition.location constantType
      setNodeTypeinfo definition.value.id constantType
      setNodeTypeinfo definition.id constantType

def inferBlock (returnType : TypeInfo) : BlockType → CheckM Unit
  | .mk _ _ statements => inferStatements returnType statements

def inferStatements (returnType : TypeInfo) : List Statement → CheckM Unit
  | [] => pure ()
  | statement :: rest => do
      inferStatement returnType statement
      inferStatements returnType rest

end

/-! ## Functions and methods -/

def typeParamNames (typeParameters : Option (List Identifier)) : List String :=
  (typeParameters.getD []).map (·.name)

/-- Declares the parameters of a function. -/
def declareParameter (typeParams : List String) : ArgumentType → CheckM Unit
  | .argument node name ty => do
      let argType ← typeInfoWithTypeParams ty typeParams
      pushVariable name node.location argType
  | .selfReference node => pushError (.selfReferenceOutsideMethod node.location)
  | .ignoreArgument _ _ | .type_ _ => pure ()

/-- The type that a function returns, where its type parameters are in scope. -/
def declaredReturnType (returns : Option Type_) (typeParams : List String) : CheckM TypeInfo :=
  match returns with
  | some returns => typeInfoWithTypeParams returns typeParams
  | none => pure default

def inferVariables (definition : FunctionDefinition) : CheckM Unit :=
  inScope do
    let typeParams := typeParamNames definition.typeParameters
    (definition.arguments.getD []).forM (declareParameter typeParams)
    let returnType ← declaredReturnType definition.returns typeParams
    inferBlock returnType definition.body

def selfIdentifier (node : Node) : Identifier :=
  { toNode := node, name := "self" }

/-- Declares the parameters of a method, where type parameters are not in scope. -/
def declareMethodParameter (selfType : TypeInfo) : ArgumentType → CheckM Unit
  | .argument node name ty => do
      let argType ← typeInfoOf ty
      pushVariable name node.location argType
  | .selfReference node => pushVariable (selfIdentifier node) node.location selfType
  | .ignoreArgument _ _ | .type_ _ => pure ()

/-- The source builds the return type anew for every statement; the registration of the
method has built it before, so that it is no panic here. -/
def inferMethodVariables (definition : FunctionDefinition) (selfType : TypeInfo) : CheckM Unit :=
  inScope do
    (definition.arguments.getD []).forM (declareMethodParameter selfType)
    let returnType ← declaredReturnType definition.returns []
    inferBlock returnType definition.body

end Inference.TypeChecker

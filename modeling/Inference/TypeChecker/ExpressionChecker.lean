import Inference.TypeChecker.CheckState

/-! # Inference of expressions

The type of an expression, with the types of its parts recorded on the way. `none` is
the type of an expression for which no type is found.
-/

namespace Inference.TypeChecker

open Inference.Ast Inference.Foundation

/-- The name of the struct that a value of a type has fields and methods of. -/
def Environment.structName (environment : Environment) (objectType : TypeInfo) : Option String :=
  match objectType.kind with
  | .struct_ name => some name
  | .custom name => if (environment.lookupStruct name).isSome then some name else none
  | _ => none

/-! ## Accesses -/

def recordType (node : Node) (typeInfo : TypeInfo) : CheckM (Option TypeInfo) := do
  setNodeTypeinfo node.id typeInfo
  return some typeInfo

def failWith (error : TypeCheckError) : CheckM (Option TypeInfo) := do
  pushError error
  return none

def checkIndexType (node : Node) (indexType : Option TypeInfo) : CheckM Unit :=
  match indexType with
  | some indexType =>
      if indexType.isNumber then pure ()
      else pushError (.arrayIndexNotNumeric indexType node.location)
  | none => pure ()

def elementAccess (node : Node) (arrayType : TypeInfo) : CheckM (Option TypeInfo) :=
  match arrayType.kind with
  | .array elementType _ => recordType node elementType
  | _ => failWith (.expectedArrayType arrayType node.location)

def fieldAccess (node : Node) (name : Identifier) (objectType : TypeInfo) :
    CheckM (Option TypeInfo) := do
  let environment := (← getSymbolTable).environment
  match environment.structName objectType with
  | some structName =>
      match environment.lookupStruct structName with
      | some structInfo =>
          match structInfo.fields.lookup name.name with
          | some fieldInfo =>
              checkAndReportVisibility fieldInfo.visibility structInfo.definitionScopeId
                node.location (.field structName name.name)
              recordType node fieldInfo.typeInfo
          | none => failWith (.fieldNotFound structName name.name node.location)
      | none => failWith (.fieldNotFound structName name.name node.location)
  | none => failWith (.expectedStructType objectType node.location)

def variantAccess (node : Node) (enumName : String) (name : Identifier) :
    CheckM (Option TypeInfo) := do
  match (← getSymbolTable).lookupEnum enumName with
  | some enumInfo =>
      if name.name ∈ enumInfo.variants then
        checkAndReportVisibility enumInfo.visibility enumInfo.definitionScopeId node.location
          (.enum enumName)
        recordType node { kind := .enum enumName, typeParams := [] }
      else
        failWith (.variantNotFound enumName name.name node.location)
  | none =>
      pushErrorDedup (.undefinedEnum enumName node.location)
      return none

/-- The access to a variant of the enum that an expression has as its type. -/
def variantOfType (node : Node) (name : Identifier) (exprType : TypeInfo) :
    CheckM (Option TypeInfo) :=
  match exprType.kind with
  | .enum enumName => variantAccess node enumName name
  | _ => failWith (.expectedEnumType exprType node.location)

/-! ## Operators -/

/-- The operand types of a unary operator, with their name in the error. -/
def unaryOperand : UnaryOperatorKind → (TypeInfo → Bool) × String
  | .not => (TypeInfo.isBool, "booleans")
  | .neg => (TypeInfo.isSignedInteger, "signed integers (i8, i16, i32, i64)")
  | .bitNot => (TypeInfo.isNumber, "integers (i8, i16, i32, i64, u8, u16, u32, u64)")

def applyUnary (node : Node) (operator : UnaryOperatorKind) (expressionType : TypeInfo) :
    CheckM (Option TypeInfo) :=
  if (unaryOperand operator).1 expressionType then recordType node expressionType
  else
    failWith (.invalidUnaryOperand operator (unaryOperand operator).2 expressionType node.location)

def pushMismatch (node : Node) (operator : OperatorKind) (leftType rightType : TypeInfo) :
    CheckM Unit :=
  if leftType = rightType then pure ()
  else pushError (.binaryOperandTypeMismatch operator leftType rightType node.location)

def applyBinary (node : Node) (operator : OperatorKind) (leftType rightType : TypeInfo) :
    CheckM (Option TypeInfo) := do
  pushMismatch node operator leftType rightType
  match operator with
  | .and | .or =>
      if leftType.isBool && rightType.isBool then recordType node TypeInfo.boolean
      else
        failWith (.invalidBinaryOperand operator "logical" "non-boolean types"
          (leftType, rightType) node.location)
  | .eq | .ne | .lt | .le | .gt | .ge => recordType node TypeInfo.boolean
  | .pow | .add | .sub | .mul | .div | .mod | .bitAnd | .bitOr | .bitXor | .bitNot | .shl
  | .shr =>
      if leftType.isNumber && rightType.isNumber then pure ()
      else
        pushError (.invalidBinaryOperand operator "arithmetic" "non-number types"
          (leftType, rightType) node.location)
      pushMismatch node operator leftType rightType
      recordType node leftType

/-! ## Calls -/

/-- The name of the type in front of an associated function. -/
def associatedTypeName : Expression → Option String
  | .type_ (.custom identifier) => some identifier.name
  | .type_ (.qualifiedName _ qualifier name) => some s!"{qualifier.name}::{name.name}"
  | .type_ (.qualified _ qualifierAlias name) => some s!"{qualifierAlias.name}::{name.name}"
  | .identifier identifier => some identifier.name
  | _ => none

/-- The associated function that the function of a call names, if it names one. -/
def Environment.associatedFunction (environment : Environment) :
    (function : Expression) → Option (Node × String × String × MethodInfo)
  | .typeMemberAccess node expression name =>
      match associatedTypeName expression with
      | some typeName =>
          if (environment.lookupEnum typeName).isSome then none
          else
            (environment.lookupMethod typeName name.name).map fun method =>
              (node, typeName, name.name, method)
      | none => none
  | _ => none

abbrev Arguments := List (Option Identifier × Expression)

def argumentCount (arguments : Option Arguments) : Nat :=
  (arguments.map List.length).getD 0

/-- A call of a method that was found: the part that both forms of calls share. -/
def callMethod (call function : Node) (typeName methodName : String) (method : MethodInfo)
    (arguments : Option Arguments) (inferArguments : CheckM Unit) : CheckM (Option TypeInfo) := do
  checkAndReportVisibility method.visibility method.scopeId function.location
    (.method typeName methodName)
  let argCount := argumentCount arguments
  if argCount = method.signature.paramTypes.length then pure ()
  else
    pushError (.argumentCountMismatch "method" s!"{typeName}::{methodName}"
      method.signature.paramTypes.length argCount call.location)
  inferArguments
  setNodeTypeinfo function.id { kind := .function s!"{typeName}::{methodName}", typeParams := [] }
  recordType call method.signature.returnType

def callAssociated (call function : Node) (typeName methodName : String) (method : MethodInfo)
    (arguments : Option Arguments) (inferArguments : CheckM Unit) : CheckM (Option TypeInfo) := do
  if method.isInstanceMethod then
    pushError (.instanceMethodCalledAsAssociated typeName methodName function.location)
  else
    pure ()
  callMethod call function typeName methodName method arguments inferArguments

/-- A call of a method on a receiver whose type is known. -/
def callOnReceiver (call function : Node) (name : Identifier) (receiverType : TypeInfo)
    (arguments : Option Arguments) (inferArguments : CheckM Unit) : CheckM (Option TypeInfo) := do
  let environment := (← getSymbolTable).environment
  match environment.structName receiverType with
  | some typeName =>
      match environment.lookupMethod typeName name.name with
      | some method =>
          if method.isInstanceMethod then pure ()
          else
            pushError (.associatedFunctionCalledAsMethod typeName name.name function.location)
          callMethod call function typeName name.name method arguments inferArguments
      | none => failWith (.methodNotFound typeName name.name function.location)
  | none =>
      pushError (.methodCallOnNonStruct receiverType call.location)
      inferArguments
      return none

variable [UnicodeCase]

/-- The substitution of the type arguments that a call gives. -/
def Environment.explicitSubstitutions (environment : Environment) (typeParams : List String)
    (typeArguments : List Identifier) : Substitutions :=
  (typeParams.zip typeArguments).foldl (fun known (paramName, typeIdent) =>
    known.insert paramName ((environment.lookupType typeIdent.name).getD
      { kind := .custom typeIdent.name, typeParams := [] })) ∅

/-- The substitutions of a call; `inferTypeParams` finds those that the call does not give. -/
def callSubstitutions (call : Node) (name : String) (signature : FuncInfo)
    (typeParameters : Option (List Identifier)) (inferTypeParams : CheckM Substitutions) :
    CheckM Substitutions := do
  if signature.typeParams.isEmpty then
    return ∅
  else
    match typeParameters with
    | some typeArguments =>
        if typeArguments.length = signature.typeParams.length then
          let environment := (← getSymbolTable).environment
          return environment.explicitSubstitutions signature.typeParams typeArguments
        else
          pushError (.typeParameterCountMismatch name signature.typeParams.length
            typeArguments.length call.location)
          return ∅
    | none =>
        let inferred ← inferTypeParams
        if inferred.keys.isEmpty then
          pushError (.missingTypeParameters name signature.typeParams.length call.location)
        else
          pure ()
        return inferred

/-- Whether an argument list has a length other than the parameters; a call without a
list is not compared. -/
def argumentsMismatch (arguments : Option Arguments) (signature : FuncInfo) : Bool :=
  match arguments with
  | some arguments => arguments.length ≠ signature.paramTypes.length
  | none => false

/-- A call of a function by its name. -/
def callFunction (call : Node) (name : String) (typeParameters : Option (List Identifier))
    (arguments : Option Arguments) (inferArguments : CheckM Unit)
    (inferTypeParams : FuncInfo → CheckM Substitutions) : CheckM (Option TypeInfo) := do
  match (← getSymbolTable).lookupFunction name with
  | some signature =>
      checkAndReportVisibility signature.visibility signature.definitionScopeId call.location
        (.function name)
      if argumentsMismatch arguments signature then
        pushError (.argumentCountMismatch "function" name signature.paramTypes.length
          (argumentCount arguments) call.location)
        inferArguments
        return none
      else
        let substitutions ← callSubstitutions call name signature typeParameters
          (inferTypeParams signature)
        let returnType := signature.returnType.substitute substitutions
        inferArguments
        recordType call returnType
  | none =>
      pushErrorDedup (.undefinedFunction name call.location)
      inferArguments
      return none

/-- Keeps the first type found for a type parameter and compares the later ones. -/
def addSubstitution (callLocation : Location) (typeParamName : String)
    (argType : Option TypeInfo) (substitutions : Substitutions) : CheckM Substitutions := do
  match argType with
  | some argType =>
      match substitutions.lookup typeParamName with
      | some existing =>
          if existing = argType then pure ()
          else
            pushError (.conflictingTypeInference typeParamName existing argType callLocation)
          return substitutions
      | none => return substitutions.insert typeParamName argType
  | none => return substitutions

def checkTypeParams (signature : FuncInfo) (callLocation : Location)
    (substitutions : Substitutions) : CheckM Unit :=
  signature.typeParams.forM fun typeParam =>
    if typeParam ∈ substitutions then pure ()
    else pushError (.cannotInferTypeParameter signature.name typeParam callLocation)

/-! ## Inference -/

def structLiteral (node : Node) (name : Identifier) : CheckM (Option TypeInfo) := do
  match (← getSymbolTable).lookupType name.name with
  | some structType => recordType node structType
  | none =>
      pushErrorDedup (.undefinedStruct name.name node.location)
      return none

def inferIdentifier (identifier : Identifier) : CheckM (Option TypeInfo) := do
  match (← getSymbolTable).lookupVariable identifier.name with
  | some variableType => recordType identifier.toNode variableType
  | none =>
      pushErrorDedup (.unknownIdentifier identifier.name identifier.location)
      return none

/-- The type recorded for a node, or else the result of inferring it. -/
def cached (node : Node) (infer : CheckM (Option TypeInfo)) : CheckM (Option TypeInfo) := do
  match ← getNodeTypeinfo node.id with
  | some typeInfo => return some typeInfo
  | none => infer

/-- Goes on with a type, if there is one. -/
def withType (typeInfo : Option TypeInfo) (next : TypeInfo → CheckM (Option TypeInfo)) :
    CheckM (Option TypeInfo) :=
  match typeInfo with
  | some typeInfo => next typeInfo
  | none => pure none

def compareElement (node : Node) (expected : TypeInfo) (found : Option TypeInfo) : CheckM Unit :=
  match found with
  | some found =>
      if found = expected then pure ()
      else pushError (.arrayElementTypeMismatch expected found node.location)
  | none => pure ()

mutual

def inferExpression : Expression → CheckM (Option TypeInfo)
  | .arrayIndexAccess node array index => cached node do
      match ← inferExpression array with
      | some arrayType =>
          let indexType ← inferExpression index
          checkIndexType node indexType
          elementAccess node arrayType
      | none => return none
  | .memberAccess node expression name => cached node do
      withType (← inferExpression expression) (fieldAccess node name)
  | .typeMemberAccess node expression name => cached node do
      match expression with
      | .type_ (.custom identifier) => variantAccess node identifier.name name
      | .type_ type =>
          let found ← typeInfoOf type
          failWith (.expectedEnumType found node.location)
      | .identifier identifier => variantAccess node identifier.name name
      | expression => withType (← inferExpression expression) (variantOfType node name)
  | .functionCall node function typeParameters arguments => do
      let inferArguments := match arguments with
        | some arguments => inferArgumentList arguments
        | none => pure ()
      let inferTypeParams := fun (signature : FuncInfo) => match arguments with
        | some arguments => do
            let substitutions ←
              collectSubstitutions node.location arguments signature.paramTypes ∅
            checkTypeParams signature node.location substitutions
            return substitutions
        | none => pure ∅
      let environment := (← getSymbolTable).environment
      match environment.associatedFunction function with
      | some (functionNode, typeName, methodName, method) =>
          callAssociated node functionNode typeName methodName method arguments inferArguments
      | none =>
          match function with
          | .memberAccess functionNode receiver name =>
              match ← inferExpression receiver with
              | some receiverType =>
                  callOnReceiver node functionNode name receiverType arguments inferArguments
              | none =>
                  inferArguments
                  return none
          | function =>
              callFunction node (callName function) typeParameters arguments inferArguments
                inferTypeParams
  | .struct_ node name _ => cached node (structLiteral node name)
  | .prefixUnary node expression operator => do
      withType (← inferExpression expression) (applyUnary node operator)
  | .parenthesized node expression => do
      withType (← inferExpression expression) (recordType node)
  | .binary node left operator right => cached node do
      let leftType ← inferExpression left
      let rightType ← inferExpression right
      match leftType, rightType with
      | some leftType, some rightType => applyBinary node operator leftType rightType
      | _, _ => return none
  | .literal value => inferLiteral value
  | .identifier identifier => inferIdentifier identifier
  | .type_ type => do
      let typeInfo ← typeInfoOf type
      setNodeTypeinfo type.id typeInfo
      match type with
      | .array _ _ size =>
          let _ ← inferExpression size
          return some typeInfo
      | _ => return some typeInfo
  | .uzumaki node => getNodeTypeinfo node.id

def inferLiteral : Literal → CheckM (Option TypeInfo)
  | .array node elements => cached node do
      match elements with
      | some [] => Collecting.abort
      | some (first :: rest) =>
          match ← inferExpression first with
          | some elementType =>
              compareElements node elementType rest
              recordType node
                { kind := .array elementType ((rest.length + 1) % 2 ^ 32), typeParams := [] }
          | none => return none
      | none => return none
  | .bool node _ => recordType node TypeInfo.boolean
  | .string node _ => recordType node TypeInfo.string
  | .number node _ => cached node (recordType node { kind := .number .i32, typeParams := [] })
  | .unit node => recordType node default

/-- Infers the elements of an array behind the first one. -/
def compareElements (node : Node) (elementType : TypeInfo) : List Expression → CheckM Unit
  | [] => pure ()
  | element :: rest => do
      let found ← inferExpression element
      compareElement node elementType found
      compareElements node elementType rest

def inferArgumentList : List (Option Identifier × Expression) → CheckM Unit
  | [] => pure ()
  | (_, argument) :: rest => do
      let _ ← inferExpression argument
      inferArgumentList rest

/-- Infers the arguments whose parameter type is a type parameter. -/
def collectSubstitutions (callLocation : Location) :
    List (Option Identifier × Expression) → List TypeInfo → Substitutions →
      CheckM Substitutions
  | (_, argument) :: rest, paramType :: paramTypes, substitutions =>
      match paramType.kind with
      | .generic typeParamName => do
          let argType ← inferExpression argument
          let substitutions ← addSubstitution callLocation typeParamName argType substitutions
          collectSubstitutions callLocation rest paramTypes substitutions
      | _ => collectSubstitutions callLocation rest paramTypes substitutions
  | _, _, substitutions => pure substitutions

end

end Inference.TypeChecker

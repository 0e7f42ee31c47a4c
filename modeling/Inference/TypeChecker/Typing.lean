import Inference.TypeChecker.ScopeTree
import Inference.TypeChecker.ExpressionChecker

/-! # Types of expressions

The type that the language gives to an expression among the declarations in scope, as
a function of the two alone: no state, no errors and nothing recorded. An expression
without a type in a correct program is built on an uzumaki or an empty array.
-/

namespace Inference.TypeChecker

open Inference.Ast

namespace Environment

def fieldType (environment : Environment) (name : Identifier) (objectType : TypeInfo) :
    Option TypeInfo :=
  (environment.structName objectType).bind fun structName =>
    (environment.lookupStruct structName).bind fun structInfo =>
      (structInfo.fields.lookup name.name).map (·.typeInfo)

def variantType (environment : Environment) (enumName : String) (name : Identifier) :
    Option TypeInfo :=
  (environment.lookupEnum enumName).bind fun enumInfo =>
    if name.name ∈ enumInfo.variants then some { kind := .enum enumName, typeParams := [] }
    else none

def variantTypeOf (environment : Environment) (name : Identifier) (exprType : TypeInfo) :
    Option TypeInfo :=
  match exprType.kind with
  | .enum enumName => environment.variantType enumName name
  | _ => none

end Environment

def elementTypeOf (arrayType : TypeInfo) : Option TypeInfo :=
  match arrayType.kind with
  | .array elementType _ => some elementType
  | _ => none

/-- An index is a number, if a type is found for it. -/
def indexedType (arrayType : TypeInfo) (indexType : Option TypeInfo) : Option TypeInfo :=
  if indexType.all TypeInfo.isNumber then elementTypeOf arrayType else none

/-- Both operands have one type. Values of every type are compared. -/
def binaryType (operator : OperatorKind) (leftType rightType : TypeInfo) : Option TypeInfo :=
  if leftType = rightType then
    match operator with
    | .and | .or => if leftType.isBool then some TypeInfo.boolean else none
    | .eq | .ne | .lt | .le | .gt | .ge => some TypeInfo.boolean
    | .pow | .add | .sub | .mul | .div | .mod | .bitAnd | .bitOr | .bitXor | .bitNot | .shl
    | .shr => if leftType.isNumber then some leftType else none
  else
    none

/-! ## Calls -/

/-- What a call resolves to, with the type arguments of the call put in. -/
structure ResolvedCall where
  /-- The node of the function that is recorded as a method, with its qualified name. -/
  recorded : Option (Node × String)
  paramTypes : List TypeInfo
  returnType : TypeInfo
deriving DecidableEq

def ResolvedCall.ofMethod (function : Node) (typeName methodName : String)
    (method : MethodInfo) : ResolvedCall where
  recorded := some (function, s!"{typeName}::{methodName}")
  paramTypes := method.signature.paramTypes
  returnType := method.signature.returnType

/-- Binds a type parameter to the first type found for it. -/
def bindTypeParam (typeParamName : String) (argType : Option TypeInfo)
    (substitutions : Substitutions) : Substitutions :=
  match argType with
  | some argType =>
      if typeParamName ∈ substitutions then substitutions
      else substitutions.insert typeParamName argType
  | none => substitutions

/-- The substitutions that the types of the arguments determine. -/
def inferredSubstitutions :
    List (Option TypeInfo) → List TypeInfo → Substitutions → Substitutions
  | argType :: argTypes, paramType :: paramTypes, substitutions =>
      match paramType.kind with
      | .generic typeParamName =>
          inferredSubstitutions argTypes paramTypes
            (bindTypeParam typeParamName argType substitutions)
      | _ => inferredSubstitutions argTypes paramTypes substitutions
  | _, _, substitutions => substitutions

namespace Environment

variable [UnicodeCase]

def substitutionsOf (environment : Environment) (signature : FuncInfo)
    (typeParameters : Option (List Identifier)) (argTypes : List (Option TypeInfo)) :
    Substitutions :=
  if signature.typeParams.isEmpty then ∅
  else
    match typeParameters with
    | some typeArguments => environment.explicitSubstitutions signature.typeParams typeArguments
    | none => inferredSubstitutions argTypes signature.paramTypes ∅

def ofFunction (environment : Environment) (signature : FuncInfo)
    (typeParameters : Option (List Identifier)) (argTypes : List (Option TypeInfo)) :
    ResolvedCall :=
  let substitutions := environment.substitutionsOf signature typeParameters argTypes
  { recorded := none
    paramTypes := signature.paramTypes.map (·.substitute substitutions)
    returnType := signature.returnType.substitute substitutions }

/-- What a call of `function` resolves to, from the types of its receiver and arguments. -/
def resolve (environment : Environment) (function : Expression)
    (typeParameters : Option (List Identifier)) (receiverType : Option TypeInfo)
    (argTypes : List (Option TypeInfo)) : Option ResolvedCall :=
  match environment.associatedFunction function with
  | some (node, typeName, methodName, method) =>
      some (.ofMethod node typeName methodName method)
  | none =>
      match function with
      | .memberAccess node _ name =>
          receiverType.bind fun receiverType =>
            (environment.structName receiverType).bind fun typeName =>
              (environment.lookupMethod typeName name.name).map
                (ResolvedCall.ofMethod node typeName name.name)
      | function =>
          (environment.lookupFunction (callName function)).map fun signature =>
            environment.ofFunction signature typeParameters argTypes

/-! ## Expressions -/

mutual

def typeOf (environment : Environment) : Expression → Option TypeInfo
  | .arrayIndexAccess _ array index =>
      (environment.typeOf array).bind fun arrayType =>
        indexedType arrayType (environment.typeOf index)
  | .binary _ left operator right =>
      (environment.typeOf left).bind fun leftType =>
        (environment.typeOf right).bind (binaryType operator leftType)
  | .memberAccess _ expression name =>
      (environment.typeOf expression).bind (environment.fieldType name)
  | .typeMemberAccess _ expression name =>
      match expression with
      | .type_ (.custom identifier) => environment.variantType identifier.name name
      | .type_ _ => none
      | .identifier identifier => environment.variantType identifier.name name
      | expression => (environment.typeOf expression).bind (environment.variantTypeOf name)
  | .functionCall _ function typeParameters arguments =>
      (environment.resolve function typeParameters
        (match function with
          | .memberAccess _ receiver _ => environment.typeOf receiver
          | _ => none)
        (match arguments with
          | some arguments => environment.argumentTypes arguments
          | none => [])).map (·.returnType)
  | .struct_ _ name _ => environment.lookupType name.name
  | .prefixUnary _ expression operator =>
      (environment.typeOf expression).filter (unaryOperand operator).1
  | .parenthesized _ expression => environment.typeOf expression
  | .literal value => environment.literalType value
  | .identifier identifier => environment.lookupVariable identifier.name
  | .type_ type => TypeInfo.new type
  | .uzumaki _ => none

def literalType (environment : Environment) : Literal → Option TypeInfo
  | .array _ (some (first :: rest)) =>
      (environment.typeOf first).bind fun elementType =>
        if environment.allHaveType elementType rest then
          some { kind := .array elementType ((rest.length + 1) % 2 ^ 32), typeParams := [] }
        else
          none
  | .array _ _ => none
  | .bool _ _ => some TypeInfo.boolean
  | .string _ _ => some TypeInfo.string
  | .number _ _ => some { kind := .number .i32, typeParams := [] }
  | .unit _ => some default

/-- The elements for which a type is found have this one. -/
def allHaveType (environment : Environment) (elementType : TypeInfo) : List Expression → Bool
  | [] => true
  | element :: rest =>
      (environment.typeOf element).all (· = elementType) &&
        environment.allHaveType elementType rest

def argumentTypes (environment : Environment) :
    List (Option Identifier × Expression) → List (Option TypeInfo)
  | [] => []
  | (_, argument) :: rest => environment.typeOf argument :: environment.argumentTypes rest

end

/-- The type of the receiver of a call on a member access. -/
def receiverType (environment : Environment) : (function : Expression) → Option TypeInfo
  | .memberAccess _ receiver _ => environment.typeOf receiver
  | _ => none

def optionArgumentTypes (environment : Environment) :
    Option (List (Option Identifier × Expression)) → List (Option TypeInfo)
  | some arguments => environment.argumentTypes arguments
  | none => []

/-- What a call resolves to among the declarations in scope. -/
def resolveCall (environment : Environment) (function : Expression)
    (typeParameters : Option (List Identifier)) (arguments : Option Arguments) :
    Option ResolvedCall :=
  environment.resolve function typeParameters (environment.receiverType function)
    (environment.optionArgumentTypes arguments)

theorem typeOf_functionCall (environment : Environment) (node : Node) (function : Expression)
    (typeParameters : Option (List Identifier)) (arguments : Option Arguments) :
    environment.typeOf (.functionCall node function typeParameters arguments) =
      (environment.resolveCall function typeParameters arguments).map (·.returnType) := by
  rw [resolveCall]
  cases function <;> cases arguments <;> simp only [typeOf] <;> rfl

end Environment

/-! ## Expressions without a type -/

mutual

/-- Whether no type is found for an expression, although it has no error. -/
def untyped : Expression → Bool
  | .arrayIndexAccess _ array _ => untyped array
  | .binary _ left _ right => untyped left || untyped right
  | .memberAccess _ expression _ => untyped expression
  | .typeMemberAccess _ expression _ =>
      match expression with
      | .type_ _ | .identifier _ => false
      | expression => untyped expression
  | .functionCall _ function _ _ =>
      match function with
      | .memberAccess _ receiver _ => untyped receiver
      | _ => false
  | .prefixUnary _ expression _ | .parenthesized _ expression => untyped expression
  | .literal value => untypedLiteral value
  | .struct_ _ _ _ | .identifier _ | .type_ _ => false
  | .uzumaki _ => true

def untypedLiteral : Literal → Bool
  | .array _ (some (first :: _)) => untyped first
  | .array _ _ => true
  | .bool _ _ | .string _ _ | .number _ _ | .unit _ => false

end

end Inference.TypeChecker

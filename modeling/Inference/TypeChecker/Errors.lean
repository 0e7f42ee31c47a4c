import Inference.TypeChecker.TypeInfo

/-! # Errors of the type checker

The errors that the checker collects, with their texts.
-/

namespace Inference.TypeChecker

open Inference.Ast

inductive RegistrationKind where
  | type_
  | struct_
  | enum
  | spec
  | function
  | method
  | variable_
deriving DecidableEq, Repr

def RegistrationKind.toString : RegistrationKind → String
  | .type_ => "type"
  | .struct_ => "struct"
  | .enum => "enum"
  | .spec => "spec"
  | .function => "function"
  | .method => "method"
  | .variable_ => "variable"

inductive TypeMismatchContext where
  | assignment
  | return_
  | variableDefinition
  | condition
deriving DecidableEq, Repr

def TypeMismatchContext.toString : TypeMismatchContext → String
  | .assignment => "in assignment"
  | .return_ => "in return statement"
  | .variableDefinition => "in variable definition"
  | .condition => "in condition"

inductive VisibilityContext where
  | function (name : String)
  | enum (name : String)
  | field (structName fieldName : String)
  | method (typeName methodName : String)
  | import_ (path : String)
deriving DecidableEq, Repr

def VisibilityContext.toString : VisibilityContext → String
  | .function name => s!"function `{name}`"
  | .enum name => s!"enum `{name}`"
  | .field structName fieldName => s!"field `{fieldName}` of struct `{structName}`"
  | .method typeName methodName => s!"method `{methodName}` on type `{typeName}`"
  | .import_ path => s!"item `{path}`"

def operatorDebug : OperatorKind → String
  | .pow => "Pow"
  | .add => "Add"
  | .sub => "Sub"
  | .mul => "Mul"
  | .div => "Div"
  | .mod => "Mod"
  | .and => "And"
  | .or => "Or"
  | .eq => "Eq"
  | .ne => "Ne"
  | .lt => "Lt"
  | .le => "Le"
  | .gt => "Gt"
  | .ge => "Ge"
  | .bitAnd => "BitAnd"
  | .bitOr => "BitOr"
  | .bitXor => "BitXor"
  | .bitNot => "BitNot"
  | .shl => "Shl"
  | .shr => "Shr"

def unaryOperatorDebug : UnaryOperatorKind → String
  | .not => "Not"
  | .neg => "Neg"
  | .bitNot => "BitNot"

inductive TypeCheckError where
  | typeMismatch (expected found : TypeInfo) (context : TypeMismatchContext) (location : Location)
  | unknownType (name : String) (location : Location)
  | unknownIdentifier (name : String) (location : Location)
  | undefinedFunction (name : String) (location : Location)
  | undefinedStruct (name : String) (location : Location)
  | fieldNotFound (structName fieldName : String) (location : Location)
  | variantNotFound (enumName variantName : String) (location : Location)
  | undefinedEnum (name : String) (location : Location)
  | expectedEnumType (found : TypeInfo) (location : Location)
  | methodNotFound (typeName methodName : String) (location : Location)
  | argumentCountMismatch (kind name : String) (expected found : Nat) (location : Location)
  | typeParameterCountMismatch (name : String) (expected found : Nat) (location : Location)
  | missingTypeParameters (functionName : String) (expected : Nat) (location : Location)
  | invalidBinaryOperand (operator : OperatorKind) (expectedKind operandDesc : String)
      (foundTypes : TypeInfo × TypeInfo) (location : Location)
  | invalidUnaryOperand (operator : UnaryOperatorKind) (expectedType : String)
      (foundType : TypeInfo) (location : Location)
  | binaryOperandTypeMismatch (operator : OperatorKind) (left right : TypeInfo)
      (location : Location)
  | selfReferenceInFunction (functionName : String) (location : Location)
  | selfReferenceOutsideMethod (location : Location)
  | importResolutionFailed (path : String) (location : Location)
  | registrationFailed (kind : RegistrationKind) (name : String) (reason : Option String)
      (location : Location)
  | expectedArrayType (found : TypeInfo) (location : Location)
  | expectedStructType (found : TypeInfo) (location : Location)
  | methodCallOnNonStruct (found : TypeInfo) (location : Location)
  | arrayIndexNotNumeric (found : TypeInfo) (location : Location)
  | arrayElementTypeMismatch (expected found : TypeInfo) (location : Location)
  | cannotInferUzumakiType (location : Location)
  | cannotInferTypeParameter (functionName paramName : String) (location : Location)
  | conflictingTypeInference (paramName : String) (first second : TypeInfo)
      (location : Location)
  | privateAccessViolation (context : VisibilityContext) (location : Location)
  | instanceMethodCalledAsAssociated (typeName methodName : String) (location : Location)
  | associatedFunctionCalledAsMethod (typeName methodName : String) (location : Location)
deriving DecidableEq, Repr

namespace TypeCheckError

def location : TypeCheckError → Location
  | .typeMismatch _ _ _ location => location
  | .unknownType _ location | .unknownIdentifier _ location => location
  | .undefinedFunction _ location | .undefinedStruct _ location => location
  | .fieldNotFound _ _ location | .variantNotFound _ _ location => location
  | .undefinedEnum _ location | .expectedEnumType _ location => location
  | .methodNotFound _ _ location => location
  | .argumentCountMismatch _ _ _ _ location => location
  | .typeParameterCountMismatch _ _ _ location | .missingTypeParameters _ _ location => location
  | .invalidBinaryOperand _ _ _ _ location | .invalidUnaryOperand _ _ _ location => location
  | .binaryOperandTypeMismatch _ _ _ location => location
  | .selfReferenceInFunction _ location | .selfReferenceOutsideMethod location => location
  | .importResolutionFailed _ location | .registrationFailed _ _ _ location => location
  | .expectedArrayType _ location | .expectedStructType _ location => location
  | .methodCallOnNonStruct _ location | .arrayIndexNotNumeric _ location => location
  | .arrayElementTypeMismatch _ _ location | .cannotInferUzumakiType location => location
  | .cannotInferTypeParameter _ _ location => location
  | .conflictingTypeInference _ _ _ location => location
  | .privateAccessViolation _ location => location
  | .instanceMethodCalledAsAssociated _ _ location => location
  | .associatedFunctionCalledAsMethod _ _ location => location

/-- The text of an error behind its location. -/
def message : TypeCheckError → String
  | .typeMismatch expected found context _ =>
      s!"type mismatch {context.toString}: expected `{expected.toString}`, " ++
        s!"found `{found.toString}`"
  | .unknownType name _ => s!"unknown type `{name}`"
  | .unknownIdentifier name _ => s!"use of undeclared variable `{name}`"
  | .undefinedFunction name _ => s!"call to undefined function `{name}`"
  | .undefinedStruct name _ => s!"struct `{name}` is not defined"
  | .fieldNotFound structName fieldName _ =>
      s!"field `{fieldName}` not found on struct `{structName}`"
  | .variantNotFound enumName variantName _ =>
      s!"variant `{variantName}` not found on enum `{enumName}`"
  | .undefinedEnum name _ => s!"enum `{name}` is not defined"
  | .expectedEnumType found _ =>
      s!"type member access requires an enum type, found `{found.toString}`"
  | .methodNotFound typeName methodName _ =>
      s!"method `{methodName}` not found on type `{typeName}`"
  | .argumentCountMismatch kind name expected found _ =>
      s!"{kind} `{name}` expects {expected} arguments, but {found} provided"
  | .typeParameterCountMismatch name expected found _ =>
      s!"type parameter count mismatch for `{name}`: expected {expected}, found {found}"
  | .missingTypeParameters functionName expected _ =>
      s!"function `{functionName}` requires {expected} type parameters, but none were provided"
  | .invalidBinaryOperand operator expectedKind operandDesc _ _ =>
      s!"{expectedKind} operator `{operatorDebug operator}` cannot be applied to {operandDesc}"
  | .invalidUnaryOperand operator expectedType foundType _ =>
      s!"unary operator `{unaryOperatorDebug operator}` can only be applied to " ++
        s!"{expectedType}, found `{foundType.toString}`"
  | .binaryOperandTypeMismatch operator left right _ =>
      s!"cannot apply operator `{operatorDebug operator}` to operands of different types: " ++
        s!"`{left.toString}` and `{right.toString}`"
  | .selfReferenceInFunction functionName _ =>
      s!"self reference not allowed in standalone function `{functionName}`"
  | .selfReferenceOutsideMethod _ =>
      "self reference is only allowed in methods, not functions"
  | .importResolutionFailed path _ => s!"cannot resolve import path: {path}"
  | .registrationFailed kind name reason _ =>
      s!"error registering {kind.toString} `{name}`" ++ (reason.map (": " ++ ·)).getD ""
  | .expectedArrayType found _ => s!"expected an array type, found `{found.toString}`"
  | .expectedStructType found _ =>
      s!"member access requires a struct type, found `{found.toString}`"
  | .methodCallOnNonStruct found _ =>
      s!"cannot call method on non-struct type `{found.toString}`"
  | .arrayIndexNotNumeric found _ =>
      s!"array index must be of number type, found `{found.toString}`"
  | .arrayElementTypeMismatch expected found _ =>
      s!"array elements must be of the same type: expected `{expected.toString}`, " ++
        s!"found `{found.toString}`"
  | .cannotInferUzumakiType _ =>
      "cannot infer type for uzumaki expression assigned to variable of unknown type"
  | .cannotInferTypeParameter functionName paramName _ =>
      s!"cannot infer type parameter `{paramName}` for `{functionName}` - " ++
        "consider adding explicit type arguments"
  | .conflictingTypeInference paramName first second _ =>
      s!"conflicting types for type parameter `{paramName}`: " ++
        s!"inferred `{first.toString}` and `{second.toString}`"
  | .privateAccessViolation context _ => s!"cannot access private {context.toString}"
  | .instanceMethodCalledAsAssociated typeName methodName _ =>
      s!"instance method `{typeName}::{methodName}` requires a receiver, " ++
        s!"use `instance.{methodName}()` instead"
  | .associatedFunctionCalledAsMethod typeName methodName _ =>
      s!"associated function `{typeName}::{methodName}` cannot be called on an instance, " ++
        s!"use `{typeName}::{methodName}()` instead"

def toString (error : TypeCheckError) : String :=
  s!"{error.location.toString}: {error.message}"

/-- The key under which errors about one unknown name are reported once. -/
def dedupKey : TypeCheckError → Option String
  | .unknownType name _ => some s!"UnknownType:{name}"
  | .undefinedFunction name _ => some s!"UndefinedFunction:{name}"
  | .unknownIdentifier name _ => some s!"UnknownIdentifier:{name}"
  | .undefinedStruct name _ => some s!"UndefinedStruct:{name}"
  | .undefinedEnum name _ => some s!"UndefinedEnum:{name}"
  | _ => none

end TypeCheckError

end Inference.TypeChecker

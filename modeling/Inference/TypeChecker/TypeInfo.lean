import Mathlib.Data.List.AList
import Inference.Ast.Nodes

/-! # Type information

What the checker records for a node. A type of the syntax tree is turned into its
type information by `TypeInfo.new` alone, from the name it is written with.
-/

namespace Inference.TypeChecker

open Inference.Ast

inductive NumberType where
  | i8
  | i16
  | i32
  | i64
  | u8
  | u16
  | u32
  | u64
deriving DecidableEq, Repr

namespace NumberType

def all : List NumberType :=
  [.i8, .i16, .i32, .i64, .u8, .u16, .u32, .u64]

def asStr : NumberType → String
  | .i8 => "i8"
  | .i16 => "i16"
  | .i32 => "i32"
  | .i64 => "i64"
  | .u8 => "u8"
  | .u16 => "u16"
  | .u32 => "u32"
  | .u64 => "u64"

def isSigned : NumberType → Bool
  | .i8 | .i16 | .i32 | .i64 => true
  | .u8 | .u16 | .u32 | .u64 => false

end NumberType

/-- Equality of texts up to the case of the ASCII letters. -/
def eqIgnoreAsciiCase (first second : String) : Bool :=
  first.toList.map Char.toLower == second.toList.map Char.toLower

def NumberType.fromStr (text : String) : Option NumberType :=
  NumberType.all.find? fun numberType => eqIgnoreAsciiCase numberType.asStr text

mutual

structure TypeInfo where
  kind : TypeInfoKind
  typeParams : List String

inductive TypeInfoKind where
  | unit
  | bool
  | string
  | number (numberType : NumberType)
  | custom (name : String)
  | array (element : TypeInfo) (length : Nat)
  | generic (name : String)
  | qualifiedName (name : String)
  | qualified (name : String)
  | function (name : String)
  | struct_ (name : String)
  | enum (name : String)
  | spec (name : String)

end

deriving instance DecidableEq for TypeInfo
deriving instance DecidableEq for TypeInfoKind
deriving instance Repr for TypeInfo
deriving instance Repr for TypeInfoKind

/-- The unit type, which a function without a declared type returns. -/
instance : Inhabited TypeInfo :=
  ⟨{ kind := .unit, typeParams := [] }⟩

abbrev Substitutions := AList fun _ : String => TypeInfo

/-! ## Display -/

mutual

def TypeInfo.toString : TypeInfo → String
  | ⟨kind, []⟩ => kind.toString
  | ⟨kind, first :: rest⟩ =>
      kind.toString ++ " " ++ " ".intercalate ((first :: rest).map (· ++ "'"))

def TypeInfoKind.toString : TypeInfoKind → String
  | .unit => "Unit"
  | .bool => "Bool"
  | .string => "String"
  | .number numberType => numberType.asStr
  | .array element length => s!"[{element.toString}; {length}]"
  | .custom name | .spec name | .struct_ name | .enum name => name
  | .qualifiedName name | .qualified name | .function name => name
  | .generic name => name ++ "'"

end

/-! ## Builtin types -/

namespace TypeInfoKind

def nonNumericBuiltins : List (String × TypeInfoKind) :=
  [("unit", .unit), ("bool", .bool), ("string", .string)]

def isNumber : TypeInfoKind → Bool
  | .number _ => true
  | _ => false

def fromBuiltinStr (text : String) : Option TypeInfoKind :=
  match NumberType.fromStr text with
  | some numberType => some (.number numberType)
  | none =>
      (nonNumericBuiltins.find? fun builtin => eqIgnoreAsciiCase builtin.1 text).map (·.2)

end TypeInfoKind

namespace TypeInfo

def typeKindFromSimpleType (simpleTypeName : String) : TypeInfoKind :=
  (TypeInfoKind.fromBuiltinStr simpleTypeName).getD (.custom simpleTypeName)

def typeKindFromSimpleTypeKind : SimpleTypeKind → TypeInfoKind
  | .unit => .unit
  | .bool => .bool
  | .i8 => .number .i8
  | .i16 => .number .i16
  | .i32 => .number .i32
  | .i64 => .number .i64
  | .u8 => .number .u8
  | .u16 => .number .u16
  | .u32 => .number .u32
  | .u64 => .number .u64

def boolean : TypeInfo :=
  { kind := .bool, typeParams := [] }

def string : TypeInfo :=
  { kind := .string, typeParams := [] }

def isNumber (typeInfo : TypeInfo) : Bool :=
  typeInfo.kind.isNumber

def isBool (typeInfo : TypeInfo) : Bool :=
  typeInfo.kind = .bool

def isSignedInteger (typeInfo : TypeInfo) : Bool :=
  match typeInfo.kind with
  | .number numberType => numberType.isSigned
  | _ => false

/-! ## Types of the syntax tree -/

/-- Parses a number that fits in 32 bits. -/
def parseU32 (text : String) : Option Nat :=
  let digits := match text.toList with
    | '+' :: rest => rest
    | all => all
  if digits.isEmpty || !digits.all Char.isDigit then none
  else
    let value := digits.foldl (fun total digit => total * 10 + (digit.toNat - 48)) 0
    if value < 2 ^ 32 then some value else none

/-- The size of an array type; any size but a number literal is a panic. -/
def extractArraySize : Expression → Option Nat
  | .literal (.number _ value) => parseU32 value
  | _ => none

mutual

def newWithTypeParams : Type_ → List String → Option TypeInfo
  | .simple kind, _ => some { kind := typeKindFromSimpleTypeKind kind, typeParams := [] }
  | .generic _ base parameters, _ =>
      some { kind := .generic base.name, typeParams := parameters.map (·.name) }
  | .qualifiedName _ qualifier name, _ =>
      some { kind := .qualifiedName s!"{qualifier.name}::{name.name}", typeParams := [] }
  | .qualified _ _ name, _ => some { kind := .qualified name.name, typeParams := [] }
  | .array _ elementType size, typeParamNames => do
      let length ← extractArraySize size
      let element ← newWithTypeParams elementType typeParamNames
      return { kind := .array element length, typeParams := [] }
  | .function _ parameters returns, typeParamNames => do
      let parameterTypes ← match parameters with
        | some parameters => newAllWithTypeParams parameters typeParamNames
        | none => some []
      let returnType ← match returns with
        | some returns => newWithTypeParams returns typeParamNames
        | none => some default
      return {
        kind := .function s!"Function<{parameterTypes.length}, {returnType.kind.toString}>"
        typeParams := [] }
  | .custom identifier, typeParamNames =>
      if identifier.name ∈ typeParamNames then
        some { kind := .generic identifier.name, typeParams := [] }
      else
        some { kind := typeKindFromSimpleType identifier.name, typeParams := [] }

def newAllWithTypeParams : List Type_ → List String → Option (List TypeInfo)
  | [], _ => some []
  | head :: tail, typeParamNames => do
      let headType ← newWithTypeParams head typeParamNames
      let tailTypes ← newAllWithTypeParams tail typeParamNames
      return headType :: tailTypes

end

/-- The type information of a type where no type parameter is in scope. -/
def new (type : Type_) : Option TypeInfo :=
  newWithTypeParams type []

/-- Replaces type parameters by the types they stand for. -/
def substitute (substitutions : Substitutions) : TypeInfo → TypeInfo
  | ⟨.generic name, typeParams⟩ =>
      (substitutions.lookup name).getD ⟨.generic name, typeParams⟩
  | ⟨.array element length, _⟩ => ⟨.array (element.substitute substitutions) length, []⟩
  | typeInfo => typeInfo

end TypeInfo

end Inference.TypeChecker

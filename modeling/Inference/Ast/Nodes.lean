import Mathlib.Algebra.Ring.Nat
import Mathlib.Data.List.Basic

/-! # Nodes of the syntax tree

The nodes as the builder makes them. A node has an id, and the annotations of the
later passes are kept for ids.
-/

namespace Inference.Ast

structure Location where
  offsetStart : Nat := 0
  offsetEnd : Nat := 0
  startLine : Nat := 0
  startColumn : Nat := 0
  endLine : Nat := 0
  endColumn : Nat := 0
deriving DecidableEq, Repr

def Location.toString (location : Location) : String :=
  s!"{location.startLine}:{location.startColumn}"

/-- What every node of the tree has. -/
structure Node where
  id : Nat
  location : Location := {}
deriving DecidableEq, Repr

structure Identifier extends Node where
  name : String
deriving DecidableEq, Repr

inductive Visibility where
  | private_
  | public_
deriving DecidableEq, Repr

inductive UnaryOperatorKind where
  | not
  | neg
  | bitNot
deriving DecidableEq, Repr

inductive OperatorKind where
  | pow
  | add
  | sub
  | mul
  | div
  | mod
  | and
  | or
  | eq
  | ne
  | lt
  | le
  | gt
  | ge
  | bitAnd
  | bitOr
  | bitXor
  | bitNot
  | shl
  | shr
deriving DecidableEq, Repr

inductive SimpleTypeKind where
  | unit
  | bool
  | i8
  | i16
  | i32
  | i64
  | u8
  | u16
  | u32
  | u64
deriving DecidableEq, Repr

/-! ## Types and expressions -/

mutual

inductive Type_ where
  | array (node : Node) (elementType : Type_) (size : Expression)
  | simple (kind : SimpleTypeKind)
  | generic (node : Node) (base : Identifier) (parameters : List Identifier)
  | function (node : Node) (parameters : Option (List Type_)) (returns : Option Type_)
  | qualifiedName (node : Node) (qualifier name : Identifier)
  | qualified (node : Node) (qualifierAlias name : Identifier)
  | custom (identifier : Identifier)

inductive Expression where
  | arrayIndexAccess (node : Node) (array index : Expression)
  | binary (node : Node) (left : Expression) (operator : OperatorKind) (right : Expression)
  | memberAccess (node : Node) (expression : Expression) (name : Identifier)
  | typeMemberAccess (node : Node) (expression : Expression) (name : Identifier)
  | functionCall (node : Node) (function : Expression)
      (typeParameters : Option (List Identifier))
      (arguments : Option (List (Option Identifier × Expression)))
  | struct_ (node : Node) (name : Identifier) (fields : Option (List (Identifier × Expression)))
  | prefixUnary (node : Node) (expression : Expression) (operator : UnaryOperatorKind)
  | parenthesized (node : Node) (expression : Expression)
  | literal (literal : Literal)
  | identifier (identifier : Identifier)
  | type_ (type : Type_)
  | uzumaki (node : Node)

inductive Literal where
  | array (node : Node) (elements : Option (List Expression))
  | bool (node : Node) (value : Bool)
  | string (node : Node) (value : String)
  | number (node : Node) (value : String)
  | unit (node : Node)

end

/-- The id of a type that is not a node of its own. -/
def noId : Nat :=
  2 ^ 32 - 1

def Type_.id : Type_ → Nat
  | .array node _ _ | .generic node _ _ | .function node _ _ => node.id
  | .qualifiedName node _ _ | .qualified node _ _ => node.id
  | .simple _ => noId
  | .custom identifier => identifier.id

def Literal.id : Literal → Nat
  | .array node _ | .bool node _ | .string node _ | .number node _ | .unit node => node.id

def Expression.id : Expression → Nat
  | .arrayIndexAccess node _ _ | .binary node _ _ _ | .memberAccess node _ _ => node.id
  | .typeMemberAccess node _ _ | .functionCall node _ _ _ | .struct_ node _ _ => node.id
  | .prefixUnary node _ _ | .parenthesized node _ | .uzumaki node => node.id
  | .literal value => value.id
  | .identifier name => name.id
  | .type_ type => type.id

def Literal.location : Literal → Location
  | .array node _ | .bool node _ | .string node _ | .number node _ | .unit node => node.location

def Type_.location : Type_ → Location
  | .array node _ _ | .generic node _ _ | .function node _ _ => node.location
  | .qualifiedName node _ _ | .qualified node _ _ => node.location
  | .simple _ => {}
  | .custom identifier => identifier.location

def Expression.location : Expression → Location
  | .arrayIndexAccess node _ _ | .binary node _ _ _ | .memberAccess node _ _ => node.location
  | .typeMemberAccess node _ _ | .functionCall node _ _ _ | .struct_ node _ _ => node.location
  | .prefixUnary node _ _ | .parenthesized node _ | .uzumaki node => node.location
  | .literal value => value.location
  | .identifier name => name.location
  | .type_ type => type.location

def Expression.isUzumaki : Expression → Bool
  | .uzumaki _ => true
  | _ => false

/-- The name of the function that a call names. -/
def callName : (function : Expression) → String
  | .identifier identifier => identifier.name
  | .memberAccess _ _ name => name.name
  | _ => ""

/-! ## Statements -/

structure ConstantDefinition extends Node where
  name : Identifier
  ty : Type_
  value : Literal

inductive BlockKind where
  | block
  | assume_
  | forall_
  | exists_
  | unique
deriving DecidableEq, Repr

mutual

inductive BlockType where
  | mk (kind : BlockKind) (node : Node) (statements : List Statement)

inductive Statement where
  | block (block : BlockType)
  | expression (expression : Expression)
  | assign (node : Node) (left right : Expression)
  | return_ (node : Node) (expression : Expression)
  | loop (node : Node) (condition : Option Expression) (body : BlockType)
  | break_ (node : Node)
  | if_ (node : Node) (condition : Expression) (ifArm : BlockType)
      (elseArm : Option BlockType)
  | variableDefinition (node : Node) (name : Identifier) (ty : Type_)
      (value : Option Expression)
  | typeDefinition (node : Node) (name : Identifier) (ty : Type_)
  | assert (node : Node) (expression : Expression)
  | constantDefinition (definition : ConstantDefinition)

end

def BlockType.kind : BlockType → BlockKind
  | .mk kind _ _ => kind

def BlockType.statements : BlockType → List Statement
  | .mk _ _ statements => statements

/-! ## Definitions -/

inductive ArgumentType where
  | selfReference (node : Node)
  | ignoreArgument (node : Node) (ty : Type_)
  | argument (node : Node) (name : Identifier) (ty : Type_)
  | type_ (type : Type_)

structure FunctionDefinition extends Node where
  visibility : Visibility := .private_
  name : Identifier
  typeParameters : Option (List Identifier) := none
  arguments : Option (List ArgumentType) := none
  returns : Option Type_ := none
  body : BlockType

structure ExternalFunctionDefinition extends Node where
  name : Identifier
  arguments : Option (List ArgumentType) := none
  returns : Option Type_ := none

structure StructField extends Node where
  name : Identifier
  type_ : Type_

structure StructDefinition extends Node where
  visibility : Visibility := .private_
  name : Identifier
  fields : List StructField
  methods : List FunctionDefinition := []

structure EnumDefinition extends Node where
  visibility : Visibility := .private_
  name : Identifier
  variants : List Identifier

structure TypeDefinition extends Node where
  name : Identifier
  ty : Type_

inductive Definition where
  | spec (node : Node) (name : Identifier) (definitions : List Definition)
  | struct_ (definition : StructDefinition)
  | enum (definition : EnumDefinition)
  | constant (definition : ConstantDefinition)
  | function (definition : FunctionDefinition)
  | externalFunction (definition : ExternalFunctionDefinition)
  | type_ (definition : TypeDefinition)
  | module_ (node : Node) (name : Identifier) (body : Option (List Definition))

structure UseDirective extends Node where
  importedTypes : Option (List Identifier) := none
  segments : Option (List Identifier) := none

structure SourceFile where
  directives : List UseDirective := []
  definitions : List Definition

end Inference.Ast

import Inference.Ast.Traversal
import Inference.TypeChecker.LexicalScope
import Inference.TypeChecker.ProgramChecker
import Inference.TypeChecker.Typing

/-! # Sites of a program

A site is a node of the tree with the declarations in scope there and with what the
checker does about its type. The sites of a program are a function of its text.
-/

namespace Inference.TypeChecker

open Inference.Ast

inductive Site where
  /-- The type of the expression is inferred. -/
  | inferred (environment : Environment) (expression : Expression)
  /-- A type is recorded for the expression, which is not inferred. -/
  | preset (environment : Environment) (expression : Expression) (typeInfo : TypeInfo)
  /-- No type is recorded for the expression. -/
  | skipped (environment : Environment) (expression : Expression)
  /-- A node that is no expression and has a type recorded for it. -/
  | declared (nodeId : Nat) (typeInfo : TypeInfo)

def Site.id : Site → Nat
  | .inferred _ expression | .preset _ expression _ | .skipped _ expression => expression.id
  | .declared nodeId _ => nodeId

/-- Expressions in which nothing is recorded. -/
def skippedSites (environment : Environment) (expressions : List Expression) : List Site :=
  expressions.map (.skipped environment)

/-- The type that a call records for a node of its function. -/
def functionTypeInfo (name : String) : TypeInfo :=
  { kind := .function name, typeParams := [] }

variable [UnicodeCase]

/-- The type recorded at a site of a correct program. -/
def Site.recorded : Site → Option TypeInfo
  | .inferred environment expression => environment.typeOf expression
  | .preset _ _ typeInfo | .declared _ typeInfo => some typeInfo
  | .skipped _ _ => none

/-! ## Expressions -/

/-- The function node of a call. -/
def functionSite (environment : Environment) (function : Expression)
    (resolved : Option ResolvedCall) : Site :=
  match resolved.bind (·.recorded) with
  | some (_, name) => .preset environment function (functionTypeInfo name)
  | none => .skipped environment function

mutual

/-- The sites of an expression that is inferred. -/
def expressionSites (environment : Environment) : Expression → List Site
  | .arrayIndexAccess node array index =>
      .inferred environment (.arrayIndexAccess node array index) ::
        (expressionSites environment array ++
          (if untyped array then skippedSites environment index.nodes
          else expressionSites environment index))
  | .binary node left operator right =>
      .inferred environment (.binary node left operator right) ::
        (expressionSites environment left ++ expressionSites environment right)
  | .memberAccess node expression name =>
      .inferred environment (.memberAccess node expression name) ::
        expressionSites environment expression
  | .typeMemberAccess node expression name =>
      .inferred environment (.typeMemberAccess node expression name) ::
        (match expression with
          | .type_ type => skippedSites environment (Expression.type_ type).nodes
          | .identifier identifier => skippedSites environment [.identifier identifier]
          | expression => expressionSites environment expression)
  | .functionCall node function typeParameters arguments =>
      .inferred environment (.functionCall node function typeParameters arguments) ::
        ((match function with
          | .memberAccess functionNode receiver name =>
              functionSite environment (.memberAccess functionNode receiver name)
                  (environment.resolveCall (.memberAccess functionNode receiver name)
                    typeParameters arguments) ::
                expressionSites environment receiver
          | .typeMemberAccess functionNode expression name =>
              functionSite environment (.typeMemberAccess functionNode expression name)
                  (environment.resolveCall (.typeMemberAccess functionNode expression name)
                    typeParameters arguments) ::
                skippedSites environment expression.nodes
          | function => skippedSites environment function.nodes) ++
        (match arguments with
          | some arguments => argumentSites environment arguments
          | none => []))
  | .struct_ node name fields =>
      .inferred environment (.struct_ node name fields) ::
        (match fields with
          | some fields => skippedSites environment (fieldNodes fields)
          | none => [])
  | .prefixUnary node expression operator =>
      .inferred environment (.prefixUnary node expression operator) ::
        expressionSites environment expression
  | .parenthesized node expression =>
      .inferred environment (.parenthesized node expression) ::
        expressionSites environment expression
  | .literal value =>
      .inferred environment (.literal value) :: literalSites environment value
  | .identifier identifier => [.inferred environment (.identifier identifier)]
  | .type_ type =>
      .inferred environment (.type_ type) ::
        (match type with
          | .array _ elementType size =>
              skippedSites environment elementType.nodes ++ expressionSites environment size
          | type => skippedSites environment type.nodes)
  | .uzumaki node => [.inferred environment (.uzumaki node)]

/-- The sites inside a literal that is inferred. -/
def literalSites (environment : Environment) : Literal → List Site
  | .array _ (some (first :: rest)) =>
      expressionSites environment first ++
        (if untyped first then skippedSites environment (expressionListNodes rest)
        else expressionListSites environment rest)
  | .array _ _ | .bool _ _ | .string _ _ | .number _ _ | .unit _ => []

def expressionListSites (environment : Environment) : List Expression → List Site
  | [] => []
  | head :: tail => expressionSites environment head ++ expressionListSites environment tail

def argumentSites (environment : Environment) :
    List (Option Identifier × Expression) → List Site
  | [] => []
  | (_, head) :: tail => expressionSites environment head ++ argumentSites environment tail

end

/-- The sites of an expression, which are all skipped in code that is not checked. -/
def sitesIf (checked : Bool) (environment : Environment) (expression : Expression) : List Site :=
  if checked then expressionSites environment expression
  else skippedSites environment expression.nodes

/-- The sites of the types that occur in a declaration. -/
def typeSites (environment : Environment) (type : Type_) : List Site :=
  skippedSites environment type.nodes

/-! ## Statements -/

/-- The declarations in scope behind a statement. -/
def declaredBy (environment : Environment) : Statement → Environment
  | .variableDefinition _ name ty _ =>
      environment.declareVariable name.name (declaredTypeInfo ty)
  | .typeDefinition _ name ty => environment.declareType name.name (declaredTypeInfo ty)
  | .constantDefinition definition =>
      environment.declareVariable definition.name.name (declaredTypeInfo definition.ty)
  | .block _ | .expression _ | .assign _ _ _ | .return_ _ _ | .loop _ _ _ | .break_ _
  | .if_ _ _ _ _ | .assert _ _ => environment

/-- The sites of a value that takes the type of its place when it is an uzumaki. -/
def valueSites (checked : Bool) (environment : Environment) (expected : Option TypeInfo) :
    Expression → List Site
  | .uzumaki node =>
      match checked, expected with
      | true, some expected => [.preset environment (.uzumaki node) expected]
      | _, _ => [.skipped environment (.uzumaki node)]
  | value => sitesIf checked environment value

/-- Nodes with a recorded type in code that is checked. -/
def declaredSites (checked : Bool) (nodes : List (Nat × TypeInfo)) : List Site :=
  if checked then nodes.map fun (nodeId, typeInfo) => .declared nodeId typeInfo else []

/-- The sites of a constant: its literal takes the type that is declared. -/
def constantSites (checked : Bool) (environment : Environment)
    (definition : ConstantDefinition) : List Site :=
  typeSites environment definition.ty ++
    ((if checked then
        .preset environment (.literal definition.value) (declaredTypeInfo definition.ty)
      else .skipped environment (.literal definition.value)) ::
    skippedSites environment definition.value.nodes)

mutual

def statementSites (checked : Bool) (returnType : TypeInfo) (environment : Environment) :
    Statement → List Site
  | .block block => blockSites checked returnType environment block
  | .expression expression => sitesIf checked environment expression
  | .assign _ left right =>
      sitesIf checked environment left ++
        valueSites checked environment (environment.typeOf left) right
  | .return_ _ expression => valueSites checked environment (some returnType) expression
  | .loop _ condition body =>
      (match condition with
        | some condition => sitesIf checked environment condition
        | none => []) ++
      blockSites checked returnType environment body
  | .break_ _ => []
  | .if_ _ condition ifArm elseArm =>
      sitesIf checked environment condition ++
        blockSites checked returnType environment ifArm ++
        (match elseArm with
          | some elseArm => blockSites checked returnType environment elseArm
          | none => [])
  | .variableDefinition node name ty value =>
      typeSites environment ty ++
        (match value with
          | some value => valueSites checked environment (some (declaredTypeInfo ty)) value
          | none => []) ++
        declaredSites checked
          [(name.id, declaredTypeInfo ty), (node.id, declaredTypeInfo ty)]
  | .typeDefinition _ _ ty => typeSites environment ty
  | .assert _ expression => sitesIf checked environment expression
  | .constantDefinition definition =>
      constantSites checked environment definition ++
        declaredSites checked [(definition.id, declaredTypeInfo definition.ty)]

/-- The sites of a block, which opens a scope. -/
def blockSites (checked : Bool) (returnType : TypeInfo) (environment : Environment) :
    BlockType → List Site
  | .mk _ _ statements =>
      statementListSites checked returnType environment.openScope statements

def statementListSites (checked : Bool) (returnType : TypeInfo) (environment : Environment) :
    List Statement → List Site
  | [] => []
  | head :: tail =>
      statementSites checked returnType environment head ++
        statementListSites checked returnType (declaredBy environment head) tail

end

end Inference.TypeChecker

import Inference.Ast.Traversal
import Inference.TypeChecker.CheckState
import Inference.TypeChecker.ScopeTree

/-! # Lexical scopes

What a use of a variable means, as a function of the text in front of it alone: the
variables are declared in nested scopes, a name that is declared again in a scope keeps
its first type there, and a use takes the innermost declaration.
-/

namespace Inference.TypeChecker

open Inference.Ast

/-- The variables that are declared in a scope, with their types. -/
abbrev Declarations := AList fun _ : String => TypeInfo

/-- The scopes around a place, the innermost one first. -/
abbrev LexicalScopes := List Declarations

namespace LexicalScopes

/-- The innermost declaration of a name. -/
def lookup (scopes : LexicalScopes) (name : String) : Option TypeInfo :=
  scopes.findSome? (·.lookup name)

def enter (scopes : LexicalScopes) : LexicalScopes :=
  ∅ :: scopes

def declare (scopes : LexicalScopes) (name : String) (typeInfo : TypeInfo) : LexicalScopes :=
  match scopes with
  | [] => []
  | innermost :: outer =>
      (if name ∈ innermost then innermost else innermost.insert name typeInfo) :: outer

@[simp] theorem tail_enter (scopes : LexicalScopes) : scopes.enter.tail = scopes := rfl

@[simp] theorem tail_declare (scopes : LexicalScopes) (name : String) (typeInfo : TypeInfo) :
    (scopes.declare name typeInfo).tail = scopes.tail := by
  cases scopes <;> rfl

end LexicalScopes

/-- The type information of a declared type. -/
def declaredTypeInfo (type : Type_) : TypeInfo :=
  (TypeInfo.new type).getD default

/-- The scopes behind a statement. -/
def declaredIn (scopes : LexicalScopes) : Statement → LexicalScopes
  | .variableDefinition _ name ty _ => scopes.declare name.name (declaredTypeInfo ty)
  | .constantDefinition definition =>
      scopes.declare definition.name.name (declaredTypeInfo definition.ty)
  | .block _ | .expression _ | .assign _ _ _ | .return_ _ _ | .loop _ _ _ | .break_ _
  | .if_ _ _ _ _ | .typeDefinition _ _ _ | .assert _ _ => scopes

/-- The scopes behind statements. -/
def declaredInAll (scopes : LexicalScopes) : List Statement → LexicalScopes
  | [] => scopes
  | head :: tail => declaredInAll (declaredIn scopes head) tail

@[simp] theorem tail_declaredIn (scopes : LexicalScopes) (statement : Statement) :
    (declaredIn scopes statement).tail = scopes.tail := by
  cases statement <;> simp [declaredIn]

@[simp] theorem tail_declaredInAll (scopes : LexicalScopes) (statements : List Statement) :
    (declaredInAll scopes statements).tail = scopes.tail := by
  induction statements generalizing scopes with
  | nil => rfl
  | cons head tail induction => rw [declaredInAll, induction, tail_declaredIn]

/-! ## Places -/

/-- An expression with the scopes around it. -/
abbrev Place := LexicalScopes × Expression

def placesOf (scopes : LexicalScopes) (nodes : List Expression) : List Place :=
  nodes.map fun node => (scopes, node)

mutual

/-- The expressions of a statement, each with the scopes around it. -/
def statementPlaces (scopes : LexicalScopes) : Statement → List Place
  | .block block => blockPlaces scopes block
  | .expression expression => placesOf scopes expression.nodes
  | .assign _ left right => placesOf scopes (left.nodes ++ right.nodes)
  | .return_ _ expression => placesOf scopes expression.nodes
  | .loop _ condition body => placesOf scopes (optionNodes condition) ++ blockPlaces scopes body
  | .break_ _ => []
  | .if_ _ condition ifArm elseArm =>
      placesOf scopes condition.nodes ++ blockPlaces scopes ifArm ++
        (match elseArm with
          | some elseArm => blockPlaces scopes elseArm
          | none => [])
  | .variableDefinition _ _ ty value => placesOf scopes (ty.nodes ++ optionNodes value)
  | .typeDefinition _ _ ty => placesOf scopes ty.nodes
  | .assert _ expression => placesOf scopes expression.nodes
  | .constantDefinition definition => placesOf scopes definition.nodes

/-- A block opens a scope. -/
def blockPlaces (scopes : LexicalScopes) : BlockType → List Place
  | .mk _ _ statements => statementListPlaces scopes.enter statements

def statementListPlaces (scopes : LexicalScopes) : List Statement → List Place
  | [] => []
  | head :: tail => statementPlaces scopes head ++ statementListPlaces (declaredIn scopes head) tail

end

/-! ## Scopes of the checker -/

namespace Environment

/-- The variables of the frames. -/
def lexical (environment : Environment) : LexicalScopes :=
  environment.map Frame.variables_

theorem lookup_lexical (environment : Environment) (name : String) :
    environment.lexical.lookup name = environment.lookupVariable name := by
  rw [lexical, LexicalScopes.lookup, List.findSome?_map]
  rfl

theorem lexical_tail (environment : Environment) :
    lexical environment.tail = environment.lexical.tail :=
  List.map_tail

theorem lexical_declareVariable (environment : Environment) (name : String)
    (typeInfo : TypeInfo) :
    (environment.declareVariable name typeInfo).lexical =
      environment.lexical.declare name typeInfo := by
  cases environment with
  | nil => rfl
  | cons frame rest =>
      have top : ((frame.insertVariable name typeInfo).toOption.getD frame).variables_ =
          if name ∈ frame.variables_ then frame.variables_
          else frame.variables_.insert name typeInfo := by
        rw [Frame.insertVariable]
        split <;> rfl
      exact congrArg (· :: rest.map Frame.variables_) top

/-- A change that leaves the variables of the innermost frame. -/
theorem lexical_changeTop (environment : Environment) {change : Frame → Frame}
    (keeps : ∀ frame, (change frame).variables_ = frame.variables_) :
    (environment.changeTop change).lexical = environment.lexical := by
  cases environment with
  | nil => rfl
  | cons frame rest => exact congrArg (· :: rest.map Frame.variables_) (keeps frame)

theorem lexical_declareType (environment : Environment) (name : String) (typeInfo : TypeInfo) :
    (environment.declareType name typeInfo).lexical = environment.lexical := by
  apply lexical_changeTop
  intro frame
  rw [Frame.insertSymbol]
  split <;> rfl

end Environment

/-- The scopes of the variables that are visible in a state. -/
def CheckState.lexical (state : CheckState) : LexicalScopes :=
  state.environment.lexical

end Inference.TypeChecker

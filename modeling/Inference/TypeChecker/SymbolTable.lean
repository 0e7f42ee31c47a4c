import Inference.TypeChecker.Errors

/-! # Symbol table

The scopes form a tree. A scope is found by its id, and it names its parent and its
children by their ids. A lookup walks from the current scope to the root.
-/

namespace Inference.TypeChecker

open Inference.Ast

/-- The lowercase mapping of texts, which the tables of Unicode determine. -/
class UnicodeCase where
  toLowercase : String → String

/-- The lowercase mapping of the texts without letters outside of ASCII. -/
instance asciiCase : UnicodeCase where
  toLowercase text := text.map Char.toLower

structure FuncInfo where
  name : String
  typeParams : List String
  paramTypes : List TypeInfo
  returnType : TypeInfo
  visibility : Visibility
  definitionScopeId : Nat
deriving DecidableEq

structure StructFieldInfo where
  typeInfo : TypeInfo
  visibility : Visibility
deriving DecidableEq

structure StructInfo where
  name : String
  fields : AList fun _ : String => StructFieldInfo
  typeParams : List String
  visibility : Visibility
  definitionScopeId : Nat

structure EnumInfo where
  name : String
  variants : List String
  visibility : Visibility
  definitionScopeId : Nat

structure MethodInfo where
  signature : FuncInfo
  visibility : Visibility
  scopeId : Nat
  hasSelf : Bool
deriving DecidableEq

def MethodInfo.isInstanceMethod (method : MethodInfo) : Bool :=
  method.hasSelf

inductive ImportKind where
  | plain
  | partial_ (items : List String)
deriving DecidableEq

structure Import where
  path : List String
  kind : ImportKind
  location : Location
deriving DecidableEq

inductive Symbol where
  | typeAlias (typeInfo : TypeInfo)
  | struct_ (info : StructInfo)
  | enum (info : EnumInfo)
  | spec (name : String)
  | function (signature : FuncInfo)

structure ResolvedImport where
  localName : String
  symbol : Symbol
  definitionScopeId : Nat

namespace Symbol

def asFunction : Symbol → Option FuncInfo
  | .function signature => some signature
  | _ => none

def asStruct : Symbol → Option StructInfo
  | .struct_ info => some info
  | _ => none

def asEnum : Symbol → Option EnumInfo
  | .enum info => some info
  | _ => none

def asTypeInfo : Symbol → Option TypeInfo
  | .typeAlias typeInfo => some typeInfo
  | .struct_ info => some { kind := .struct_ info.name, typeParams := info.typeParams }
  | .enum info => some { kind := .enum info.name, typeParams := [] }
  | .spec name => some { kind := .spec name, typeParams := [] }
  | .function _ => none

def isPublic : Symbol → Bool
  | .typeAlias _ | .spec _ => true
  | .struct_ info => info.visibility = .public_
  | .enum info => info.visibility = .public_
  | .function signature => signature.visibility = .public_

end Symbol

/-! ## Scopes -/

/-- What lookups find in a scope. -/
structure Frame where
  symbols : AList fun _ : String => Symbol := ∅
  variables_ : AList fun _ : String => TypeInfo := ∅
  methods : AList fun _ : String => List MethodInfo := ∅

abbrev Environment := List Frame

structure Scope extends Frame where
  id : Nat
  name : String
  fullPath : String
  visibility : Visibility
  parent : Option Nat
  children : List Nat := []
  imports : List Import := []
  resolvedImports : AList (fun _ : String => ResolvedImport) := ∅

namespace Frame

def insertSymbol (frame : Frame) (name : String) (symbol : Symbol) : Except String Frame :=
  if name ∈ frame.symbols then
    .error s!"Symbol `{name}` already exists in this scope"
  else
    .ok { frame with symbols := frame.symbols.insert name symbol }

def insertVariable (frame : Frame) (name : String) (ty : TypeInfo) : Except String Frame :=
  if name ∈ frame.variables_ then
    .error s!"Variable `{name}` already declared in this scope"
  else
    .ok { frame with variables_ := frame.variables_.insert name ty }

def insertMethod (frame : Frame) (typeName : String) (method : MethodInfo) : Frame :=
  { frame with
    methods :=
      frame.methods.insert typeName (((frame.methods.lookup typeName).getD []) ++ [method]) }

end Frame

structure SymbolTable where
  scopes : AList (fun _ : Nat => Scope) := ∅
  modScopes : AList (fun _ : String => Nat) := ∅
  rootScope : Option Nat := none
  currentScope : Option Nat := none
  nextScopeId : Nat := 0

namespace SymbolTable

def getScope (table : SymbolTable) (scopeId : Nat) : Option Scope :=
  table.scopes.lookup scopeId

/-- The scopes from the given one to the root. A parent has a smaller id than its
children, so that `table.nextScopeId` steps reach the root. -/
def ancestors (table : SymbolTable) : Nat → Option Nat → List Scope
  | 0, _ => []
  | _ + 1, none => []
  | steps + 1, some scopeId =>
      match table.getScope scopeId with
      | some scope => scope :: table.ancestors steps scope.parent
      | none => []

def chain (table : SymbolTable) : List Scope :=
  table.ancestors table.nextScopeId table.currentScope

/-- What the lookups in the current scope see, from the innermost scope outwards. -/
def environment (table : SymbolTable) : Environment :=
  table.chain.map Scope.toFrame

def modifyScope (table : SymbolTable) (scopeId : Nat) (change : Scope → Scope) : SymbolTable :=
  match table.getScope scopeId with
  | some scope => { table with scopes := table.scopes.insert scopeId (change scope) }
  | none => table

def currentScopeId (table : SymbolTable) : Option Nat :=
  table.currentScope

def allScopeIds (table : SymbolTable) : List Nat :=
  table.scopes.keys

/-! ## Opening and closing of scopes -/

def initRootScope (table : SymbolTable) : SymbolTable :=
  let scopeId := table.nextScopeId
  let root : Scope :=
    { id := scopeId, name := "root", fullPath := "", visibility := .public_, parent := none }
  { scopes := table.scopes.insert scopeId root
    modScopes := table.modScopes.insert "" scopeId
    nextScopeId := scopeId + 1
    rootScope := some scopeId
    currentScope := some scopeId }

def builtinSymbols : List (String × Symbol) :=
  (NumberType.all.map fun numberType =>
    (numberType.asStr, Symbol.typeAlias { kind := .number numberType, typeParams := [] })) ++
  TypeInfoKind.nonNumericBuiltins.map fun (name, kind) =>
    (name, Symbol.typeAlias { kind, typeParams := [] })

/-- Changes the frame of the current scope. -/
def modifyCurrent (table : SymbolTable) (change : Frame → Frame) : SymbolTable :=
  match table.currentScope with
  | some scopeId =>
      table.modifyScope scopeId fun scope => { scope with toFrame := change scope.toFrame }
  | none => table

def initBuiltinTypes (table : SymbolTable) : SymbolTable :=
  table.modifyCurrent fun frame =>
    builtinSymbols.foldl (fun current (name, symbol) =>
      (current.insertSymbol name symbol).toOption.getD current) frame

def default : SymbolTable :=
  initBuiltinTypes (initRootScope {})

def pushScopeWithName (table : SymbolTable) (name : String) (visibility : Visibility) :
    SymbolTable :=
  let scopeId := table.nextScopeId
  let parentPath := (table.currentScope.bind table.getScope).map (·.fullPath)
  let fullPath := match parentPath with
    | some path => if path.isEmpty then name else s!"{path}::{name}"
    | none => name
  let scope : Scope := { id := scopeId, name, fullPath, visibility, parent := table.currentScope }
  let table := match table.currentScope with
    | some parentId =>
        table.modifyScope parentId fun parent =>
          { parent with children := parent.children ++ [scopeId] }
    | none => table
  { table with
    nextScopeId := scopeId + 1
    scopes := table.scopes.insert scopeId scope
    currentScope := some scopeId }

def pushScope (table : SymbolTable) : SymbolTable :=
  table.pushScopeWithName s!"anonymous_{table.nextScopeId}" .private_

def popScope (table : SymbolTable) : SymbolTable :=
  match table.currentScope.bind table.getScope with
  | some current => { table with currentScope := current.parent }
  | none => table

/-! ## Registration -/

/-- Changes the frame of the current scope by an operation that may fail. -/
def insertCurrent (table : SymbolTable) (noScope : String)
    (change : Nat → Frame → Except String Frame) : Except String SymbolTable :=
  match table.currentScope.bind table.getScope with
  | some scope =>
      (change scope.id scope.toFrame).map fun frame => table.modifyCurrent fun _ => frame
  | none => .error noScope

/-- Registers the name of a type whose type information is known. -/
def registerType (table : SymbolTable) (name : String) (typeInfo : TypeInfo) :
    Except String SymbolTable :=
  table.insertCurrent "No active scope to register type" fun _ frame =>
    frame.insertSymbol name (.typeAlias typeInfo)

def registerStruct (table : SymbolTable) (name : String)
    (fields : List (String × TypeInfo × Visibility)) (typeParams : List String)
    (visibility : Visibility) : Except String SymbolTable :=
  table.insertCurrent "No active scope to register struct" fun scopeId frame =>
    let fieldMap := fields.foldl (fun known (fieldName, typeInfo, fieldVisibility) =>
      known.insert fieldName { typeInfo, visibility := fieldVisibility }) ∅
    frame.insertSymbol name
      (.struct_ { name, fields := fieldMap, typeParams, visibility, definitionScopeId := scopeId })

def registerEnum (table : SymbolTable) (name : String) (variants : List String)
    (visibility : Visibility) : Except String SymbolTable :=
  table.insertCurrent "No active scope to register enum" fun scopeId frame =>
    frame.insertSymbol name (.enum { name, variants, visibility, definitionScopeId := scopeId })

def registerSpec (table : SymbolTable) (name : String) : Except String SymbolTable :=
  table.insertCurrent "No active scope to register spec" fun _ frame =>
    frame.insertSymbol name (.spec name)

/-- Registers a function whose parameter and return types are known. -/
def registerFunction (table : SymbolTable) (name : String) (typeParams : List String)
    (paramTypes : List TypeInfo) (returnType : TypeInfo) : Except String SymbolTable :=
  table.insertCurrent "No active scope to register function" fun scopeId frame =>
    frame.insertSymbol name (.function {
      name, typeParams, paramTypes, returnType
      visibility := .private_
      definitionScopeId := scopeId })

def pushVariableToScope (table : SymbolTable) (name : String) (varType : TypeInfo) :
    Except String SymbolTable :=
  table.insertCurrent "No active scope to push variable" fun _ frame =>
    frame.insertVariable name varType

def registerMethod (table : SymbolTable) (typeName : String) (signature : FuncInfo)
    (visibility : Visibility) (hasSelf : Bool) : Except String SymbolTable :=
  table.insertCurrent "No active scope to register method" fun scopeId frame =>
    .ok (frame.insertMethod typeName { signature, visibility, scopeId, hasSelf })

def registerImport (table : SymbolTable) (item : Import) : Except String SymbolTable :=
  match table.currentScope with
  | some scopeId =>
      .ok (table.modifyScope scopeId fun scope => { scope with imports := scope.imports ++ [item] })
  | none => .error "No active scope to register import"

end SymbolTable

/-! ## Lookups -/

namespace Environment

def lookupSymbol (environment : Environment) (name : String) : Option Symbol :=
  environment.findSome? (·.symbols.lookup name)

def lookupVariable (environment : Environment) (name : String) : Option TypeInfo :=
  environment.findSome? (·.variables_.lookup name)

def lookupFunction (environment : Environment) (name : String) : Option FuncInfo :=
  (environment.lookupSymbol name).bind Symbol.asFunction

def lookupStruct (environment : Environment) (name : String) : Option StructInfo :=
  (environment.lookupSymbol name).bind Symbol.asStruct

def lookupEnum (environment : Environment) (name : String) : Option EnumInfo :=
  (environment.lookupSymbol name).bind Symbol.asEnum

def lookupMethod (environment : Environment) (typeName methodName : String) : Option MethodInfo :=
  environment.findSome? fun frame =>
    (frame.methods.lookup typeName).bind fun methods =>
      methods.find? fun method => method.signature.name = methodName

variable [UnicodeCase]

def lookupType (environment : Environment) (name : String) : Option TypeInfo :=
  match environment.lookupSymbol name with
  | some symbol => symbol.asTypeInfo
  | none =>
      (environment.lookupSymbol (UnicodeCase.toLowercase name)).bind Symbol.asTypeInfo

end Environment

namespace SymbolTable

variable [UnicodeCase]

def lookupType (table : SymbolTable) (name : String) : Option TypeInfo :=
  table.environment.lookupType name

def lookupVariable (table : SymbolTable) (name : String) : Option TypeInfo :=
  table.environment.lookupVariable name

def lookupFunction (table : SymbolTable) (name : String) : Option FuncInfo :=
  table.environment.lookupFunction name

def lookupStruct (table : SymbolTable) (name : String) : Option StructInfo :=
  table.environment.lookupStruct name

def lookupEnum (table : SymbolTable) (name : String) : Option EnumInfo :=
  table.environment.lookupEnum name

def lookupMethod (table : SymbolTable) (typeName methodName : String) : Option MethodInfo :=
  table.environment.lookupMethod typeName methodName

/-! ## Paths and visibility -/

/-- Follows a path of child scopes to the symbol that its last segment names. -/
def resolveFrom (table : SymbolTable) : Scope → List String → Option (Symbol × Nat)
  | _, [] => none
  | scope, [segment] => (scope.symbols.lookup segment).map fun symbol => (symbol, scope.id)
  | scope, segment :: next :: rest =>
      match (scope.children.filterMap table.getScope).find? (·.name = segment) with
      | some child => table.resolveFrom child (next :: rest)
      | none => none

def resolveQualifiedName (table : SymbolTable) (path : List String) (fromScopeId : Nat) :
    Option (Symbol × Nat) :=
  match path with
  | [] => none
  | first :: rest =>
      if first = "self" then
        (table.getScope fromScopeId).bind fun scope => table.resolveFrom scope rest
      else
        (table.rootScope.bind table.getScope).bind fun scope => table.resolveFrom scope path

/-- Whether a scope is the target or below it. -/
def isScopeDescendantOf (table : SymbolTable) : Nat → Nat → Nat → Bool
  | 0, accessScope, targetScope => accessScope = targetScope
  | steps + 1, accessScope, targetScope =>
      if accessScope = targetScope then true
      else
        match (table.getScope accessScope).bind (·.parent) with
        | some parent => table.isScopeDescendantOf steps parent targetScope
        | none => false

def checkVisibility (table : SymbolTable) (visibility : Visibility)
    (definitionScope accessScope : Nat) : Bool :=
  match visibility with
  | .public_ => true
  | .private_ => table.isScopeDescendantOf table.nextScopeId accessScope definitionScope

end SymbolTable

end Inference.TypeChecker

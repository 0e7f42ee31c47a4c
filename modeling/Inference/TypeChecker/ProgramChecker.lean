import Inference.TypeChecker.StatementChecker

/-! # Checking of programs

The phases of the checker: the imports and the types are registered, the imports are
resolved, the functions and constants are registered, and the bodies are checked.
-/

namespace Inference.TypeChecker

open Inference.Ast Inference.Foundation

abbrev Program := List SourceFile

/-- The definitions of all source files, in order. -/
def Program.definitions (program : Program) : List Definition :=
  program.flatMap SourceFile.definitions

/-! ## Types -/

def paramType : ArgumentType → Option Type_
  | .selfReference _ => none
  | .ignoreArgument _ ty | .argument _ _ ty => some ty
  | .type_ type => some type

/-- The types of the parameters, in order, without `self`. -/
def paramTypes (arguments : Option (List ArgumentType)) : List Type_ :=
  (arguments.getD []).filterMap paramType

def hasSelf (arguments : Option (List ArgumentType)) : Bool :=
  (arguments.getD []).any fun argument =>
    match argument with
    | .selfReference _ => true
    | _ => false

def typeInfosWithTypeParams (types : List Type_) (typeParamNames : List String) :
    CheckM (List TypeInfo) :=
  Collecting.expect (types.mapM fun type => TypeInfo.newWithTypeParams type typeParamNames)

def fieldInfos (fields : List StructField) : CheckM (List (String × TypeInfo × Visibility)) :=
  Collecting.expect (fields.mapM fun field =>
    (TypeInfo.new field.type_).map fun typeInfo => (field.name.name, typeInfo, .private_))

def registerMethodOf (structName : String) (method : FunctionDefinition) : CheckM Unit := do
  let paramTypes ← typeInfosWithTypeParams (paramTypes method.arguments) []
  let returnType ← declaredReturnType method.returns []
  let definitionScopeId := (← getSymbolTable).currentScopeId.getD 0
  let signature : FuncInfo := {
    name := method.name.name
    typeParams := typeParamNames method.typeParameters
    paramTypes, returnType
    visibility := method.visibility
    definitionScopeId }
  register (fun table => table.registerMethod structName signature method.visibility
      (hasSelf method.arguments)) fun reason =>
    .registrationFailed .method s!"{structName}::{method.name.name}" (some reason) method.location

def registerTypeDefinition : Definition → CheckM Unit
  | .type_ definition => do
      let typeInfo ← typeInfoOf definition.ty
      register (fun table => table.registerType definition.name.name typeInfo) fun _ =>
        .registrationFailed .type_ definition.name.name none definition.location
  | .struct_ definition => do
      let fields ← fieldInfos definition.fields
      register (fun table =>
          table.registerStruct definition.name.name fields [] definition.visibility) fun _ =>
        .registrationFailed .struct_ definition.name.name none definition.location
      definition.methods.forM (registerMethodOf definition.name.name)
  | .enum definition =>
      register (fun table => table.registerEnum definition.name.name
          (definition.variants.map (·.name)) definition.visibility) fun _ =>
        .registrationFailed .enum definition.name.name none definition.location
  | .spec node name _ =>
      register (fun table => table.registerSpec name.name) fun _ =>
        .registrationFailed .spec name.name none node.location
  | .constant _ | .function _ | .externalFunction _ | .module_ _ _ _ => pure ()

def registerTypes (program : Program) : CheckM Unit :=
  program.definitions.forM registerTypeDefinition

/-! ## Imports -/

def importOf (directive : UseDirective) : Import where
  path := (directive.segments.getD []).map (·.name)
  kind := match directive.importedTypes with
    | none | some [] => .plain
    | some (first :: rest) => .partial_ ((first :: rest).map (·.name))
  location := directive.location

def processDirective (directive : UseDirective) : CheckM Unit :=
  register (fun table => table.registerImport (importOf directive)) fun _ =>
    .importResolutionFailed ("::".intercalate (importOf directive).path) directive.location

def processDirectives (program : Program) : CheckM Unit :=
  (program.flatMap SourceFile.directives).forM processDirective

def addResolvedImport (scopeId : Nat) (resolved : ResolvedImport) : CheckM Unit :=
  updateSymbolTable fun table => table.modifyScope scopeId fun scope =>
    { scope with
      resolvedImports := scope.resolvedImports.insert resolved.localName resolved }

/-- Resolves one path of an import and binds it to its local name. `failedPath` is the
text of the path in the error. -/
def resolveImport (scopeId : Nat) (location : Location) (path : List String)
    (localName failedPath : String) : CheckM Unit := do
  match (← getSymbolTable).resolveQualifiedName path scopeId with
  | some (symbol, definitionScopeId) =>
      if symbol.isPublic then pure ()
      else
        checkAndReportVisibility .private_ definitionScopeId location
          (.import_ ("::".intercalate path))
      addResolvedImport scopeId { localName, symbol, definitionScopeId }
  | none => pushError (.importResolutionFailed failedPath location)

def resolveImportItem (scopeId : Nat) (item : Import) : CheckM Unit :=
  match item.kind with
  | .plain =>
      match item.path.getLast? with
      | some symbolName =>
          resolveImport scopeId item.location item.path symbolName ("::".intercalate item.path)
      | none => pure ()
  | .partial_ names =>
      names.forM fun name =>
        resolveImport scopeId item.location (item.path ++ [name]) name
          ("::".intercalate item.path ++ "::" ++ name)

def resolveImportsInScope (scopeId : Nat) : CheckM Unit := do
  match (← getSymbolTable).getScope scopeId with
  | some scope => scope.imports.forM (resolveImportItem scopeId)
  | none => pure ()

def resolveImports : CheckM Unit := do
  (← getSymbolTable).allScopeIds.forM resolveImportsInScope

/-! ## Functions and constants -/

variable [UnicodeCase]

/-- Reports the name of a type that is not known. -/
def requireType (typeParams : List String) (identifier : Identifier) : CheckM Unit := do
  if identifier.name ∈ typeParams then pure ()
  else
    match (← getSymbolTable).lookupType identifier.name with
    | some _ => pure ()
    | none => pushErrorDedup (.unknownType identifier.name identifier.location)

def validateType (typeParams : List String) : Type_ → CheckM Unit
  | .array _ elementType _ => validateType typeParams elementType
  | .simple _ => pure ()
  | .generic _ base parameters => do
      requireType [] base
      parameters.forM (requireType typeParams)
  | .function _ _ _ | .qualifiedName _ _ _ | .qualified _ _ _ => pure ()
  | .custom identifier => requireType typeParams identifier

def collectParameter (definition : FunctionDefinition) : ArgumentType → CheckM Unit
  | .selfReference node =>
      pushError (.selfReferenceInFunction definition.name.name node.location)
  | .ignoreArgument node ty => do
      validateType (typeParamNames definition.typeParameters) ty
      setNodeTypeinfo node.id (← typeInfoOf ty)
  | .argument node name ty => do
      validateType (typeParamNames definition.typeParameters) ty
      let typeInfo ← typeInfoOf ty
      setNodeTypeinfo node.id typeInfo
      setNodeTypeinfo name.id typeInfo
  | .type_ type => validateType (typeParamNames definition.typeParameters) type

def registerFunctionNamed (name : String) (location : Location) (typeParams : List String)
    (arguments : Option (List ArgumentType)) (returns : Option Type_) : CheckM Unit := do
  let paramTypes ← typeInfosWithTypeParams (paramTypes arguments) typeParams
  let returnType ← declaredReturnType returns typeParams
  register (fun table => table.registerFunction name typeParams paramTypes returnType)
    fun reason => .registrationFailed .function name (some reason) location

def collectReturnType (definition : FunctionDefinition) : Option Type_ → CheckM Unit
  | some returns => do
      validateType (typeParamNames definition.typeParameters) returns
      setNodeTypeinfo returns.id (← typeInfoOf returns)
  | none => pure ()

def collectFunction (definition : FunctionDefinition) : CheckM Unit := do
  (definition.arguments.getD []).forM (collectParameter definition)
  setNodeTypeinfo definition.name.id
    { kind := .function definition.name.name
      typeParams := typeParamNames definition.typeParameters }
  collectReturnType definition definition.returns
  registerFunctionNamed definition.name.name definition.location
    (typeParamNames definition.typeParameters) definition.arguments definition.returns

def collectConstant (definition : ConstantDefinition) : CheckM Unit := do
  let constType ← typeInfoOf definition.ty
  pushVariable definition.name definition.location constType
  setNodeTypeinfo definition.value.id constType

def collectDefinition : Definition → CheckM Unit
  | .constant definition => collectConstant definition
  | .function definition => collectFunction definition
  | .externalFunction definition =>
      registerFunctionNamed definition.name.name definition.location [] definition.arguments
        definition.returns
  | .spec _ _ _ | .struct_ _ | .enum _ | .type_ _ | .module_ _ _ _ => pure ()

def collectFunctionAndConstantDefinitions (program : Program) : CheckM Unit :=
  program.definitions.forM collectDefinition

/-! ## Programs -/

def structType (definition : StructDefinition) : TypeInfo :=
  { kind := .struct_ definition.name.name, typeParams := [] }

def inferDefinition : Definition → CheckM Unit
  | .function definition => inferVariables definition
  | .struct_ definition =>
      definition.methods.forM fun method => inferMethodVariables method (structType definition)
  | _ => pure ()

/-- The phases that register the definitions. -/
def registerProgram (program : Program) : CheckM Unit := do
  processDirectives program
  registerTypes program
  resolveImports
  collectFunctionAndConstantDefinitions program

def checkProgram (program : Program) : CheckM Unit := do
  registerProgram program
  program.definitions.forM inferDefinition

/-- The tree with what the checker has recorded about its nodes. -/
structure TypedContext where
  program : Program
  nodeTypes : Nat → Option TypeInfo
  symbolTable : SymbolTable

def initialState : CheckState :=
  { symbolTable := SymbolTable.default }

/-- The typed context of a program, or the texts of all errors; `none` is a panic. The
assertion of debug builds is left out. -/
def buildTypedContext (program : Program) : Option (Except String TypedContext) :=
  (checkProgram program initialState).outcome.map fun (_, state, errors) =>
    if errors.isEmpty then
      .ok { program, nodeTypes := state.nodeTypes, symbolTable := state.symbolTable }
    else
      .error ("; ".intercalate (errors.map TypeCheckError.toString))

def TypedContext.getNodeTypeinfo (context : TypedContext) (nodeId : Nat) : Option TypeInfo :=
  context.nodeTypes nodeId

end Inference.TypeChecker

import Inference.Ast.NodeIds
import Inference.TypeChecker.ProgramChecker
import Inference.TypeChecker.StatementRuns

/-! # Runs of the checker

What every run of the checker over a program keeps, with errors or without, and which
types it may record. The bodies are checked behind the constants of all source files.
-/

namespace Inference.TypeChecker

open Inference.Ast Inference.Foundation

/-! ## Steady computations -/

/-- A computation that leaves all variables, beside what the checks keep. -/
def steady (recording : Recording) : Discipline CheckState TypeCheckError where
  invariant state := state.symbolTable.IsScopeTree
  step := CheckingStep recording
  whole before errors after := Returns before errors after ∧ after.lexical = before.lexical
  start holds := ⟨(checking recording).start holds, rfl⟩
  join left right := ⟨(checking recording).join left.1 right.1, right.2.trans left.2⟩

variable {state : CheckState}

section

variable {result : Type} {recording : Recording}

theorem Leaves.of_steady {computation : CheckM result}
    (follows : Follows (steady recording) computation) (tree : state.symbolTable.IsScopeTree) :
    Leaves recording computation state state.lexical where
  follows := by
    have run := follows.run tree
    refine ⟨run.path, fun ended => ?_⟩
    rcases run.ends ended with ⟨path, finalTree, whole, _⟩
    exact ⟨path, finalTree, whole⟩
  leaves ended := ((follows.run tree).ends ended).2.2.2

theorem steady_of_leaves {computation : CheckM result}
    (leaves : ∀ {state : CheckState}, state.symbolTable.IsScopeTree →
      Leaves recording computation state state.lexical) :
    Follows (steady recording) computation := by
  constructor
  intro state tree
  have run := (leaves tree).follows
  refine ⟨run.path, fun ended => ?_⟩
  rcases run.ends ended with ⟨path, finalTree, whole⟩
  exact ⟨path, finalTree, whole, (leaves tree).leaves ended⟩

theorem checking_of_leaves {computation : CheckM result}
    (leaves : ∀ {state : CheckState}, state.symbolTable.IsScopeTree →
      ∃ scopes, Leaves recording computation state scopes) :
    Follows (checking recording) computation := by
  constructor
  intro state tree
  rcases leaves tree with ⟨scopes, leaves⟩
  exact leaves.follows

theorem checking_of_steady {computation : CheckM result}
    (follows : Follows (steady recording) computation) :
    Follows (checking recording) computation :=
  checking_of_leaves fun tree => ⟨_, .of_steady follows tree⟩

theorem steady_of_inference {computation : CheckM result} {nodes : List Expression}
    (follows : Follows (inference nodes) computation)
    (allowed : ∀ node ∈ nodes, ∀ typeInfo, recording node.id typeInfo) :
    Follows (steady recording) computation :=
  steady_of_leaves fun tree => .inference follows tree fun node member typeInfo _ =>
    allowed node member typeInfo

theorem pushError_steady {error : TypeCheckError} (unkeyed : error.dedupKey = none) :
    Follows (steady recording) (pushError error) :=
  steady_of_leaves fun tree => .pushError tree unkeyed

theorem getSymbolTable_steady : Follows (steady recording) getSymbolTable :=
  .read _

theorem setNodeTypeinfo_steady {nodeId : Nat} {typeInfo : TypeInfo}
    (allowed : recording nodeId typeInfo) :
    Follows (steady recording) (setNodeTypeinfo nodeId typeInfo) :=
  steady_of_leaves fun tree => .setNodeTypeinfo tree allowed

/-- A registration that declares no variable. -/
theorem register_steady (noScope : String) {change : Nat → Frame → Except String Frame}
    {onFailure : String → TypeCheckError} (unkeyed : ∀ reason, (onFailure reason).dedupKey = none)
    (keeps : ∀ scopeId frame,
      ((change scopeId frame).toOption.getD frame).variables_ = frame.variables_) :
    Follows (steady recording)
      (register (fun table => table.insertCurrent noScope change) onFailure) := by
  apply steady_of_leaves
  intro state tree
  rcases Leaves.register tree noScope change onFailure unkeyed with ⟨scopeId, leaves⟩
  rw [Environment.lexical_changeTop _ (keeps scopeId)] at leaves
  exact leaves

theorem insertSymbol_keeps (name : String) (symbol : Symbol) (frame : Frame) :
    ((frame.insertSymbol name symbol).toOption.getD frame).variables_ = frame.variables_ := by
  rw [Frame.insertSymbol]
  split <;> rfl

/-- A change inside a scope that leaves what lookups find in it. -/
theorem modifyScope_steady {scopeId : Nat} {change : Scope → Scope}
    (inside : SymbolTable.Inside change)
    (frames : ∀ scope, (change scope).toFrame = scope.toFrame) :
    Follows (steady recording)
      (updateSymbolTable fun table => table.modifyScope scopeId change) := by
  constructor
  intro state tree
  have changed := tree.modifyScope inside scopeId
  have grows : SymbolTable.Grows state.symbolTable (state.symbolTable.modifyScope scopeId change) :=
    .modifyScope inside scopeId
  apply Run.Follows.update
  · exact ⟨changed, grows, .inl rfl, List.Subset.refl _⟩
  · exact changed
  · refine ⟨⟨SymbolTable.modifyScope_currentScope _ _ _, grows, .of_same rfl⟩, ?_⟩
    exact congrArg Environment.lexical (SymbolTable.environment_modifyScope inside _ _ frames)

end

/-! ## Registration -/

section

variable {recording : Recording}

theorem registerMethodOf_steady (structName : String) (method : FunctionDefinition) :
    Follows (steady recording) (registerMethodOf structName method) := by
  have returnType : Follows (steady recording) (declaredReturnType method.returns []) := by
    cases method.returns with
    | none => exact .pure _
    | some returns => exact .expect _
  apply Follows.bind (.expect _)
  intro paramTypes
  apply Follows.bind returnType
  intro returnType
  apply Follows.bind getSymbolTable_steady
  intro table
  exact register_steady _ (fun _ => rfl) fun _ _ => rfl

theorem registerTypeDefinition_steady (definition : Definition) :
    Follows (steady recording) (registerTypeDefinition definition) := by
  cases definition with
  | type_ definition =>
      apply Follows.bind (.expect _)
      intro typeInfo
      exact register_steady _ (fun _ => rfl) fun _ => insertSymbol_keeps _ _
  | struct_ definition =>
      apply Follows.bind (.expect _)
      intro fields
      apply Follows.bind (register_steady _ (fun _ => rfl) fun _ => insertSymbol_keeps _ _)
      intro _
      exact .forM fun method _ => registerMethodOf_steady _ method
  | enum definition => exact register_steady _ (fun _ => rfl) fun _ => insertSymbol_keeps _ _
  | spec node name definitions =>
      exact register_steady _ (fun _ => rfl) fun _ => insertSymbol_keeps _ _
  | constant _ | function _ | externalFunction _ | module_ _ _ _ => exact .pure _

theorem inside_imports (item : Import) :
    SymbolTable.Inside fun scope => { scope with imports := scope.imports ++ [item] } where
  place _ := ⟨rfl, rfl, rfl, rfl⟩
  children _ := rfl

theorem inside_resolved (resolved : ResolvedImport) :
    SymbolTable.Inside fun scope =>
      { scope with
        resolvedImports := scope.resolvedImports.insert resolved.localName resolved } where
  place _ := ⟨rfl, rfl, rfl, rfl⟩
  children _ := rfl

theorem processDirective_steady (directive : UseDirective) :
    Follows (steady recording) (processDirective directive) := by
  apply steady_of_leaves
  intro state tree
  rcases tree.current with ⟨current, scope, isCurrent, _⟩
  have registered : state.symbolTable.registerImport (importOf directive) =
      .ok (state.symbolTable.modifyScope current fun scope =>
        { scope with imports := scope.imports ++ [importOf directive] }) := by
    rw [SymbolTable.registerImport, isCurrent]
  have unfolded : processDirective directive state = _ := register_ok _ registered
  have modified : Leaves recording (updateSymbolTable fun table =>
      table.modifyScope current fun scope =>
        { scope with imports := scope.imports ++ [importOf directive] }) state state.lexical :=
    .of_steady (modifyScope_steady (inside_imports _) fun _ => rfl) tree
  exact ⟨unfolded ▸ modified.follows, fun ended => modified.leaves (unfolded ▸ ended)⟩

theorem checkAndReportVisibility_steady (visibility : Visibility) (scope : Nat)
    (location : Location) (context : VisibilityContext) :
    Follows (steady recording) (checkAndReportVisibility visibility scope location context) :=
  .bind getSymbolTable_steady fun _ => .ite (.pure _) (pushError_steady rfl)

theorem resolveImport_steady (scopeId : Nat) (location : Location) (path : List String)
    (localName failedPath : String) :
    Follows (steady recording) (resolveImport scopeId location path localName failedPath) := by
  apply Follows.bind getSymbolTable_steady
  intro table
  split
  · rename_i symbol definitionScopeId _
    have binds : Follows (steady recording)
        (addResolvedImport scopeId { localName, symbol, definitionScopeId }) :=
      modifyScope_steady (inside_resolved _) fun _ => rfl
    apply Follows.ite binds
    exact .bind (checkAndReportVisibility_steady _ _ _ _) fun _ => binds
  · exact pushError_steady rfl

theorem resolveImportItem_steady (scopeId : Nat) (item : Import) :
    Follows (steady recording) (resolveImportItem scopeId item) := by
  unfold resolveImportItem
  split
  · split
    · exact resolveImport_steady _ _ _ _ _
    · exact .pure _
  · exact .forM fun name _ => resolveImport_steady _ _ _ _ _

theorem resolveImports_steady : Follows (steady recording) resolveImports := by
  apply Follows.bind getSymbolTable_steady
  intro table
  apply Follows.forM
  intro scopeId _
  apply Follows.bind getSymbolTable_steady
  intro table
  split
  · exact .forM fun item _ => resolveImportItem_steady _ item
  · exact .pure _

end

/-! ## Functions and constants -/

/-- The scopes of the bodies: the constants of all source files. -/
def declaredAtTop (scopes : LexicalScopes) : Definition → LexicalScopes
  | .constant definition => scopes.declare definition.name.name (declaredTypeInfo definition.ty)
  | _ => scopes

def topScopes (program : Program) : LexicalScopes :=
  program.definitions.foldl declaredAtTop [∅]

/-- The nodes of a parameter that have a type recorded for them, with the type. -/
def parameterTypes : ArgumentType → List (OwnId × Option TypeInfo)
  | .ignoreArgument node ty => [(some node.id, TypeInfo.new ty)]
  | .argument node name ty => [(some node.id, TypeInfo.new ty), (name.own, TypeInfo.new ty)]
  | .selfReference _ | .type_ _ => []

/-- The type that is recorded for the name of a function. -/
def functionType (definition : FunctionDefinition) : TypeInfo :=
  { kind := .function definition.name.name
    typeParams := typeParamNames definition.typeParameters }

/-- The nodes of a definition that have a type recorded for them when it is registered. -/
def registeredTypes : Definition → List (OwnId × Option TypeInfo)
  | .constant definition => [(some definition.value.id, TypeInfo.new definition.ty)]
  | .function definition =>
      (definition.arguments.getD []).flatMap parameterTypes ++
        ((definition.name.own, some (functionType definition)) ::
          (definition.returns.map fun returns => (returns.own, TypeInfo.new returns)).toList)
  | .spec _ _ _ | .struct_ _ | .enum _ | .externalFunction _ | .type_ _ | .module_ _ _ _ => []

/-- The types of the entries may be recorded for their nodes. -/
def Registers (recording : Recording) (entries : List (OwnId × Option TypeInfo)) : Prop :=
  ∀ entry ∈ entries, ∀ typeInfo, entry.2 = some typeInfo → recording entry.1.key typeInfo

variable {scopes : LexicalScopes}

section

variable [UnicodeCase] {recording : Recording}

theorem requireType_follows {nodes : List Expression} (typeParams : List String)
    (identifier : Identifier) : Follows (inference nodes) (requireType typeParams identifier) := by
  apply Follows.ite (.pure _)
  apply Follows.bind getSymbolTable_follows
  intro table
  split
  · exact .pure _
  · exact pushErrorDedup_follows _

theorem validateType_follows {nodes : List Expression} (typeParams : List String) :
    (type : Type_) → Follows (inference nodes) (validateType typeParams type)
  | .array _ elementType _ => by
      rw [validateType]
      exact validateType_follows typeParams elementType
  | .simple _ => by
      rw [validateType]
      exact .pure _
  | .generic _ base parameters => by
      rw [validateType]
      apply Follows.bind (requireType_follows [] base)
      intro _
      exact .forM fun parameter _ => requireType_follows typeParams parameter
  | .function _ _ _ | .qualifiedName _ _ _ | .qualified _ _ _ => by
      rw [validateType]
      exact .pure _
  | .custom identifier => by
      rw [validateType]
      exact requireType_follows typeParams identifier

theorem validateType_steady (typeParams : List String) (type : Type_) :
    Follows (steady recording) (validateType typeParams type) := by
  have follows : Follows (inference []) (validateType typeParams type) :=
    validateType_follows typeParams type
  exact steady_of_inference follows fun _ member => by cases member

omit [UnicodeCase] in
theorem declaredReturnType_steady (returns : Option Type_) (typeParams : List String) :
    Follows (steady recording) (declaredReturnType returns typeParams) := by
  cases returns with
  | none => exact .pure _
  | some returns => exact .expect _

theorem collectParameter_steady (definition : FunctionDefinition) (argument : ArgumentType)
    (registers : Registers recording (parameterTypes argument)) :
    Follows (steady recording) (collectParameter definition argument) := by
  cases argument with
  | selfReference node => exact pushError_steady rfl
  | ignoreArgument node ty =>
      apply Follows.bind (validateType_steady _ ty)
      intro _
      apply Follows.expect_bind
      intro typeInfo known
      exact setNodeTypeinfo_steady (registers _ (List.mem_singleton_self _) typeInfo known)
  | argument node name ty =>
      apply Follows.bind (validateType_steady _ ty)
      intro _
      apply Follows.expect_bind
      intro typeInfo known
      apply Follows.bind
        (setNodeTypeinfo_steady (registers _ List.mem_cons_self typeInfo known))
      intro _
      exact setNodeTypeinfo_steady
        (registers _ (List.mem_cons_of_mem _ (List.mem_singleton_self _)) typeInfo known)
  | type_ type => exact validateType_steady _ type

omit [UnicodeCase] in
theorem registerFunctionNamed_steady (name : String) (location : Location)
    (typeParams : List String) (arguments : Option (List ArgumentType)) (returns : Option Type_) :
    Follows (steady recording)
      (registerFunctionNamed name location typeParams arguments returns) := by
  apply Follows.bind (.expect _)
  intro paramTypes
  apply Follows.bind (declaredReturnType_steady returns typeParams)
  intro returnType
  exact register_steady _ (fun _ => rfl) fun _ => insertSymbol_keeps _ _

theorem collectReturnType_steady (definition : FunctionDefinition) (returns : Option Type_)
    (allowed : ∀ type, returns = some type → ∀ typeInfo, TypeInfo.new type = some typeInfo →
      recording type.id typeInfo) :
    Follows (steady recording) (collectReturnType definition returns) := by
  cases returns with
  | none => exact .pure _
  | some returns =>
      apply Follows.bind (validateType_steady _ returns)
      intro _
      apply Follows.expect_bind
      intro typeInfo known
      exact setNodeTypeinfo_steady (allowed returns rfl typeInfo known)

theorem collectFunction_steady (definition : FunctionDefinition)
    (registers : Registers recording (registeredTypes (.function definition))) :
    Follows (steady recording) (collectFunction definition) := by
  apply Follows.bind
  · apply Follows.forM
    intro argument member
    apply collectParameter_steady
    intro entry parameterMember
    exact registers entry (List.mem_append_left _ (List.mem_flatMap.mpr ⟨argument, member,
      parameterMember⟩))
  · intro _
    apply Follows.bind
    · apply setNodeTypeinfo_steady
      exact registers _ (List.mem_append_right _ List.mem_cons_self) _ rfl
    · intro _
      apply Follows.bind
      · apply collectReturnType_steady
        intro type isReturns typeInfo known
        rw [← type.own_key]
        apply registers (type.own, TypeInfo.new type) _ typeInfo known
        apply List.mem_append_right
        apply List.mem_cons_of_mem
        rw [isReturns]
        exact List.mem_singleton_self _
      · intro _
        exact registerFunctionNamed_steady _ _ _ _ _

theorem collectDefinition_leaves (tree : state.symbolTable.IsScopeTree) (definition : Definition)
    (registers : Registers recording (registeredTypes definition)) :
    Leaves recording (collectDefinition definition) state
      (declaredAtTop state.lexical definition) := by
  cases definition with
  | constant definition =>
      apply typeInfoOf_leaves tree
      intro typeInfo known
      have declared : declaredTypeInfo definition.ty = typeInfo := by
        rw [declaredTypeInfo, known]
        rfl
      rw [declaredAtTop, declared]
      apply Leaves.bind (pushVariable_leaves tree definition.name definition.location typeInfo)
      intro _ pushed _ _ pushedTree pushedSame
      rw [← pushedSame]
      exact .setNodeTypeinfo pushedTree
        (registers _ (List.mem_singleton_self _) typeInfo known)
  | function definition => exact .of_steady (collectFunction_steady definition registers) tree
  | externalFunction definition =>
      exact .of_steady (registerFunctionNamed_steady _ _ _ _ _) tree
  | spec _ _ _ | struct_ _ | enum _ | type_ _ | module_ _ _ _ => exact .pure tree _

/-! ## Bodies -/

omit [UnicodeCase] in
/-- A loop whose steps change the variables. -/
theorem forM_leaves {item : Type} {body : item → CheckM PUnit}
    {change : LexicalScopes → item → LexicalScopes} {items : List item}
    (tree : state.symbolTable.IsScopeTree)
    (single : ∀ element ∈ items, ∀ {state : CheckState}, state.symbolTable.IsScopeTree →
      Leaves recording (body element) state (change state.lexical element)) :
    Leaves recording (items.forM body) state (items.foldl change state.lexical) := by
  induction items generalizing state with
  | nil => exact .pure tree _
  | cons head tail induction =>
      apply Leaves.bind (single head List.mem_cons_self tree)
      intro _ between _ _ betweenTree same
      rw [List.foldl_cons, ← same]
      exact induction betweenTree fun element member =>
        single element (List.mem_cons_of_mem _ member)

/-- The variables behind a parameter of a function. -/
def declaredParameter (typeParams : List String) (scopes : LexicalScopes) :
    ArgumentType → LexicalScopes
  | .argument _ name ty =>
      scopes.declare name.name ((TypeInfo.newWithTypeParams ty typeParams).getD default)
  | .selfReference _ | .ignoreArgument _ _ | .type_ _ => scopes

/-- The variables behind a parameter of a method. -/
def declaredMethodParameter (selfType : TypeInfo) (scopes : LexicalScopes) :
    ArgumentType → LexicalScopes
  | .argument _ name ty => scopes.declare name.name (declaredTypeInfo ty)
  | .selfReference _ => scopes.declare "self" selfType
  | .ignoreArgument _ _ | .type_ _ => scopes

/-- The scopes around the body of a function. -/
def functionScopes (scopes : LexicalScopes) (definition : FunctionDefinition) : LexicalScopes :=
  (definition.arguments.getD []).foldl
    (declaredParameter (typeParamNames definition.typeParameters)) scopes.enter

def methodScopes (scopes : LexicalScopes) (selfType : TypeInfo)
    (definition : FunctionDefinition) : LexicalScopes :=
  (definition.arguments.getD []).foldl (declaredMethodParameter selfType) scopes.enter

omit [UnicodeCase] in
theorem tail_functionScopes (scopes : LexicalScopes) (definition : FunctionDefinition) :
    (functionScopes scopes definition).tail = scopes := by
  have kept : ∀ (arguments : List ArgumentType) (start : LexicalScopes),
      (arguments.foldl (declaredParameter (typeParamNames definition.typeParameters)) start).tail =
        start.tail := by
    intro arguments
    induction arguments with
    | nil => exact fun _ => rfl
    | cons head tail induction =>
        intro start
        rw [List.foldl_cons, induction]
        cases head <;> simp [declaredParameter]
  exact kept _ _

omit [UnicodeCase] in
theorem tail_methodScopes (scopes : LexicalScopes) (selfType : TypeInfo)
    (definition : FunctionDefinition) :
    (methodScopes scopes selfType definition).tail = scopes := by
  have kept : ∀ (arguments : List ArgumentType) (start : LexicalScopes),
      (arguments.foldl (declaredMethodParameter selfType) start).tail = start.tail := by
    intro arguments
    induction arguments with
    | nil => exact fun _ => rfl
    | cons head tail induction =>
        intro start
        rw [List.foldl_cons, induction]
        cases head <;> simp [declaredMethodParameter]
  exact kept _ _

omit [UnicodeCase] in
theorem declareParameter_leaves (typeParams : List String) (argument : ArgumentType)
    (tree : state.symbolTable.IsScopeTree) :
    Leaves recording (declareParameter typeParams argument) state
      (declaredParameter typeParams state.lexical argument) := by
  cases argument with
  | argument node name ty =>
      have front : Leaves recording (typeInfoWithTypeParams ty typeParams) state state.lexical :=
        .expect tree _
      have next : ∀ {value between errors},
          (typeInfoWithTypeParams ty typeParams state).outcome = some (value, between, errors) →
            Leaves recording (pushVariable name node.location value) between
              (declaredParameter typeParams state.lexical (.argument node name ty)) := by
        intro value between errors ended
        rcases Option.map_eq_some_iff.mp ended with ⟨known, found, same⟩
        cases same
        rw [declaredParameter, found]
        exact pushVariable_leaves tree name node.location value
      exact front.bind fun ended _ _ => next ended
  | selfReference node => exact .pushError tree rfl
  | ignoreArgument _ _ | type_ _ => exact .pure tree _

omit [UnicodeCase] in
theorem declareMethodParameter_leaves (selfType : TypeInfo) (argument : ArgumentType)
    (tree : state.symbolTable.IsScopeTree) :
    Leaves recording (declareMethodParameter selfType argument) state
      (declaredMethodParameter selfType state.lexical argument) := by
  cases argument with
  | argument node name ty =>
      apply typeInfoOf_leaves tree
      intro typeInfo known
      have declared : declaredTypeInfo ty = typeInfo := by rw [declaredTypeInfo, known]; rfl
      rw [declaredMethodParameter, declared]
      exact pushVariable_leaves tree name node.location typeInfo
  | selfReference node => exact pushVariable_leaves tree (selfIdentifier node) node.location selfType
  | ignoreArgument _ _ | type_ _ => exact .pure tree _

/-- The checks of a body behind the declarations of the parameters. -/
theorem inferBody_leaves {prepare : CheckM Unit} {returns : Option Type_}
    {typeParams : List String} {body : BlockType}
    (tree : state.symbolTable.IsScopeTree) (outside : scopes.tail = state.lexical)
    (prepared : ∀ {opened : CheckState}, opened.symbolTable.IsScopeTree →
      opened.lexical = state.lexical.enter → Leaves recording prepare opened scopes)
    (allows : Allows recording (statementListPlaces scopes body.statements)
      (blockDeclaredIds body)) :
    Leaves recording (inScope do
      prepare
      let returnType ← declaredReturnType returns typeParams
      inferBlock returnType body) state state.lexical := by
  rcases body with ⟨kind, node, statements⟩
  have behind : (declaredInAll scopes statements).tail = state.lexical := by
    rw [tail_declaredInAll, outside]
  apply inScope_leaves tree behind
  intro opened openedTree same
  apply Leaves.bind (prepared openedTree same)
  intro _ between _ _ betweenTree prepared
  apply Leaves.bind_same (.of_steady (declaredReturnType_steady returns typeParams) betweenTree)
  intro returnType last lastTree lastSame
  have around : last.lexical = scopes := lastSame.trans prepared
  rw [inferBlock, ← around]
  apply inferStatements_leaves returnType statements lastTree
  rw [around]
  exact allows

def functionPlaces (scopes : LexicalScopes) (definition : FunctionDefinition) : List Place :=
  statementListPlaces (functionScopes scopes definition) definition.body.statements

def methodPlaces (scopes : LexicalScopes) (selfType : TypeInfo)
    (definition : FunctionDefinition) : List Place :=
  statementListPlaces (methodScopes scopes selfType definition) definition.body.statements

theorem inferVariables_leaves (tree : state.symbolTable.IsScopeTree)
    (definition : FunctionDefinition)
    (allows : Allows recording (functionPlaces state.lexical definition)
      (blockDeclaredIds definition.body)) :
    Leaves recording (inferVariables definition) state state.lexical := by
  apply inferBody_leaves tree (tail_functionScopes state.lexical definition) _ allows
  intro opened openedTree same
  rw [functionScopes, ← same]
  exact forM_leaves openedTree fun argument _ _ => declareParameter_leaves _ argument

theorem inferMethodVariables_leaves (tree : state.symbolTable.IsScopeTree)
    (definition : FunctionDefinition) (selfType : TypeInfo)
    (allows : Allows recording (methodPlaces state.lexical selfType definition)
      (blockDeclaredIds definition.body)) :
    Leaves recording (inferMethodVariables definition selfType) state state.lexical := by
  apply inferBody_leaves tree (tail_methodScopes state.lexical selfType definition) _ allows
  intro opened openedTree same
  rw [methodScopes, ← same]
  exact forM_leaves openedTree fun argument _ _ => declareMethodParameter_leaves _ argument

/-! ## Programs -/

/-- The places of the expressions in the bodies of a definition. -/
def definitionPlaces (scopes : LexicalScopes) : Definition → List Place
  | .function definition => functionPlaces scopes definition
  | .struct_ definition => definition.methods.flatMap (methodPlaces scopes (structType definition))
  | .spec _ _ _ | .enum _ | .constant _ | .externalFunction _ | .type_ _ | .module_ _ _ _ => []

/-- The nodes in the bodies that are no expressions and have a type recorded for them. -/
def bodyIds : Definition → List Nat
  | .function definition => blockDeclaredIds definition.body
  | .struct_ definition => definition.methods.flatMap fun method => blockDeclaredIds method.body
  | .spec _ _ _ | .enum _ | .constant _ | .externalFunction _ | .type_ _ | .module_ _ _ _ => []

def Program.places (program : Program) : List Place :=
  program.definitions.flatMap (definitionPlaces (topScopes program))

def Program.registeredTypes (program : Program) : List (OwnId × Option TypeInfo) :=
  program.definitions.flatMap TypeChecker.registeredTypes

def Program.bodyIds (program : Program) : List Nat :=
  program.definitions.flatMap TypeChecker.bodyIds

omit [UnicodeCase] in
/-- A loop whose steps leave the variables. -/
theorem forM_leaves_same {item : Type} {body : item → CheckM PUnit}
    {items : List item} (tree : state.symbolTable.IsScopeTree) (same : state.lexical = scopes)
    (single : ∀ element ∈ items, ∀ {between : CheckState}, between.symbolTable.IsScopeTree →
      between.lexical = scopes → Leaves recording (body element) between scopes) :
    Leaves recording (items.forM body) state scopes := by
  induction items generalizing state with
  | nil =>
      rw [← same]
      exact .pure tree _
  | cons head tail induction =>
      apply Leaves.bind (single head List.mem_cons_self tree same)
      intro _ between _ _ betweenTree betweenSame
      apply induction betweenTree betweenSame
      intro element member
      exact single element (List.mem_cons_of_mem _ member)

theorem inferDefinition_leaves (definition : Definition)
    (allows : Allows recording (definitionPlaces scopes definition) (bodyIds definition))
    (tree : state.symbolTable.IsScopeTree) (same : state.lexical = scopes) :
    Leaves recording (inferDefinition definition) state scopes := by
  cases definition with
  | function definition =>
      rw [← same] at allows ⊢
      exact inferVariables_leaves tree definition allows
  | struct_ definition =>
      apply forM_leaves_same tree same
      intro method member between betweenTree betweenSame
      rw [← betweenSame]
      apply inferMethodVariables_leaves betweenTree
      rw [betweenSame]
      constructor
      · intro place placeMember
        exact allows.places place (List.mem_flatMap.mpr ⟨method, member, placeMember⟩)
      · intro nodeId idMember
        exact allows.nodes nodeId (List.mem_flatMap.mpr ⟨method, member, idMember⟩)
  | spec _ _ _ | enum _ | constant _ | externalFunction _ | type_ _ | module_ _ _ _ =>
      rw [← same]
      exact .pure tree _

theorem registerProgram_leaves (program : Program)
    (registers : Registers recording program.registeredTypes) :
    Leaves recording (registerProgram program) initialState (topScopes program) := by
  have tree : initialState.symbolTable.IsScopeTree := .default
  apply Leaves.bind_same
    (.of_steady (.forM fun directive _ => processDirective_steady directive) tree)
  intro _ imported importedTree importedSame
  apply Leaves.bind_same
    (.of_steady (.forM fun definition _ => registerTypeDefinition_steady definition) importedTree)
  intro _ typed typedTree typedSame
  apply Leaves.bind_same (.of_steady resolveImports_steady typedTree)
  intro _ resolved resolvedTree resolvedSame
  have start : resolved.lexical = [∅] :=
    ((resolvedSame.trans typedSame).trans importedSame).trans rfl
  rw [topScopes, ← start]
  apply forM_leaves resolvedTree
  intro definition member state stateTree
  apply collectDefinition_leaves stateTree
  intro entry entryMember
  exact registers entry (List.mem_flatMap.mpr ⟨definition, member, entryMember⟩)

/-- Every run of the checker over a program. -/
theorem checkProgram_leaves (program : Program)
    (registers : Registers recording program.registeredTypes)
    (allows : Allows recording program.places program.bodyIds) :
    Leaves recording (checkProgram program) initialState (topScopes program) := by
  apply Leaves.bind (registerProgram_leaves program registers)
  intro _ registered _ _ registeredTree registeredSame
  apply forM_leaves_same registeredTree registeredSame
  intro definition member between betweenTree betweenSame
  apply inferDefinition_leaves definition _ betweenTree betweenSame
  constructor
  · intro place placeMember
    exact allows.places place (List.mem_flatMap.mpr ⟨definition, member, placeMember⟩)
  · intro nodeId idMember
    exact allows.nodes nodeId (List.mem_flatMap.mpr ⟨definition, member, idMember⟩)

end

end Inference.TypeChecker

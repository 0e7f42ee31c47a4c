import Inference.TypeChecker.Annotations
import Inference.TypeChecker.StatementAgreement

/-! # What accepted programs say

The bodies of an accepted program are well typed among the declarations that are registered for the
program, and the typed context holds the type of every expression in them. The functions of a spec
are not checked: nothing holds of their bodies.
-/

namespace Inference.TypeChecker

open Inference.Ast Inference.Foundation Inference.Foundation.Collecting

/-! ## Well-typed programs -/

/-- The declarations behind a parameter of a function. -/
def Environment.declareParameter (typeParams : List String) (environment : Environment) :
    ArgumentType → Environment
  | .argument _ name ty =>
      environment.declareVariable name.name
        ((TypeInfo.newWithTypeParams ty typeParams).getD default)
  | .selfReference _ | .ignoreArgument _ _ | .type_ _ => environment

/-- The declarations behind a parameter of a method. -/
def Environment.declareMethodParameter (selfType : TypeInfo) (environment : Environment) :
    ArgumentType → Environment
  | .argument _ name ty => environment.declareVariable name.name (declaredTypeInfo ty)
  | .selfReference _ => environment.declareVariable "self" selfType
  | .ignoreArgument _ _ | .type_ _ => environment

/-- A parameter that a function may have: its name is new, and it is not `self`. -/
def FunctionParameter (environment : Environment) : ArgumentType → Prop
  | .argument _ name _ => environment.Undeclared name.name
  | .selfReference _ => False
  | .ignoreArgument _ _ | .type_ _ => True

def MethodParameter (environment : Environment) : ArgumentType → Prop
  | .argument _ name _ => environment.Undeclared name.name
  | .selfReference _ => environment.Undeclared "self"
  | .ignoreArgument _ _ | .type_ _ => True

/-- Parameters that are allowed, each behind the ones before it. -/
def AllAllowed (declare : Environment → ArgumentType → Environment)
    (allowed : Environment → ArgumentType → Prop) (environment : Environment) :
    List ArgumentType → Prop
  | [] => True
  | head :: tail =>
      allowed environment head ∧ AllAllowed declare allowed (declare environment head) tail

/-- The type that a function returns, by its declaration. -/
def declaredReturn (returns : Option Type_) (typeParams : List String) : TypeInfo :=
  match returns with
  | some returns => (TypeInfo.newWithTypeParams returns typeParams).getD default
  | none => default

def FunctionDefinition.environment (around : Environment) (definition : FunctionDefinition) :
    Environment :=
  (definition.arguments.getD []).foldl
    (Environment.declareParameter (typeParamNames definition.typeParameters)) around.openScope

def FunctionDefinition.methodEnvironment (around : Environment) (selfType : TypeInfo)
    (definition : FunctionDefinition) : Environment :=
  (definition.arguments.getD []).foldl (Environment.declareMethodParameter selfType)
    around.openScope

section WellTyped

variable [UnicodeCase]

def WellTypedFunction (around : Environment) (definition : FunctionDefinition) : Prop :=
  AllAllowed (Environment.declareParameter (typeParamNames definition.typeParameters))
      FunctionParameter around.openScope (definition.arguments.getD []) ∧
    WellTypedAll (declaredReturn definition.returns (typeParamNames definition.typeParameters))
      (FunctionDefinition.environment around definition) definition.body.statements

def WellTypedMethod (around : Environment) (selfType : TypeInfo)
    (definition : FunctionDefinition) : Prop :=
  AllAllowed (Environment.declareMethodParameter selfType) MethodParameter around.openScope
      (definition.arguments.getD []) ∧
    WellTypedAll (declaredReturn definition.returns [])
      (FunctionDefinition.methodEnvironment around selfType definition) definition.body.statements

/-- The functions of a spec are not visited. -/
def WellTypedDefinition (around : Environment) : Definition → Prop
  | .function definition => WellTypedFunction around definition
  | .struct_ definition =>
      ∀ method ∈ definition.methods, WellTypedMethod around (structType definition) method
  | .spec _ _ _ | .enum _ | .constant _ | .externalFunction _ | .type_ _ | .module_ _ _ _ => True

def functionSites (around : Environment) (definition : FunctionDefinition) : List Site :=
  statementListSites true
    (declaredReturn definition.returns (typeParamNames definition.typeParameters))
    (FunctionDefinition.environment around definition) definition.body.statements

def methodSites (around : Environment) (selfType : TypeInfo) (definition : FunctionDefinition) :
    List Site :=
  statementListSites true (declaredReturn definition.returns [])
    (FunctionDefinition.methodEnvironment around selfType definition) definition.body.statements

/-- The sites of the bodies of a definition. -/
def definitionSites (around : Environment) : Definition → List Site
  | .function definition => functionSites around definition
  | .struct_ definition => definition.methods.flatMap (methodSites around (structType definition))
  | .spec _ _ _ | .enum _ | .constant _ | .externalFunction _ | .type_ _ | .module_ _ _ _ => []

namespace Program

/-- The declarations that are registered for a program. -/
def environment (program : Program) : Environment :=
  ((registerProgram program initialState).outcome.map fun ended => ended.2.1.environment).getD []

def sites (program : Program) : List Site :=
  program.definitions.flatMap (definitionSites program.environment)

end Program

/-- What the checker grants about a program that it accepts. -/
structure SoundlyTyped (program : Program) (context : TypedContext) : Prop where
  /-- The variables in scope at the top are the constants of the program. -/
  constants : program.environment.lexical = topScopes program
  typed : ∀ definition ∈ program.definitions, WellTypedDefinition program.environment definition
  recorded : ∀ site ∈ program.sites, context.getNodeTypeinfo site.id = site.recorded
  checked : ∀ site ∈ program.sites, site.Checked

end WellTyped

/-! ## Bodies -/

section Bodies

variable [UnicodeCase] {environment environment' : Environment} {before after : CheckState}

/-- A loop whose steps pass, each over sites of its own. -/
theorem forM_passes {item : Type} {check : item → CheckM PUnit} {typed : item → Prop}
    {sitesOf : item → List Site} {items : List item} {value : PUnit}
    (single : ∀ element ∈ items, ∀ {before after : CheckState}, before.symbolTable.Sound →
      Clean environment before → Distinct (sitesOf element) → Fresh before (sitesOf element) →
        (check element).Accepts before () after →
          typed element ∧ Completes environment (sitesOf element) before after)
    (sound : before.symbolTable.Sound) (clean : Clean environment before)
    (distinct : Distinct (items.flatMap sitesOf)) (fresh : Fresh before (items.flatMap sitesOf))
    (accepted : (items.forM check).Accepts before value after) :
    (∀ element ∈ items, typed element) ∧
      Completes environment (items.flatMap sitesOf) before after := by
  induction items generalizing before with
  | nil =>
      rcases accepts_pure.mp accepted with ⟨_, rfl⟩
      exact ⟨fun _ member => absurd member List.not_mem_nil, .same sound clean⟩
  | cons head tail induction =>
      rw [List.flatMap_cons] at distinct fresh ⊢
      rcases accepts_bind.mp accepted with ⟨_, middle, first, rest⟩
      rcases single head List.mem_cons_self sound clean distinct.left fresh.left first with
        ⟨typedHead, passes⟩
      rcases induction (fun element member => single element (List.mem_cons_of_mem _ member))
        passes.sound passes.clean distinct.right (passes.unset distinct fresh) rest with
        ⟨typedTail, passesTail⟩
      refine ⟨?_, passes.append distinct passesTail⟩
      intro element member
      rcases List.mem_cons.mp member with rfl | member
      · exact typedHead
      · exact typedTail element member

/-- The parameters of a function are declared one after the other. -/
theorem parameters_pass {declare : Environment → ArgumentType → Environment}
    {allowed : Environment → ArgumentType → Prop} {check : ArgumentType → CheckM Unit}
    {arguments : List ArgumentType} {value : PUnit}
    (single : ∀ argument, ∀ {environment : Environment} {before after : CheckState},
      before.symbolTable.Sound → Clean environment before →
        (check argument).Accepts before () after →
          allowed environment argument ∧ Completes (declare environment argument) [] before after)
    (sound : before.symbolTable.Sound) (clean : Clean environment before)
    (accepted : (arguments.forM check).Accepts before value after) :
    AllAllowed declare allowed environment arguments ∧
      Completes (arguments.foldl declare environment) [] before after := by
  induction arguments generalizing before environment with
  | nil =>
      rcases accepts_pure.mp accepted with ⟨_, rfl⟩
      exact ⟨trivial, .same sound clean⟩
  | cons head tail induction =>
      rcases accepts_bind.mp accepted with ⟨_, middle, first, rest⟩
      rcases single head sound clean first with ⟨isAllowed, passes⟩
      rcases induction passes.sound passes.clean rest with ⟨allowedTail, passesTail⟩
      exact ⟨⟨isAllowed, allowedTail⟩, passes.thenDeclares List.nodup_nil passesTail⟩

theorem declareParameter_passes (typeParams : List String) (argument : ArgumentType)
    {environment : Environment} {before after : CheckState} (sound : before.symbolTable.Sound)
    (clean : Clean environment before)
    (accepted : (declareParameter typeParams argument).Accepts before () after) :
    FunctionParameter environment argument ∧
      Completes (environment.declareParameter typeParams argument) [] before after := by
  cases argument with
  | selfReference node => exact (accepts_report.mp accepted).elim
  | ignoreArgument _ _ | type_ _ =>
      rcases accepts_pure.mp accepted with ⟨_, rfl⟩
      exact ⟨trivial, .same sound clean⟩
  | argument node name ty =>
      rcases accepts_bind.mp accepted with ⟨typeInfo, middle, isNew, pushed⟩
      rcases accepts_expect.mp isNew with ⟨isType, rfl⟩
      rw [FunctionParameter, Environment.declareParameter, isType, Option.getD_some]
      exact pushVariable_accepts sound clean pushed

theorem declareMethodParameter_passes (selfType : TypeInfo) (argument : ArgumentType)
    {environment : Environment} {before after : CheckState} (sound : before.symbolTable.Sound)
    (clean : Clean environment before)
    (accepted : (declareMethodParameter selfType argument).Accepts before () after) :
    MethodParameter environment argument ∧
      Completes (environment.declareMethodParameter selfType argument) [] before after := by
  cases argument with
  | selfReference node => exact pushVariable_accepts sound clean accepted
  | ignoreArgument _ _ | type_ _ =>
      rcases accepts_pure.mp accepted with ⟨_, rfl⟩
      exact ⟨trivial, .same sound clean⟩
  | argument node name ty =>
      rcases accepts_bind.mp accepted with ⟨typeInfo, middle, isNew, pushed⟩
      rcases typeInfoOf_accepts isNew with ⟨rfl, rfl⟩
      exact pushVariable_accepts sound clean pushed

omit [UnicodeCase] in
theorem declaredReturnType_agrees {returns : Option Type_} {typeParams : List String}
    {typeInfo : TypeInfo}
    (accepted : (declaredReturnType returns typeParams).Accepts before typeInfo after) :
    declaredReturn returns typeParams = typeInfo ∧ after = before := by
  cases returns with
  | none =>
      rcases accepts_pure.mp accepted with ⟨rfl, same⟩
      exact ⟨rfl, same⟩
  | some returns =>
      rcases accepts_expect.mp accepted with ⟨isType, same⟩
      refine ⟨?_, same⟩
      rw [declaredReturn, isType]
      rfl

/-- A body is checked behind the declarations of its parameters. -/
theorem inferBody_passes {prepare : CheckM Unit} {returns : Option Type_}
    {typeParams : List String} {body : BlockType} {allowed : Prop} {value : Unit}
    (outside : environment'.tail = environment)
    (prepared : ∀ {opened inner : CheckState}, opened.symbolTable.Sound →
      Clean environment.openScope opened → prepare.Accepts opened () inner →
        allowed ∧ Completes environment' [] opened inner)
    (sound : before.symbolTable.Sound) (clean : Clean environment before)
    (distinct : Distinct (statementListSites true (declaredReturn returns typeParams) environment'
      body.statements))
    (fresh : Fresh before (statementListSites true (declaredReturn returns typeParams) environment'
      body.statements))
    (accepted : (inScope do
      prepare
      let returnType ← declaredReturnType returns typeParams
      inferBlock returnType body).Accepts before value after) :
    (allowed ∧ WellTypedAll (declaredReturn returns typeParams) environment' body.statements) ∧
      Completes environment (statementListSites true (declaredReturn returns typeParams)
        environment' body.statements) before after := by
  rcases body with ⟨kind, node, statements⟩
  have closed : (declaredByAll environment' statements).tail = environment := by
    rw [tail_declaredByAll, outside]
  refine inScope_accepts sound clean closed ?_ accepted
  intro opened inner openedSound openedClean sameTypes checked
  rcases accepts_bind.mp checked with ⟨_, declared, prepares, rest⟩
  rcases accepts_bind.mp rest with ⟨returnType, middle, isReturn, infers⟩
  rcases prepared openedSound openedClean prepares with ⟨isAllowed, passes⟩
  rcases declaredReturnType_agrees isReturn with ⟨rfl, rfl⟩
  have unset : Fresh middle (statementListSites true (declaredReturn returns typeParams)
      environment' statements) := by
    refine passes.unset distinct ?_
    rw [sameTypes]
    exact fresh
  rcases inferStatements_passes _ statements passes.sound passes.clean distinct unset infers with
    ⟨typed, passesBody⟩
  exact ⟨⟨isAllowed, typed⟩, passes.append distinct passesBody⟩

omit [UnicodeCase] in
/-- Declarations in the innermost scope leave the scopes around it. -/
theorem tail_foldl_declare {declare : Environment → ArgumentType → Environment}
    (kept : ∀ environment argument, (declare environment argument).tail = environment.tail)
    (arguments : List ArgumentType) (environment : Environment) :
    (arguments.foldl declare environment).tail = environment.tail := by
  induction arguments generalizing environment with
  | nil => rfl
  | cons head tail induction => rw [List.foldl_cons, induction, kept]

theorem inferVariables_passes (definition : FunctionDefinition) {value : Unit}
    (sound : before.symbolTable.Sound) (clean : Clean environment before)
    (distinct : Distinct (functionSites environment definition))
    (fresh : Fresh before (functionSites environment definition))
    (accepted : (inferVariables definition).Accepts before value after) :
    WellTypedFunction environment definition ∧
      Completes environment (functionSites environment definition) before after := by
  refine inferBody_passes ?_ ?_ sound clean distinct fresh accepted
  · refine tail_foldl_declare ?_ _ _
    intro around argument
    cases argument <;> simp [Environment.declareParameter]
  · intro opened inner openedSound openedClean declares
    exact parameters_pass (declareParameter_passes _) openedSound openedClean declares

theorem inferMethodVariables_passes (definition : FunctionDefinition) (selfType : TypeInfo)
    {value : Unit} (sound : before.symbolTable.Sound) (clean : Clean environment before)
    (distinct : Distinct (methodSites environment selfType definition))
    (fresh : Fresh before (methodSites environment selfType definition))
    (accepted : (inferMethodVariables definition selfType).Accepts before value after) :
    WellTypedMethod environment selfType definition ∧
      Completes environment (methodSites environment selfType definition) before after := by
  refine inferBody_passes ?_ ?_ sound clean distinct fresh accepted
  · refine tail_foldl_declare ?_ _ _
    intro around argument
    cases argument <;> simp [Environment.declareMethodParameter]
  · intro opened inner openedSound openedClean declares
    exact parameters_pass (declareMethodParameter_passes _) openedSound openedClean declares

theorem inferDefinition_passes (definition : Definition) {value : Unit}
    (sound : before.symbolTable.Sound) (clean : Clean environment before)
    (distinct : Distinct (definitionSites environment definition))
    (fresh : Fresh before (definitionSites environment definition))
    (accepted : (inferDefinition definition).Accepts before value after) :
    WellTypedDefinition environment definition ∧
      Completes environment (definitionSites environment definition) before after := by
  cases definition with
  | function definition =>
      exact inferVariables_passes definition sound clean distinct fresh accepted
  | struct_ definition =>
      refine forM_passes ?_ sound clean distinct fresh accepted
      intro method _ first last firstSound firstClean isDistinct isFresh infers
      exact inferMethodVariables_passes method _ firstSound firstClean isDistinct isFresh infers
  | spec _ _ _ | enum _ | constant _ | externalFunction _ | type_ _ | module_ _ _ _ =>
      rcases accepts_pure.mp accepted with ⟨_, rfl⟩
      exact ⟨trivial, .same sound clean⟩

end Bodies

/-! ## The ids of the sites -/

section Ids

theorem recordedIn_key_count (nodeId : Nat) (declared : List Nat) (places : List Place) :
    ((recordedIn declared places).map OwnId.key).count nodeId =
      declared.count nodeId + (places.map fun place => place.2.id).count nodeId := by
  rw [recordedIn, List.map_append, List.map_map, List.map_map, List.count_append]
  have keys : (places.map (OwnId.key ∘ Place.own)) = places.map fun place => place.2.id :=
    List.map_congr_left fun place _ => place.2.own_key
  have same : declared.map (OwnId.key ∘ some) = declared := List.map_id'' (fun _ => rfl) _
  rw [keys, same]

theorem placesOf_ids (scopes : LexicalScopes) (nodes : List Expression) :
    ((placesOf scopes nodes).map fun place => place.2.id) = nodes.map Expression.id := by
  rw [placesOf, List.map_map]
  rfl

variable [UnicodeCase] {environment : Environment}

theorem valueSites_ids (expected : Option TypeInfo) (value : Expression) :
    (valueSites true environment expected value).map Site.id = value.nodes.map Expression.id := by
  cases value with
  | uzumaki node =>
      cases expected <;> rw [valueSites.eq_def, Expression.nodes] <;> rfl
  | _ => exact expressionSites_ids _

omit [UnicodeCase] in
theorem typeSites_ids (type : Type_) :
    (typeSites environment type).map Site.id = type.nodes.map Expression.id :=
  skippedSites_ids _

/-- The recorded ids of a part, as often as they occur. -/
def SameIds (sites : List Site) (declared : List Nat) (places : List Place) : Prop :=
  ∀ nodeId, (sites.map Site.id).count nodeId =
    declared.count nodeId + (places.map fun place => place.2.id).count nodeId

mutual

/-- The sites of a statement are its places and the nodes of its definitions. -/
theorem statementSites_ids (returnType : TypeInfo) : (statement : Statement) →
    ∀ (environment : Environment) (scopes : LexicalScopes),
      SameIds (statementSites true returnType environment statement) (declaredIds statement)
        (statementPlaces scopes statement)
  | .block block, environment, scopes => by
      rw [statementSites, declaredIds, statementPlaces]
      exact blockSites_ids returnType block environment scopes
  | .expression expression, environment, scopes => by
      intro nodeId
      rw [statementSites, declaredIds, statementPlaces, placesOf_ids, sitesIf, if_pos rfl,
        expressionSites_ids, List.count_nil, Nat.zero_add]
  | .assign node left right, environment, scopes => by
      intro nodeId
      rw [statementSites, declaredIds, statementPlaces, placesOf_ids, sitesIf, if_pos rfl,
        List.map_append, expressionSites_ids, valueSites_ids, List.count_nil, Nat.zero_add,
        List.map_append]
  | .return_ node expression, environment, scopes => by
      intro nodeId
      rw [statementSites, declaredIds, statementPlaces, placesOf_ids, valueSites_ids,
        List.count_nil, Nat.zero_add]
  | .loop node none body, environment, scopes => by
      have inBody := blockSites_ids returnType body environment scopes
      rw [statementSites.eq_def, declaredIds, statementPlaces]
      exact inBody
  | .loop node (some condition) body, environment, scopes => by
      intro nodeId
      have inBody := blockSites_ids returnType body environment scopes nodeId
      rw [statementSites.eq_def, declaredIds, statementPlaces, List.map_append, List.map_append,
        placesOf_ids, List.count_append, List.count_append, inBody]
      change ((expressionSites environment condition).map Site.id).count nodeId + _ = _ +
        ((condition.nodes.map Expression.id).count nodeId + _)
      rw [expressionSites_ids]
      omega
  | .break_ node, environment, scopes => by
      intro nodeId
      rw [statementSites, declaredIds, statementPlaces]
      rfl
  | .if_ node condition ifArm none, environment, scopes => by
      intro nodeId
      have inArm := blockSites_ids returnType ifArm environment scopes nodeId
      rw [statementSites.eq_def, declaredIds.eq_def, statementPlaces.eq_def]
      dsimp only
      rw [List.append_nil, List.append_nil, List.append_nil, List.map_append, List.map_append,
        placesOf_ids, List.count_append, List.count_append, inArm, sitesIf, if_pos rfl,
        expressionSites_ids]
      omega
  | .if_ node condition ifArm (some elseArm), environment, scopes => by
      intro nodeId
      have inArm := blockSites_ids returnType ifArm environment scopes nodeId
      have inElse := blockSites_ids returnType elseArm environment scopes nodeId
      rw [statementSites.eq_def, declaredIds.eq_def, statementPlaces.eq_def]
      dsimp only
      simp only [List.map_append, List.count_append, placesOf_ids]
      rw [inArm, inElse, sitesIf, if_pos rfl, expressionSites_ids]
      omega
  | .variableDefinition node name ty none, environment, scopes => by
      intro nodeId
      rw [statementSites.eq_def, declaredIds, statementPlaces, placesOf_ids]
      dsimp only
      rw [List.append_nil, List.map_append, typeSites_ids, List.map_append, List.count_append,
        List.count_append, Nat.add_comm]
      rfl
  | .variableDefinition node name ty (some value), environment, scopes => by
      intro nodeId
      rw [statementSites.eq_def, declaredIds, statementPlaces, placesOf_ids]
      dsimp only
      rw [List.map_append, List.map_append, typeSites_ids, valueSites_ids, ← List.map_append,
        List.count_append, Nat.add_comm]
      rfl
  | .typeDefinition node name ty, environment, scopes => by
      intro nodeId
      rw [statementSites, declaredIds, statementPlaces, placesOf_ids, typeSites_ids,
        List.count_nil, Nat.zero_add]
  | .assert node expression, environment, scopes => by
      intro nodeId
      rw [statementSites, declaredIds, statementPlaces, placesOf_ids, sitesIf, if_pos rfl,
        expressionSites_ids, List.count_nil, Nat.zero_add]
  | .constantDefinition definition, environment, scopes => by
      intro nodeId
      rw [statementSites, declaredIds, statementPlaces, placesOf_ids, constantSites, if_pos rfl,
        List.map_append, List.map_append, typeSites_ids, List.map_cons, skippedSites_ids,
        List.count_append, Nat.add_comm, ConstantDefinition.nodes, Expression.nodes,
        List.map_append]
      rfl

theorem blockSites_ids (returnType : TypeInfo) : (block : BlockType) →
    ∀ (environment : Environment) (scopes : LexicalScopes),
      SameIds (blockSites true returnType environment block) (blockDeclaredIds block)
        (blockPlaces scopes block)
  | .mk kind node statements, environment, scopes => by
      rw [blockSites, blockDeclaredIds, blockPlaces]
      exact statementListSites_ids returnType statements environment.openScope scopes.enter

theorem statementListSites_ids (returnType : TypeInfo) : (statements : List Statement) →
    ∀ (environment : Environment) (scopes : LexicalScopes),
      SameIds (statementListSites true returnType environment statements)
        (statementListDeclaredIds statements) (statementListPlaces scopes statements)
  | [], environment, scopes => by
      intro nodeId
      rw [statementListSites, statementListDeclaredIds, statementListPlaces]
      rfl
  | head :: tail, environment, scopes => by
      intro nodeId
      have inHead := statementSites_ids returnType head environment scopes nodeId
      have inTail := statementListSites_ids returnType tail (declaredBy environment head)
        (declaredIn scopes head) nodeId
      rw [statementListSites, statementListDeclaredIds, statementListPlaces, List.map_append,
        List.map_append, List.count_append, List.count_append, List.count_append, inHead, inTail]
      omega

end

omit [UnicodeCase] in
/-- Parts next to each other. -/
theorem SameIds.flatMap {item : Type} {items : List item} {sitesOf : item → List Site}
    {declaredOf : item → List Nat} {placesIn : item → List Place}
    (same : ∀ element, SameIds (sitesOf element) (declaredOf element) (placesIn element)) :
    SameIds (items.flatMap sitesOf) (items.flatMap declaredOf) (items.flatMap placesIn) := by
  intro nodeId
  induction items with
  | nil => rfl
  | cons head tail induction =>
      have inHead := same head nodeId
      simp only [List.flatMap_cons, List.map_append, List.count_append]
      omega

theorem definitionSites_ids (definition : Definition) (environment : Environment)
    (scopes : LexicalScopes) :
    SameIds (definitionSites environment definition) (bodyIds definition)
      (definitionPlaces scopes definition) := by
  cases definition with
  | function definition =>
      rcases body : definition.body with ⟨kind, node, statements⟩
      rw [definitionSites, functionSites, bodyIds, definitionPlaces, functionPlaces, body]
      exact statementListSites_ids _ _ _ _
  | struct_ definition =>
      refine SameIds.flatMap ?_
      intro method
      rcases body : method.body with ⟨kind, node, statements⟩
      rw [methodSites, methodPlaces, body]
      exact statementListSites_ids _ _ _ _
  | spec _ _ _ | enum _ | constant _ | externalFunction _ | type_ _ | module_ _ _ _ =>
      exact fun _ => rfl

theorem Program.sites_ids (program : Program) :
    SameIds program.sites program.bodyIds program.places :=
  SameIds.flatMap fun definition => definitionSites_ids definition _ _

end Ids

/-! ## Programs -/

section Programs

variable [UnicodeCase] {program : Program}

/-- The ids of the nodes in bodies belong to one node of the program each. -/
theorem Program.Built.siteIds (built : program.Built) (nodeId : Nat) :
    (program.sites.map Site.id).count nodeId ≤ 1 ∧
      (nodeId ∈ program.sites.map Site.id →
        ∀ entry ∈ program.registeredTypes, entry.1.key ≠ nodeId) := by
  have once := built.once (some nodeId)
  have valid := built.valid
  have isSites : (program.sites.map Site.id).count nodeId =
      ((recordedIn program.bodyIds program.places).map OwnId.key).count nodeId :=
    (program.sites_ids nodeId).trans (recordedIn_key_count nodeId _ _).symm
  have counted := program.recorded_count (some nodeId)
  rw [Program.recorded, List.count_append] at counted
  have owned : (recordedIn program.bodyIds program.places).count none = 0 := by
    rw [List.count_eq_zero]
    intro member
    rcases List.mem_append.mp member with declared | placed
    · rcases List.mem_map.mp declared with ⟨bodyId, _, isNone⟩
      cases isNone
    · rcases List.mem_map.mp placed with ⟨place, placeMember, isNone⟩
      rcases Expression.own_none isNone with ⟨kind, isType⟩
      exact built.expressions place placeMember kind isType
  rw [key_count, owned, ite_self, Nat.add_zero] at isSites
  have few : program.ids.count (some nodeId) ≤ 1 := by
    by_cases member : some nodeId ∈ program.ids
    · exact once member (Option.some_ne_none nodeId)
    · rw [List.count_eq_zero.mpr member]
      exact Nat.zero_le 1
  refine ⟨by omega, ?_⟩
  intro member entry entryMember isKey
  have occurs : 0 < (program.sites.map Site.id).count nodeId := List.count_pos_iff.mpr member
  cases isOwn : entry.1 with
  | some own =>
      have isNode : own = nodeId := by
        rw [isOwn] at isKey
        exact isKey
      subst isNode
      have registered : 0 < (program.registeredTypes.map Prod.fst).count (some own) :=
        List.count_pos_iff.mpr (List.mem_map.mpr ⟨entry, entryMember, isOwn⟩)
      omega
  | none =>
      have isNode : noId = nodeId := by
        rw [isOwn] at isKey
        exact isKey
      subst isNode
      have absent : program.ids.count (some noId) = 0 := List.count_eq_zero.mpr valid
      omega

/-- What the registration of an accepted program leaves. -/
theorem registerProgram_accepts {registered : CheckState} {value : Unit}
    (accepted : (registerProgram program).Accepts initialState value registered) :
    registered.symbolTable.Sound ∧ Clean program.environment registered ∧
      program.environment.lexical = topScopes program ∧
      ∀ nodeId, registered.nodeTypes nodeId ≠ none →
        ∃ entry ∈ program.registeredTypes, entry.1.key = nodeId := by
  have leaves : Leaves
      (fun nodeId _ => ∃ entry ∈ program.registeredTypes, entry.1.key = nodeId)
      (registerProgram program) initialState (topScopes program) :=
    registerProgram_leaves program fun entry member _ _ => ⟨entry, member, rfl⟩
  rcases leaves.follows.ends accepted with ⟨path, tree, ends⟩
  have isEnvironment : program.environment = registered.environment := by
    rw [Program.environment, accepted]
    rfl
  refine ⟨tree.sound, ⟨isEnvironment.symm, ends.keys.keys⟩, ?_, ?_⟩
  · rw [isEnvironment]
    exact leaves.leaves accepted
  · intro nodeId found
    rcases Option.ne_none_iff_exists'.mp found with ⟨typeInfo, isFound⟩
    exact recorded_allowed path registered path.last_mem nodeId typeInfo isFound

end Programs

/-- A function with a parameter, a variable and a returned value. -/
def sampleFunction : Definition :=
  .function {
    toNode := lineNode 1
    name := { toNode := lineNode 2, name := "f" }
    arguments := some [.argument (lineNode 3) { toNode := lineNode 4, name := "x" } (.simple .bool)]
    returns := some (.simple .i32)
    body := .mk .block (lineNode 5) [
      .variableDefinition (lineNode 6) { toNode := lineNode 7, name := "y" } (.simple .i32)
        (some (.literal (.number (lineNode 8) "1"))),
      .assert (lineNode 9) (.identifier { toNode := lineNode 10, name := "x" }),
      .return_ (lineNode 11) (.identifier { toNode := lineNode 12, name := "y" })] }

end Inference.TypeChecker

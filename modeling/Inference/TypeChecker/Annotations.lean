import Inference.TypeChecker.ErrorReports

/-! # Annotations of the nodes

The checker keeps the type of a node under the id of the node. All builtin types share one
id, so that the type recorded for one of them is found for all of them.
-/

namespace Inference.TypeChecker

open Inference.Ast Inference.Foundation

/-! ## Recorded nodes -/

def Place.own (place : Place) : OwnId :=
  place.2.own

theorem map_placesOf (scopes : LexicalScopes) (nodes : List Expression) :
    (placesOf scopes nodes).map Place.own = nodes.map Expression.own := by
  rw [placesOf, List.map_map]
  rfl

/-- The nodes of a statement that may have a type recorded for them. -/
def recordedIn (declared : List Nat) (places : List Place) : List OwnId :=
  declared.map some ++ places.map Place.own

theorem recordedIn_count (own : OwnId) (declared : List Nat) (places : List Place) :
    (recordedIn declared places).count own =
      (declared.map some).count own + (places.map Place.own).count own :=
  List.count_append

mutual

/-- The recorded nodes of a statement are nodes of it, each at a place of its own. -/
theorem statement_count (own : OwnId) : (statement : Statement) → (scopes : LexicalScopes) →
    (recordedIn (declaredIds statement) (statementPlaces scopes statement)).count own ≤
      statement.ids.count own
  | .block block, scopes => by
      rw [declaredIds, statementPlaces, Statement.ids]
      exact block_count own block scopes
  | .expression expression, scopes => by
      rw [declaredIds, statementPlaces, Statement.ids, recordedIn, map_placesOf]
      exact expression.nodes_count own
  | .assign node left right, scopes => by
      have inLeft := left.nodes_count own
      have inRight := right.nodes_count own
      rw [declaredIds, statementPlaces, Statement.ids, recordedIn, map_placesOf]
      simp only [List.map_nil, List.nil_append, List.map_append, List.count_cons,
        List.count_append]
      omega
  | .return_ node expression, scopes => by
      have inside := expression.nodes_count own
      rw [declaredIds, statementPlaces, Statement.ids, recordedIn, map_placesOf]
      simp only [List.map_nil, List.nil_append, List.count_cons]
      omega
  | .loop node condition body, scopes => by
      have inCondition := optionNodes_count own condition
      have inBody := block_count own body scopes
      rw [declaredIds, statementPlaces, Statement.ids]
      rw [recordedIn_count] at inBody ⊢
      simp only [List.map_append, map_placesOf, List.count_cons, List.count_append]
      omega
  | .break_ node, scopes => by
      rw [declaredIds, statementPlaces]
      exact Nat.zero_le _
  | .if_ node condition ifArm none, scopes => by
      have inCondition := condition.nodes_count own
      have inArm := block_count own ifArm scopes
      rw [declaredIds, statementPlaces, Statement.ids]
      rw [recordedIn_count] at inArm ⊢
      simp only [List.map_append, List.append_nil, map_placesOf, List.count_cons,
        List.count_append]
      omega
  | .if_ node condition ifArm (some elseArm), scopes => by
      have inCondition := condition.nodes_count own
      have inArm := block_count own ifArm scopes
      have inElse := block_count own elseArm scopes
      rw [declaredIds, statementPlaces, Statement.ids]
      rw [recordedIn_count] at inArm inElse ⊢
      simp only [List.map_append, map_placesOf, List.count_cons, List.count_append]
      omega
  | .variableDefinition node name ty value, scopes => by
      have inType := ty.nodes_count own
      have inValue := optionNodes_count own value
      rw [declaredIds, statementPlaces, Statement.ids, recordedIn_count, map_placesOf]
      simp only [List.map_cons, List.map_nil, List.map_append, List.count_cons, List.count_nil,
        List.count_append, Identifier.own] at inType ⊢
      omega
  | .typeDefinition node name ty, scopes => by
      have inType := ty.nodes_count own
      rw [declaredIds, statementPlaces, Statement.ids, recordedIn, map_placesOf]
      simp only [List.map_nil, List.nil_append, List.count_cons] at inType ⊢
      omega
  | .assert node expression, scopes => by
      have inside := expression.nodes_count own
      rw [declaredIds, statementPlaces, Statement.ids, recordedIn, map_placesOf]
      simp only [List.map_nil, List.nil_append, List.count_cons]
      omega
  | .constantDefinition definition, scopes => by
      rw [declaredIds, statementPlaces, Statement.ids, recordedIn, map_placesOf]
      exact definition.nodes_count own

theorem block_count (own : OwnId) : (block : BlockType) → (scopes : LexicalScopes) →
    (recordedIn (blockDeclaredIds block) (blockPlaces scopes block)).count own ≤
      block.ids.count own
  | .mk kind node statements, scopes => by
      have inside := statementList_count own statements scopes.enter
      rw [blockDeclaredIds, blockPlaces, BlockType.ids, List.count_cons]
      omega

theorem statementList_count (own : OwnId) :
    (statements : List Statement) → (scopes : LexicalScopes) →
      (recordedIn (statementListDeclaredIds statements)
        (statementListPlaces scopes statements)).count own ≤ (statementListIds statements).count own
  | [], scopes => by
      rw [statementListDeclaredIds, statementListPlaces]
      exact Nat.zero_le _
  | head :: tail, scopes => by
      have inHead := statement_count own head scopes
      have inTail := statementList_count own tail (declaredIn scopes head)
      rw [statementListDeclaredIds, statementListPlaces, statementListIds]
      rw [recordedIn_count] at inHead inTail ⊢
      simp only [List.map_append, List.count_append]
      omega

end

/-- The node of the type that a function returns. -/
def returnsOwn (definition : FunctionDefinition) : List OwnId :=
  (definition.returns.map Type_.own).toList

theorem returnsOwn_count (own : OwnId) (definition : FunctionDefinition) :
    (returnsOwn definition).count own ≤ (optionTypeIds definition.returns).count own := by
  rw [returnsOwn]
  cases definition.returns with
  | none => exact Nat.le_refl _
  | some returns =>
      have inside := returns.nodes_count own
      rw [List.count_cons] at inside
      rw [Option.map_some, Option.toList_some, List.count_cons, List.count_nil, optionTypeIds]
      omega

theorem parameters_count (own : OwnId) (arguments : List ArgumentType) :
    ((arguments.flatMap parameterTypes).map Prod.fst).count own ≤
      (arguments.flatMap ArgumentType.ids).count own := by
  induction arguments with
  | nil => exact Nat.le_refl _
  | cons head tail induction =>
      have inHead : ((parameterTypes head).map Prod.fst).count own ≤ head.ids.count own := by
        cases head with
        | selfReference _ | type_ _ => exact Nat.zero_le _
        | ignoreArgument node ty =>
            simp only [parameterTypes, ArgumentType.ids, List.map_cons, List.map_nil,
              List.count_cons, List.count_nil]
            omega
        | argument node name ty =>
            simp only [parameterTypes, ArgumentType.ids, List.map_cons, List.map_nil,
              List.count_cons, List.count_nil]
            omega
      simp only [List.flatMap_cons, List.map_append, List.count_append]
      omega

/-- The recorded nodes of a function and its returned type are nodes of it. -/
theorem function_count (own : OwnId) (definition : FunctionDefinition) (scopes : LexicalScopes) :
    (((definition.arguments.getD []).flatMap parameterTypes).map Prod.fst).count own +
        [definition.name.own].count own + (returnsOwn definition).count own +
        (recordedIn (blockDeclaredIds definition.body)
          (statementListPlaces scopes definition.body.statements)).count own ≤
      definition.ids.count own := by
  have inParameters := parameters_count own (definition.arguments.getD [])
  have inReturns := returnsOwn_count own definition
  have inBody : (recordedIn (blockDeclaredIds definition.body)
      (statementListPlaces scopes definition.body.statements)).count own ≤
        definition.body.ids.count own := by
    rcases definition.body with ⟨kind, node, statements⟩
    have inside := statementList_count own statements scopes
    rw [blockDeclaredIds, BlockType.statements, BlockType.ids, List.count_cons]
    omega
  rw [FunctionDefinition.ids, signatureIds]
  simp only [List.count_cons, List.count_append, List.count_nil]
  omega

/-! ## Functions of a program -/

mutual

def definitionFunctions : Definition → List FunctionDefinition
  | .function definition => [definition]
  | .struct_ definition => definition.methods
  | .spec _ _ definitions => definitionListFunctions definitions
  | .module_ _ _ (some definitions) => definitionListFunctions definitions
  | .module_ _ _ none | .enum _ | .constant _ | .externalFunction _ | .type_ _ => []

def definitionListFunctions : List Definition → List FunctionDefinition
  | [] => []
  | head :: tail => definitionFunctions head ++ definitionListFunctions tail

end

/-- The functions that are no definition of a source file themselves. -/
def nestedFunctions : Definition → List FunctionDefinition
  | .function _ => []
  | definition => definitionFunctions definition

def topFunctions : Definition → List FunctionDefinition
  | .function definition => [definition]
  | _ => []

variable {function : FunctionDefinition}

theorem mem_definitionFunctions {definition : Definition} :
    function ∈ definitionFunctions definition ↔
      function ∈ topFunctions definition ∨ function ∈ nestedFunctions definition := by
  cases definition with
  | function definition =>
      rw [definitionFunctions]
      simp [topFunctions, nestedFunctions]
  | _ => simp [topFunctions, nestedFunctions]

variable {program : Program}

namespace Program

/-- All functions in the tree of a program. -/
def functions (program : Program) : List FunctionDefinition :=
  program.definitions.flatMap definitionFunctions

def nestedFunctions (program : Program) : List FunctionDefinition :=
  program.definitions.flatMap TypeChecker.nestedFunctions

def topFunctions (program : Program) : List FunctionDefinition :=
  program.definitions.flatMap TypeChecker.topFunctions

theorem mem_functions :
    function ∈ program.functions ↔
      function ∈ program.topFunctions ∨ function ∈ program.nestedFunctions := by
  simp only [functions, topFunctions, nestedFunctions, List.mem_flatMap, mem_definitionFunctions]
  constructor
  · rintro ⟨definition, member, top | nested⟩
    · exact .inl ⟨definition, member, top⟩
    · exact .inr ⟨definition, member, nested⟩
  · rintro (⟨definition, member, top⟩ | ⟨definition, member, nested⟩)
    · exact ⟨definition, member, .inl top⟩
    · exact ⟨definition, member, .inr nested⟩

def ids (program : Program) : List OwnId :=
  program.flatMap SourceFile.ids

/-- The nodes that may have a type recorded for them. -/
def recorded (program : Program) : List OwnId :=
  program.registeredTypes.map Prod.fst ++ recordedIn program.bodyIds program.places

end Program

theorem functions_count (own : OwnId) (functions : List FunctionDefinition) :
    (functions.flatMap returnsOwn).count own ≤
      (functions.flatMap FunctionDefinition.ids).count own := by
  induction functions with
  | nil => exact Nat.le_refl _
  | cons head tail induction =>
      have inHead := function_count own head []
      simp only [List.flatMap_cons, List.count_append]
      omega

mutual

theorem definitionFunctions_count (own : OwnId) : (definition : Definition) →
    ((definitionFunctions definition).flatMap returnsOwn).count own ≤ definition.ids.count own
  | .function definition => by
      have inside := functions_count own [definition]
      rw [definitionFunctions, Definition.ids]
      simpa using inside
  | .struct_ definition => by
      have inMethods := functions_count own definition.methods
      rw [definitionFunctions, Definition.ids, StructDefinition.ids]
      simp only [List.count_cons, List.count_append]
      omega
  | .spec node name definitions => by
      have inside := definitionListFunctions_count own definitions
      rw [definitionFunctions, Definition.ids]
      simp only [List.count_cons]
      omega
  | .module_ node name (some definitions) => by
      have inside := definitionListFunctions_count own definitions
      rw [definitionFunctions, Definition.ids]
      simp only [List.count_cons]
      omega
  | .module_ _ _ none | .enum _ | .constant _ | .externalFunction _ | .type_ _ => by
      rw [definitionFunctions]
      exact Nat.zero_le _

theorem definitionListFunctions_count (own : OwnId) : (definitions : List Definition) →
    ((definitionListFunctions definitions).flatMap returnsOwn).count own ≤
      (definitionListIds definitions).count own
  | [] => by
      rw [definitionListFunctions]
      exact Nat.zero_le _
  | head :: tail => by
      have inHead := definitionFunctions_count own head
      have inTail := definitionListFunctions_count own tail
      rw [definitionListFunctions, definitionListIds]
      simp only [List.flatMap_append, List.count_append]
      omega

end

/-- The recorded nodes of a definition, and the returned types of the functions inside of
it, are nodes of it. -/
theorem definition_count (own : OwnId) (scopes : LexicalScopes) (definition : Definition) :
    ((registeredTypes definition).map Prod.fst).count own +
        (recordedIn (bodyIds definition) (definitionPlaces scopes definition)).count own +
        ((nestedFunctions definition).flatMap returnsOwn).count own ≤
      definition.ids.count own := by
  cases definition with
  | function definition =>
      have inside := function_count own definition (functionScopes scopes definition)
      have returns : (definition.returns.map fun returns =>
          (returns.own, TypeInfo.new returns)).toList.map Prod.fst = returnsOwn definition := by
        rw [returnsOwn]
        cases definition.returns <;> rfl
      rw [Definition.ids, nestedFunctions, registeredTypes]
      simp only [List.map_append, List.map_cons, returns, List.flatMap_nil, List.count_append,
        List.count_cons, List.count_nil] at inside ⊢
      exact Nat.le_trans (by rw [definitionPlaces, functionPlaces, bodyIds]; omega) inside
  | struct_ definition =>
      have nested : nestedFunctions (.struct_ definition) = definition.methods := rfl
      rw [Definition.ids, StructDefinition.ids, nested, registeredTypes, bodyIds, definitionPlaces]
      have inMethods : ∀ methods : List FunctionDefinition,
          (recordedIn (methods.flatMap fun method => blockDeclaredIds method.body)
              (methods.flatMap (methodPlaces scopes (structType definition)))).count own +
              (methods.flatMap returnsOwn).count own ≤
            (methods.flatMap FunctionDefinition.ids).count own := by
        intro methods
        induction methods with
        | nil => exact Nat.le_refl _
        | cons head tail induction =>
            have inHead := function_count own head
              (methodScopes scopes (structType definition) head)
            rw [recordedIn_count] at inHead induction ⊢
            simp only [List.flatMap_cons, List.map_append, List.count_append, methodPlaces]
              at induction ⊢
            omega
      have inside := inMethods definition.methods
      simp only [List.map_nil, List.count_nil, List.count_cons, List.count_append]
      omega
  | spec node name definitions =>
      have inside := definitionFunctions_count own (.spec node name definitions)
      simpa [registeredTypes, bodyIds, definitionPlaces, recordedIn, nestedFunctions] using inside
  | module_ node name body =>
      have inside := definitionFunctions_count own (.module_ node name body)
      simpa [registeredTypes, bodyIds, definitionPlaces, recordedIn, nestedFunctions] using inside
  | constant definition =>
      have inValue := definition.value.nodes_count own
      have nested : nestedFunctions (.constant definition) = [] := rfl
      rw [Definition.ids, ConstantDefinition.ids, nested, registeredTypes, bodyIds,
        definitionPlaces]
      simp only [List.map_cons, List.map_nil, List.count_cons, List.count_append, List.count_nil,
        List.flatMap_nil, recordedIn, List.append_nil] at inValue ⊢
      omega
  | enum _ | externalFunction _ | type_ _ => exact Nat.zero_le _

/-- The recorded nodes of a program, and the returned types of its nested functions, are
nodes of it. -/
theorem Program.recorded_count (program : Program) (own : OwnId) :
    program.recorded.count own + (program.nestedFunctions.flatMap returnsOwn).count own ≤
      program.ids.count own := by
  have inDefinitions : ∀ (scopes : LexicalScopes) (definitions : List Definition),
      ((definitions.flatMap TypeChecker.registeredTypes).map Prod.fst).count own +
          (recordedIn (definitions.flatMap TypeChecker.bodyIds)
            (definitions.flatMap (definitionPlaces scopes))).count own +
          ((definitions.flatMap TypeChecker.nestedFunctions).flatMap returnsOwn).count own ≤
        (definitionListIds definitions).count own := by
    intro scopes definitions
    induction definitions with
    | nil => exact Nat.le_refl _
    | cons head tail induction =>
        have inHead := definition_count own scopes head
        rw [recordedIn_count] at inHead induction ⊢
        rw [definitionListIds]
        simp only [List.flatMap_cons, List.flatMap_append, List.map_append, List.count_append]
          at induction ⊢
        omega
  have inFiles : ∀ files : Program,
      (definitionListIds files.definitions).count own ≤ (Program.ids files).count own := by
    intro files
    induction files with
    | nil => exact Nat.le_refl _
    | cons head tail induction =>
        have split : ∀ left right : List Definition, definitionListIds (left ++ right) =
            definitionListIds left ++ definitionListIds right := by
          intro left right
          induction left with
          | nil => rw [definitionListIds]; rfl
          | cons first rest induction =>
              rw [List.cons_append, definitionListIds, definitionListIds, induction,
                List.append_assoc]
        have files : Program.ids (head :: tail) = head.ids ++ Program.ids tail := rfl
        have definitions : Program.definitions (head :: tail) =
            head.definitions ++ Program.definitions tail := rfl
        rw [files, definitions, split, SourceFile.ids]
        simp only [List.count_append]
        omega
  have inside := inDefinitions (topScopes program) program.definitions
  have within := inFiles program
  rw [Program.recorded, List.count_append]
  exact Nat.le_trans inside within

/-! ## Keys -/

/-- The entries under a key are the node that owns it and, under the key of the builtin
types, all of these. -/
theorem key_count (nodeId : Nat) (ids : List OwnId) :
    (ids.map OwnId.key).count nodeId =
      ids.count (some nodeId) + if nodeId = noId then ids.count none else 0 := by
  induction ids with
  | nil => simp
  | cons head tail induction =>
      rw [List.map_cons, List.count_cons, List.count_cons, List.count_cons, induction]
      cases head with
      | none =>
          by_cases isNoId : nodeId = noId
          · simp [isNoId, OwnId.key]
            omega
          · have other : ¬ noId = nodeId := fun same => isNoId same.symm
            simp [isNoId, OwnId.key, other]
      | some own =>
          by_cases same : own = nodeId
          · simp [same, OwnId.key]
            omega
          · simp [same, OwnId.key]

/-- Entries of one key are the same entry, where the key occurs once. -/
theorem entry_unique {item : Type} {key : item → Nat} {nodeId : Nat} {entries : List item}
    (once : (entries.map key).count nodeId ≤ 1) {first second : item}
    (firstMember : first ∈ entries) (secondMember : second ∈ entries)
    (firstKey : key first = nodeId) (secondKey : key second = nodeId) : first = second := by
  induction entries with
  | nil => cases firstMember
  | cons head tail induction =>
      rw [List.map_cons, List.count_cons] at once
      have absent : key head = nodeId → ∀ entry ∈ tail, key entry ≠ nodeId := by
        intro isKey entry member entryKey
        have occurs : 0 < (tail.map key).count nodeId :=
          List.count_pos_iff.mpr (List.mem_map.mpr ⟨entry, member, entryKey⟩)
        rw [if_pos (beq_iff_eq.mpr isKey)] at once
        omega
      rcases List.mem_cons.mp firstMember with rfl | firstInTail
      · rcases List.mem_cons.mp secondMember with rfl | secondInTail
        · rfl
        · exact absurd secondKey (absent firstKey second secondInTail)
      · rcases List.mem_cons.mp secondMember with rfl | secondInTail
        · exact absurd firstKey (absent secondKey first firstInTail)
        · exact induction (by omega) firstInTail secondInTail

theorem Program.recorded_key_count (program : Program) (nodeId : Nat) :
    (program.recorded.map OwnId.key).count nodeId +
        ((program.nestedFunctions.flatMap returnsOwn).map OwnId.key).count nodeId ≤
      (program.ids.map OwnId.key).count nodeId := by
  have owned := program.recorded_count (some nodeId)
  have builtin := program.recorded_count none
  rw [key_count, key_count, key_count]
  split <;> omega

/-! ## Types found in a run -/

theorem CheckingStep.changed {recording : Recording} {before after : CheckState}
    (step : CheckingStep recording before after) {nodeId : Nat}
    (changed : after.nodeTypes nodeId ≠ before.nodeTypes nodeId) :
    ∃ typeInfo, recording nodeId typeInfo ∧ after.nodeTypes nodeId = some typeInfo := by
  rcases step.types with same | ⟨recordedId, typeInfo, allowed, updated⟩
  · exact absurd (congrFun same nodeId) changed
  · by_cases isRecorded : nodeId = recordedId
    · subst isRecorded
      exact ⟨typeInfo, allowed, by rw [updated, Function.update_self]⟩
    · rw [updated, Function.update_of_ne isRecorded] at changed
      exact absurd rfl changed

/-- The types found at the points of a run are ones that may be recorded. -/
theorem recorded_allowed {recording : Recording} {states : List CheckState} {last : CheckState}
    (path : Path (CheckingStep recording) initialState states last) :
    ∀ point ∈ initialState :: states, ∀ nodeId typeInfo,
      point.nodeTypes nodeId = some typeInfo → recording nodeId typeInfo := by
  apply path.keeps fun point : CheckState => ∀ nodeId typeInfo,
    point.nodeTypes nodeId = some typeInfo → recording nodeId typeInfo
  · intro before after step holds nodeId typeInfo found
    by_cases same : after.nodeTypes nodeId = before.nodeTypes nodeId
    · rw [same] at found
      exact holds nodeId typeInfo found
    · rcases step.changed same with ⟨recordedType, allowed, isRecorded⟩
      rw [found] at isRecorded
      cases isRecorded
      exact allowed
  · intro nodeId typeInfo found
    cases found

theorem nodeTypes_stable {recording : Recording} {nodeId : Nat} {before after : CheckState}
    (step : CheckingStep recording before after) (found : before.nodeTypes nodeId ≠ none) :
    after.nodeTypes nodeId ≠ none := by
  by_cases same : after.nodeTypes nodeId = before.nodeTypes nodeId
  · rw [same]
    exact found
  · rcases step.changed same with ⟨typeInfo, _, isRecorded⟩
    rw [isRecorded]
    exact Option.some_ne_none typeInfo

theorem returns_registered (member : function ∈ program.topFunctions) {returns : Type_}
    (isReturns : function.returns = some returns) :
    (returns.own, TypeInfo.new returns) ∈ program.registeredTypes := by
  rcases List.mem_flatMap.mp member with ⟨definition, definitionMember, isTop⟩
  cases definition with
  | function other =>
      rw [List.mem_singleton.mp isTop] at isReturns
      apply List.mem_flatMap.mpr ⟨_, definitionMember, ?_⟩
      rw [registeredTypes, isReturns]
      exact List.mem_append_right _ (List.mem_cons_of_mem _ (List.mem_singleton_self _))
  | _ => cases isTop

section

variable [UnicodeCase]

/-- Any type of a node that the program has recorded types for. -/
def ofRecorded (program : Program) : Recording :=
  fun nodeId _ => ∃ own ∈ program.recorded, own.key = nodeId

theorem checkProgram_recorded (program : Program) :
    Leaves (ofRecorded program) (checkProgram program) initialState (topScopes program) := by
  apply checkProgram_leaves
  · intro entry member typeInfo _
    exact ⟨entry.1, List.mem_append_left _ (List.mem_map_of_mem member), rfl⟩
  · constructor
    · intro place member typeInfo _
      refine ⟨place.own, List.mem_append_right _ ?_, place.2.own_key⟩
      exact List.mem_append_right _ (List.mem_map_of_mem member)
    · intro nodeId member typeInfo
      refine ⟨some nodeId, List.mem_append_right _ ?_, rfl⟩
      exact List.mem_append_left _ (List.mem_map_of_mem member)

/-- The type of the returned type of a top-level function is recorded. -/
theorem returns_recorded (program : Program)
    (member : function ∈ program.topFunctions) {returns : Type_}
    (isReturns : function.returns = some returns) :
    Attains (checking fun _ _ => True) (checkProgram program)
      fun state => state.nodeTypes returns.id ≠ none := by
  have anyOf : ∀ {result : Type} {computation : CheckM result},
      Follows (steady fun _ _ => True) computation →
        Follows (checking fun _ _ => True) computation :=
    checking_of_steady
  have collects : ∀ definition ∈ program.definitions,
      Follows (checking fun _ _ => True) (collectDefinition definition) := by
    intro definition _
    apply checking_of_leaves
    intro state tree
    exact ⟨_, collectDefinition_leaves tree definition fun _ _ _ _ => trivial⟩
  have infers : ∀ definition ∈ program.definitions,
      Follows (checking fun _ _ => True) (inferDefinition definition) := by
    intro definition _
    apply checking_of_leaves
    intro state tree
    exact ⟨_, inferDefinition_leaves definition (Allows.any _ _) tree rfl⟩
  have recorded : Attains (checking fun _ _ => True) (collectReturnType function function.returns)
      fun state => state.nodeTypes returns.id ≠ none := by
    rw [isReturns]
    apply Attains.bind_back (anyOf (validateType_steady _ _))
    intro _
    apply Attains.bind_back (anyOf (.expect _))
    intro typeInfo
    constructor
    intro initial value final errors _ ended
    cases ended
    change Function.update initial.nodeTypes returns.id (some typeInfo) returns.id ≠ none
    rw [Function.update_self]
    exact Option.some_ne_none typeInfo
  rcases List.mem_flatMap.mp member with ⟨definition, definitionMember, isTop⟩
  have isFunction : definition = .function function := by
    cases definition with
    | function other => rw [List.mem_singleton.mp isTop]
    | _ => cases isTop
  subst isFunction
  have collected : Attains (checking fun _ _ => True) (collectDefinition (.function function))
      fun state => state.nodeTypes returns.id ≠ none := by
    apply Attains.bind_back
    · exact .forM fun argument argumentMember =>
        anyOf (collectParameter_steady function argument fun _ _ _ _ => trivial)
    · intro _
      apply Attains.bind_back (anyOf (setNodeTypeinfo_steady trivial))
      intro _
      apply Attains.bind_front nodeTypes_stable
      · exact anyOf (collectReturnType_steady function function.returns fun _ _ _ _ => trivial)
      · exact recorded
      · exact fun _ => anyOf (registerFunctionNamed_steady _ _ _ _ _)
  apply Attains.bind_front nodeTypes_stable
  · apply Follows.bind (anyOf (.forM fun directive _ => processDirective_steady directive))
    intro _
    apply Follows.bind (anyOf (.forM fun definition _ => registerTypeDefinition_steady definition))
    intro _
    apply Follows.bind (anyOf resolveImports_steady)
    intro _
    exact .forM collects
  · apply Attains.bind_back (anyOf (.forM fun directive _ => processDirective_steady directive))
    intro _
    apply Attains.bind_back
      (anyOf (.forM fun definition _ => registerTypeDefinition_steady definition))
    intro _
    apply Attains.bind_back (anyOf resolveImports_steady)
    intro _
    exact .forM nodeTypes_stable collects definitionMember collected
  · exact fun _ => .forM infers

/-- The type of the returned type of a top-level function is its own, where the id under
which it is found is the id of no other node. -/
theorem returns_own (program : Program) (member : function ∈ program.topFunctions) {returns : Type_}
    (isReturns : function.returns = some returns)
    (once : (program.ids.map OwnId.key).count returns.id ≤ 1) {value : Unit} {final : CheckState}
    {errors : List TypeCheckError}
    (ended : (checkProgram program initialState).outcome = some (value, final, errors)) :
    ∃ typeInfo, TypeInfo.new returns = some typeInfo ∧
      final.nodeTypes returns.id = some typeInfo := by
  have tree : initialState.symbolTable.IsScopeTree := .default
  have found := (returns_recorded program member isReturns).reached tree ended
  rcases Option.ne_none_iff_exists'.mp found with ⟨typeInfo, isFound⟩
  refine ⟨typeInfo, ?_, isFound⟩
  have recordedOnce : (program.recorded.map OwnId.key).count returns.id ≤ 1 := by
    have inside := program.recorded_key_count returns.id
    omega
  rw [Program.recorded, recordedIn, List.map_append, List.map_append, List.count_append,
    List.count_append] at recordedOnce
  have registered := returns_registered member isReturns
  have occurs : 0 < ((program.registeredTypes.map Prod.fst).map OwnId.key).count returns.id := by
    apply List.count_pos_iff.mpr
    exact List.mem_map.mpr ⟨returns.own, List.mem_map_of_mem registered, returns.own_key⟩
  have leaves : Leaves (fun nodeId typeInfo => nodeId = returns.id →
      TypeInfo.new returns = some typeInfo) (checkProgram program) initialState
        (topScopes program) := by
    apply checkProgram_leaves
    · intro entry entryMember typeInfo isType isKey
      have entryOnce : (program.registeredTypes.map fun entry => entry.1.key).count returns.id ≤
          1 := by
        have composed : (program.registeredTypes.map fun entry => entry.1.key) =
            (program.registeredTypes.map Prod.fst).map OwnId.key := by
          rw [List.map_map]
          rfl
        rw [composed]
        omega
      have same := entry_unique entryOnce entryMember registered isKey returns.own_key
      rw [← isType, same]
    · constructor
      · intro place placeMember typeInfo _ isKey
        have other : 0 < ((program.places.map Place.own).map OwnId.key).count returns.id := by
          apply List.count_pos_iff.mpr
          exact List.mem_map.mpr ⟨place.own, List.mem_map_of_mem placeMember,
            place.2.own_key.trans isKey⟩
        omega
      · intro nodeId idMember typeInfo isKey
        have other : 0 < ((program.bodyIds.map some).map OwnId.key).count returns.id := by
          apply List.count_pos_iff.mpr
          exact List.mem_map.mpr ⟨some nodeId, List.mem_map_of_mem idMember, isKey⟩
        omega
  rcases leaves.follows.ends ended with ⟨path, _⟩
  exact recorded_allowed path final path.last_mem returns.id typeInfo isFound rfl

/-! ## Separate annotations -/

/-- What is found for a returned type is its own type, and recording a type changes what is
found for no other node: an id for which it changes is found for one node at most. -/
structure AnnotationsSeparate (program : Program) (final : CheckState) : Prop where
  returns : ∀ function ∈ program.functions, ∀ returns, function.returns = some returns →
    ∃ typeInfo, TypeInfo.new returns = some typeInfo ∧
      final.nodeTypes returns.id = some typeInfo
  others : (points program).IsChain fun before after => ∀ nodeId,
    after.nodeTypes nodeId ≠ before.nodeTypes nodeId →
      (program.ids.map OwnId.key).count nodeId ≤ 1

/-- What the builder of the tree grants: an id is given once, the id of the builtin types is
not given to a node, and a builtin type is not an expression. -/
structure Program.Built (program : Program) : Prop where
  once : ∀ own ∈ program.ids, own ≠ none → program.ids.count own ≤ 1
  valid : some noId ∉ program.ids
  expressions : ∀ place ∈ program.places, ∀ kind, place.2 ≠ .type_ (.simple kind)

omit [UnicodeCase] in
/-- A builtin type for which a type is recorded is one that a top-level function returns. -/
theorem Program.Built.recorded_none (built : program.Built) (member : none ∈ program.recorded) :
    ∃ function ∈ program.topFunctions, ∃ kind, function.returns = some (.simple kind) := by
  rcases List.mem_append.mp member with registered | inBodies
  · rcases List.mem_map.mp registered with ⟨entry, entryMember, isNone⟩
    rcases List.mem_flatMap.mp entryMember with ⟨definition, definitionMember, isEntry⟩
    cases definition with
    | constant definition =>
        rw [List.mem_singleton.mp isEntry] at isNone
        cases isNone
    | function definition =>
        rcases List.mem_append.mp isEntry with inParameters | behind
        · rcases List.mem_flatMap.mp inParameters with ⟨argument, _, inArgument⟩
          cases argument with
          | selfReference _ | type_ _ => cases inArgument
          | ignoreArgument node ty =>
              rw [List.mem_singleton.mp inArgument] at isNone
              cases isNone
          | argument node name ty =>
              rcases List.mem_cons.mp inArgument with rfl | inName
              · cases isNone
              · rw [List.mem_singleton.mp inName] at isNone
                cases isNone
        · rcases List.mem_cons.mp behind with rfl | inReturns
          · cases isNone
          · rcases Option.map_eq_some_iff.mp (Option.mem_toList.mp inReturns) with
              ⟨returns, isReturns, rfl⟩
            refine ⟨definition, List.mem_flatMap.mpr ⟨_, definitionMember,
              List.mem_singleton_self _⟩, ?_⟩
            cases returns with
            | simple kind => exact ⟨kind, isReturns⟩
            | _ => cases isNone
    | _ => cases isEntry
  · rcases List.mem_append.mp inBodies with declared | placed
    · rcases List.mem_map.mp declared with ⟨nodeId, _, isNone⟩
      cases isNone
    · rcases List.mem_map.mp placed with ⟨place, placeMember, isNone⟩
      rcases Expression.own_none isNone with ⟨kind, isType⟩
      exact absurd isType (built.expressions place placeMember kind)

omit [UnicodeCase] in
/-- The ids found for one node only. -/
theorem Program.Built.recorded_once (built : program.Built)
    (builtin : ∀ function ∈ program.topFunctions, ∀ kind,
      function.returns = some (.simple kind) → program.ids.count none ≤ 1) {own : OwnId}
    (member : own ∈ program.recorded) : (program.ids.map OwnId.key).count own.key ≤ 1 := by
  have occurs : 0 < program.ids.count own := by
    have inside := program.recorded_count own
    have recorded : 0 < program.recorded.count own := List.count_pos_iff.mpr member
    omega
  have invalid : program.ids.count (some noId) = 0 := List.count_eq_zero.mpr built.valid
  rw [key_count]
  cases own with
  | none =>
      rcases built.recorded_none member with ⟨function, isTop, kind, returns⟩
      have few := builtin function isTop kind returns
      change program.ids.count (some noId) + (if noId = noId then program.ids.count none else 0) ≤ 1
      rw [if_pos rfl]
      omega
  | some nodeId =>
      have notNoId : nodeId ≠ noId := by
        intro same
        rw [same] at occurs
        omega
      change program.ids.count (some nodeId) +
        (if nodeId = noId then program.ids.count none else 0) ≤ 1
      rw [if_neg notNoId]
      exact built.once _ (List.count_pos_iff.mp occurs) (Option.some_ne_none nodeId)

/-- The annotations are separate exactly where no function inside of another definition
declares a returned type, and a top-level function that returns a builtin type has the only
builtin type of the program. -/
theorem annotationsSeparate_iff (program : Program) (built : program.Built) {value : Unit}
    {final : CheckState} {errors : List TypeCheckError}
    (ended : (checkProgram program initialState).outcome = some (value, final, errors)) :
    AnnotationsSeparate program final ↔
      (∀ function ∈ program.nestedFunctions, function.returns = none) ∧
        ∀ function ∈ program.topFunctions, ∀ kind, function.returns = some (.simple kind) →
          program.ids.count none ≤ 1 := by
  have leaves := checkProgram_recorded program
  rcases leaves.follows.ends ended with ⟨path, _⟩
  constructor
  · intro separate
    -- a type is found for the id in the end, so that a recording has changed what is found
    have once : ∀ function ∈ program.functions, ∀ returns, function.returns = some returns →
        (program.ids.map OwnId.key).count returns.id ≤ 1 := by
      intro function member returns isReturns
      by_contra many
      have same : (points program).IsChain fun before after =>
          before.nodeTypes returns.id = after.nodeTypes returns.id := by
        apply separate.others.imp
        intro before after others
        by_contra changed
        exact many (others returns.id fun same => changed same.symm)
      have transitive : IsTrans CheckState fun before after =>
          before.nodeTypes returns.id = after.nodeTypes returns.id :=
        ⟨fun _ _ _ left right => left.trans right⟩
      rcases separate.returns function member returns isReturns with ⟨typeInfo, _, found⟩
      have none_eq : initialState.nodeTypes returns.id = final.nodeTypes returns.id := by
        rcases List.mem_cons.mp path.last_mem with rfl | later
        · rfl
        · exact List.rel_of_pairwise_cons (List.isChain_iff_pairwise.mp same) later
      rw [found] at none_eq
      cases none_eq
    constructor
    · intro function nested
      by_contra declares
      rcases Option.ne_none_iff_exists'.mp declares with ⟨returns, isReturns⟩
      have member : function ∈ program.functions := Program.mem_functions.mpr (.inr nested)
      have few := once function member returns isReturns
      have inside := program.recorded_key_count returns.id
      have occurs : 0 < ((program.nestedFunctions.flatMap returnsOwn).map OwnId.key).count
          returns.id := by
        apply List.count_pos_iff.mpr
        refine List.mem_map.mpr ⟨returns.own, List.mem_flatMap.mpr ⟨function, nested, ?_⟩,
          returns.own_key⟩
        rw [returnsOwn, isReturns]
        exact List.mem_singleton_self _
      rcases separate.returns function member returns isReturns with ⟨typeInfo, _, found⟩
      rcases recorded_allowed path final path.last_mem returns.id typeInfo found with
        ⟨own, ownMember, isKey⟩
      have recorded : 0 < (program.recorded.map OwnId.key).count returns.id :=
        List.count_pos_iff.mpr (List.mem_map.mpr ⟨own, ownMember, isKey⟩)
      omega
    · intro function top kind isReturns
      have member : function ∈ program.functions := Program.mem_functions.mpr (.inl top)
      have few := once function member (.simple kind) isReturns
      rw [key_count] at few
      change program.ids.count (some noId) +
        (if noId = noId then program.ids.count none else 0) ≤ 1 at few
      rw [if_pos rfl] at few
      omega
  · rintro ⟨nested, builtin⟩
    constructor
    · intro function member returns isReturns
      rcases Program.mem_functions.mp member with top | isNested
      · apply returns_own program top isReturns _ ended
        rw [← returns.own_key]
        apply built.recorded_once builtin
        exact List.mem_append_left _ (List.mem_map_of_mem (returns_registered top isReturns))
      · rw [nested function isNested] at isReturns
        cases isReturns
    · apply path.isChain.imp
      intro before after step nodeId changed
      rcases step.changed changed with ⟨_, ⟨own, member, rfl⟩, _⟩
      exact built.recorded_once builtin member

end

/-- A function without parameters and statements, whose nodes have the ids from the given
one on. -/
def returningType (first : Nat) (name : String) (type : Type_) : Definition :=
  .function {
    toNode := lineNode first
    name := { toNode := lineNode (first + 1), name }
    returns := some type
    body := .mk .block (lineNode (first + 2)) [] }

def returning (first : Nat) (name : String) (kind : SimpleTypeKind) : Definition :=
  returningType first name (.simple kind)

/-- `struct Point { x: i32; }`, with two functions that return it. -/
def returningPoints : Program :=
  [{ definitions := [
      .struct_ {
        toNode := lineNode 1
        name := { toNode := lineNode 2, name := "Point" }
        fields := [{ toNode := lineNode 3, name := { toNode := lineNode 4, name := "x" }
                     type_ := .simple .i32 }] },
      returningType 5 "origin" (.custom { toNode := lineNode 8, name := "Point" }),
      returningType 9 "corner" (.custom { toNode := lineNode 12, name := "Point" })] }]

theorem annotationsSeparate_iff_points :
    ∃ final, (checkProgram returningPoints initialState).outcome = some ((), final, []) ∧
      AnnotationsSeparate returningPoints final := by
  refine ⟨_, rfl, (annotationsSeparate_iff returningPoints
    ⟨by decide, by decide, fun _ member => by cases member⟩ rfl).mpr ⟨?_, ?_⟩⟩
  · intro function member
    cases member
  · intro function member kind isSimple
    rcases List.mem_pair.mp member with rfl | rfl <;> cases isSimple

/-- Of two functions that return different builtin types, the type found for the first one
is that of the second one. -/
theorem twoReturns_notSeparate :
    ∃ final, (checkProgram [{ definitions := [returning 1 "f" .i32, returning 4 "g" .bool] }]
        initialState).outcome = some ((), final, []) ∧
      ¬ AnnotationsSeparate
        [{ definitions := [returning 1 "f" .i32, returning 4 "g" .bool] }] final := by
  refine ⟨_, rfl, ?_⟩
  intro separate
  rcases separate.returns _ List.mem_cons_self (.simple .i32) rfl with ⟨typeInfo, isOwn, found⟩
  cases isOwn
  cases found

end Inference.TypeChecker

import Inference.TypeChecker.ExpressionPanics
import Inference.TypeChecker.ProgramChecker

/-! # Panics of the checker

The checker converts every type that is declared in a signature, a field, an alias or a block. It
returns if and only if all of them are sized, since nothing else that it does can panic.
-/

namespace Inference.TypeChecker

open Inference.Ast Inference.Foundation Collecting

/-! ## Declared types -/

mutual

/-- The types that the definitions in a statement are written with. -/
def statementTypes : Statement → List Type_
  | .block block => blockTypes block
  | .loop _ _ body => blockTypes body
  | .if_ _ _ ifArm elseArm =>
      blockTypes ifArm ++
        (match elseArm with
          | some elseArm => blockTypes elseArm
          | none => [])
  | .variableDefinition _ _ ty _ | .typeDefinition _ _ ty => [ty]
  | .constantDefinition definition => [definition.ty]
  | .expression _ | .assign _ _ _ | .return_ _ _ | .break_ _ | .assert _ _ => []

def blockTypes : BlockType → List Type_
  | .mk _ _ statements => statementListTypes statements

def statementListTypes : List Statement → List Type_
  | [] => []
  | head :: tail => statementTypes head ++ statementListTypes tail

end

def signatureTypes (arguments : Option (List ArgumentType)) (returns : Option Type_) :
    List Type_ :=
  paramTypes arguments ++ returns.toList

def functionTypes (definition : FunctionDefinition) : List Type_ :=
  signatureTypes definition.arguments definition.returns ++ blockTypes definition.body

/-- The types that a definition is written with. The definitions in a spec or in a module are not
checked. -/
def definitionTypes : Definition → List Type_
  | .struct_ definition =>
      definition.fields.map (·.type_) ++ definition.methods.flatMap functionTypes
  | .constant definition => [definition.ty]
  | .function definition => functionTypes definition
  | .externalFunction definition => signatureTypes definition.arguments definition.returns
  | .type_ definition => [definition.ty]
  | .spec _ _ _ | .enum _ | .module_ _ _ _ => []

def Program.declaredTypes (program : Program) : List Type_ :=
  program.definitions.flatMap definitionTypes

/-- All types of the list are sized. -/
def Sized (types : List Type_) : Prop :=
  ∀ type ∈ types, isSized type = true

theorem sized_append {types more : List Type_} :
    Sized (types ++ more) ↔ Sized types ∧ Sized more :=
  List.forall_mem_append

theorem sized_single {type : Type_} : Sized [type] ↔ isSized type = true :=
  List.forall_mem_singleton

theorem sized_nil : Sized [] ↔ True :=
  iff_of_true (fun _ member => nomatch member) trivial

theorem sized_flatMap {item : Type} {items : List item} {types : item → List Type_} :
    Sized (items.flatMap types) ↔ ∀ element ∈ items, Sized (types element) := by
  simp only [Sized, List.forall_mem_flatMap]

/-! ## Statements -/

theorem register_returns (change : SymbolTable → Except String SymbolTable)
    (onFailure : String → TypeCheckError) : Total (register change onFailure) := by
  apply ReturnsIff.bind_total (.read _)
  intro table
  split
  · exact .update _
  · exact pushError_returns _

theorem pushVariable_returns (name : Identifier) (location : Location) (typeInfo : TypeInfo) :
    Total (pushVariable name location typeInfo) :=
  register_returns _ _

theorem inScope_returns {condition : Prop} {body : CheckM Unit}
    (returns : ReturnsIff condition body) : ReturnsIff condition (inScope body) :=
  .bind_total (.update _) fun _ => .bind_front returns fun _ => .update _

theorem checkCondition_returns (location : Location) (conditionType : Option TypeInfo) :
    Total (checkCondition location conditionType) := by
  cases conditionType with
  | none => exact pushError_returns _
  | some typeInfo => exact .ite (.pure _) (pushError_returns _)

theorem compareTypes_returns (expected found : TypeInfo) (context : TypeMismatchContext)
    (location : Location) : Total (compareTypes expected found context location) :=
  .ite (.pure _) (pushError_returns _)

/-- A type is converted first and what is done with it returns. -/
theorem typeInfoOf_bind_returns {next : TypeInfo → CheckM Unit} (type : Type_)
    (returns : ∀ typeInfo, Total (next typeInfo)) :
    ReturnsIff (Sized [type]) (typeInfoOf type >>= next) :=
  (ReturnsIff.bind_front (typeInfoOf_returns type) returns).of_iff sized_single.symm

section

variable [UnicodeCase]

theorem inferInitial_returns (node : Node) (targetType : TypeInfo) (value : Option Expression)
    (built : ∀ inner ∈ optionNodes value, AsBuilt inner) :
    Total (inferInitial node targetType value) := by
  unfold inferInitial
  split
  · exact .update _
  · rename_i value _
    apply ReturnsIff.bind_total (inferExpression_returns value built)
    intro initType
    cases initType with
    | none => exact .pure _
    | some initType => exact compareTypes_returns _ _ _ _
  · exact .pure _

theorem inferAssigned_returns (node : Node) (targetType : Option TypeInfo) (right : Expression)
    (built : ∀ inner ∈ right.nodes, AsBuilt inner) :
    Total (inferAssigned node targetType right) := by
  unfold inferAssigned
  split
  · cases targetType with
    | none => exact pushError_returns _
    | some targetType => exact .update _
  · apply ReturnsIff.bind_total (inferExpression_returns right built)
    intro valueType
    unfold compareAssigned
    split
    · exact compareTypes_returns _ _ _ _
    · exact .pure _

theorem inferReturned_returns (node : Node) (returnType : TypeInfo) (value : Expression)
    (built : ∀ inner ∈ value.nodes, AsBuilt inner) :
    Total (inferReturned node returnType value) := by
  unfold inferReturned
  split
  · exact .update _
  · apply ReturnsIff.bind_total (inferExpression_returns value built)
    intro valueType
    exact compareTypes_returns _ _ _ _

mutual

/-- The checks of a statement return if and only if the types declared in it are sized. -/
theorem inferStatement_returns (returnType : TypeInfo) : (statement : Statement) →
    (∀ inner ∈ statement.nodes, AsBuilt inner) →
      ReturnsIff (Sized (statementTypes statement)) (inferStatement returnType statement)
  | .block block, built => by
      rw [inferStatement, statementTypes]
      exact inScope_returns (inferBlock_returns returnType block built)
  | .expression expression, built => by
      rw [inferStatement, statementTypes]
      have inferred : Total (inferExpression expression) :=
        inferExpression_returns expression built
      exact (ReturnsIff.bind_total inferred fun _ => .pure _).of_iff sized_nil.symm
  | .assign node left right, built => by
      simp only [Statement.nodes, List.forall_mem_append] at built
      rw [inferStatement, statementTypes]
      have assigned : Total (inferExpression left >>= fun targetType =>
          inferAssigned node targetType right) :=
        .bind_total (inferExpression_returns left built.1) fun targetType =>
          inferAssigned_returns node targetType right built.2
      exact assigned.of_iff sized_nil.symm
  | .return_ node expression, built => by
      rw [inferStatement, statementTypes]
      exact (inferReturned_returns node returnType expression built).of_iff sized_nil.symm
  | .loop node condition body, built => by
      simp only [Statement.nodes, List.forall_mem_append] at built
      unfold inferStatement statementTypes
      have bodyReturns := inScope_returns (inferBlock_returns returnType body built.2)
      cases condition with
      | none => exact bodyReturns
      | some condition =>
          apply ReturnsIff.bind_total (inferExpression_returns condition built.1)
          intro conditionType
          exact .bind_total (checkCondition_returns _ conditionType) fun _ => bodyReturns
  | .break_ _, _ => by
      rw [inferStatement, statementTypes]
      exact (ReturnsIff.pure _).of_iff sized_nil.symm
  | .if_ node condition ifArm elseArm, built => by
      unfold Statement.nodes at built
      simp only [List.forall_mem_append] at built
      unfold inferStatement statementTypes
      apply ReturnsIff.bind_total (inferExpression_returns condition built.1.1)
      intro conditionType
      apply ReturnsIff.bind_total (checkCondition_returns _ conditionType)
      intro _
      have ifReturns := inScope_returns (inferBlock_returns returnType ifArm built.1.2)
      refine (ifReturns.bind fun _ => ?_).of_iff sized_append.symm
      cases elseArm with
      | none => exact (ReturnsIff.pure _).of_iff sized_nil.symm
      | some elseArm => exact inScope_returns (inferBlock_returns returnType elseArm built.2)
  | .variableDefinition node name ty value, built => by
      simp only [Statement.nodes, List.forall_mem_append] at built
      rw [inferStatement, statementTypes]
      apply typeInfoOf_bind_returns
      intro targetType
      apply ReturnsIff.bind_total (inferInitial_returns node targetType value built.2)
      intro _
      apply ReturnsIff.bind_total (pushVariable_returns _ _ _)
      intro _
      exact .bind_total (.update _) fun _ => .update _
  | .typeDefinition node name ty, _ => by
      rw [inferStatement, statementTypes]
      exact typeInfoOf_bind_returns ty fun typeInfo => register_returns _ _
  | .assert node expression, built => by
      rw [inferStatement, statementTypes]
      have checked : Total (inferExpression expression >>= fun conditionType =>
          checkCondition node.location conditionType) :=
        .bind_total (inferExpression_returns expression built) (checkCondition_returns _)
      exact checked.of_iff sized_nil.symm
  | .constantDefinition definition, _ => by
      rw [inferStatement, statementTypes]
      apply typeInfoOf_bind_returns
      intro constantType
      apply ReturnsIff.bind_total (pushVariable_returns _ _ _)
      intro _
      exact .bind_total (.update _) fun _ => .update _

theorem inferBlock_returns (returnType : TypeInfo) : (block : BlockType) →
    (∀ inner ∈ block.nodes, AsBuilt inner) →
      ReturnsIff (Sized (blockTypes block)) (inferBlock returnType block)
  | .mk _ _ statements, built => by
      rw [inferBlock, blockTypes]
      exact inferStatements_returns returnType statements built

theorem inferStatements_returns (returnType : TypeInfo) : (statements : List Statement) →
    (∀ inner ∈ statementListNodes statements, AsBuilt inner) →
      ReturnsIff (Sized (statementListTypes statements)) (inferStatements returnType statements)
  | [], _ => by
      rw [inferStatements, statementListTypes]
      exact (ReturnsIff.pure _).of_iff sized_nil.symm
  | statement :: rest, built => by
      simp only [statementListNodes, List.forall_mem_append] at built
      rw [inferStatements, statementListTypes]
      have restReturns := inferStatements_returns returnType rest built.2
      exact ((inferStatement_returns returnType statement built.1).bind fun _ =>
        restReturns).of_iff sized_append.symm

end

/-! ## Registrations -/

omit [UnicodeCase] in
theorem declaredReturnType_returns (returns : Option Type_) (typeParams : List String) :
    ReturnsIff (Sized returns.toList) (declaredReturnType returns typeParams) := by
  cases returns with
  | none => exact (ReturnsIff.pure _).of_iff sized_nil.symm
  | some returns =>
      exact (typeInfoWithTypeParams_returns returns typeParams).of_iff sized_single.symm

omit [UnicodeCase] in
private theorem mapM_isSome {item value : Type} (items : List item) (convert : item → Option value) :
    (items.mapM convert).isSome ↔ ∀ element ∈ items, (convert element).isSome := by
  induction items with
  | nil => exact iff_of_true rfl fun _ member => nomatch member
  | cons head tail induction =>
      rw [List.mapM_cons, List.forall_mem_cons, ← induction]
      cases convert head with
      | none => exact iff_of_false Bool.false_ne_true fun both => Bool.false_ne_true both.1
      | some known =>
          cases tail.mapM convert with
          | none => exact iff_of_false Bool.false_ne_true fun both => Bool.false_ne_true both.2
          | some rest => exact iff_of_true rfl ⟨rfl, rfl⟩

omit [UnicodeCase] in
theorem typeInfosWithTypeParams_returns (types : List Type_) (names : List String) :
    ReturnsIff (Sized types) (typeInfosWithTypeParams types names) := by
  apply (ReturnsIff.expect _).of_iff
  rw [mapM_isSome]
  simp only [newWithTypeParams_isSome, Sized]

omit [UnicodeCase] in
theorem fieldInfos_returns (fields : List StructField) :
    ReturnsIff (Sized (fields.map (·.type_))) (fieldInfos fields) := by
  apply (ReturnsIff.expect _).of_iff
  rw [mapM_isSome]
  simp only [Option.isSome_map, TypeInfo.new, newWithTypeParams_isSome, Sized, List.forall_mem_map]

omit [UnicodeCase] in
theorem registerMethodOf_returns (structName : String) (method : FunctionDefinition) :
    ReturnsIff (Sized (signatureTypes method.arguments method.returns))
      (registerMethodOf structName method) := by
  apply ReturnsIff.of_iff _ sized_append.symm
  apply (typeInfosWithTypeParams_returns _ _).bind
  intro parameterTypes
  apply ReturnsIff.bind_front (declaredReturnType_returns _ _)
  intro returnType
  exact .bind_total (.read _) fun _ => register_returns _ _

/-- The types that the registration of types converts. -/
def registeredTypesOf : Definition → List Type_
  | .struct_ definition =>
      definition.fields.map (·.type_) ++
        definition.methods.flatMap fun method => signatureTypes method.arguments method.returns
  | .type_ definition => [definition.ty]
  | _ => []

omit [UnicodeCase] in
theorem registerTypeDefinition_returns (definition : Definition) :
    ReturnsIff (Sized (registeredTypesOf definition)) (registerTypeDefinition definition) := by
  cases definition with
  | type_ definition => exact typeInfoOf_bind_returns _ fun _ => register_returns _ _
  | struct_ definition =>
      apply ReturnsIff.of_iff _ sized_append.symm
      apply (fieldInfos_returns definition.fields).bind
      intro fields
      apply ReturnsIff.bind_total (register_returns _ _)
      intro _
      exact (ReturnsIff.forM fun method _ => registerMethodOf_returns _ method).of_iff
        sized_flatMap.symm
  | enum definition => exact (register_returns _ _).of_iff sized_nil.symm
  | spec node name definitions => exact (register_returns _ _).of_iff sized_nil.symm
  | _ => exact (ReturnsIff.pure _).of_iff sized_nil.symm

omit [UnicodeCase] in
theorem resolveImport_returns (scopeId : Nat) (location : Location) (path : List String)
    (localName failedPath : String) :
    Total (resolveImport scopeId location path localName failedPath) := by
  apply ReturnsIff.bind_total (.read _)
  intro table
  split
  · have added : ∀ resolved, Total (addResolvedImport scopeId resolved) := fun _ => .update _
    apply ReturnsIff.ite (added _)
    exact .bind_total (checkAndReportVisibility_returns _ _ _ _) fun _ => added _
  · exact pushError_returns _

omit [UnicodeCase] in
theorem resolveImportItem_returns (scopeId : Nat) (item : Import) :
    Total (resolveImportItem scopeId item) := by
  unfold resolveImportItem
  split
  · split
    · exact resolveImport_returns _ _ _ _ _
    · exact .pure _
  · exact .forM_total fun _ => resolveImport_returns _ _ _ _ _

omit [UnicodeCase] in
theorem resolveImports_returns : Total resolveImports := by
  apply ReturnsIff.bind_total (.read _)
  intro table
  apply ReturnsIff.forM_total
  intro scopeId
  apply ReturnsIff.bind_total (.read _)
  intro current
  split
  · exact .forM_total (resolveImportItem_returns scopeId)
  · exact .pure _

theorem requireType_returns (typeParams : List String) (identifier : Identifier) :
    Total (requireType typeParams identifier) := by
  apply ReturnsIff.ite (.pure _)
  apply ReturnsIff.bind_total (.read _)
  intro table
  split
  · exact .pure _
  · exact pushErrorDedup_returns _

theorem validateType_returns (typeParams : List String) (type : Type_) :
    Total (validateType typeParams type) := by
  cases type with
  | array node elementType size =>
      rw [validateType]
      exact validateType_returns typeParams elementType
  | generic node base parameters =>
      rw [validateType]
      exact .bind_total (requireType_returns _ _) fun _ =>
        .forM_total (requireType_returns typeParams)
  | custom identifier =>
      rw [validateType]
      exact requireType_returns _ _
  | _ =>
      rw [validateType]
      exact .pure _

/-- The types of the parameters that are registered and checked, one by one. -/
def validatedTypes : ArgumentType → List Type_
  | .ignoreArgument _ ty | .argument _ _ ty => [ty]
  | .selfReference _ | .type_ _ => []

theorem collectParameter_returns (definition : FunctionDefinition) (argument : ArgumentType) :
    ReturnsIff (Sized (validatedTypes argument)) (collectParameter definition argument) := by
  cases argument with
  | selfReference node => exact (pushError_returns _).of_iff sized_nil.symm
  | ignoreArgument node ty =>
      apply ReturnsIff.bind_total (validateType_returns _ ty)
      intro _
      exact typeInfoOf_bind_returns ty fun _ => .update _
  | argument node name ty =>
      apply ReturnsIff.bind_total (validateType_returns _ ty)
      intro _
      exact typeInfoOf_bind_returns ty fun _ => .bind_total (.update _) fun _ => .update _
  | type_ type => exact (validateType_returns _ type).of_iff sized_nil.symm

omit [UnicodeCase] in
theorem registerFunctionNamed_returns (name : String) (location : Location)
    (typeParams : List String) (arguments : Option (List ArgumentType)) (returns : Option Type_) :
    ReturnsIff (Sized (signatureTypes arguments returns))
      (registerFunctionNamed name location typeParams arguments returns) := by
  apply ReturnsIff.of_iff _ sized_append.symm
  apply (typeInfosWithTypeParams_returns _ _).bind
  intro parameterTypes
  exact .bind_front (declaredReturnType_returns _ _) fun _ => register_returns _ _

omit [UnicodeCase] in
theorem collectReturnType_returns [UnicodeCase] (definition : FunctionDefinition)
    (returns : Option Type_) :
    ReturnsIff (Sized returns.toList) (collectReturnType definition returns) := by
  cases returns with
  | none => exact (ReturnsIff.pure _).of_iff sized_nil.symm
  | some returns =>
      apply ReturnsIff.bind_total (validateType_returns _ returns)
      intro _
      exact typeInfoOf_bind_returns returns fun _ => .update _

omit [UnicodeCase] in
/-- The types of the parameters are those of a signature. -/
theorem Sized.validated {arguments : Option (List ArgumentType)}
    (sized : Sized (paramTypes arguments)) :
    ∀ argument ∈ arguments.getD [], Sized (validatedTypes argument) := by
  intro argument member type written
  apply sized type
  apply List.mem_filterMap.mpr
  refine ⟨argument, member, ?_⟩
  cases argument with
  | selfReference _ | type_ _ => cases written
  | ignoreArgument _ _ | argument _ _ _ =>
      rw [List.mem_singleton.mp written]
      rfl

theorem collectFunction_returns (definition : FunctionDefinition) :
    ReturnsIff (Sized (signatureTypes definition.arguments definition.returns))
      (collectFunction definition) := by
  have parameters : ReturnsIff _ ((definition.arguments.getD []).forM
      (collectParameter definition)) :=
    .forM fun argument _ => collectParameter_returns definition argument
  have registers := (collectReturnType_returns definition definition.returns).bind fun _ =>
    registerFunctionNamed_returns definition.name.name definition.location
      (typeParamNames definition.typeParameters) definition.arguments definition.returns
  apply (parameters.bind fun _ => .bind_total (.update _) fun _ => registers).of_iff
  constructor
  · exact fun all => all.2.2
  · intro sized
    have split := sized_append.mp sized
    exact ⟨split.1.validated, split.2, sized⟩

/-- The types that the registration of functions and constants converts. -/
def collectedTypesOf : Definition → List Type_
  | .constant definition => [definition.ty]
  | .function definition => signatureTypes definition.arguments definition.returns
  | .externalFunction definition => signatureTypes definition.arguments definition.returns
  | _ => []

theorem collectDefinition_returns (definition : Definition) :
    ReturnsIff (Sized (collectedTypesOf definition)) (collectDefinition definition) := by
  cases definition with
  | constant definition =>
      apply typeInfoOf_bind_returns
      intro constType
      exact .bind_total (pushVariable_returns _ _ _) fun _ => .update _
  | function definition => exact collectFunction_returns definition
  | externalFunction definition => exact registerFunctionNamed_returns _ _ _ _ _
  | _ => exact (ReturnsIff.pure _).of_iff sized_nil.symm

/-! ## Bodies -/

/-- The types of the parameters that a body can use. -/
def boundTypes : ArgumentType → List Type_
  | .argument _ _ ty => [ty]
  | .selfReference _ | .ignoreArgument _ _ | .type_ _ => []

omit [UnicodeCase] in
theorem Sized.bound {arguments : Option (List ArgumentType)}
    (sized : Sized (paramTypes arguments)) :
    ∀ argument ∈ arguments.getD [], Sized (boundTypes argument) := by
  intro argument member
  have written := sized.validated argument member
  cases argument with
  | argument _ _ _ => exact written
  | _ => exact sized_nil.mpr trivial

omit [UnicodeCase] in
theorem declareParameter_returns (typeParams : List String) (argument : ArgumentType) :
    ReturnsIff (Sized (boundTypes argument)) (declareParameter typeParams argument) := by
  cases argument with
  | argument node name ty =>
      apply ReturnsIff.of_iff _ sized_single.symm
      exact .bind_front (typeInfoWithTypeParams_returns ty typeParams) fun _ =>
        pushVariable_returns _ _ _
  | selfReference node => exact (pushError_returns _).of_iff sized_nil.symm
  | _ => exact (ReturnsIff.pure _).of_iff sized_nil.symm

omit [UnicodeCase] in
theorem declareMethodParameter_returns (selfType : TypeInfo) (argument : ArgumentType) :
    ReturnsIff (Sized (boundTypes argument)) (declareMethodParameter selfType argument) := by
  cases argument with
  | argument node name ty =>
      exact typeInfoOf_bind_returns ty fun _ => pushVariable_returns _ _ _
  | selfReference node => exact (pushVariable_returns _ _ _).of_iff sized_nil.symm
  | _ => exact (ReturnsIff.pure _).of_iff sized_nil.symm

/-- The types that the check of a body converts. -/
def bodyTypes (definition : FunctionDefinition) : List Type_ :=
  (definition.arguments.getD []).flatMap boundTypes ++
    (definition.returns.toList ++ blockTypes definition.body)

/-- A body is checked where its parameters are declared. -/
theorem inferBody_returns {definition : FunctionDefinition} {declare : ArgumentType → CheckM Unit}
    (declares : ∀ argument, ReturnsIff (Sized (boundTypes argument)) (declare argument))
    (typeParams : List String)
    (built : ∀ inner ∈ definition.nodes, AsBuilt inner) :
    ReturnsIff (Sized (bodyTypes definition)) (inScope do
      (definition.arguments.getD []).forM declare
      let returnType ← declaredReturnType definition.returns typeParams
      inferBlock returnType definition.body) := by
  have bodyBuilt : ∀ inner ∈ definition.body.nodes, AsBuilt inner := fun inner member =>
    built inner (List.mem_append_right _ member)
  apply inScope_returns
  rw [bodyTypes]
  refine ReturnsIff.of_iff ?_ sized_append.symm
  refine ReturnsIff.bind ((ReturnsIff.forM fun argument _ => declares argument).of_iff
    sized_flatMap.symm) fun _ => ?_
  refine ReturnsIff.of_iff ?_ sized_append.symm
  exact (declaredReturnType_returns _ typeParams).bind fun returnType =>
    inferBlock_returns returnType definition.body bodyBuilt

/-- The types that the check of a definition converts. -/
def checkedTypesOf : Definition → List Type_
  | .function definition => bodyTypes definition
  | .struct_ definition => definition.methods.flatMap bodyTypes
  | _ => []

theorem inferDefinition_returns (definition : Definition)
    (built : ∀ inner ∈ definition.nodes, AsBuilt inner) :
    ReturnsIff (Sized (checkedTypesOf definition)) (inferDefinition definition) := by
  cases definition with
  | function definition => exact inferBody_returns (declareParameter_returns _) _ built
  | struct_ definition =>
      refine ReturnsIff.of_iff (ReturnsIff.forM fun method member => ?_) sized_flatMap.symm
      apply inferBody_returns (declareMethodParameter_returns _)
      intro inner inMethod
      apply built
      exact List.mem_append_right _ (List.mem_flatMap.mpr ⟨method, member, inMethod⟩)
  | _ => exact (ReturnsIff.pure _).of_iff sized_nil.symm

omit [UnicodeCase] in
/-- The phases convert the types of the definitions and no others. -/
theorem sized_definitionTypes (definition : Definition) :
    Sized (registeredTypesOf definition) ∧ Sized (collectedTypesOf definition) ∧
        Sized (checkedTypesOf definition) ↔ Sized (definitionTypes definition) := by
  have body : ∀ function : FunctionDefinition,
      Sized (signatureTypes function.arguments function.returns) ∧ Sized (bodyTypes function) ↔
        Sized (functionTypes function) := by
    intro function
    simp only [functionTypes, bodyTypes, signatureTypes, sized_append, sized_flatMap]
    constructor
    · rintro ⟨signature, -, -, block⟩
      exact ⟨signature, block⟩
    · rintro ⟨signature, block⟩
      exact ⟨signature, signature.1.bound, signature.2, block⟩
  cases definition with
  | function definition =>
      simp only [registeredTypesOf, collectedTypesOf, checkedTypesOf, definitionTypes, sized_nil,
        true_and]
      exact body definition
  | struct_ definition =>
      simp only [registeredTypesOf, collectedTypesOf, checkedTypesOf, definitionTypes, sized_nil,
        true_and, sized_append, sized_flatMap, and_assoc, ← body]
      constructor
      · rintro ⟨fields, signatures, bodies⟩
        exact ⟨fields, fun method member => ⟨signatures method member, bodies method member⟩⟩
      · rintro ⟨fields, methods⟩
        exact ⟨fields, fun method member => (methods method member).1,
          fun method member => (methods method member).2⟩
  | _ =>
      simp only [registeredTypesOf, collectedTypesOf, checkedTypesOf, definitionTypes, sized_nil,
        true_and, and_true]

/-! ## Programs -/

/-- All expressions that occur in the definitions of a program. -/
def Program.expressions (program : Program) : List Expression :=
  program.definitions.flatMap Definition.nodes

/-- The checker returns from every state if and only if the declared types are sized. -/
theorem checkProgram_returns (program : Program)
    (built : ∀ inner ∈ program.expressions, AsBuilt inner) :
    ReturnsIff (Sized program.declaredTypes) (checkProgram program) := by
  have imports : Total (processDirectives program) :=
    .forM_total fun _ => register_returns _ _
  have types : ReturnsIff (∀ definition ∈ program.definitions, Sized (registeredTypesOf definition))
      (registerTypes program) :=
    .forM fun definition _ => registerTypeDefinition_returns definition
  have collects : ReturnsIff (∀ definition ∈ program.definitions, Sized (collectedTypesOf definition))
      (collectFunctionAndConstantDefinitions program) :=
    .forM fun definition _ => collectDefinition_returns definition
  have bodies : ReturnsIff (∀ definition ∈ program.definitions, Sized (checkedTypesOf definition))
      (program.definitions.forM inferDefinition) := by
    apply ReturnsIff.forM
    intro definition member
    apply inferDefinition_returns
    intro inner inDefinition
    exact built inner (List.mem_flatMap.mpr ⟨definition, member, inDefinition⟩)
  have registers := imports.bind_total fun _ => types.bind fun _ =>
    resolveImports_returns.bind_total fun _ => collects
  apply (registers.bind fun _ => bodies).of_iff
  rw [Program.declaredTypes, sized_flatMap]
  simp only [← sized_definitionTypes]
  constructor
  · rintro ⟨⟨registered, collected⟩, checked⟩
    exact fun definition member =>
      ⟨registered definition member, collected definition member, checked definition member⟩
  · intro all
    exact ⟨⟨fun definition member => (all definition member).1,
      fun definition member => (all definition member).2.1⟩,
      fun definition member => (all definition member).2.2⟩

/-- The type that is inferred for an array literal has the length of the literal. -/
theorem inferLiteral_length {node : Node} {elements : List Expression} {before after : CheckState}
    {found : TypeInfo} {errors : List TypeCheckError} (short : elements.length < 2 ^ 32)
    (unrecorded : before.nodeTypes node.id = none)
    (ended : (inferLiteral (.array node (some elements))).Ends before (some found) after errors) :
    ∃ elementType, found.kind = .array elementType elements.length := by
  unfold inferLiteral at ended
  rcases ends_bind.mp ended with ⟨recorded, middle, _, _, read, inferred, -⟩
  rcases ends_read.mp read with ⟨rfl, rfl, -⟩
  rw [unrecorded] at inferred
  cases elements with
  | nil => exact (ends_abort.mp inferred).elim
  | cons first rest =>
      rcases ends_bind.mp inferred with ⟨elementType, _, _, _, -, compared, -⟩
      cases elementType with
      | none => cases (ends_pure.mp compared).1
      | some elementType =>
          rcases ends_bind.mp compared with ⟨_, _, _, _, -, recording, -⟩
          rcases ends_bind.mp recording with ⟨_, _, _, _, -, returned, -⟩
          cases (ends_pure.mp returned).1
          have same : (rest.length + 1) % 2 ^ 32 = (first :: rest).length := Nat.mod_eq_of_lt short
          exact ⟨elementType, congrArg (TypeInfoKind.array elementType) same⟩

/-- The checker returns a context or the errors, every type that it meets has a type information,
and the length of an array literal is not truncated. -/
structure ChecksSafely (program : Program) : Prop where
  returns : (buildTypedContext program).isSome
  converts : ∀ type, type ∈ program.declaredTypes ∨ .type_ type ∈ program.expressions →
    ∀ names, (TypeInfo.newWithTypeParams type names).isSome
  lengths : ∀ node elements, .literal (.array node (some elements)) ∈ program.expressions →
    ∀ {before after found errors}, before.nodeTypes node.id = none →
      (inferLiteral (.array node (some elements))).Ends before (some found) after errors →
        ∃ elementType, found.kind = .array elementType elements.length

/-- The checker is safe on a program of the builder if and only if every array type that is
declared in it, at any depth, has a number literal of 32 bits as its size. -/
theorem checksSafely_iff (program : Program)
    (built : ∀ expression ∈ program.expressions, AsBuilt expression) :
    ChecksSafely program ↔ Sized program.declaredTypes := by
  have returns := (checkProgram_returns program built).outcome initialState
  constructor
  · intro safe
    apply returns.mp
    have context := safe.returns
    rwa [buildTypedContext, Option.isSome_map] at context
  · intro sized
    constructor
    · rw [buildTypedContext, Option.isSome_map]
      exact returns.mpr sized
    · rintro type (declared | written) names
      · rw [newWithTypeParams_isSome]
        exact sized type declared
      · rw [newWithTypeParams_isSome]
        exact isSized_of_asBuilt (built _ written)
    · intro node elements member before after found errors
      exact inferLiteral_length (built _ member).2

end

/-! ## Examples -/

/-- `fn name(values: [i32; size]) {}` -/
def sizedParameter (size : Expression) : Program :=
  [{ definitions := [.function {
      id := 1
      name := { id := 2, name := "first" }
      arguments := some [.argument { id := 3 } { id := 4, name := "values" }
        (.array { id := 5 } (.simple .i32) size)]
      body := .mk .block { id := 7 } [] }] }]

private theorem sizedParameter_expressions (size : Expression) :
    (sizedParameter size).expressions = size.nodes := by
  simp [Program.expressions, sizedParameter, Program.definitions, Definition.nodes,
    FunctionDefinition.nodes, signatureNodes, ArgumentType.nodes, Type_.nodes, optionTypeNodes,
    BlockType.nodes, statementListNodes]

private theorem sizedParameter_types (size : Expression) :
    Sized (sizedParameter size).declaredTypes ↔ isArraySize size = true := by
  have same : (sizedParameter size).declaredTypes =
      [.array { id := 5 } (.simple .i32) size] := by
    simp [Program.declaredTypes, sizedParameter, Program.definitions, definitionTypes,
      functionTypes, signatureTypes, paramTypes, paramType, blockTypes, statementListTypes]
  rw [same, sized_single, isSized, isSized, Bool.and_true]

private theorem sizedParameter_asBuilt (size : Expression) (single : size.nodes = [size])
    (built : AsBuilt size) : ∀ inner ∈ (sizedParameter size).expressions, AsBuilt inner := by
  rw [sizedParameter_expressions, single]
  exact List.forall_mem_singleton.mpr built

theorem checksSafely_iff_literalSize :
    ChecksSafely (sizedParameter (.literal (.number { id := 6 } "3"))) :=
  (checksSafely_iff _ (sizedParameter_asBuilt (.literal (.number { id := 6 } "3")) rfl trivial)).mpr
    ((sizedParameter_types _).mpr rfl)

/-- The function with the parameter `values: [i32; N]` makes the checker panic. -/
theorem constantSize_panics :
    ¬∀ program : Program, (∀ expression ∈ program.expressions, AsBuilt expression) →
      ChecksSafely program := by
  intro safe
  have built := sizedParameter_asBuilt (.identifier { id := 6, name := "N" }) rfl trivial
  have returned := (safe _ built).returns
  rw [buildTypedContext, Option.isSome_map] at returned
  have sized := ((checkProgram_returns _ built).outcome initialState).mp returned
  exact Bool.false_ne_true ((sizedParameter_types _).mp sized)

end Inference.TypeChecker

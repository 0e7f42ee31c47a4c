import Mathlib.Data.List.Perm.Basic
import Inference.TypeChecker.DeclaredNames

/-! # Duplicate definitions

The names that a program without errors declares in a scope are different, where the checker enters
them into a scope at all. It does not compare the fields, the methods and the variants of a type nor
the parameters of an external function, and it does not look into specs and modules.
-/

namespace Inference.TypeChecker

open Inference.Ast Inference.Foundation Collecting

/-! ## Distinct names -/

/-- The names that a statement declares in the scope that it stands in. -/
def declaredNames : Statement → List DeclaredName
  | .variableDefinition _ name _ _ => [.variable_ name.name]
  | .constantDefinition definition => [.variable_ definition.name.name]
  | .typeDefinition _ name _ => [.symbol name.name]
  | .block _ | .expression _ | .assign _ _ _ | .return_ _ _ | .loop _ _ _ | .break_ _
  | .if_ _ _ _ _ | .assert _ _ => []

mutual

/-- The names in every scope inside a statement are distinct. -/
def StatementDistinct : Statement → Prop
  | .block block => BlockDistinct block
  | .loop _ _ body => BlockDistinct body
  | .if_ _ _ ifArm elseArm =>
      BlockDistinct ifArm ∧
        (match elseArm with
          | some elseArm => BlockDistinct elseArm
          | none => True)
  | .expression _ | .assign _ _ _ | .return_ _ _ | .break_ _ | .assert _ _ => True
  | .variableDefinition _ _ _ _ | .typeDefinition _ _ _ | .constantDefinition _ => True

def BlockDistinct : BlockType → Prop
  | .mk _ _ statements =>
      (statements.flatMap declaredNames).Nodup ∧ StatementListDistinct statements

def StatementListDistinct : List Statement → Prop
  | [] => True
  | head :: tail => StatementDistinct head ∧ StatementListDistinct tail

end

def parameterNames : ArgumentType → List DeclaredName
  | .argument _ name _ => [.variable_ name.name]
  | .selfReference _ => [.variable_ "self"]
  | .ignoreArgument _ _ | .type_ _ => []

/-- The parameters and the variables of the body are declared in one scope. -/
def FunctionDistinct (definition : FunctionDefinition) : Prop :=
  ((definition.arguments.getD []).flatMap parameterNames ++
      definition.body.statements.flatMap declaredNames).Nodup ∧
    StatementListDistinct definition.body.statements

/-- The name of a definition in the scope that it stands in. -/
def definitionNames : Definition → List DeclaredName
  | .spec _ name _ => [.symbol name.name]
  | .struct_ definition => [.symbol definition.name.name]
  | .enum definition => [.symbol definition.name.name]
  | .constant definition => [.variable_ definition.name.name]
  | .function definition => [.symbol definition.name.name]
  | .externalFunction definition => [.symbol definition.name.name]
  | .type_ definition => [.symbol definition.name.name]
  | .module_ _ _ _ => []

mutual

/-- The names in every scope inside a definition are distinct, and so are the fields, the methods,
the variants and the parameters. -/
def DefinitionDistinct : Definition → Prop
  | .spec _ _ definitions =>
      (definitions.flatMap definitionNames).Nodup ∧ DefinitionListDistinct definitions
  | .struct_ definition =>
      (definition.fields.map (·.name.name)).Nodup ∧
        (definition.methods.map (·.name.name)).Nodup ∧
          ∀ method ∈ definition.methods, FunctionDistinct method
  | .enum definition => (definition.variants.map (·.name)).Nodup
  | .function definition => FunctionDistinct definition
  | .externalFunction definition =>
      ((definition.arguments.getD []).flatMap parameterNames).Nodup
  | .module_ _ _ body =>
      match body with
      | some definitions =>
          (definitions.flatMap definitionNames).Nodup ∧ DefinitionListDistinct definitions
      | none => True
  | .constant _ | .type_ _ => True

def DefinitionListDistinct : List Definition → Prop
  | [] => True
  | head :: tail => DefinitionDistinct head ∧ DefinitionListDistinct tail

end

/-- No name is defined twice in a scope of the program. The definitions of all source files are in
one scope. -/
structure Program.Distinct (program : Program) : Prop where
  top : (program.definitions.flatMap definitionNames).Nodup
  inside : ∀ definition ∈ program.definitions, DefinitionDistinct definition

/-- The names that the checker does not compare are distinct. -/
def UncheckedDistinct : Definition → Prop
  | .spec node name definitions => DefinitionDistinct (.spec node name definitions)
  | .module_ node name body => DefinitionDistinct (.module_ node name body)
  | .struct_ definition =>
      (definition.fields.map (·.name.name)).Nodup ∧ (definition.methods.map (·.name.name)).Nodup
  | .enum definition => (definition.variants.map (·.name)).Nodup
  | .externalFunction definition =>
      ((definition.arguments.getD []).flatMap parameterNames).Nodup
  | .constant _ | .function _ | .type_ _ => True

/-- The names in the bodies that are checked are distinct. -/
def CheckedDistinct : Definition → Prop
  | .function definition => FunctionDistinct definition
  | .struct_ definition => ∀ method ∈ definition.methods, FunctionDistinct method
  | .spec _ _ _ | .enum _ | .constant _ | .externalFunction _ | .type_ _ | .module_ _ _ _ => True

theorem definitionDistinct_split (definition : Definition) :
    DefinitionDistinct definition ↔ CheckedDistinct definition ∧ UncheckedDistinct definition := by
  cases definition with
  | struct_ definition =>
      simp only [DefinitionDistinct, CheckedDistinct, UncheckedDistinct]
      tauto
  | function definition =>
      rw [DefinitionDistinct, CheckedDistinct, UncheckedDistinct, and_true]
  | constant _ | type_ _ =>
      rw [DefinitionDistinct, CheckedDistinct, UncheckedDistinct, and_true]
  | spec _ _ _ | module_ _ _ _ => rw [CheckedDistinct, UncheckedDistinct, true_and]
  | enum _ | externalFunction _ =>
      rw [DefinitionDistinct, CheckedDistinct, UncheckedDistinct, true_and]

/-! ## Statements -/

section

variable [UnicodeCase]

omit [UnicodeCase] in
theorem checkCondition_enters (location : Location) (conditionType : Option TypeInfo) :
    Enters scopeLedger [] True (checkCondition location conditionType) := by
  have follows : Follows (inference []) (checkCondition location conditionType) :=
    checkCondition_follows location conditionType
  exact inference_enters follows

mutual

/-- The checks of a statement without errors declare its names. -/
theorem inferStatement_enters (returnType : TypeInfo) : (statement : Statement) →
    Enters scopeLedger (declaredNames statement) (StatementDistinct statement)
      (inferStatement returnType statement)
  | .block block => by
      rw [inferStatement, declaredNames, StatementDistinct]
      exact inferScope_enters returnType block
  | .expression expression => by
      rw [inferStatement, declaredNames, StatementDistinct]
      exact inference_enters (.bind (inferExpression_follows expression (List.Subset.refl _))
        fun _ => .pure _)
  | .assign node left right => by
      rw [inferStatement, declaredNames, StatementDistinct]
      exact inference_enters (.bind
        (inferExpression_follows left (List.subset_append_left left.nodes right.nodes))
        fun targetType => inferAssigned_follows node targetType right
          (List.subset_append_right _ _))
  | .return_ node expression => by
      rw [inferStatement, declaredNames, StatementDistinct]
      exact inference_enters (inferReturned_follows node returnType expression
        (List.Subset.refl _))
  | .loop node condition body => by
      unfold inferStatement
      rw [declaredNames, StatementDistinct]
      cases condition with
      | none => exact inferScope_enters returnType body
      | some condition =>
          apply Enters.bind_silent
            (inference_enters (inferExpression_follows condition (List.Subset.refl _)))
          intro conditionType
          exact .bind_silent (checkCondition_enters _ conditionType) fun _ =>
            inferScope_enters returnType body
  | .break_ _ => by
      rw [inferStatement, declaredNames, StatementDistinct]
      exact .pure _
  | .if_ node condition ifArm elseArm => by
      unfold inferStatement StatementDistinct
      rw [declaredNames]
      apply Enters.bind_silent
        (inference_enters (inferExpression_follows condition (List.Subset.refl _)))
      intro conditionType
      apply Enters.bind_silent (checkCondition_enters _ conditionType)
      intro _
      have elseEnters : ∀ _ : Unit, Enters scopeLedger []
          (match elseArm with
            | some elseArm => BlockDistinct elseArm
            | none => True)
          (match elseArm with
            | some elseArm => inScope (inferBlock returnType elseArm)
            | none => pure ()) := by
        intro _
        cases elseArm with
        | none => exact .pure _
        | some elseArm => exact inferScope_enters returnType elseArm
      exact (inferScope_enters returnType ifArm).bind elseEnters
  | .variableDefinition node name ty value => by
      rw [inferStatement, declaredNames, StatementDistinct]
      apply Enters.bind_silent (.expect _)
      intro targetType
      apply Enters.bind_silent
        (inference_enters (inferInitial_follows node targetType value (List.Subset.refl _)))
      intro _
      apply Enters.bind_last (pushVariable_enters name _ targetType)
      intro _
      exact .bind_silent (setNodeTypeinfo_enters _ _) fun _ => setNodeTypeinfo_enters _ _
  | .typeDefinition node name ty => by
      rw [inferStatement, declaredNames, StatementDistinct]
      exact .bind_silent (.expect _) fun typeInfo => register_enters insertSymbol_adds _
  | .assert node expression => by
      rw [inferStatement, declaredNames, StatementDistinct]
      exact .bind_silent
        (inference_enters (inferExpression_follows expression (List.Subset.refl _)))
        (checkCondition_enters _)
  | .constantDefinition definition => by
      rw [inferStatement, declaredNames, StatementDistinct]
      apply Enters.bind_silent (.expect _)
      intro constantType
      apply Enters.bind_last (pushVariable_enters definition.name _ constantType)
      intro _
      exact .bind_silent (setNodeTypeinfo_enters _ _) fun _ => setNodeTypeinfo_enters _ _

/-- A block that is checked in a scope of its own. -/
theorem inferScope_enters (returnType : TypeInfo) : (block : BlockType) →
    Enters scopeLedger [] (BlockDistinct block) (inScope (inferBlock returnType block))
  | .mk _ _ statements => by
      rw [inferBlock, BlockDistinct]
      exact inScope_enters (inferStatements_enters returnType statements)

theorem inferStatements_enters (returnType : TypeInfo) : (statements : List Statement) →
    Enters scopeLedger (statements.flatMap declaredNames) (StatementListDistinct statements)
      (inferStatements returnType statements)
  | [] => by
      rw [inferStatements, StatementListDistinct]
      exact .pure _
  | statement :: rest => by
      rw [inferStatements, StatementListDistinct, List.flatMap_cons]
      exact .bind (inferStatement_enters returnType statement) fun _ =>
        inferStatements_enters returnType rest

end

/-! ## Bodies -/

omit [UnicodeCase] in
theorem declaredReturnType_enters (returns : Option Type_) (typeParams : List String) :
    Enters scopeLedger [] True (declaredReturnType returns typeParams) := by
  cases returns with
  | none => exact .pure _
  | some returns => exact .expect _

omit [UnicodeCase] in
theorem declareParameter_enters (typeParams : List String) (argument : ArgumentType) :
    Enters scopeLedger (parameterNames argument) True (declareParameter typeParams argument) := by
  cases argument with
  | argument node name ty => exact .bind_silent (.expect _) fun _ => pushVariable_enters name _ _
  | selfReference node => exact pushError_enters _
  | ignoreArgument _ _ | type_ _ => exact .pure _

omit [UnicodeCase] in
theorem declareMethodParameter_enters (selfType : TypeInfo) (argument : ArgumentType) :
    Enters scopeLedger (parameterNames argument) True
      (declareMethodParameter selfType argument) := by
  cases argument with
  | argument node name ty => exact .bind_silent (.expect _) fun _ => pushVariable_enters name _ _
  | selfReference node => exact pushVariable_enters (selfIdentifier node) _ selfType
  | ignoreArgument _ _ | type_ _ => exact .pure _

/-- A body is checked in the scope of its parameters. -/
theorem inferBody_enters {definition : FunctionDefinition} {declare : ArgumentType → CheckM Unit}
    (declares : ∀ argument, Enters scopeLedger (parameterNames argument) True (declare argument))
    (typeParams : List String) :
    Enters scopeLedger [] (FunctionDistinct definition) (inScope do
      (definition.arguments.getD []).forM declare
      let returnType ← declaredReturnType definition.returns typeParams
      inferBlock returnType definition.body) := by
  have parameters := Enters.forM (fun argument
    (_ : argument ∈ definition.arguments.getD []) => declares argument)
  have body : ∀ returnType, Enters scopeLedger
      (definition.body.statements.flatMap declaredNames)
      (StatementListDistinct definition.body.statements)
      (inferBlock returnType definition.body) := by
    intro returnType
    cases definition.body with
    | mk kind node statements =>
        rw [inferBlock]
        exact inferStatements_enters returnType statements
  have rest := Enters.bind_silent (declaredReturnType_enters definition.returns typeParams) body
  exact (inScope_enters (parameters.bind fun _ => rest)).of_imp (And.imp_right And.right)

theorem inferMethodVariables_enters (method : FunctionDefinition) (selfType : TypeInfo) :
    Enters scopeLedger [] (FunctionDistinct method) (inferMethodVariables method selfType) :=
  inferBody_enters (declareMethodParameter_enters selfType) []

theorem inferDefinition_enters (definition : Definition) :
    Enters scopeLedger [] (CheckedDistinct definition) (inferDefinition definition) := by
  cases definition with
  | function definition => exact inferBody_enters (declareParameter_enters _) _
  | struct_ definition =>
      exact .forM_required fun method _ => inferMethodVariables_enters method (structType definition)
  | spec _ _ _ | enum _ | constant _ | externalFunction _ | type_ _ | module_ _ _ _ =>
      exact .pure _

/-! ## Registrations -/

omit [UnicodeCase] in
theorem processDirective_enters (directive : UseDirective) :
    Enters scopeLedger [] True (processDirective directive) := by
  constructor
  intro before value after tree accepted
  rcases accepts_bind.mp accepted with ⟨table, middle, read, accepted⟩
  rcases accepts_read.mp read with ⟨rfl, rfl⟩
  rcases tree.current with ⟨current, scope, isCurrent, _⟩
  simp only [SymbolTable.registerImport, isCurrent] at accepted
  have modified : Enters scopeLedger [] True (updateSymbolTable fun table =>
      table.modifyScope current fun scope =>
        { scope with imports := scope.imports ++ [importOf directive] }) :=
    modifyScope_enters (inside_imports _) fun _ => rfl
  exact modified.run tree accepted

omit [UnicodeCase] in
theorem registerMethodOf_enters (structName : String) (method : FunctionDefinition) :
    Enters scopeLedger [] True (registerMethodOf structName method) := by
  apply Enters.bind_silent (.expect _)
  intro parameterTypes
  apply Enters.bind_silent (declaredReturnType_enters _ _)
  intro returnType
  apply Enters.bind_silent (.read _)
  intro table
  apply register_enters
  intro scopeId frame changed inserted
  cases inserted
  exact insertMethod_adds frame structName _

/-- The names that the registration of types declares. -/
def typeNames : Definition → List DeclaredName
  | .spec _ name _ => [.symbol name.name]
  | .struct_ definition => [.symbol definition.name.name]
  | .enum definition => [.symbol definition.name.name]
  | .type_ definition => [.symbol definition.name.name]
  | .constant _ | .function _ | .externalFunction _ | .module_ _ _ _ => []

omit [UnicodeCase] in
theorem registerTypeDefinition_enters (definition : Definition) :
    Enters scopeLedger (typeNames definition) True (registerTypeDefinition definition) := by
  cases definition with
  | type_ definition =>
      exact .bind_silent (.expect _) fun _ => register_enters insertSymbol_adds _
  | struct_ definition =>
      apply Enters.bind_silent (.expect _)
      intro fields
      exact .bind_last (register_enters insertSymbol_adds _) fun _ =>
        .forM_silent (registerMethodOf_enters definition.name.name)
  | enum definition => exact register_enters insertSymbol_adds _
  | spec node name definitions => exact register_enters insertSymbol_adds _
  | constant _ | function _ | externalFunction _ | module_ _ _ _ => exact .pure _

omit [UnicodeCase] in
theorem resolveImports_enters : Enters scopeLedger [] True resolveImports := by
  have item : ∀ scopeId path localName failedPath (location : Location),
      Enters scopeLedger [] True
        (resolveImport scopeId location path localName failedPath) := by
    intro scopeId path localName failedPath location
    apply Enters.bind_silent (.read _)
    intro table
    split
    · rename_i symbol definitionScopeId _
      have binds : Enters scopeLedger [] True
          (addResolvedImport scopeId { localName, symbol, definitionScopeId }) :=
        modifyScope_enters (inside_resolved _) fun _ => rfl
      apply Enters.ite binds
      have visible : Enters scopeLedger [] True (checkAndReportVisibility .private_
          definitionScopeId location (.import_ ("::".intercalate path))) :=
        .bind_silent (.read _) fun _ => .ite (.pure _) (pushError_enters _)
      exact .bind_silent visible fun _ => binds
    · exact pushError_enters _
  apply Enters.bind_silent (.read _)
  intro table
  apply Enters.forM_silent
  intro scopeId
  apply Enters.bind_silent (.read _)
  intro current
  split
  · apply Enters.forM_silent
    intro imported
    unfold resolveImportItem
    split
    · split
      · exact item _ _ _ _ _
      · exact .pure _
    · exact .forM_silent fun _ => item _ _ _ _ _
  · exact .pure _

theorem validateType_enters (typeParams : List String) (type : Type_) :
    Enters scopeLedger [] True (validateType typeParams type) := by
  have follows : Follows (inference []) (validateType typeParams type) :=
    validateType_follows typeParams type
  exact inference_enters follows

theorem collectParameter_enters (definition : FunctionDefinition) (argument : ArgumentType) :
    Enters scopeLedger [] True (collectParameter definition argument) := by
  cases argument with
  | selfReference node => exact pushError_enters _
  | ignoreArgument node ty =>
      apply Enters.bind_silent (validateType_enters _ ty)
      intro _
      exact .bind_silent (.expect _) fun _ => setNodeTypeinfo_enters _ _
  | argument node name ty =>
      apply Enters.bind_silent (validateType_enters _ ty)
      intro _
      apply Enters.bind_silent (.expect _)
      intro typeInfo
      exact .bind_silent (setNodeTypeinfo_enters _ _) fun _ => setNodeTypeinfo_enters _ _
  | type_ type => exact validateType_enters _ type

omit [UnicodeCase] in
theorem registerFunctionNamed_enters (name : String) (location : Location)
    (typeParams : List String) (arguments : Option (List ArgumentType)) (returns : Option Type_) :
    Enters scopeLedger [.symbol name] True
      (registerFunctionNamed name location typeParams arguments returns) := by
  apply Enters.bind_silent (.expect _)
  intro parameterTypes
  apply Enters.bind_silent (declaredReturnType_enters _ _)
  intro returnType
  exact register_enters insertSymbol_adds _

/-- The names that the registration of functions and constants declares. -/
def collectedNames : Definition → List DeclaredName
  | .constant definition => [.variable_ definition.name.name]
  | .function definition => [.symbol definition.name.name]
  | .externalFunction definition => [.symbol definition.name.name]
  | .spec _ _ _ | .struct_ _ | .enum _ | .type_ _ | .module_ _ _ _ => []

theorem collectDefinition_enters (definition : Definition) :
    Enters scopeLedger (collectedNames definition) True (collectDefinition definition) := by
  cases definition with
  | constant definition =>
      apply Enters.bind_silent (.expect _)
      intro constType
      exact .bind_last (pushVariable_enters definition.name _ constType) fun _ =>
        setNodeTypeinfo_enters _ _
  | function definition =>
      apply Enters.bind_silent (.forM_silent (collectParameter_enters definition))
      intro _
      apply Enters.bind_silent (setNodeTypeinfo_enters _ _)
      intro _
      have returnType : Enters scopeLedger [] True
          (collectReturnType definition definition.returns) := by
        cases definition.returns with
        | none => exact .pure _
        | some returns =>
            apply Enters.bind_silent (validateType_enters _ returns)
            intro _
            exact .bind_silent (.expect _) fun _ => setNodeTypeinfo_enters _ _
      exact .bind_silent returnType fun _ => registerFunctionNamed_enters _ _ _ _ _
  | externalFunction definition => exact registerFunctionNamed_enters _ _ _ _ _
  | spec _ _ _ | struct_ _ | enum _ | type_ _ | module_ _ _ _ => exact .pure _

/-! ## Programs -/

/-- A program without errors has distinct names at the top and in the bodies that are checked. -/
theorem checkProgram_enters (program : Program) :
    Enters scopeLedger
      (program.definitions.flatMap typeNames ++ program.definitions.flatMap collectedNames)
      (∀ definition ∈ program.definitions, CheckedDistinct definition)
      (checkProgram program) := by
  have imports : Enters scopeLedger [] True (processDirectives program) :=
    .forM_silent processDirective_enters
  have types := Enters.forM fun definition (_ : definition ∈ program.definitions) =>
    registerTypeDefinition_enters definition
  have collects := Enters.forM fun definition (_ : definition ∈ program.definitions) =>
    collectDefinition_enters definition
  have bodies := Enters.forM_required fun definition (_ : definition ∈ program.definitions) =>
    inferDefinition_enters definition
  have registers := Enters.bind_silent imports fun _ => types.bind fun _ =>
    Enters.bind_silent resolveImports_enters fun _ => collects
  have whole := registers.bind fun _ => bodies
  rw [List.append_nil] at whole
  exact whole.of_imp And.right

omit [UnicodeCase] in
theorem typeNames_collectedNames (definition : Definition) :
    typeNames definition ++ collectedNames definition = definitionNames definition := by
  cases definition <;> rfl

/-- A program without errors defines no name twice in a scope if and only if it does not do so
where the checker does not compare the names: in the fields, the methods and the variants of a
type, in the parameters of an external function, and in specs and modules. -/
theorem program_distinct_iff (program : Program) {value : Unit} {final : CheckState}
    (accepted : (checkProgram program).Accepts initialState value final) :
    program.Distinct ↔ ∀ definition ∈ program.definitions, UncheckedDistinct definition := by
  have tree : scopeLedger.sound initialState := SymbolTable.IsScopeTree.default
  rcases (checkProgram_enters program).run tree accepted with ⟨added, checked⟩
  have top : (program.definitions.flatMap definitionNames).Nodup := by
    have permuted := List.flatMap_append_perm program.definitions typeNames collectedNames
    rw [funext typeNames_collectedNames] at permuted
    exact permuted.nodup added.distinct
  constructor
  · intro distinct definition member
    exact ((definitionDistinct_split definition).mp (distinct.inside definition member)).2
  · intro unchecked
    refine ⟨top, fun definition member => ?_⟩
    exact (definitionDistinct_split definition).mpr
      ⟨checked definition member, unchecked definition member⟩

end

/-- `struct Pair { first: i32; second: bool; }` with the names of the fields left open. -/
def pairStruct (first second : String) : Program :=
  [{ definitions := [.struct_ {
      id := 1
      name := { id := 2, name := "Pair" }
      fields := [
        { id := 3, name := { id := 4, name := first }, type_ := .simple .i32 },
        { id := 5, name := { id := 6, name := second }, type_ := .simple .bool }] }] }]

theorem program_distinct_iff_pair :
    ∃ final, (checkProgram (pairStruct "x" "y")).Accepts initialState () final ∧
      (pairStruct "x" "y").Distinct := by
  refine ⟨_, rfl, (program_distinct_iff (pairStruct "x" "y") rfl).mpr ?_⟩
  intro definition member
  rw [List.mem_singleton.mp member]
  exact ⟨by decide, by decide⟩

/-- Two fields with one name are accepted. -/
theorem twoFields_accepted :
    ∃ final, (checkProgram (pairStruct "x" "x")).Accepts initialState () final ∧
      ¬(pairStruct "x" "x").Distinct := by
  refine ⟨_, rfl, fun distinct => ?_⟩
  have inside := distinct.inside _ List.mem_cons_self
  have fields : ["x", "x"].Nodup := inside.1
  exact absurd fields (by decide)

end Inference.TypeChecker

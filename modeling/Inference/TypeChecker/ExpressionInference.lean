import Inference.Foundation.KeyedTable
import Inference.TypeChecker.Sites

/-! # Inference agrees with the types of expressions

A run of the inference without errors finds the type of the expression, records the
types of its sites and nothing else, and changes no declaration. An argument of a
generic call is inferred twice; the second run finds what the first one recorded.
-/

namespace Inference.TypeChecker

open Inference.Ast Inference.Foundation Inference.Foundation.Collecting

/-! ## Steps without errors -/

theorem pushErrorDedup_accepts {error : TypeCheckError} {before after : CheckState}
    {value : Unit} (noKeys : before.reportedErrorKeys = []) :
    ¬(pushErrorDedup error).Accepts before value after := by
  rw [pushErrorDedup]
  split <;> simp [pushError, noKeys]

theorem failWith_accepts {error : TypeCheckError} {before after : CheckState}
    {value : Option TypeInfo} : ¬(failWith error).Accepts before value after := by
  simp [failWith, pushError]

/-- The step finds a type and records it for the node, and does nothing else. -/
def RecordsType (before : CheckState) (nodeId : Nat) (typeInfo : Option TypeInfo)
    (value : Option TypeInfo) (after : CheckState) : Prop :=
  ∃ known, typeInfo = some known ∧ value = some known ∧ after = before.setNodeType nodeId known

variable {node : Node}

theorem recordType_accepts {typeInfo : TypeInfo} {before after : CheckState}
    {value : Option TypeInfo} (accepted : (recordType node typeInfo).Accepts before value after) :
    RecordsType before node.id (some typeInfo) value after := by
  simp only [recordType, setNodeTypeinfo, accepts_bind, accepts_update, accepts_pure] at accepted
  rcases accepted with ⟨_, middle, rfl, rfl, rfl⟩
  exact ⟨typeInfo, rfl, rfl, rfl⟩

variable {location : Location}

theorem checkAndReportVisibility_accepts {visibility : Visibility} {scope : Nat}
    {context : VisibilityContext} {before after : CheckState} {value : Unit}
    (accepted : (checkAndReportVisibility visibility scope location context).Accepts
      before value after) : after = before := by
  simp only [checkAndReportVisibility, getSymbolTable, pushError, accepts_bind, accepts_read,
    accepts_ite, accepts_pure, accepts_report] at accepted
  rcases accepted with ⟨_, _, ⟨rfl, rfl⟩, ⟨_, _, same⟩ | ⟨_, impossible⟩⟩
  · exact same
  · exact impossible.elim

theorem getSymbolTable_accepts {before after : CheckState} {table : SymbolTable}
    (accepted : getSymbolTable.Accepts before table after) :
    table = before.symbolTable ∧ after = before := by
  simpa [getSymbolTable] using accepted

theorem cached_accepts {infer : CheckM (Option TypeInfo)}
    {before after : CheckState} {value : Option TypeInfo}
    (accepted : (cached node infer).Accepts before value after) :
    (∃ known, before.nodeTypes node.id = some known ∧ value = some known ∧ after = before) ∨
      (before.nodeTypes node.id = none ∧ infer.Accepts before value after) := by
  simp only [cached, getNodeTypeinfo, accepts_bind, accepts_read] at accepted
  rcases accepted with ⟨found, middle, ⟨rfl, rfl⟩, rest⟩
  cases recorded : middle.nodeTypes node.id with
  | none => exact Or.inr ⟨rfl, by simpa only [recorded] using rest⟩
  | some known =>
      simp only [recorded, accepts_pure] at rest
      exact Or.inl ⟨known, rfl, rest.1, rest.2⟩

theorem withType_accepts {typeInfo : Option TypeInfo}
    {next : TypeInfo → CheckM (Option TypeInfo)} {before after : CheckState}
    {value : Option TypeInfo} (accepted : (withType typeInfo next).Accepts before value after) :
    (typeInfo = none ∧ value = none ∧ after = before) ∨
      ∃ known, typeInfo = some known ∧ (next known).Accepts before value after := by
  cases typeInfo with
  | none =>
      simp only [withType, accepts_pure] at accepted
      exact Or.inl ⟨rfl, accepted⟩
  | some known => exact Or.inr ⟨known, rfl, accepted⟩

/-! ## Accesses and operators -/

variable {name : Identifier}

theorem fieldAccess_accepts {objectType : TypeInfo}
    {before after : CheckState} {value : Option TypeInfo}
    (accepted : (fieldAccess node name objectType).Accepts before value after) :
    RecordsType before node.id (before.environment.fieldType name objectType) value after := by
  rw [fieldAccess, accepts_bind] at accepted
  rcases accepted with ⟨table, middle, read, accepted⟩
  rcases getSymbolTable_accepts read with ⟨rfl, rfl⟩
  change RecordsType middle node.id (middle.symbolTable.environment.fieldType name objectType)
    value after
  rw [Environment.fieldType]
  cases structName : middle.symbolTable.environment.structName objectType with
  | none =>
      simp only [structName] at accepted
      exact absurd accepted failWith_accepts
  | some owner =>
      simp only [structName] at accepted
      simp only [Option.bind_some]
      cases found : middle.symbolTable.environment.lookupStruct owner with
      | none =>
          simp only [found] at accepted
          exact absurd accepted failWith_accepts
      | some info =>
          simp only [found] at accepted
          simp only [Option.bind_some]
          cases field : info.fields.lookup name.name with
          | none =>
              simp only [field] at accepted
              exact absurd accepted failWith_accepts
          | some fieldInfo =>
              simp only [field, accepts_bind] at accepted
              rcases accepted with ⟨_, visible, checked, accepted⟩
              cases checkAndReportVisibility_accepts checked
              exact recordType_accepts accepted

theorem variantAccess_accepts {enumName : String}
    {before after : CheckState} {value : Option TypeInfo}
    (noKeys : before.reportedErrorKeys = [])
    (accepted : (variantAccess node enumName name).Accepts before value after) :
    RecordsType before node.id (before.environment.variantType enumName name) value after := by
  rw [variantAccess, accepts_bind] at accepted
  rcases accepted with ⟨table, middle, read, accepted⟩
  rcases getSymbolTable_accepts read with ⟨rfl, rfl⟩
  change RecordsType middle node.id (middle.symbolTable.environment.variantType enumName name)
    value after
  rw [Environment.variantType]
  have sameTable : middle.symbolTable.lookupEnum enumName =
      middle.symbolTable.environment.lookupEnum enumName := rfl
  rw [sameTable] at accepted
  cases found : middle.symbolTable.environment.lookupEnum enumName with
  | none =>
      simp only [found, accepts_bind] at accepted
      rcases accepted with ⟨_, _, reported, -⟩
      exact absurd reported (pushErrorDedup_accepts noKeys)
  | some info =>
      simp only [found, accepts_ite, accepts_bind] at accepted
      simp only [Option.bind_some]
      rcases accepted with ⟨member, _, visible, checked, accepted⟩ | ⟨_, failed⟩
      · cases checkAndReportVisibility_accepts checked
        rw [if_pos member]
        exact recordType_accepts accepted
      · exact absurd failed failWith_accepts

theorem variantOfType_accepts {exprType : TypeInfo}
    {before after : CheckState} {value : Option TypeInfo}
    (noKeys : before.reportedErrorKeys = [])
    (accepted : (variantOfType node name exprType).Accepts before value after) :
    RecordsType before node.id (before.environment.variantTypeOf name exprType) value after := by
  rw [variantOfType] at accepted
  rw [Environment.variantTypeOf]
  cases kind : exprType.kind with
  | enum enumName =>
      simp only [kind] at accepted
      exact variantAccess_accepts noKeys accepted
  | _ =>
      simp only [kind] at accepted
      exact absurd accepted failWith_accepts

theorem elementAccess_accepts {arrayType : TypeInfo}
    {before after : CheckState} {value : Option TypeInfo}
    (accepted : (elementAccess node arrayType).Accepts before value after) :
    RecordsType before node.id (elementTypeOf arrayType) value after := by
  rw [elementAccess] at accepted
  rw [elementTypeOf]
  cases kind : arrayType.kind with
  | array elementType length =>
      simp only [kind] at accepted
      exact recordType_accepts accepted
  | _ =>
      simp only [kind] at accepted
      exact absurd accepted failWith_accepts

theorem checkIndexType_accepts {indexType : Option TypeInfo}
    {before after : CheckState} {value : Unit}
    (accepted : (checkIndexType node indexType).Accepts before value after) :
    indexType.all TypeInfo.isNumber = true ∧ after = before := by
  cases indexType with
  | none => simpa [checkIndexType] using accepted
  | some indexType =>
      simp only [checkIndexType, pushError, accepts_ite, accepts_pure, accepts_report] at accepted
      rcases accepted with ⟨isNumber, _, same⟩ | ⟨_, impossible⟩
      · exact ⟨isNumber, same⟩
      · exact impossible.elim

theorem applyUnary_accepts {operator : UnaryOperatorKind}
    {operandType : TypeInfo} {before after : CheckState} {value : Option TypeInfo}
    (accepted : (applyUnary node operator operandType).Accepts before value after) :
    RecordsType before node.id ((some operandType).filter (unaryOperand operator).1)
      value after := by
  simp only [applyUnary, accepts_ite] at accepted
  rcases accepted with ⟨valid, accepted⟩ | ⟨_, failed⟩
  · rw [Option.filter_some_pos valid]
    exact recordType_accepts accepted
  · exact absurd failed failWith_accepts

theorem pushMismatch_accepts {operator : OperatorKind}
    {leftType rightType : TypeInfo} {before after : CheckState} {value : Unit}
    (accepted : (pushMismatch node operator leftType rightType).Accepts before value after) :
    leftType = rightType ∧ after = before := by
  simp only [pushMismatch, pushError, accepts_ite, accepts_pure, accepts_report] at accepted
  rcases accepted with ⟨equal, _, same⟩ | ⟨_, impossible⟩
  · exact ⟨equal, same⟩
  · exact impossible.elim

theorem applyBinary_accepts {operator : OperatorKind}
    {leftType rightType : TypeInfo} {before after : CheckState} {value : Option TypeInfo}
    (accepted : (applyBinary node operator leftType rightType).Accepts before value after) :
    RecordsType before node.id (binaryType operator leftType rightType) value after := by
  simp only [applyBinary, accepts_bind] at accepted
  rcases accepted with ⟨_, middle, compared, accepted⟩
  rcases pushMismatch_accepts compared with ⟨rfl, rfl⟩
  rw [binaryType.eq_def, if_pos rfl]
  cases operator with
  | and | or =>
      simp only [accepts_ite, Bool.and_self] at accepted
      rcases accepted with ⟨valid, accepted⟩ | ⟨_, failed⟩
      · simp only [valid, if_true]
        exact recordType_accepts accepted
      · exact absurd failed failWith_accepts
  | eq | ne | lt | le | gt | ge => exact recordType_accepts accepted
  | _ =>
      simp only [accepts_ite, accepts_bind, pushError, accepts_report, Bool.and_self] at accepted
      rcases accepted with ⟨valid, _, compared, again, accepted⟩ | ⟨_, _, _, impossible, _⟩
      · rcases pushMismatch_accepts again with ⟨-, rfl⟩
        simp only [valid, if_true]
        exact recordType_accepts accepted
      · exact impossible.elim

variable [UnicodeCase]

theorem structLiteral_accepts {before after : CheckState} {value : Option TypeInfo}
    (noKeys : before.reportedErrorKeys = [])
    (accepted : (structLiteral node name).Accepts before value after) :
    RecordsType before node.id (before.environment.lookupType name.name) value after := by
  rw [structLiteral, accepts_bind] at accepted
  rcases accepted with ⟨table, middle, read, accepted⟩
  rcases getSymbolTable_accepts read with ⟨rfl, rfl⟩
  cases found : middle.environment.lookupType name.name with
  | none =>
      have looked : middle.symbolTable.lookupType name.name = none := found
      simp only [looked, accepts_bind] at accepted
      rcases accepted with ⟨_, _, reported, -⟩
      exact absurd reported (pushErrorDedup_accepts noKeys)
  | some typeInfo =>
      have looked : middle.symbolTable.lookupType name.name = some typeInfo := found
      simp only [looked] at accepted
      exact recordType_accepts accepted

omit [UnicodeCase] in
theorem inferIdentifier_accepts {identifier : Identifier}
    {before after : CheckState} {value : Option TypeInfo}
    (noKeys : before.reportedErrorKeys = [])
    (accepted : (inferIdentifier identifier).Accepts before value after) :
    RecordsType before identifier.id (before.environment.lookupVariable identifier.name)
      value after := by
  rw [inferIdentifier, accepts_bind] at accepted
  rcases accepted with ⟨table, middle, read, accepted⟩
  rcases getSymbolTable_accepts read with ⟨rfl, rfl⟩
  cases found : middle.environment.lookupVariable identifier.name with
  | none =>
      have looked : middle.symbolTable.lookupVariable identifier.name = none := found
      simp only [looked, accepts_bind] at accepted
      rcases accepted with ⟨_, _, reported, -⟩
      exact absurd reported (pushErrorDedup_accepts noKeys)
  | some typeInfo =>
      have looked : middle.symbolTable.lookupVariable identifier.name = some typeInfo := found
      simp only [looked] at accepted
      exact recordType_accepts accepted

/-! ## Calls -/

variable {call function : Node} {arguments : Option Arguments} {inferArguments : CheckM Unit}

omit [UnicodeCase] in
theorem callMethod_accepts {typeName methodName : String} {method : MethodInfo}
    {before after : CheckState} {value : Option TypeInfo}
    (accepted : (callMethod call function typeName methodName method arguments
      inferArguments).Accepts before value after) :
    argumentCount arguments = method.signature.paramTypes.length ∧
      ∃ middle, inferArguments.Accepts before () middle ∧
        RecordsType
          (middle.setNodeType function.id (functionTypeInfo s!"{typeName}::{methodName}"))
          call.id (some method.signature.returnType) value after := by
  simp only [callMethod, accepts_bind, accepts_ite, pushError, accepts_report, setNodeTypeinfo,
    accepts_update] at accepted
  rcases accepted with ⟨_, visible, checked, accepted⟩
  cases checkAndReportVisibility_accepts checked
  rcases accepted with ⟨counted, _, middle, inferred, _, _, rfl, recorded⟩ | ⟨_, _, _, impossible, _⟩
  · exact ⟨counted, middle, inferred, recordType_accepts recorded⟩
  · exact impossible.elim

/-- A call of a method without errors: its arguments are counted and inferred, and the
method and the call get their types. -/
def CallsMethod (call : Node) (resolved : ResolvedCall) (arguments : Option Arguments)
    (inferArguments : CheckM Unit) (before : CheckState) (value : Option TypeInfo)
    (after : CheckState) : Prop :=
  ∃ function name middle, resolved.recorded = some (function, name) ∧
    argumentCount arguments = resolved.paramTypes.length ∧
    inferArguments.Accepts before () middle ∧
    RecordsType (middle.setNodeType function.id (functionTypeInfo name)) call.id
      (some resolved.returnType) value after

omit [UnicodeCase] in
theorem callAssociated_accepts {typeName methodName : String} {method : MethodInfo}
    {before after : CheckState} {value : Option TypeInfo}
    (accepted : (callAssociated call function typeName methodName method arguments
      inferArguments).Accepts before value after) :
    CallsMethod call (.ofMethod function typeName methodName method) arguments inferArguments
      before value after := by
  simp only [callAssociated, accepts_bind, accepts_ite, pushError, accepts_report] at accepted
  rcases accepted with ⟨_, _, _, impossible, _⟩ | ⟨_, accepted⟩
  · exact impossible.elim
  · rcases callMethod_accepts accepted with ⟨counted, middle, inferred, recorded⟩
    exact ⟨function, _, middle, rfl, counted, inferred, recorded⟩

omit [UnicodeCase] in
theorem callOnReceiver_accepts {receiverType : TypeInfo}
    {before after : CheckState} {value : Option TypeInfo}
    (accepted : (callOnReceiver call function name receiverType arguments inferArguments).Accepts
      before value after) :
    ∃ resolved,
      ((before.environment.structName receiverType).bind fun typeName =>
        (before.environment.lookupMethod typeName name.name).map
          (ResolvedCall.ofMethod function typeName name.name)) = some resolved ∧
      CallsMethod call resolved arguments inferArguments before value after := by
  rw [callOnReceiver, accepts_bind] at accepted
  rcases accepted with ⟨table, middle, read, accepted⟩
  rcases getSymbolTable_accepts read with ⟨rfl, rfl⟩
  change ∃ resolved, ((middle.symbolTable.environment.structName receiverType).bind fun typeName =>
    (middle.symbolTable.environment.lookupMethod typeName name.name).map
      (ResolvedCall.ofMethod function typeName name.name)) = some resolved ∧ _
  cases structName : middle.symbolTable.environment.structName receiverType with
  | none =>
      simp only [structName, accepts_bind, pushError, accepts_report] at accepted
      rcases accepted with ⟨_, _, impossible, _⟩
      exact impossible.elim
  | some typeName =>
      simp only [structName] at accepted
      simp only [Option.bind_some]
      cases found : middle.symbolTable.environment.lookupMethod typeName name.name with
      | none =>
          simp only [found] at accepted
          exact absurd accepted failWith_accepts
      | some method =>
          simp only [found, accepts_ite, accepts_bind, pushError, accepts_report] at accepted
          rcases accepted with ⟨_, accepted⟩ | ⟨_, _, _, impossible, _⟩
          · rcases callMethod_accepts accepted with ⟨counted, last, inferred, recorded⟩
            exact ⟨_, rfl, function, _, last, rfl, counted, inferred, recorded⟩
          · exact impossible.elim

variable {signature : FuncInfo} {typeParameters : Option (List Identifier)}
  {substitutions : Substitutions}

/-- The substitutions of a call without errors are those of its type arguments, or else
those that `inferTypeParams` finds. -/
theorem callSubstitutions_accepts {name : String}
    {inferTypeParams : CheckM Substitutions} {before after : CheckState}
    (accepted : (callSubstitutions call name signature typeParameters inferTypeParams).Accepts
      before substitutions after) :
    (after = before ∧ ((signature.typeParams.isEmpty ∧ substitutions = ∅) ∨
      (signature.typeParams.isEmpty = false ∧ ∃ typeArguments,
        typeParameters = some typeArguments ∧ substitutions =
          before.environment.explicitSubstitutions signature.typeParams typeArguments))) ∨
      (signature.typeParams.isEmpty = false ∧ typeParameters = none ∧
        inferTypeParams.Accepts before substitutions after) := by
  simp only [callSubstitutions, accepts_ite, accepts_pure] at accepted
  rcases accepted with ⟨empty, equal, same⟩ | ⟨notEmpty, accepted⟩
  · exact Or.inl ⟨same, Or.inl ⟨empty, equal⟩⟩
  · have notEmpty : signature.typeParams.isEmpty = false := by simpa using notEmpty
    cases typeParameters with
    | some typeArguments =>
        simp only [accepts_ite, accepts_bind, pushError, accepts_report, accepts_pure] at accepted
        rcases accepted with ⟨_, table, middle, read, rfl, rfl⟩ | ⟨_, _, _, impossible, _⟩
        · rcases getSymbolTable_accepts read with ⟨rfl, rfl⟩
          exact Or.inl ⟨rfl, Or.inr ⟨notEmpty, typeArguments, rfl, rfl⟩⟩
        · exact impossible.elim
    | none =>
        simp only [accepts_bind, accepts_ite, pushError, accepts_report, accepts_pure] at accepted
        rcases accepted with ⟨found, middle, inferred, ⟨_, _, _, impossible, _⟩ | ⟨_, rfl, rfl⟩⟩
        · exact impossible.elim
        · exact Or.inr ⟨notEmpty, rfl, inferred⟩

/-- A call of a known function has no errors if the function is visible, its arguments are as many
as its parameters, and its substitutions and arguments are found without errors. -/
theorem callFunction_found_accepts {name : String}

    {inferTypeParams : FuncInfo → CheckM Substitutions}
    {before after : CheckState} {value : Option TypeInfo}
    (found : before.environment.lookupFunction name = some signature) :
    (callFunction call name typeParameters arguments inferArguments inferTypeParams).Accepts
        before value after ↔
      (checkAndReportVisibility signature.visibility signature.definitionScopeId call.location
        (.function name)).Accepts before () before ∧
      argumentsMismatch arguments signature = false ∧
      ∃ substitutions middle last,
        (callSubstitutions call name signature typeParameters (inferTypeParams signature)).Accepts
          before substitutions middle ∧
        inferArguments.Accepts middle () last ∧
        (recordType call (signature.returnType.substitute substitutions)).Accepts last value
          after := by
  have looked : before.symbolTable.lookupFunction name = some signature := found
  rw [callFunction, accepts_bind]
  constructor
  · rintro ⟨table, middle, read, accepted⟩
    rcases getSymbolTable_accepts read with ⟨rfl, rfl⟩
    simp only [looked, accepts_bind, accepts_ite, pushError, accepts_report] at accepted
    rcases accepted with ⟨_, visible, checked, accepted⟩
    cases checkAndReportVisibility_accepts checked
    rcases accepted with ⟨_, _, _, impossible, _⟩ | ⟨counted, accepted⟩
    · exact impossible.elim
    · rcases accepted with ⟨substitutions, next, found, _, last, inferred, recorded⟩
      exact ⟨checked, by simpa using counted, substitutions, next, last, found, inferred, recorded⟩
  · rintro ⟨checked, counted, substitutions, middle, last, found, inferred, recorded⟩
    refine ⟨before.symbolTable, before, accepts_read.mpr ⟨rfl, rfl⟩, ?_⟩
    simp only [looked, accepts_bind, accepts_ite]
    refine ⟨(), before, checked, .inr ⟨by simp [counted], substitutions, middle, found, (), last,
      inferred, recorded⟩⟩

theorem callFunction_accepts {name : String}

    {inferTypeParams : FuncInfo → CheckM Substitutions}
    {before after : CheckState} {value : Option TypeInfo}
    (noKeys : before.reportedErrorKeys = [])
    (accepted : (callFunction call name typeParameters arguments inferArguments
      inferTypeParams).Accepts before value after) :
    ∃ signature substitutions middle last,
      before.environment.lookupFunction name = some signature ∧
      argumentsMismatch arguments signature = false ∧
      (callSubstitutions call name signature typeParameters (inferTypeParams signature)).Accepts
        before substitutions middle ∧
      inferArguments.Accepts middle () last ∧
      RecordsType last call.id (some (signature.returnType.substitute substitutions))
        value after := by
  cases found : before.environment.lookupFunction name with
  | none =>
      rw [callFunction, accepts_bind] at accepted
      rcases accepted with ⟨table, middle, read, accepted⟩
      rcases getSymbolTable_accepts read with ⟨rfl, rfl⟩
      have looked : middle.symbolTable.lookupFunction name = none := found
      simp only [looked, accepts_bind] at accepted
      rcases accepted with ⟨_, _, reported, -⟩
      exact absurd reported (pushErrorDedup_accepts noKeys)
  | some signature =>
      rcases (callFunction_found_accepts found).mp accepted with
        ⟨-, counted, substitutions, middle, last, substituted, inferred, recorded⟩
      exact ⟨signature, substitutions, middle, last, rfl, counted, substituted, inferred,
        recordType_accepts recorded⟩

omit [UnicodeCase] in
theorem addSubstitution_accepts {typeParamName : String}
    {argType : Option TypeInfo} {found : Substitutions} {before after : CheckState}
    (accepted : (addSubstitution location typeParamName argType substitutions).Accepts
      before found after) :
    found = bindTypeParam typeParamName argType substitutions ∧ after = before := by
  cases argType with
  | none => simpa [addSubstitution, bindTypeParam] using accepted
  | some argType =>
      simp only [addSubstitution] at accepted
      simp only [bindTypeParam]
      cases known : substitutions.lookup typeParamName with
      | none =>
          have absent : typeParamName ∉ substitutions := AList.lookup_eq_none.mp known
          rw [if_neg absent]
          simpa [known] using accepted
      | some existing =>
          have present : typeParamName ∈ substitutions := by
            rw [← AList.lookup_isSome, known]
            rfl
          rw [if_pos present]
          simp only [known, accepts_ite, accepts_bind, pushError, accepts_report,
            accepts_pure] at accepted
          rcases accepted with ⟨_, same⟩ | ⟨_, _, _, impossible, _⟩
          · exact same
          · exact impossible.elim

omit [UnicodeCase] in
theorem checkTypeParams_accepts
    {before after : CheckState} {value : Unit}
    (accepted : (checkTypeParams signature location substitutions).Accepts before value after) :
    after = before := by
  refine accepts_forM_keeps (fun state => state = before) ?_ accepted rfl
  intro typeParam initial final value step kept
  simp only [accepts_ite, accepts_pure, pushError, accepts_report] at step
  rcases step with ⟨_, _, same⟩ | ⟨_, impossible⟩
  · exact same.trans kept
  · exact impossible.elim

/-! ## What a run without errors leaves -/

def Site.entry (site : Site) : Nat × Option TypeInfo :=
  (site.id, site.recorded)

/-- The arguments of a call that resolves are counted, but for an absent argument list in
front of a function. -/
def CallChecked (environment : Environment) : Expression → Prop
  | .functionCall _ function typeParameters arguments =>
      ∀ resolved, environment.resolveCall function typeParameters arguments = some resolved →
        (arguments.isSome ∨ resolved.recorded.isSome) →
          argumentCount arguments = resolved.paramTypes.length
  | _ => True

/-- What a run without errors has checked at a site. -/
def Site.Checked : Site → Prop
  | .inferred environment expression =>
      (environment.typeOf expression = none ↔ untyped expression = true) ∧
        CallChecked environment expression
  | _ => True

structure Clean (environment : Environment) (state : CheckState) : Prop where
  environment : state.environment = environment
  keys : state.reportedErrorKeys = []

def Distinct (sites : List Site) : Prop :=
  (sites.map Site.id).Nodup

/-- The types of the sites are recorded, and nothing else changes. -/
structure Outcome (sites : List Site) (before after : CheckState) : Prop where
  table : after.symbolTable = before.symbolTable
  keys : after.reportedErrorKeys = before.reportedErrorKeys
  extended : Extends before.nodeTypes after.nodeTypes (sites.map Site.entry)
  checked : ∀ site ∈ sites, site.Checked

/-- The sites have not been visited yet, or they have been visited without errors. -/
def Ready (state : CheckState) (sites : List Site) : Prop :=
  Unset state.nodeTypes (sites.map Site.entry) ∨
    (Holds state.nodeTypes (sites.map Site.entry) ∧ ∀ site ∈ sites, site.Checked)

theorem entry_ids (sites : List Site) :
    (sites.map Site.entry).map Prod.fst = sites.map Site.id := by
  rw [List.map_map]
  rfl

omit [UnicodeCase] in
theorem Clean.after {environment : Environment} {before after : CheckState}
    (clean : Clean environment before) (table : after.symbolTable = before.symbolTable)
    (keys : after.reportedErrorKeys = before.reportedErrorKeys) : Clean environment after :=
  ⟨(congrArg SymbolTable.environment table).trans clean.environment, keys.trans clean.keys⟩

namespace Ready

variable {state before after : CheckState} {sites others : List Site}

theorem subset (ready : Ready state sites) (within : ∀ site ∈ others, site ∈ sites) :
    Ready state others := by
  rcases ready with unset | ⟨holds, checked⟩
  · left
    intro entry member
    rcases List.mem_map.mp member with ⟨site, siteMember, rfl⟩
    exact unset _ (List.mem_map_of_mem (within site siteMember))
  · right
    constructor
    · intro entry member
      rcases List.mem_map.mp member with ⟨site, siteMember, rfl⟩
      exact holds _ (List.mem_map_of_mem (within site siteMember))
    · exact fun site member => checked site (within site member)

/-- A step that does not touch the sites leaves them ready. -/
theorem of_same (ready : Ready before sites)
    (same : ∀ site ∈ sites, after.nodeTypes site.id = before.nodeTypes site.id) :
    Ready after sites := by
  have entries : ∀ entry ∈ sites.map Site.entry,
      after.nodeTypes entry.1 = before.nodeTypes entry.1 := by
    intro entry member
    rcases List.mem_map.mp member with ⟨site, siteMember, rfl⟩
    exact same site siteMember
  rcases ready with unset | ⟨holds, checked⟩
  · exact Or.inl (unset.of_same entries)
  · exact Or.inr ⟨holds.of_same entries, checked⟩

/-- Visiting some sites leaves the others ready. -/
theorem after_outcome (ready : Ready before others) (outcome : Outcome sites before after)
    (disjoint : ∀ site ∈ others, site.id ∉ sites.map Site.id) : Ready after others :=
  ready.of_same fun site member =>
    outcome.extended.same site.id (by rw [entry_ids]; exact disjoint site member)

/-- Visited sites can be visited again. -/
theorem visited (outcome : Outcome sites before after) : Ready after sites :=
  Or.inr ⟨outcome.extended.holds, outcome.checked⟩

end Ready

namespace Outcome

variable {before middle after : CheckState} {sites others : List Site}

theorem clean {environment : Environment} (outcome : Outcome sites before after)
    (clean : Clean environment before) : Clean environment after :=
  clean.after outcome.table outcome.keys

theorem nil : Outcome [] before before :=
  ⟨rfl, rfl, Extends.nil, fun _ member => absurd member List.not_mem_nil⟩

theorem append (distinct : Distinct (sites ++ others)) (left : Outcome sites before middle)
    (right : Outcome others middle after) : Outcome (sites ++ others) before after := by
  rw [Distinct, List.map_append, List.nodup_append] at distinct
  refine ⟨right.table.trans left.table, right.keys.trans left.keys, ?_, ?_⟩
  · rw [List.map_append]
    refine Extends.append ?_ left.extended right.extended
    intro entry member found
    rcases List.mem_map.mp member with ⟨site, siteMember, rfl⟩
    rw [entry_ids] at found
    exact distinct.2.2 site.id (List.mem_map_of_mem siteMember) site.id found rfl
  · intro site member
    rcases List.mem_append.mp member with member | member
    · exact left.checked site member
    · exact right.checked site member

/-- Nothing is recorded at skipped sites. -/
theorem skipped {environment : Environment} {expressions : List Expression}
    (ready : Ready before (skippedSites environment expressions)) :
    Outcome (skippedSites environment expressions) before before := by
  have noType : ∀ entry ∈ (skippedSites environment expressions).map Site.entry,
      entry.2 = none := by
    intro entry member
    simp only [skippedSites, List.map_map, List.mem_map, Function.comp_apply] at member
    rcases member with ⟨expression, -, rfl⟩
    rfl
  refine ⟨rfl, rfl, Extends.of_holds ?_, ?_⟩
  · rcases ready with unset | ⟨holds, -⟩
    · exact fun entry member => (unset entry member).trans (noType entry member).symm
    · exact holds
  · intro site member
    simp only [skippedSites, List.mem_map] at member
    rcases member with ⟨expression, -, rfl⟩
    trivial

/-- A type is recorded at one more site. -/
theorem record {site : Site} {known : TypeInfo} (outcome : Outcome sites before middle)
    (fresh : site.id ∉ sites.map Site.id) (recorded : site.recorded = some known)
    (checked : site.Checked) :
    Outcome (site :: sites) before (middle.setNodeType site.id known) := by
  refine ⟨outcome.table, outcome.keys, ?_, ?_⟩
  · rw [List.map_cons]
    refine Extends.cons (by rwa [entry_ids]) outcome.extended ?_ ?_
    · exact fun other different => Function.update_of_ne different _ _
    · rw [recorded]
      exact Function.update_self _ _ _
  · intro other member
    rcases List.mem_cons.mp member with rfl | member
    · exact checked
    · exact outcome.checked other member

/-- Nothing is recorded at one more site. -/
theorem keep {site : Site} (outcome : Outcome sites before after)
    (fresh : site.id ∉ sites.map Site.id) (unset : before.nodeTypes site.id = none)
    (recorded : site.recorded = none) (checked : site.Checked) :
    Outcome (site :: sites) before after := by
  refine ⟨outcome.table, outcome.keys, ?_, ?_⟩
  · rw [List.map_cons]
    refine Extends.cons (by rwa [entry_ids]) outcome.extended (fun _ _ => rfl) ?_
    rw [recorded, outcome.extended.same site.id (by rwa [entry_ids]), unset]
  · intro other member
    rcases List.mem_cons.mp member with rfl | member
    · exact checked
    · exact outcome.checked other member

end Outcome

/-! ## Inference of one expression -/

/-- The inference finds the type of the expression and records the types of its sites. -/
structure Infers (environment : Environment) (expression : Expression) (before : CheckState)
    (value : Option TypeInfo) (after : CheckState) : Prop where
  value : value = environment.typeOf expression
  outcome : Outcome (expressionSites environment expression) before after

namespace Infers

variable {environment : Environment} {expression : Expression} {inside : List Site}
  {before middle after : CheckState} {value : Option TypeInfo} {known : TypeInfo}

/-- An expression whose type was recorded has been visited. -/
theorem of_recorded (sites : expressionSites environment expression =
      .inferred environment expression :: inside)
    (ready : Ready before (expressionSites environment expression))
    (recorded : before.nodeTypes expression.id = some known) :
    Infers environment expression before (some known) before := by
  have head : (expression.id, environment.typeOf expression) ∈
      (expressionSites environment expression).map Site.entry := by
    rw [sites]
    exact List.mem_cons_self
  rcases ready with unset | ⟨holds, checked⟩
  · have none := unset _ head
    rw [recorded] at none
    cases none
  · exact ⟨recorded.symm.trans (holds _ head), rfl, rfl, Extends.of_holds holds, checked⟩

/-- An expression that is typed when the sites inside it are. -/
theorem of_records (sites : expressionSites environment expression =
      .inferred environment expression :: inside)
    (distinct : Distinct (expressionSites environment expression))
    (outcome : Outcome inside before middle)
    (records : RecordsType middle expression.id (environment.typeOf expression) value after)
    (typed : untyped expression = false) (call : CallChecked environment expression) :
    Infers environment expression before value after := by
  rcases records with ⟨known, found, rfl, rfl⟩
  rw [sites, Distinct, List.map_cons, List.nodup_cons] at distinct
  refine ⟨found.symm, ?_⟩
  rw [sites]
  refine outcome.record distinct.1 found ⟨?_, call⟩
  simp [found, typed]

/-- An expression without a type, when the sites inside it are visited. -/
theorem of_none (sites : expressionSites environment expression =
      .inferred environment expression :: inside)
    (ready : Ready before (expressionSites environment expression))
    (distinct : Distinct (expressionSites environment expression))
    (outcome : Outcome inside before after) (noType : environment.typeOf expression = none)
    (noValue : value = none)
    (typeless : untyped expression = true) (call : CallChecked environment expression) :
    Infers environment expression before value after := by
  have head : (expression.id, environment.typeOf expression) ∈
      (expressionSites environment expression).map Site.entry := by
    rw [sites]
    exact List.mem_cons_self
  have unset : before.nodeTypes expression.id = none := by
    rcases ready with unset | ⟨holds, -⟩
    · exact unset _ head
    · exact (holds _ head).trans noType
  rw [sites, Distinct, List.map_cons, List.nodup_cons] at distinct
  refine ⟨noValue.trans noType.symm, ?_⟩
  rw [sites]
  refine outcome.keep distinct.1 unset noType ⟨?_, call⟩
  simp [noType, typeless]

/-- The type that was found is the type of the expression. -/
theorem typed (infers : Infers environment expression before (some known) after) :
    environment.typeOf expression = some known :=
  infers.value.symm

theorem untyped_iff (infers : Infers environment expression before value after)
    (sites : expressionSites environment expression =
      .inferred environment expression :: inside) :
    value = none ↔ untyped expression = true := by
  rw [infers.value]
  have member : Site.inferred environment expression ∈ expressionSites environment expression := by
    rw [sites]
    exact List.mem_cons_self
  exact (infers.outcome.checked _ member).1

end Infers

/-- The first site of an expression is its own. -/
theorem expressionSites_head (environment : Environment) (expression : Expression) :
    ∃ inside, expressionSites environment expression =
      .inferred environment expression :: inside := by
  cases expression with
  | typeMemberAccess _ expression _ =>
      cases expression <;> exact ⟨_, by simp only [expressionSites]; rfl⟩
  | type_ type =>
      cases type <;> exact ⟨_, by simp only [expressionSites]; rfl⟩
  | functionCall _ function _ arguments =>
      cases function <;> cases arguments <;> exact ⟨_, by simp only [expressionSites]; rfl⟩
  | struct_ _ _ fields => cases fields <;> exact ⟨_, by simp only [expressionSites]; rfl⟩
  | _ => exact ⟨_, by rw [expressionSites]⟩

theorem Infers.untyped_eq {environment : Environment} {expression : Expression}
    {before after : CheckState} {value : Option TypeInfo}
    (infers : Infers environment expression before value after) :
    untyped expression = value.isNone := by
  rcases expressionSites_head environment expression with ⟨inside, sites⟩
  have agrees := infers.untyped_iff sites
  cases value with
  | none => exact agrees.mp rfl
  | some known => simpa using agrees

/-! ## Inference of arguments -/

/-- Each argument is ready to be visited. -/
def ReadyArguments (environment : Environment) (state : CheckState)
    (arguments : List (Option Identifier × Expression)) : Prop :=
  ∀ argument ∈ arguments, Ready state (expressionSites environment argument.2)

/-- Some of the arguments are visited. -/
structure Visits (environment : Environment) (arguments : List (Option Identifier × Expression))
    (before after : CheckState) : Prop where
  table : after.symbolTable = before.symbolTable
  keys : after.reportedErrorKeys = before.reportedErrorKeys
  within : ∀ nodeId, nodeId ∉ (argumentSites environment arguments).map Site.id →
    after.nodeTypes nodeId = before.nodeTypes nodeId
  ready : ReadyArguments environment after arguments

theorem mem_argumentSites {environment : Environment}
    {arguments : List (Option Identifier × Expression)} {site : Site} :
    site ∈ argumentSites environment arguments ↔
      ∃ argument ∈ arguments, site ∈ expressionSites environment argument.2 := by
  induction arguments with
  | nil => simp [argumentSites]
  | cons head tail induction => simp [argumentSites, induction]

theorem ReadyArguments.of_ready {environment : Environment} {state : CheckState}
    {arguments : List (Option Identifier × Expression)}
    (ready : Ready state (argumentSites environment arguments)) :
    ReadyArguments environment state arguments :=
  fun argument member => ready.subset fun _ siteMember =>
    mem_argumentSites.mpr ⟨argument, member, siteMember⟩

/-- A pass over some of the arguments and then over all of them is a pass over all. -/
theorem Visits.outcome {environment : Environment}
    {arguments : List (Option Identifier × Expression)} {before middle after : CheckState}
    (visits : Visits environment arguments before middle)
    (outcome : Outcome (argumentSites environment arguments) middle after) :
    Outcome (argumentSites environment arguments) before after := by
  refine ⟨outcome.table.trans visits.table, outcome.keys.trans visits.keys, ?_, outcome.checked⟩
  refine Extends.after_within ?_ outcome.extended
  intro nodeId outside
  rw [entry_ids] at outside
  exact visits.within nodeId outside

end Inference.TypeChecker

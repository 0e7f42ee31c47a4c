import Inference.TypeChecker.InferenceAgreement

/-! # What accepted bodies say

A body that is checked without errors is well typed: every expression in it has its type recorded,
every value but that of a constant fits its place, conditions are booleans, and no variable is
declared twice in one scope.
-/

namespace Inference.TypeChecker

open Inference.Ast Inference.Foundation Inference.Foundation.Collecting

/-! ## Well-typed bodies -/

namespace Environment

/-- The innermost scope does not declare the variable. -/
def Undeclared (environment : Environment) (name : String) : Prop :=
  ∀ frame ∈ environment.head?, name ∉ frame.variables_

variable [UnicodeCase] (environment : Environment)

/-- A value fits a place of a type. An uzumaki takes on any type. -/
def Fits (expected : TypeInfo) : Expression → Prop
  | .uzumaki _ => True
  | value => ∀ found, environment.typeOf value = some found → expected = found

/-- A value is returned where a type is expected; without a type it counts as the unit. -/
def Returnable (expected : TypeInfo) : Expression → Prop
  | .uzumaki _ => True
  | value => expected = (environment.typeOf value).getD default

def Assignable (target : Option TypeInfo) : Expression → Prop
  | .uzumaki _ => target.isSome
  | value => ∀ expected ∈ target, environment.Fits expected value

def IsCondition (condition : Expression) : Prop :=
  ∃ found, environment.typeOf condition = some found ∧ found.kind = .bool

end Environment

section WellTyped

variable [UnicodeCase]

mutual

def WellTyped (returnType : TypeInfo) (environment : Environment) : Statement → Prop
  | .block block => WellTypedBlock returnType environment block
  | .expression _ | .break_ _ => True
  | .assign _ left right => environment.Assignable (environment.typeOf left) right
  | .return_ _ value => environment.Returnable returnType value
  | .loop _ condition body =>
      (match condition with
        | some condition => environment.IsCondition condition
        | none => True) ∧
      WellTypedBlock returnType environment body
  | .if_ _ condition ifArm elseArm =>
      environment.IsCondition condition ∧ WellTypedBlock returnType environment ifArm ∧
        (match elseArm with
          | some elseArm => WellTypedBlock returnType environment elseArm
          | none => True)
  | .variableDefinition _ name ty value =>
      environment.Undeclared name.name ∧
        (match value with
          | some value => environment.Fits (declaredTypeInfo ty) value
          | none => True)
  | .typeDefinition _ _ _ => True
  | .assert _ condition => environment.IsCondition condition
  -- The value is taken to have the declared type: nobody looks at it.
  | .constantDefinition definition => environment.Undeclared definition.name.name

def WellTypedBlock (returnType : TypeInfo) (environment : Environment) : BlockType → Prop
  | .mk _ _ statements => WellTypedAll returnType environment.openScope statements

def WellTypedAll (returnType : TypeInfo) (environment : Environment) : List Statement → Prop
  | [] => True
  | head :: tail =>
      WellTyped returnType environment head ∧
        WellTypedAll returnType (declaredBy environment head) tail

end

/-- The declarations in scope behind statements. -/
def declaredByAll (environment : Environment) : List Statement → Environment
  | [] => environment
  | head :: tail => declaredByAll (declaredBy environment head) tail

omit [UnicodeCase] in
theorem tail_declaredByAll (environment : Environment) (statements : List Statement) :
    (declaredByAll environment statements).tail = environment.tail := by
  induction statements generalizing environment with
  | nil => rfl
  | cons head tail induction =>
      rw [declaredByAll, induction]
      cases head <;> simp [declaredBy]

end WellTyped

/-! ## Completes over statements -/

/-- A part of the checks without errors leaves these declarations in scope and has recorded the
types of these sites, and nothing else. -/
structure Completes [UnicodeCase] (environment : Environment) (sites : List Site)
    (before after : CheckState) : Prop where
  sound : after.symbolTable.Sound
  shape : SymbolTable.SameShape before.symbolTable after.symbolTable
  clean : Clean environment after
  extended : Extends before.nodeTypes after.nodeTypes (sites.map Site.entry)
  checked : ∀ site ∈ sites, site.Checked

variable {value done : Unit} {location : Location} {node : Node}

section Passing

variable [UnicodeCase] {environment environment' : Environment} {sites others : List Site}
  {before middle after : CheckState}

theorem Completes.same (sound : before.symbolTable.Sound) (clean : Clean environment before) :
    Completes environment [] before before :=
  ⟨sound, .refl _, clean, Extends.nil, fun _ member => absurd member List.not_mem_nil⟩

theorem Outcome.passes (outcome : Outcome sites before after) (sound : before.symbolTable.Sound)
    (clean : Clean environment before) : Completes environment sites before after := by
  refine ⟨?_, ?_, outcome.clean clean, outcome.extended, outcome.checked⟩
  · rw [outcome.table]
    exact sound
  · rw [outcome.table]
    exact .refl _

theorem Completes.append (distinct : Distinct (sites ++ others))
    (left : Completes environment sites before middle)
    (right : Completes environment' others middle after) :
    Completes environment' (sites ++ others) before after := by
  refine ⟨right.sound, left.shape.trans right.shape, right.clean, ?_, ?_⟩
  · rw [List.map_append]
    refine Extends.append ?_ left.extended right.extended
    intro entry member found
    rcases List.mem_map.mp member with ⟨site, siteMember, rfl⟩
    rw [entry_ids] at found
    exact distinct.disjoint' site siteMember found
  · intro site member
    rcases List.mem_append.mp member with member | member
    · exact left.checked site member
    · exact right.checked site member

/-- A declaration behind a part records nothing. -/
theorem Completes.thenDeclares (left : Completes environment sites before middle)
    (distinct : Distinct sites) (right : Completes environment' [] middle after) :
    Completes environment' sites before after := by
  rw [← List.append_nil sites] at distinct
  have whole := left.append distinct right
  rwa [List.append_nil] at whole

/-- Behind one part, nothing is recorded yet for the sites of the other. -/
theorem Completes.unset (distinct : Distinct (sites ++ others))
    (left : Completes environment sites before middle)
    (unset : Unset before.nodeTypes ((sites ++ others).map Site.entry)) :
    Unset middle.nodeTypes (others.map Site.entry) := by
  rw [List.map_append] at unset
  intro entry member
  rcases List.mem_map.mp member with ⟨site, siteMember, rfl⟩
  have same := left.extended.same site.id
    (by rw [entry_ids]; exact distinct.disjoint site siteMember)
  exact same.trans (unset _ (List.mem_append_right _ member))

/-- A type is recorded for a site that is not inferred. -/
theorem Completes.record {site : Site} {known : TypeInfo} (sound : before.symbolTable.Sound)
    (clean : Clean environment before) (recorded : site.recorded = some known)
    (checked : site.Checked) :
    Completes environment [site] before (before.setNodeType site.id known) := by
  have outcome : Outcome [site] before (before.setNodeType site.id known) :=
    Outcome.nil.record List.not_mem_nil recorded checked
  exact outcome.passes sound clean

omit [UnicodeCase] in
theorem setNodeTypeinfo_accepts {nodeId : Nat} {typeInfo : TypeInfo}
    (accepted : (setNodeTypeinfo nodeId typeInfo).Accepts before value after) :
    after = before.setNodeType nodeId typeInfo :=
  accepts_update.mp accepted

/-- A registration without errors changes the innermost scope. -/
theorem insertCurrent_completes {noScope : String} {change : Nat → Frame → Except String Frame}
    {onFailure : String → TypeCheckError} (sound : before.symbolTable.Sound)
    (clean : Clean environment before)
    (accepted : (register (fun table => table.insertCurrent noScope change) onFailure).Accepts
      before value after) :
    ∃ scopeId frame changed, environment.head? = some frame ∧
      change scopeId frame = .ok changed ∧
      Completes (environment.changeTop fun _ => changed) [] before after := by
  cases registered : before.symbolTable.insertCurrent noScope change with
  | error reason =>
      rw [Accepts, register_error onFailure registered] at accepted
      exact (accepts_report.mp accepted).elim
  | ok table =>
      rw [Accepts, register_ok onFailure registered] at accepted
      have isAfter := accepts_update.mp accepted
      rcases SymbolTable.insertCurrent_ok registered with ⟨scope, frame, found, changed, rfl⟩
      rcases SymbolTable.environment_current sound found with ⟨rest, isTop⟩
      have same : before.symbolTable.environment = environment := clean.environment
      rw [same] at isTop
      refine ⟨scope.id, scope.toFrame, frame, by rw [isTop, List.head?_cons], changed, ?_⟩
      subst isAfter
      refine ⟨sound.modifyCurrent fun _ => frame, .modifyCurrent sound fun _ => frame,
        ⟨?_, clean.keys⟩, Extends.nil, fun _ member => absurd member List.not_mem_nil⟩
      exact (SymbolTable.environment_modifyCurrent sound fun _ => frame).trans
        (congrArg (Environment.changeTop fun _ => frame) same)

theorem pushVariable_accepts {name : Identifier} {typeInfo : TypeInfo}
    (sound : before.symbolTable.Sound) (clean : Clean environment before)
    (accepted : (pushVariable name location typeInfo).Accepts before value after) :
    environment.Undeclared name.name ∧
      Completes (environment.declareVariable name.name typeInfo) [] before after := by
  rcases insertCurrent_completes sound clean accepted with
    ⟨scopeId, frame, changed, isTop, inserted, passes⟩
  have fresh : name.name ∉ frame.variables_ := by
    intro declared
    rw [Frame.insertVariable, if_pos declared] at inserted
    cases inserted
  constructor
  · intro top member
    rw [isTop] at member
    cases member
    exact fresh
  · have same : environment.declareVariable name.name typeInfo =
        environment.changeTop fun _ => changed := by
      rw [Environment.declareVariable]
      cases environment with
      | nil => cases isTop
      | cons top rest =>
          cases isTop
          rw [Environment.changeTop, Environment.changeTop, inserted]
          rfl
    rw [same]
    exact passes

theorem registerType_accepts {name : String} {typeInfo : TypeInfo}
    {onFailure : String → TypeCheckError} (sound : before.symbolTable.Sound)
    (clean : Clean environment before)
    (accepted : (register (fun table => table.registerType name typeInfo) onFailure).Accepts before
      value after) :
    Completes (environment.declareType name typeInfo) [] before after := by
  rcases insertCurrent_completes sound clean accepted with
    ⟨scopeId, frame, changed, isTop, inserted, passes⟩
  have same : environment.declareType name typeInfo = environment.changeTop fun _ => changed := by
    rw [Environment.declareType]
    cases environment with
    | nil => cases isTop
    | cons top rest =>
        cases isTop
        rw [Environment.changeTop, Environment.changeTop, inserted]
        rfl
  rw [same]
  exact passes

/-- What is checked in a scope of its own leaves the declarations around it. -/
theorem inScope_accepts {body : CheckM Unit} {typed : Prop}
    (sound : before.symbolTable.Sound) (clean : Clean environment before)
    (outside : environment'.tail = environment)
    (inside : ∀ opened inner : CheckState, opened.symbolTable.Sound →
      Clean environment.openScope opened → opened.nodeTypes = before.nodeTypes →
        body.Accepts opened () inner → typed ∧ Completes environment' sites opened inner)
    (accepted : (inScope body).Accepts before value after) :
    typed ∧ Completes environment sites before after := by
  rcases accepts_bind.mp accepted with ⟨_, opened, opens, accepted⟩
  have isOpened := accepts_update.mp opens
  rcases accepts_bind.mp accepted with ⟨_, inner, checked, closes⟩
  have isAfter := accepts_update.mp closes
  have openedSound : opened.symbolTable.Sound := by
    rw [isOpened]
    exact sound.pushScopeWithName _ _
  have openedEnvironment : opened.environment = environment.openScope := by
    rw [isOpened]
    exact (SymbolTable.environment_pushScope sound).trans
      (congrArg Environment.openScope clean.environment)
  have openedKeys : opened.reportedErrorKeys = [] := by
    rw [isOpened]
    exact clean.keys
  have sameTypes : opened.nodeTypes = before.nodeTypes := by
    rw [isOpened]
  rcases inside opened inner openedSound ⟨openedEnvironment, openedKeys⟩ sameTypes checked with
    ⟨isTyped, passes⟩
  have shape : SymbolTable.SameShape before.symbolTable.pushScope inner.symbolTable := by
    have shape := passes.shape
    rw [isOpened] at shape
    exact shape
  rcases SymbolTable.popScope_pushed sound passes.sound shape with ⟨popped, closedShape, frames⟩
  subst isAfter
  refine ⟨isTyped, popped, closedShape, ⟨?_, passes.clean.keys⟩, ?_, passes.checked⟩
  · have innerEnvironment : inner.symbolTable.environment = environment' := passes.clean.environment
    exact frames.trans ((congrArg List.tail innerEnvironment).trans outside)
  · rw [← sameTypes]
    exact passes.extended

/-! ## Values -/

/-- Nothing is recorded for the sites so far. -/
abbrev Fresh (state : CheckState) (sites : List Site) : Prop :=
  Unset state.nodeTypes (sites.map Site.entry)

theorem Fresh.left (fresh : Fresh before (sites ++ others)) : Fresh before sites := by
  rw [Fresh, List.map_append] at fresh
  exact fun entry member => fresh entry (List.mem_append_left _ member)

theorem Completes.skipped {expressions : List Expression} (sound : before.symbolTable.Sound)
    (clean : Clean environment' before)
    (fresh : Fresh before (skippedSites environment expressions)) :
    Completes environment' (skippedSites environment expressions) before before :=
  (Outcome.skipped (.inl fresh)).passes sound clean

/-- An expression is inferred. -/
theorem inferExpression_passes {expression : Expression} {value : Option TypeInfo}
    (sound : before.symbolTable.Sound) (clean : Clean environment before)
    (distinct : Distinct (expressionSites environment expression))
    (fresh : Fresh before (expressionSites environment expression))
    (accepted : (inferExpression expression).Accepts before value after) :
    value = environment.typeOf expression ∧
      Completes environment (expressionSites environment expression) before after :=
  have infers := inferExpression_agrees expression clean distinct (.inl fresh) accepted
  ⟨infers.value, infers.outcome.passes sound clean⟩

omit [UnicodeCase] in
theorem compareTypes_accepts {expected found : TypeInfo} {context : TypeMismatchContext}
    (accepted : (compareTypes expected found context location).Accepts before value after) :
    expected = found ∧ after = before := by
  simp only [compareTypes, pushError, accepts_ite, accepts_pure, accepts_report] at accepted
  rcases accepted with ⟨same, _, unchanged⟩ | ⟨_, impossible⟩
  · exact ⟨same, unchanged⟩
  · exact impossible.elim

omit [UnicodeCase] in
theorem checkCondition_accepts {found : Option TypeInfo}
    (accepted : (checkCondition location found).Accepts before value after) :
    (∃ known, found = some known ∧ known.kind = .bool) ∧ after = before := by
  cases found with
  | none =>
      simp only [checkCondition, pushError, accepts_report] at accepted
  | some known =>
      simp only [checkCondition, pushError, accepts_ite, accepts_pure, accepts_report] at accepted
      rcases accepted with ⟨isBool, _, unchanged⟩ | ⟨_, impossible⟩
      · exact ⟨⟨known, rfl, isBool⟩, unchanged⟩
      · exact impossible.elim

theorem condition_passes {condition : Expression} {found : Option TypeInfo}
    {middle : CheckState} (sound : before.symbolTable.Sound) (clean : Clean environment before)
    (distinct : Distinct (expressionSites environment condition))
    (fresh : Fresh before (expressionSites environment condition))
    (inferred : (inferExpression condition).Accepts before found middle)
    (accepted : (checkCondition location found).Accepts middle value after) :
    environment.IsCondition condition ∧
      Completes environment (expressionSites environment condition) before after := by
  rcases inferExpression_passes sound clean distinct fresh inferred with ⟨isType, passes⟩
  rcases checkCondition_accepts accepted with ⟨⟨known, isKnown, isBool⟩, rfl⟩
  exact ⟨⟨known, isType.symm.trans isKnown, isBool⟩, passes⟩

/-- A value that is no uzumaki is treated like any expression. -/
theorem value_cases (value : Expression) :
    (∃ node, value = .uzumaki node) ∨
      (∀ environment expected, valueSites true environment expected value =
          expressionSites environment value) ∧
        (∀ (environment : Environment) expected, environment.Fits expected value =
          ∀ found, environment.typeOf value = some found → expected = found) ∧
        (∀ (environment : Environment) expected, environment.Returnable expected value =
          (expected = (environment.typeOf value).getD default)) ∧
        (∀ (environment : Environment) target, environment.Assignable target value =
          ∀ expected ∈ target, environment.Fits expected value) ∧
        (∀ node target, inferInitial node target (some value) =
          inferExpression value >>= compareInitial node target) ∧
        (∀ node target, inferAssigned node target value =
          inferExpression value >>= compareAssigned node target) ∧
        ∀ node returnType, inferReturned node returnType value =
          inferExpression value >>= fun found =>
            compareTypes returnType (found.getD default) .return_ node.location := by
  cases value with
  | uzumaki node => exact .inl ⟨node, rfl⟩
  | _ =>
      exact .inr ⟨fun _ _ => rfl, fun _ _ => rfl, fun _ _ => rfl, fun _ _ => rfl, fun _ _ => rfl,
        fun _ _ => rfl, fun _ _ => rfl⟩

theorem inferInitial_passes {targetType : TypeInfo} {value : Expression}
    (sound : before.symbolTable.Sound) (clean : Clean environment before)
    (distinct : Distinct (valueSites true environment (some targetType) value))
    (fresh : Fresh before (valueSites true environment (some targetType) value))
    (accepted : (inferInitial node targetType (some value)).Accepts before done after) :
    environment.Fits targetType value ∧
      Completes environment (valueSites true environment (some targetType) value) before after := by
  rcases value_cases value with ⟨uzumaki, rfl⟩ | ⟨isSites, fits, -, -, infers, -, -⟩
  · cases setNodeTypeinfo_accepts accepted
    exact ⟨trivial, .record sound clean rfl trivial⟩
  · rw [isSites] at distinct fresh ⊢
    rw [infers] at accepted
    rw [fits]
    rcases accepts_bind.mp accepted with ⟨found, middle, inferred, compared⟩
    rcases inferExpression_passes sound clean distinct fresh inferred with ⟨isType, passes⟩
    cases found with
    | none =>
        rcases accepts_pure.mp compared with ⟨_, rfl⟩
        refine ⟨fun known isKnown => ?_, passes⟩
        rw [← isType] at isKnown
        cases isKnown
    | some known =>
        rcases compareTypes_accepts compared with ⟨same, rfl⟩
        refine ⟨fun other isOther => ?_, passes⟩
        rw [← isType] at isOther
        cases isOther
        exact same

theorem inferAssigned_passes {targetType : Option TypeInfo} {value : Expression}
    (sound : before.symbolTable.Sound) (clean : Clean environment before)
    (distinct : Distinct (valueSites true environment targetType value))
    (fresh : Fresh before (valueSites true environment targetType value))
    (accepted : (inferAssigned node targetType value).Accepts before done after) :
    environment.Assignable targetType value ∧
      Completes environment (valueSites true environment targetType value) before after := by
  rcases value_cases value with ⟨uzumaki, rfl⟩ | ⟨isSites, fits, -, assigns, -, infers, -⟩
  · cases targetType with
    | none => exact (accepts_report.mp accepted).elim
    | some known =>
        cases setNodeTypeinfo_accepts accepted
        exact ⟨rfl, .record sound clean rfl trivial⟩
  · rw [isSites] at distinct fresh ⊢
    rw [infers] at accepted
    rw [assigns]
    rcases accepts_bind.mp accepted with ⟨found, middle, inferred, compared⟩
    rcases inferExpression_passes sound clean distinct fresh inferred with ⟨isType, passes⟩
    cases targetType with
    | none =>
        rcases accepts_pure.mp compared with ⟨_, rfl⟩
        refine ⟨fun _ member => ?_, passes⟩
        cases member
    | some expected =>
        cases found with
        | none =>
            rcases accepts_pure.mp compared with ⟨_, rfl⟩
            refine ⟨fun other member => ?_, passes⟩
            rw [fits]
            intro known isKnown
            rw [← isType] at isKnown
            cases isKnown
        | some known =>
            rcases compareTypes_accepts compared with ⟨same, rfl⟩
            refine ⟨fun other member => ?_, passes⟩
            cases member
            rw [fits]
            intro other isOther
            rw [← isType] at isOther
            cases isOther
            exact same

theorem inferReturned_passes {returnType : TypeInfo} {value : Expression}
    (sound : before.symbolTable.Sound) (clean : Clean environment before)
    (distinct : Distinct (valueSites true environment (some returnType) value))
    (fresh : Fresh before (valueSites true environment (some returnType) value))
    (accepted : (inferReturned node returnType value).Accepts before done after) :
    environment.Returnable returnType value ∧
      Completes environment (valueSites true environment (some returnType) value) before after := by
  rcases value_cases value with ⟨uzumaki, rfl⟩ | ⟨isSites, -, returns, -, -, -, infers⟩
  · cases setNodeTypeinfo_accepts accepted
    exact ⟨trivial, .record sound clean rfl trivial⟩
  · rw [isSites] at distinct fresh ⊢
    rw [infers] at accepted
    rw [returns]
    rcases accepts_bind.mp accepted with ⟨found, middle, inferred, compared⟩
    rcases inferExpression_passes sound clean distinct fresh inferred with ⟨isType, passes⟩
    rcases compareTypes_accepts compared with ⟨same, rfl⟩
    rw [← isType]
    exact ⟨same, passes⟩

/-! ## Statements -/

/-- Two types are recorded for the nodes of a definition. -/
theorem declared_passes {nodeId : Nat} {typeInfo : TypeInfo}
    (sound : before.symbolTable.Sound) (clean : Clean environment before)
    (accepted : (setNodeTypeinfo nodeId typeInfo).Accepts before value after) :
    Completes environment [.declared nodeId typeInfo] before after := by
  cases setNodeTypeinfo_accepts accepted
  exact .record sound clean rfl trivial

/-- A variable is declared and its type recorded for its name and for its definition. -/
theorem pushed_passes {name : Identifier} {typeInfo : TypeInfo}
    (sound : before.symbolTable.Sound) (clean : Clean environment before)
    (distinct : Distinct (declaredSites true [(name.id, typeInfo), (node.id, typeInfo)]))
    (accepted : (do
      pushVariable name node.location typeInfo
      setNodeTypeinfo name.id typeInfo
      setNodeTypeinfo node.id typeInfo : CheckM Unit).Accepts before value after) :
    environment.Undeclared name.name ∧
      Completes (environment.declareVariable name.name typeInfo)
        (declaredSites true [(name.id, typeInfo), (node.id, typeInfo)]) before after := by
  rcases accepts_bind.mp accepted with ⟨_, pushed, declared, accepted⟩
  rcases accepts_bind.mp accepted with ⟨_, named, first, second⟩
  rcases pushVariable_accepts sound clean declared with ⟨undeclared, passes⟩
  have recorded := declared_passes passes.sound passes.clean first
  have both := recorded.append distinct (declared_passes recorded.sound recorded.clean second)
  exact ⟨undeclared, passes.append distinct both⟩

/-- A constant is declared and its type recorded for its literal and for its definition. -/
theorem constant_passes {definition : ConstantDefinition} {typeInfo : TypeInfo}
    (sound : before.symbolTable.Sound) (clean : Clean environment before)
    (isType : declaredTypeInfo definition.ty = typeInfo)
    (distinct : Distinct (constantSites true environment definition ++
      declaredSites true [(definition.id, declaredTypeInfo definition.ty)]))
    (fresh : Fresh before (constantSites true environment definition ++
      declaredSites true [(definition.id, declaredTypeInfo definition.ty)]))
    (accepted : (do
      pushVariable definition.name definition.location typeInfo
      setNodeTypeinfo definition.value.id typeInfo
      setNodeTypeinfo definition.id typeInfo : CheckM Unit).Accepts before value after) :
    environment.Undeclared definition.name.name ∧
      Completes (environment.declareVariable definition.name.name typeInfo)
        (constantSites true environment definition ++
          declaredSites true [(definition.id, declaredTypeInfo definition.ty)]) before after := by
  subst isType
  rcases accepts_bind.mp accepted with ⟨_, pushed, declared, accepted⟩
  rcases accepts_bind.mp accepted with ⟨_, valued, first, second⟩
  rw [constantSites, if_pos rfl] at distinct fresh ⊢
  have front := Distinct.left distinct
  have skipped := Completes.skipped sound clean fresh.left.left
  rcases pushVariable_accepts skipped.sound skipped.clean declared with ⟨undeclared, passes⟩
  have types := skipped.thenDeclares front.left passes
  have literal : Completes (environment.declareVariable definition.name.name
      (declaredTypeInfo definition.ty))
      [.preset environment (.literal definition.value) (declaredTypeInfo definition.ty)] pushed
      valued := by
    cases setNodeTypeinfo_accepts first
    exact .record types.sound types.clean rfl trivial
  have inside : Distinct
      ([.preset environment (.literal definition.value) (declaredTypeInfo definition.ty)] ++
        skippedSites environment definition.value.nodes) := front.right
  have unset := literal.unset inside (types.unset front fresh.left)
  have value := literal.append inside (.skipped literal.sound literal.clean unset)
  have both := types.append front value
  exact ⟨undeclared, both.append distinct (declared_passes both.sound both.clean second)⟩

omit [UnicodeCase] in
theorem typeInfoOf_accepts {type : Type_} {typeInfo : TypeInfo}
    (accepted : (typeInfoOf type).Accepts before typeInfo after) :
    declaredTypeInfo type = typeInfo ∧ after = before := by
  rcases accepts_expect.mp accepted with ⟨isNew, same⟩
  refine ⟨?_, same⟩
  rw [declaredTypeInfo, isNew]
  rfl

mutual

theorem inferStatement_passes (returnType : TypeInfo) : (statement : Statement) →
    {environment : Environment} → {before after : CheckState} → before.symbolTable.Sound →
      Clean environment before → Distinct (statementSites true returnType environment statement) →
        Fresh before (statementSites true returnType environment statement) →
          (inferStatement returnType statement).Accepts before () after →
            WellTyped returnType environment statement ∧
              Completes (declaredBy environment statement)
                (statementSites true returnType environment statement) before after
  | .block block, environment, before, after, sound, clean, distinct, fresh, accepted => by
      rw [statementSites] at distinct fresh ⊢
      rw [inferStatement] at accepted
      rw [WellTyped, declaredBy]
      exact inferBlock_passes returnType block sound clean distinct fresh accepted
  | .expression expression, environment, before, after, sound, clean, distinct, fresh, accepted => by
      rw [statementSites] at distinct fresh ⊢
      rw [inferStatement] at accepted
      rw [WellTyped, declaredBy]
      rcases accepts_bind.mp accepted with ⟨found, middle, inferred, done⟩
      rcases accepts_pure.mp done with ⟨_, rfl⟩
      exact ⟨trivial, (inferExpression_passes sound clean distinct fresh inferred).2⟩
  | .assign node left right, environment, before, after, sound, clean, distinct, fresh, accepted =>
      by
      rw [statementSites] at distinct fresh ⊢
      rw [inferStatement] at accepted
      rw [WellTyped, declaredBy]
      rcases accepts_bind.mp accepted with ⟨targetType, middle, inferred, assigned⟩
      rcases inferExpression_passes sound clean distinct.left fresh.left inferred with
        ⟨isTarget, passes⟩
      rw [isTarget] at assigned
      rcases inferAssigned_passes passes.sound passes.clean distinct.right
        (passes.unset distinct fresh) assigned with ⟨assigns, passesRight⟩
      exact ⟨assigns, passes.append distinct passesRight⟩
  | .return_ node value, environment, before, after, sound, clean, distinct, fresh, accepted => by
      rw [statementSites] at distinct fresh ⊢
      rw [inferStatement] at accepted
      rw [WellTyped, declaredBy]
      exact inferReturned_passes sound clean distinct fresh accepted
  | .loop node none body, environment, before, after, sound, clean, distinct, fresh, accepted => by
      rw [statementSites.eq_def] at distinct fresh ⊢
      rw [inferStatement.eq_def] at accepted
      rw [WellTyped.eq_def, declaredBy]
      rcases inferBlock_passes returnType body sound clean distinct fresh accepted with
        ⟨typed, passes⟩
      exact ⟨⟨trivial, typed⟩, passes⟩
  | .loop node (some condition) body, environment, before, after, sound, clean, distinct, fresh,
      accepted => by
      rw [statementSites.eq_def] at distinct fresh ⊢
      rw [inferStatement.eq_def] at accepted
      rw [WellTyped.eq_def, declaredBy]
      rcases accepts_bind.mp accepted with ⟨found, inner, inferred, rest⟩
      rcases accepts_bind.mp rest with ⟨_, middle, checked, looped⟩
      rcases condition_passes sound clean (Distinct.left distinct) (Fresh.left fresh) inferred
        checked with ⟨isCondition, passes⟩
      rcases inferBlock_passes returnType body passes.sound passes.clean (Distinct.right distinct)
        (passes.unset distinct fresh) looped with ⟨typed, passesBody⟩
      exact ⟨⟨isCondition, typed⟩, passes.append distinct passesBody⟩
  | .break_ node, environment, before, after, sound, clean, distinct, fresh, accepted => by
      rw [inferStatement] at accepted
      rcases accepts_pure.mp accepted with ⟨_, rfl⟩
      rw [WellTyped, statementSites, declaredBy]
      exact ⟨trivial, .same sound clean⟩
  | .if_ node condition ifArm none, environment, before, after, sound, clean, distinct, fresh,
      accepted => by
      rw [statementSites.eq_def] at distinct fresh ⊢
      rw [inferStatement.eq_def] at accepted
      rw [WellTyped.eq_def, declaredBy]
      dsimp only at distinct fresh ⊢
      rw [List.append_nil] at distinct fresh ⊢
      rcases accepts_bind.mp accepted with ⟨found, inner, inferred, rest⟩
      rcases accepts_bind.mp rest with ⟨_, middle, checked, arms⟩
      rcases accepts_bind.mp arms with ⟨_, last, first, done⟩
      rcases accepts_pure.mp done with ⟨_, rfl⟩
      rcases condition_passes sound clean distinct.left fresh.left inferred checked with
        ⟨isCondition, passes⟩
      rcases inferBlock_passes returnType ifArm passes.sound passes.clean distinct.right
        (passes.unset distinct fresh) first with ⟨typed, passesArm⟩
      exact ⟨⟨isCondition, typed, trivial⟩, passes.append distinct passesArm⟩
  | .if_ node condition ifArm (some elseArm), environment, before, after, sound, clean, distinct,
      fresh, accepted => by
      rw [statementSites.eq_def] at distinct fresh ⊢
      rw [inferStatement.eq_def] at accepted
      rw [WellTyped.eq_def, declaredBy]
      rcases accepts_bind.mp accepted with ⟨found, inner, inferred, rest⟩
      rcases accepts_bind.mp rest with ⟨_, middle, checked, arms⟩
      rcases accepts_bind.mp arms with ⟨_, last, first, second⟩
      have outer := Distinct.left distinct
      rcases condition_passes sound clean outer.left (Fresh.left (Fresh.left fresh)) inferred
        checked with ⟨isCondition, passes⟩
      rcases inferBlock_passes returnType ifArm passes.sound passes.clean outer.right
        (passes.unset outer (Fresh.left fresh)) first with ⟨typed, passesArm⟩
      have both := passes.append outer passesArm
      rcases inferBlock_passes returnType elseArm both.sound both.clean (Distinct.right distinct)
        (both.unset distinct fresh) second with ⟨typedElse, passesElse⟩
      exact ⟨⟨isCondition, typed, typedElse⟩, both.append distinct passesElse⟩
  | .assert node condition, environment, before, after, sound, clean, distinct, fresh, accepted => by
      rw [statementSites] at distinct fresh ⊢
      rw [inferStatement] at accepted
      rw [WellTyped, declaredBy]
      rcases accepts_bind.mp accepted with ⟨found, middle, inferred, checked⟩
      exact condition_passes sound clean distinct fresh inferred checked
  | .typeDefinition node name ty, environment, before, after, sound, clean, distinct, fresh,
      accepted => by
      rw [statementSites] at distinct fresh ⊢
      rw [inferStatement] at accepted
      rw [WellTyped, declaredBy]
      rcases accepts_bind.mp accepted with ⟨typeInfo, middle, isNew, registered⟩
      rcases typeInfoOf_accepts isNew with ⟨rfl, rfl⟩
      have passes := Completes.skipped sound clean fresh
      have declared := registerType_accepts passes.sound passes.clean registered
      exact ⟨trivial, passes.thenDeclares distinct declared⟩
  | .variableDefinition node name ty none, environment, before, after, sound, clean, distinct, fresh,
      accepted => by
      rw [statementSites.eq_def] at distinct fresh ⊢
      rw [inferStatement] at accepted
      rw [WellTyped.eq_def, declaredBy]
      dsimp only at distinct fresh ⊢
      rw [List.append_nil] at distinct fresh ⊢
      rcases accepts_bind.mp accepted with ⟨targetType, middle, isNew, rest⟩
      rcases typeInfoOf_accepts isNew with ⟨rfl, rfl⟩
      rcases accepts_bind.mp rest with ⟨_, initialized, initial, pushes⟩
      rcases accepts_pure.mp initial with ⟨_, rfl⟩
      have passes := Completes.skipped sound clean (Fresh.left fresh)
      rcases pushed_passes passes.sound passes.clean (Distinct.right distinct) pushes with
        ⟨undeclared, declared⟩
      exact ⟨⟨undeclared, trivial⟩, passes.append distinct declared⟩
  | .variableDefinition node name ty (some value), environment, before, after, sound, clean,
      distinct, fresh, accepted => by
      rw [statementSites.eq_def] at distinct fresh ⊢
      rw [inferStatement] at accepted
      rw [WellTyped.eq_def, declaredBy]
      dsimp only at distinct fresh ⊢
      have front := Distinct.left distinct
      rcases accepts_bind.mp accepted with ⟨targetType, middle, isNew, rest⟩
      rcases typeInfoOf_accepts isNew with ⟨rfl, rfl⟩
      rcases accepts_bind.mp rest with ⟨_, initialized, initial, pushes⟩
      have passes := Completes.skipped sound clean (Fresh.left (Fresh.left fresh))
      rcases inferInitial_passes passes.sound passes.clean front.right
        (passes.unset front (Fresh.left fresh)) initial with ⟨fits, passesValue⟩
      have both := passes.append front passesValue
      rcases pushed_passes both.sound both.clean (Distinct.right distinct) pushes with
        ⟨undeclared, declared⟩
      exact ⟨⟨undeclared, fits⟩, both.append distinct declared⟩
  | .constantDefinition definition, environment, before, after, sound, clean, distinct, fresh,
      accepted => by
      rw [statementSites] at distinct fresh ⊢
      rw [inferStatement] at accepted
      rw [WellTyped, declaredBy]
      rcases accepts_bind.mp accepted with ⟨constantType, middle, isNew, rest⟩
      rcases typeInfoOf_accepts isNew with ⟨rfl, rfl⟩
      exact constant_passes sound clean rfl distinct fresh rest

theorem inferBlock_passes (returnType : TypeInfo) : (block : BlockType) →
    {environment : Environment} → {before after : CheckState} → before.symbolTable.Sound →
      Clean environment before → Distinct (blockSites true returnType environment block) →
        Fresh before (blockSites true returnType environment block) →
          (inScope (inferBlock returnType block)).Accepts before () after →
            WellTypedBlock returnType environment block ∧
              Completes environment (blockSites true returnType environment block) before after
  | .mk kind node statements, environment, before, after, sound, clean, distinct, fresh, accepted =>
      by
      rw [blockSites] at distinct fresh ⊢
      rw [WellTypedBlock]
      refine inScope_accepts sound clean (tail_declaredByAll environment.openScope statements) ?_
        accepted
      intro opened inner openedSound openedClean sameTypes checked
      refine inferStatements_passes returnType statements openedSound openedClean distinct ?_
        checked
      rw [Fresh, sameTypes]
      exact fresh

theorem inferStatements_passes (returnType : TypeInfo) : (statements : List Statement) →
    {environment : Environment} → {before after : CheckState} → before.symbolTable.Sound →
      Clean environment before →
        Distinct (statementListSites true returnType environment statements) →
          Fresh before (statementListSites true returnType environment statements) →
            (inferStatements returnType statements).Accepts before () after →
              WellTypedAll returnType environment statements ∧
                Completes (declaredByAll environment statements)
                  (statementListSites true returnType environment statements) before after
  | [], environment, before, after, sound, clean, distinct, fresh, accepted => by
      rw [inferStatements] at accepted
      rcases accepts_pure.mp accepted with ⟨_, rfl⟩
      rw [WellTypedAll, statementListSites, declaredByAll]
      exact ⟨trivial, .same sound clean⟩
  | head :: tail, environment, before, after, sound, clean, distinct, fresh, accepted => by
      rw [statementListSites] at distinct fresh ⊢
      rw [inferStatements] at accepted
      rw [WellTypedAll, declaredByAll]
      rcases accepts_bind.mp accepted with ⟨_, middle, first, rest⟩
      rcases inferStatement_passes returnType head sound clean distinct.left fresh.left first with
        ⟨typed, passes⟩
      rcases inferStatements_passes returnType tail passes.sound passes.clean distinct.right
        (passes.unset distinct fresh) rest with ⟨typedTail, passesTail⟩
      exact ⟨⟨typed, typedTail⟩, passes.append distinct passesTail⟩

end

end Passing

end Inference.TypeChecker

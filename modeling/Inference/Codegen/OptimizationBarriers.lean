import Inference.Codegen.Emission

/-! # Optimization barriers

The barriers of a function against the intrinsics its lowering emits.
-/

namespace Inference.Codegen

open Inference.Ast Inference.TypeChecker

/-! ## What is lowered -/

def lowersExpression : Expression → Bool
  | .literal (.bool _ _) | .literal (.number _ _) | .identifier _ | .uzumaki _ => true
  | _ => false

mutual

/-- The statement is made of what the generator implements. -/
def lowersStatement : Statement → Bool
  | .block (.mk _ _ statements) => lowersStatements statements
  | .expression expression | .return_ _ expression => lowersExpression expression
  | .variableDefinition _ _ _ _ => true
  | .constantDefinition definition =>
      match definition.value with
      | .number _ _ => true
      | _ => false
  | .assign _ _ _ | .loop _ _ _ | .break_ _ | .if_ _ _ _ _ => false
  | .typeDefinition _ _ _ | .assert _ _ => false

def lowersStatements : List Statement → Bool
  | [] => true
  | head :: tail => lowersStatement head && lowersStatements tail

end

theorem lowersStatement_block (block : BlockType) :
    lowersStatement (.block block) = lowersStatements block.statements := by
  cases block
  rw [lowersStatement, BlockType.statements]

def lowersFunction (definition : FunctionDefinition) : Bool :=
  (functionType definition).isSome && lowersStatements definition.body.statements

mutual

/-- The expressions that are lowered: those of expression statements and of returns,
not the initial values of variables. -/
def loweredExpressions : Statement → List Expression
  | .block (.mk _ _ statements) => statementListLoweredExpressions statements
  | .expression expression | .return_ _ expression => [expression]
  | .assign _ _ _ | .loop _ _ _ | .break_ _ | .if_ _ _ _ _ | .variableDefinition _ _ _ _ => []
  | .typeDefinition _ _ _ | .assert _ _ | .constantDefinition _ => []

def statementListLoweredExpressions : List Statement → List Expression
  | [] => []
  | head :: tail => loweredExpressions head ++ statementListLoweredExpressions tail

end

/-! ## Completed runs -/

/-- A run completes only under the condition. -/
def Requires {result : Type} (computation : Lowering Variables result) (condition : Prop) : Prop :=
  ∀ builder value after, computation builder = some (value, after) → condition

namespace Requires

theorem todo {result : Type} (condition : Prop) :
    Requires (todo : Lowering Variables result) condition := by
  intro builder value after run
  exact absurd run (by simp [Codegen.todo])

theorem of_holds {result : Type} {computation : Lowering Variables result} {condition : Prop}
    (holds : condition) : Requires computation condition :=
  fun _ _ _ _ => holds

theorem bind {first second : Type} {computation : Lowering Variables first}
    {next : first → Lowering Variables second} {before behind : Prop}
    (requires : Requires computation before) (rest : ∀ value, Requires (next value) behind) :
    Requires (computation >>= next) (before ∧ behind) := by
  intro builder result after run
  rcases Lowering.bind_eq_some.mp run with ⟨value, middle, firstRun, secondRun⟩
  exact ⟨requires _ _ _ firstRun, rest value _ _ _ secondRun⟩

theorem left {first second : Type} {computation : Lowering Variables first}
    {next : first → Lowering Variables second} {condition : Prop}
    (requires : Requires computation condition) : Requires (computation >>= next) condition :=
  fun builder result after run =>
    (bind requires (fun _ => of_holds trivial) builder result after run).1

end Requires

theorem requires_lowerExpression (context : TypedContext) (expression : Expression) :
    Requires (lowerExpression context expression) (lowersExpression expression = true) := by
  cases expression with
  | literal literal =>
      cases literal with
      | bool _ _ | number _ _ => exact Requires.of_holds rfl
      | array _ _ | string _ _ | unit _ => exact Requires.todo _
  | identifier _ | uzumaki _ => exact Requires.of_holds rfl
  | _ => exact Requires.todo _

theorem requires_lowerConstant (context : TypedContext) (definition : ConstantDefinition) :
    Requires (lowerConstant context definition)
      (lowersStatement (.constantDefinition definition) = true) := by
  rw [lowerConstant]
  split
  · cases value : definition.value with
    | number _ _ => exact Requires.of_holds (by rw [lowersStatement, value])
    | _ => exact Requires.todo _
  · exact Requires.todo _

mutual

theorem requires_lowerStatement (context : TypedContext) (parents : List BlockType) :
    ∀ statement : Statement, Requires (lowerStatement context parents statement)
      (lowersStatement statement = true)
  | .block (.mk kind node statements) => by
      rw [lowerStatement, lowersStatement]
      intro builder value after run
      rcases Lowering.bind_eq_some.mp run with ⟨_, middle, -, behind⟩
      exact Requires.left (requires_lowerStatements context _ statements) _ _ _ behind
  | .expression expression => by
      rw [lowerStatement, lowersStatement]
      exact Requires.left (requires_lowerExpression context expression)
  | .return_ _ expression => by
      rw [lowerStatement, lowersStatement]
      exact Requires.left (requires_lowerExpression context expression)
  | .constantDefinition definition => by
      rw [lowerStatement]
      exact requires_lowerConstant context definition
  | .variableDefinition _ _ _ _ => Requires.of_holds (by rw [lowersStatement])
  | .assign _ _ _ => Requires.todo _
  | .loop _ _ _ => Requires.todo _
  | .break_ _ => Requires.todo _
  | .if_ _ _ _ _ => Requires.todo _
  | .typeDefinition _ _ _ => Requires.todo _
  | .assert _ _ => Requires.todo _

theorem requires_lowerStatements (context : TypedContext) (parents : List BlockType) :
    ∀ statements : List Statement, Requires (lowerStatements context parents statements)
      (lowersStatements statements = true)
  | [] => Requires.of_holds (by rw [lowersStatements])
  | head :: tail => by
      rw [lowerStatements, lowersStatements, Bool.and_eq_true]
      exact Requires.bind (requires_lowerStatement context parents head)
        fun _ => requires_lowerStatements context parents tail

end

variable {definition : FunctionDefinition}

theorem visit_lowersFunction {context : TypedContext} {compiler after : Compiler}
    (run : visitFunctionDefinition context definition compiler = some after) :
    lowersFunction definition = true := by
  rcases visitFunctionDefinition_ok run with ⟨_, builder, -, lowered, typed, -, -, -⟩
  have requires : Requires (lowerBody context definition)
      (lowersStatement (.block definition.body) = true) := by
    rw [lowerBody]
    exact Requires.left (requires_lowerStatement context _ _)
  rw [lowersFunction, Bool.and_eq_true]
  refine ⟨typed, ?_⟩
  rw [← lowersStatement_block]
  exact requires _ _ _ lowered

/-- A run over a map that has the names completes and keeps the names in the map. -/
def Completes {result : Type} (names : List String) (computation : Lowering Variables result) : Prop :=
  ∀ builder : Builder Variables, (∀ name ∈ names, name ∈ builder.variables_) →
    ∃ value after, computation builder = some (value, after) ∧
      ∀ name ∈ names, name ∈ after.variables_

namespace Completes

variable {names : List String}

theorem pure {result : Type} (value : result) : Completes names (pure value) :=
  fun builder known => ⟨value, builder, rfl, known⟩

theorem build (instruction : Instruction) : Completes names (build instruction) :=
  fun _ known => ⟨_, _, rfl, known⟩

theorem bind {first second : Type} {computation : Lowering Variables first}
    {next : first → Lowering Variables second} (completes : Completes names computation)
    (rest : ∀ value, Completes names (next value)) :
    Completes names (computation >>= next) := by
  intro builder known
  rcases completes builder known with ⟨value, middle, run, kept⟩
  rcases rest value middle kept with ⟨result, after, restRun, restKept⟩
  exact ⟨result, after, Lowering.bind_eq_some.mpr ⟨value, middle, run, restRun⟩, restKept⟩

theorem lookupVariable {name : String} (member : name ∈ names) :
    Completes names (lookupVariable name) := by
  intro builder known
  rcases Option.isSome_iff_exists.mp (AList.lookup_isSome.mpr (known name member)) with
    ⟨found, equal⟩
  exact ⟨found, builder, by simp [Codegen.lookupVariable, equal], known⟩

theorem insertVariable (name : String) (place : Place) (type : IntType) :
    Completes names (insertVariable name place type) := by
  intro builder known
  refine ⟨(), _, rfl, ?_⟩
  intro other member
  exact AList.mem_insert _ |>.mpr (.inr (known other member))

end Completes

/-- The types under which the generator lowers everything it implements. -/
def AllI32 (context : TypedContext) : Prop :=
  ∀ nodeId, (context.getNodeTypeinfo nodeId).map TypeInfo.kind = some (.number .i32)

theorem AllI32.isNodeI32 {context : TypedContext} (all : AllI32 context) (nodeId : Nat) :
    isNodeI32 context nodeId = true := by
  have typed := all nodeId
  rw [Option.map_eq_some_iff] at typed
  rcases typed with ⟨info, known, kind⟩
  simp [Codegen.isNodeI32, known, kind]

theorem completes_lowerExpression {context : TypedContext} (all : AllI32 context)
    {names : List String} {expression : Expression} (lowers : lowersExpression expression = true)
    (known : ∀ identifier, expression = .identifier identifier → identifier.name ∈ names) :
    Completes names (lowerExpression context expression) := by
  cases expression with
  | literal literal =>
      cases literal with
      | bool _ _ | number _ _ => exact Completes.pure _
      | array _ _ | string _ _ | unit _ => exact absurd lowers (by simp [lowersExpression])
  | identifier identifier =>
      apply Completes.bind (Completes.lookupVariable (known identifier rfl))
      intro found
      exact Completes.bind (Completes.build _) fun _ => Completes.pure _
  | uzumaki node =>
      rw [lowerExpression, lowerUzumaki, if_pos (all.isNodeI32 node.id)]
      exact Completes.bind (Completes.build _) fun _ => Completes.pure _
  | _ => exact absurd lowers (by simp [lowersExpression])

theorem completes_buildCall (names : List String) (intrinsic : Option Intrinsic) :
    Completes names (buildCall intrinsic) := by
  cases intrinsic with
  | none => exact Completes.pure ()
  | some intrinsic => exact Completes.bind (Completes.build _) fun _ => Completes.pure ()

theorem completes_keepTemporary (names : List String) {parents : List BlockType}
    {first : BlockType} (outermost : parents.head? = some first) (value : IntValue) :
    Completes names (keepTemporary parents value) := by
  simp only [keepTemporary, outermost]
  split
  · apply Completes.bind (Completes.build _)
    intro pointer
    exact Completes.bind (Completes.build _) fun _ => Completes.pure ()
  · exact Completes.pure ()

theorem completes_lowerConstant (names : List String) {context : TypedContext}
    (all : AllI32 context) {definition : ConstantDefinition}
    (lowers : lowersStatement (.constantDefinition definition) = true) :
    Completes names (lowerConstant context definition) := by
  rw [lowerConstant, all definition.id]
  cases value : definition.value with
  | number _ _ =>
      apply Completes.bind (Completes.build _)
      intro pointer
      exact Completes.bind (Completes.build _) fun _ => Completes.insertVariable _ _ _
  | _ => exact absurd lowers (by simp [lowersStatement, value])

/-- The names that the lowered expressions use. -/
def UsesOnly (names : List String) (expressions : List Expression) : Prop :=
  ∀ identifier, .identifier identifier ∈ expressions → identifier.name ∈ names

mutual

theorem completes_lowerStatement {context : TypedContext} (all : AllI32 context)
    {names : List String} {parents : List BlockType} {first : BlockType}
    (outermost : parents.head? = some first) : ∀ statement : Statement,
    lowersStatement statement = true → UsesOnly names (loweredExpressions statement) →
      Completes names (lowerStatement context parents statement)
  | .block (.mk kind node statements), lowers, uses => by
      rw [lowersStatement] at lowers
      rw [loweredExpressions] at uses
      have outermostInside : (parents ++ [BlockType.mk kind node statements]).head? = some first := by
        simp [outermost]
      rw [lowerStatement]
      apply Completes.bind (completes_buildCall names _)
      intro _
      apply Completes.bind
        (completes_lowerStatements all outermostInside statements lowers uses)
      intro _
      exact completes_buildCall names _
  | .expression expression, lowers, uses => by
      rw [lowersStatement] at lowers
      rw [loweredExpressions] at uses
      rw [lowerStatement]
      apply Completes.bind (completes_lowerExpression all lowers
        fun identifier equal => uses identifier (by simp [equal]))
      intro value
      exact completes_keepTemporary names outermost value
  | .return_ _ expression, lowers, uses => by
      rw [lowersStatement] at lowers
      rw [loweredExpressions] at uses
      rw [lowerStatement]
      apply Completes.bind (completes_lowerExpression all lowers
        fun identifier equal => uses identifier (by simp [equal]))
      intro value
      exact Completes.bind (Completes.build _) fun _ => Completes.pure ()
  | .constantDefinition definition, lowers, _ => by
      rw [lowerStatement]
      exact completes_lowerConstant names all lowers
  | .variableDefinition _ _ _ _, _, _ => Completes.pure ()
  | .assign _ _ _, lowers, _ => absurd lowers (by simp [lowersStatement])
  | .loop _ _ _, lowers, _ => absurd lowers (by simp [lowersStatement])
  | .break_ _, lowers, _ => absurd lowers (by simp [lowersStatement])
  | .if_ _ _ _ _, lowers, _ => absurd lowers (by simp [lowersStatement])
  | .typeDefinition _ _ _, lowers, _ => absurd lowers (by simp [lowersStatement])
  | .assert _ _, lowers, _ => absurd lowers (by simp [lowersStatement])

theorem completes_lowerStatements {context : TypedContext} (all : AllI32 context)
    {names : List String} {parents : List BlockType} {first : BlockType}
    (outermost : parents.head? = some first) : ∀ statements : List Statement,
    lowersStatements statements = true →
      UsesOnly names (statementListLoweredExpressions statements) →
      Completes names (lowerStatements context parents statements)
  | [], _, _ => Completes.pure ()
  | head :: tail, lowers, uses => by
      rw [lowersStatements, Bool.and_eq_true] at lowers
      rw [statementListLoweredExpressions] at uses
      rw [lowerStatements]
      apply Completes.bind (completes_lowerStatement all outermost head lowers.1
        fun identifier member => uses identifier (List.mem_append_left _ member))
      intro _
      exact completes_lowerStatements all outermost tail lowers.2
        fun identifier member => uses identifier (List.mem_append_right _ member)

end

def expressionName : Expression → Option String
  | .identifier identifier => some identifier.name
  | _ => none

/-- A map that has all the names. -/
def variablesOf : List String → Variables
  | [] => ∅
  | name :: names => (variablesOf names).insert name (⟨0, 0⟩, .i32)

theorem mem_variablesOf {names : List String} : ∀ name ∈ names, name ∈ variablesOf names := by
  induction names with
  | nil => simp
  | cons head tail induction =>
      intro name member
      rw [variablesOf, AList.mem_insert]
      rcases List.mem_cons.mp member with equal | member
      · exact .inl equal
      · exact .inr (induction name member)

def contextOfI32 : TypedContext where
  program := []
  nodeTypes := fun _ => some { kind := .number .i32, typeParams := [] }
  symbolTable := {}

/-- A function made of what the generator implements can be visited. -/
theorem visit_completes (lowers : lowersFunction definition = true) :
    ∃ compiler after function,
      visitFunctionDefinition contextOfI32 definition compiler = some after ∧
        after.functions = compiler.functions ++ [function] := by
  rw [lowersFunction, Bool.and_eq_true] at lowers
  rcases lowers with ⟨typed, lowers⟩
  rcases Option.isSome_iff_exists.mp typed with ⟨returnType, typed⟩
  have blockLowers : lowersStatement (.block definition.body) = true := by
    rw [lowersStatement_block]
    exact lowers
  let names := (loweredExpressions (.block definition.body)).filterMap expressionName
  have uses : UsesOnly names (loweredExpressions (.block definition.body)) :=
    fun identifier member => List.mem_filterMap.mpr ⟨_, member, rfl⟩
  have all : AllI32 contextOfI32 := fun _ => rfl
  have completes : Completes names (lowerBody contextOfI32 definition) := by
    rw [lowerBody]
    apply Completes.bind (completes_lowerStatement all rfl _ blockLowers uses)
    intro _
    rw [buildVoidReturn]
    split
    · exact Completes.bind (Completes.build _) fun _ => Completes.pure ()
    · exact Completes.pure ()
  let compiler : Compiler := { variables_ := variablesOf names }
  rcases completes { function := compiler.functions.length, variables_ := compiler.variables_ }
    mem_variablesOf with ⟨⟨⟩, builder, run, -⟩
  have visited : (visitFunctionDefinition contextOfI32 definition compiler).isSome := by
    simp only [visitFunctionDefinition, typed, run, Option.bind_eq_bind, Option.bind_some,
      Option.pure_def, Option.isSome_some]
  rcases Option.isSome_iff_exists.mp visited with ⟨after, visited⟩
  rcases visitFunctionDefinition_ok visited with ⟨function, -, added, -⟩
  exact ⟨compiler, after, function, visited, added⟩

/-! ## Intrinsics in the code -/

def Shape.isNonDet : Shape → Prop
  | .marker _ | .uzumaki => True
  | .return_ | .other => False

theorem Instruction.isNonDet_shape (instruction : Instruction) :
    instruction.shape.isNonDet ↔ ∃ intrinsic name, instruction = .call intrinsic name := by
  cases instruction with
  | call intrinsic name => cases intrinsic <;> simp [shape, Shape.isNonDet]
  | _ => simp [shape, Shape.isNonDet]

/-- A non-deterministic block or an uzumaki that is lowered. -/
def LowersNonDet (blocks : List BlockType) (expressions : List Expression) : Prop :=
  (∃ block ∈ blocks, block.kind ≠ .block) ∨
    ∃ expression ∈ expressions, expression.isUzumaki = true

theorem LowersNonDet.append_iff {firstBlocks secondBlocks : List BlockType}
    {firstExpressions secondExpressions : List Expression} :
    LowersNonDet (firstBlocks ++ secondBlocks) (firstExpressions ++ secondExpressions) ↔
      LowersNonDet firstBlocks firstExpressions ∨
        LowersNonDet secondBlocks secondExpressions := by
  simp only [LowersNonDet, List.mem_append, or_and_right, exists_or]
  simp only [or_assoc, or_left_comm]

theorem expressionShapes_isNonDet (expression : Expression) :
    (∃ shape ∈ expressionShapes expression, shape.isNonDet) ↔
      LowersNonDet [] [expression] := by
  cases expression <;>
    simp [expressionShapes, LowersNonDet, Shape.isNonDet, Expression.isUzumaki]

theorem temporaryShapes_isNonDet (temporary : Bool) :
    ¬∃ shape ∈ temporaryShapes temporary, shape.isNonDet := by
  cases temporary <;> simp [temporaryShapes, Shape.isNonDet]

mutual

theorem statementShapes_isNonDet (temporary : Bool) : ∀ statement : Statement,
    lowersStatement statement = true →
      ((∃ shape ∈ statementShapes temporary statement, shape.isNonDet) ↔
        LowersNonDet statement.blocks (loweredExpressions statement))
  | .block (.mk kind node statements), lowers => by
      rw [lowersStatement] at lowers
      have inner := statementListShapes_isNonDet temporary statements lowers
      have marked : LowersNonDet (.mk kind node statements :: statementListBlocks statements)
          (statementListLoweredExpressions statements) ↔ kind ≠ .block ∨
            LowersNonDet (statementListBlocks statements)
              (statementListLoweredExpressions statements) := by
        simp [LowersNonDet, BlockType.kind, or_assoc]
      rw [statementShapes, Statement.blocks, BlockType.blocks, loweredExpressions, marked,
        ← inner]
      cases kind <;> simp [startIntrinsic, endIntrinsic, markerShapes, Shape.isNonDet]
  | .expression expression, _ => by
      rw [statementShapes, Statement.blocks, loweredExpressions,
        ← expressionShapes_isNonDet]
      simp only [List.mem_append, or_and_right, exists_or, temporaryShapes_isNonDet, or_false]
  | .return_ _ expression, _ => by
      rw [statementShapes, Statement.blocks, loweredExpressions,
        ← expressionShapes_isNonDet]
      simp [or_and_right, exists_or, Shape.isNonDet]
  | .constantDefinition _, _ => by
      simp [statementShapes, Statement.blocks, loweredExpressions, LowersNonDet,
        Shape.isNonDet]
  | .variableDefinition _ _ _ _, _ => by
      simp [statementShapes, Statement.blocks, loweredExpressions, LowersNonDet]
  | .assign _ _ _, lowers => absurd lowers (by simp [lowersStatement])
  | .loop _ _ _, lowers => absurd lowers (by simp [lowersStatement])
  | .break_ _, lowers => absurd lowers (by simp [lowersStatement])
  | .if_ _ _ _ _, lowers => absurd lowers (by simp [lowersStatement])
  | .typeDefinition _ _ _, lowers => absurd lowers (by simp [lowersStatement])
  | .assert _ _, lowers => absurd lowers (by simp [lowersStatement])

theorem statementListShapes_isNonDet (temporary : Bool) : ∀ statements : List Statement,
    lowersStatements statements = true →
      ((∃ shape ∈ statementListShapes temporary statements, shape.isNonDet) ↔
        LowersNonDet (statementListBlocks statements)
          (statementListLoweredExpressions statements))
  | [], _ => by
      simp [statementListShapes, statementListBlocks, statementListLoweredExpressions,
        LowersNonDet]
  | head :: tail, lowers => by
      rw [lowersStatements, Bool.and_eq_true] at lowers
      rw [statementListShapes, statementListBlocks, statementListLoweredExpressions,
        LowersNonDet.append_iff, ← statementShapes_isNonDet temporary head lowers.1,
        ← statementListShapes_isNonDet temporary tail lowers.2]
      simp only [List.mem_append, or_and_right, exists_or]

end

mutual

theorem loweredExpressions_subset : ∀ statement : Statement,
    loweredExpressions statement ⊆ statement.nodes
  | .block (.mk _ _ statements) => by
      rw [loweredExpressions, Statement.nodes, BlockType.nodes]
      exact statementListLoweredExpressions_subset statements
  | .expression expression => by
      rw [loweredExpressions, Statement.nodes]
      exact List.cons_subset.mpr ⟨expression.self_mem_nodes, List.nil_subset _⟩
  | .return_ _ expression => by
      rw [loweredExpressions, Statement.nodes]
      exact List.cons_subset.mpr ⟨expression.self_mem_nodes, List.nil_subset _⟩
  | .assign _ _ _ => List.nil_subset _
  | .loop _ _ _ => List.nil_subset _
  | .break_ _ => List.nil_subset _
  | .if_ _ _ _ _ => List.nil_subset _
  | .variableDefinition _ _ _ _ => List.nil_subset _
  | .typeDefinition _ _ _ => List.nil_subset _
  | .assert _ _ => List.nil_subset _
  | .constantDefinition _ => List.nil_subset _

theorem statementListLoweredExpressions_subset : ∀ statements : List Statement,
    statementListLoweredExpressions statements ⊆ statementListNodes statements
  | [] => List.nil_subset _
  | head :: tail => by
      rw [statementListLoweredExpressions, statementListNodes]
      exact List.append_subset.mpr
        ⟨List.subset_append_of_subset_left _ (loweredExpressions_subset head),
          List.subset_append_of_subset_right _
            (statementListLoweredExpressions_subset tail)⟩

end

/-! ## Barriers -/

def HasBarriers (function : FunctionValue) : Prop :=
  ∀ barrier ∈ barriers, barrier ∈ function.attributes

def EmitsNonDet (function : FunctionValue) : Prop :=
  ∃ block ∈ function.blocks, ∃ intrinsic name, .call intrinsic name ∈ block.instructions

/-- The predicate finds what is non-deterministic, and the functions with barriers are
those whose code calls an intrinsic. -/
structure BarriersCover (definition : FunctionDefinition) : Prop where
  detects : definition.isNonDet = true ↔ definition.body.ContainsNonDet
  covers : ∀ context compiler after function,
    visitFunctionDefinition context definition compiler = some after →
      after.functions = compiler.functions ++ [function] →
        (HasBarriers function ↔ EmitsNonDet function)

/-- Some of what is non-deterministic is where the predicate looks and, in a function
that can be lowered, some of it is lowered. -/
def NonDetInPlace (definition : FunctionDefinition) : Prop :=
  definition.body.ContainsNonDet →
    definition.body.ShowsNonDet ∧
      (lowersFunction definition = true →
        LowersNonDet definition.body.blocks
          (statementListLoweredExpressions definition.body.statements))

theorem hasBarriers_iff (definition : FunctionDefinition) {function : FunctionValue}
    (attributes : function.attributes = functionAttributes definition) :
    HasBarriers function ↔ definition.isNonDet = true := by
  rw [HasBarriers, attributes]
  cases marked : definition.isNonDet with
  | true => simp [functionAttributes, barriers, marked]
  | false =>
      simp only [functionAttributes, barriers, marked, Bool.false_eq_true, if_false,
        List.append_nil, iff_false]
      intro all
      have member := all .optnone (by simp)
      split at member <;> simp at member

theorem functionShapes_isNonDet (definition : FunctionDefinition)
    (lowers : lowersStatements definition.body.statements = true) :
    (∃ shape ∈ functionShapes definition, shape.isNonDet) ↔
      LowersNonDet definition.body.blocks
        (statementListLoweredExpressions definition.body.statements) := by
  have ending : ¬∃ shape ∈ voidReturnShapes definition, shape.isNonDet := by
    rw [voidReturnShapes]
    split <;> simp [Shape.isNonDet]
  have blockLowers : lowersStatement (.block definition.body) = true := by
    rw [lowersStatement_block]
    exact lowers
  have inner := statementShapes_isNonDet (keepsTemporary definition.body)
    (.block definition.body) blockLowers
  have expressions : loweredExpressions (.block definition.body) =
      statementListLoweredExpressions definition.body.statements := by
    cases definition.body with
    | mk kind node statements => rw [loweredExpressions, BlockType.statements]
  rw [Statement.blocks, expressions] at inner
  simp only [functionShapes, List.mem_append, or_and_right, exists_or, ending, or_false, inner]

theorem emitsNonDet_iff {function : FunctionValue} {instructions : List Instruction}
    (blocks : function.blocks = [{ name := "entry", instructions }])
    (shapes : instructions.map Instruction.shape = functionShapes definition)
    (lowers : lowersStatements definition.body.statements = true) :
    EmitsNonDet function ↔ LowersNonDet definition.body.blocks
      (statementListLoweredExpressions definition.body.statements) := by
  rw [← functionShapes_isNonDet definition lowers, ← shapes, EmitsNonDet, blocks]
  simp only [List.mem_singleton, exists_eq_left]
  constructor
  · rintro ⟨intrinsic, name, member⟩
    exact ⟨_, List.mem_map_of_mem member,
      (Instruction.isNonDet_shape _).mpr ⟨intrinsic, name, rfl⟩⟩
  · rintro ⟨shape, member, nonDet⟩
    rcases List.mem_map.mp member with ⟨instruction, instructionMember, rfl⟩
    rcases (Instruction.isNonDet_shape instruction).mp nonDet with ⟨intrinsic, name, rfl⟩
    exact ⟨intrinsic, name, instructionMember⟩

theorem LowersNonDet.contains (lowered : LowersNonDet definition.body.blocks
      (statementListLoweredExpressions definition.body.statements)) :
    definition.body.ContainsNonDet := by
  refine lowered.imp id ?_
  rintro ⟨expression, member, uzumaki⟩
  refine ⟨expression, ?_, uzumaki⟩
  cases body : definition.body with
  | mk kind node statements =>
      rw [body] at member
      rw [BlockType.nodes]
      exact statementListLoweredExpressions_subset statements member

/-- The barriers are right exactly when what is non-deterministic is in place. -/
theorem barriersCover_iff (definition : FunctionDefinition) :
    BarriersCover definition ↔ NonDetInPlace definition := by
  constructor
  · intro covers contains
    have marked := covers.detects.mpr contains
    refine ⟨definition.body.isNonDet_iff.mp marked, ?_⟩
    intro lowers
    rcases visit_completes lowers with ⟨compiler, after, function, run, added⟩
    rcases visitFunctionDefinition_ok run with
      ⟨found, builder, foundAdded, -, -, -, attributes, -⟩
    have same : function = found := by simpa [added] using foundAdded
    rcases visitFunctionDefinition_shapes run added with ⟨instructions, blocks, shapes⟩
    rw [lowersFunction, Bool.and_eq_true] at lowers
    rw [← emitsNonDet_iff blocks shapes lowers.2, ← covers.covers _ _ _ _ run added]
    exact (hasBarriers_iff definition (same ▸ attributes)).mpr marked
  · intro inPlace
    have detects : definition.isNonDet = true ↔ definition.body.ContainsNonDet :=
      ⟨fun marked => (definition.body.isNonDet_iff.mp marked).contains,
        fun contains => definition.body.isNonDet_iff.mpr (inPlace contains).1⟩
    refine ⟨detects, ?_⟩
    intro context compiler after function run added
    rcases visitFunctionDefinition_ok run with
      ⟨found, builder, foundAdded, -, -, -, attributes, -⟩
    have same : function = found := by simpa [added] using foundAdded
    have lowers := visit_lowersFunction run
    rcases visitFunctionDefinition_shapes run added with ⟨instructions, blocks, shapes⟩
    have statementsLower := lowers
    rw [lowersFunction, Bool.and_eq_true] at statementsLower
    rw [hasBarriers_iff definition (same ▸ attributes), detects,
      emitsNonDet_iff blocks shapes statementsLower.2]
    exact ⟨fun contains => (inPlace contains).2 lowers, LowersNonDet.contains⟩

/-- `fn f() { { forall { } } }` -/
def nestedForall : FunctionDefinition where
  id := 1
  name := { id := 2, name := "f" }
  body := .mk .block { id := 3 } [.block (.mk .block { id := 4 }
    [.block (.mk .forall_ { id := 5 } [])])]

/-- A forall inside a plain block is not found. -/
theorem nestedForall_notCovered : ¬BarriersCover nestedForall := by
  intro covers
  have contains : nestedForall.body.ContainsNonDet :=
    .inl ⟨.mk .forall_ { id := 5 } [],
      by simp [nestedForall, BlockType.blocks, statementListBlocks, Statement.blocks],
      by simp [BlockType.kind]⟩
  exact absurd (covers.detects.mpr contains) (by decide)

end Inference.Codegen

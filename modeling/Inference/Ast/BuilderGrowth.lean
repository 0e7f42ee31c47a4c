import Inference.Ast.Growth

/-! # What each builder adds

Every builder adds nodes for the tree of its own node, below the parent it is given. Where a builder
calls the builders for the children, they are assumed to do so; the last section ties the knot.
-/

namespace Inference.Ast.Builder

open Inference.Foundation Collecting

/-- The builders for the children add what they should. -/
structure Sound (builders : Builders) : Prop where
  expression : ∀ parentId node code,
    Builds code node parentId (builders.expression parentId node code)
  type_ : ∀ parentId node code, Builds code node parentId (builders.type_ parentId node code)
  statement : ∀ parentId node code,
    Builds code node parentId (builders.statement parentId node code)
  definition : ∀ parentId node code,
    Builds code node parentId (builders.definition parentId node code)

variable {builders : Builders} (sound : Sound builders) (parentId : Nat) (node : SyntaxNode)
  (code : Text)

/-! ## Names and literals -/

theorem builds_buildIdentifier : Builds code node parentId (buildIdentifier parentId node code) :=
  builds_buildNode fun _ location => .expect_bind fun _ _ => .pure ⟨rfl, location, rfl⟩

theorem builds_buildTypeParameters (own : Node) :
    Builds code node own.id (buildTypeParameters own node code) :=
  .bind (.optional fun _ => .fields fun child => builds_buildIdentifier own.id child code)
    fun _ => .pure _

theorem builds_buildStringLiteral :
    Builds code node parentId (buildStringLiteral parentId node code) :=
  builds_buildNode fun _ location => .expect_bind fun _ _ => .pure ⟨rfl, location, rfl⟩

theorem builds_buildNumberLiteral :
    Builds code node parentId (buildNumberLiteral parentId node code) :=
  builds_buildNode fun _ location => .expect_bind fun _ _ => .pure ⟨rfl, location, rfl⟩

theorem builds_buildUnitLiteral : Builds code node parentId (buildUnitLiteral parentId node code) :=
  builds_buildNode fun _ location => .pure ⟨rfl, location, rfl⟩

theorem builds_buildBoolLiteral : Builds code node parentId (buildBoolLiteral parentId node code) := by
  refine builds_buildNode fun own location => .bind (.ite (.pure _) .abort) fun _ => ?_
  split
  · exact .pure ⟨rfl, location, rfl⟩
  · split
    · exact .pure ⟨rfl, location, rfl⟩
    · exact .reportAt_bind

include sound

theorem builds_buildArrayLiteral :
    Builds code node parentId (buildArrayLiteral builders parentId node code) :=
  builds_buildNode fun own location =>
    .bind (.mapM' fun child isChild =>
        (sound.expression own.id child code).child (SyntaxNode.mem_namedChildren isChild))
      fun _ => .pure ⟨rfl, location, rfl⟩

theorem builds_buildLiteral :
    Builds code node parentId (buildLiteral builders parentId node code) := by
  unfold buildLiteral
  split
  · exact builds_buildArrayLiteral sound parentId node code
  · exact builds_buildBoolLiteral parentId node code
  · exact builds_buildStringLiteral parentId node code
  · exact builds_buildNumberLiteral parentId node code
  · exact builds_buildUnitLiteral parentId node code
  · exact .reportAt_bind

/-! ## Types -/

theorem builds_buildTypeArray :
    Builds code node parentId (buildTypeArray builders parentId node code) :=
  builds_buildNode fun own location =>
    .bind (.field fun child => sound.type_ own.id child code) fun _ =>
      .bind (.field fun child => sound.expression own.id child code) fun _ =>
        .pure ⟨rfl, location, rfl⟩

theorem builds_buildFunctionType :
    Builds code node parentId (buildFunctionType builders parentId node code) :=
  builds_buildNode fun own location =>
    .bind (.fields fun child => sound.type_ own.id child code) fun _ =>
      .bind (.optional fun child => sound.type_ own.id child code) fun _ =>
        .pure ⟨rfl, location, rfl⟩

omit sound in
theorem builds_buildGenericType :
    Builds code node parentId (buildGenericType parentId node code) :=
  builds_buildNode fun own location =>
    .bind (.field fun child => builds_buildIdentifier own.id child code) fun _ =>
      .expect_bind fun _ isArgs =>
        .bind (.child (.fields fun child => builds_buildIdentifier own.id child code)
            (SyntaxNode.child_mem isArgs)) fun _ =>
          .pure ⟨rfl, location, rfl⟩

omit sound in
theorem builds_buildTypeQualifiedName :
    Builds code node parentId (buildTypeQualifiedName parentId node code) :=
  builds_buildNode fun own location =>
    .bind (.field fun child => builds_buildIdentifier own.id child code) fun _ =>
      .bind (.field fun child => builds_buildIdentifier own.id child code) fun _ =>
        .pure ⟨rfl, location, rfl⟩

omit sound in
theorem builds_buildQualifiedName :
    Builds code node parentId (buildQualifiedName parentId node code) :=
  builds_buildNode fun own location =>
    .bind (.field fun child => builds_buildIdentifier own.id child code) fun _ =>
      .bind (.field fun child => builds_buildIdentifier own.id child code) fun _ =>
        .pure ⟨rfl, location, rfl⟩

theorem builds_buildType : Builds code node parentId (buildType builders parentId node code) := by
  unfold buildType
  split
  case h_11 => exact builds_buildTypeArray sound parentId node code
  case h_12 | h_13 => exact builds_buildGenericType parentId node code
  case h_14 => exact builds_buildTypeQualifiedName parentId node code
  case h_15 => exact builds_buildQualifiedName parentId node code
  case h_16 => exact builds_buildFunctionType sound parentId node code
  case h_17 => exact .bind (builds_buildIdentifier parentId node code) fun _ => .pure _
  case h_18 | h_19 => exact .reportAt_bind
  all_goals exact .pure _

/-! ## Expressions -/

theorem builds_buildArrayIndexAccessExpression :
    Builds code node parentId (buildArrayIndexAccessExpression builders parentId node code) :=
  builds_buildNode fun own location =>
    .expect_bind fun array isArray =>
      .bind ((sound.expression own.id array code).child (SyntaxNode.namedChild_mem isArray))
        fun _ => .expect_bind fun index isIndex =>
          .bind ((sound.expression own.id index code).child (SyntaxNode.namedChild_mem isIndex))
            fun _ => .pure ⟨rfl, location, rfl⟩

theorem builds_buildMemberAccessExpression :
    Builds code node parentId (buildMemberAccessExpression builders parentId node code) :=
  builds_buildNode fun own location =>
    .bind (.field fun child => sound.expression own.id child code) fun _ =>
      .bind (.field fun child => builds_buildIdentifier own.id child code) fun _ =>
        .pure ⟨rfl, location, rfl⟩

theorem builds_buildTypeMemberAccessExpression :
    Builds code node parentId (buildTypeMemberAccessExpression builders parentId node code) :=
  builds_buildNode fun own location =>
    .bind (.field fun child => sound.expression own.id child code) fun _ =>
      .bind (.field fun child => builds_buildIdentifier own.id child code) fun _ =>
        .pure ⟨rfl, location, rfl⟩

theorem builds_buildParts {name : Type} (nameField valueField : String)
    (take : Option Identifier → Option name) (ownId : Nat) {children : List SyntaxNode}
    (areChildren : ∀ child ∈ children, child ∈ node.children) (pendingName : Option Identifier)
    (parts : List (name × Expression)) :
    Builds code node ownId
      (buildParts builders nameField valueField take ownId code children pendingName parts) := by
  induction children generalizing pendingName parts with
  | nil => exact .pure parts
  | cons child rest induction =>
      rcases List.forall_mem_cons.mp areChildren with ⟨isChild, restChildren⟩
      have childBuilds := (sound.expression ownId child code).child isChild
      rw [buildParts]
      refine .ite (.bind childBuilds fun _ => ?_) (.ite (.bind childBuilds fun _ => ?_) ?_)
      · exact induction restChildren _ _
      · exact .expect_bind fun _ _ => induction restChildren _ _
      · exact induction restChildren _ _

theorem builds_buildFunctionCallExpression :
    Builds code node parentId (buildFunctionCallExpression builders parentId node code) :=
  builds_buildNode fun own location =>
    .bind (.field fun child => sound.expression own.id child code) fun _ =>
      .bind (builds_buildParts sound node code _ _ _ own.id (fun _ isChild => isChild) _ _) fun _ =>
        .bind (builds_buildTypeParameters node code own) fun _ => .pure ⟨rfl, location, rfl⟩

theorem builds_buildStructExpression :
    Builds code node parentId (buildStructExpression builders parentId node code) :=
  builds_buildNode fun own location =>
    .bind (.field fun child => builds_buildIdentifier own.id child code) fun _ =>
      .bind (builds_buildParts sound node code _ _ _ own.id (fun _ isChild => isChild) _ _) fun _ =>
        .pure ⟨rfl, location, rfl⟩

theorem builds_buildPrefixUnaryExpression :
    Builds code node parentId (buildPrefixUnaryExpression builders parentId node code) :=
  builds_buildNode fun own location =>
    .expect_bind fun operand isOperand =>
      .bind ((sound.expression own.id operand code).child (SyntaxNode.child_mem isOperand))
        fun _ => .expect_bind fun _ _ => .expect_bind fun _ _ => .pure ⟨rfl, location, rfl⟩

theorem builds_buildParenthesizedExpression :
    Builds code node parentId (buildParenthesizedExpression builders parentId node code) :=
  builds_buildNode fun own location =>
    .expect_bind fun inner isInner =>
      .bind ((sound.expression own.id inner code).child (SyntaxNode.child_mem isInner))
        fun _ => .pure ⟨rfl, location, rfl⟩

omit sound in
theorem builds_buildBinaryOperator (around : SyntaxNode) :
    Builds code node parentId (buildBinaryOperator around node) := by
  unfold buildBinaryOperator
  split
  · exact .pure _
  · exact .reportAt_bind

theorem builds_buildBinaryExpression :
    Builds code node parentId (buildBinaryExpression builders parentId node code) :=
  builds_buildNode fun own location =>
    .bind (.field fun child => sound.expression own.id child code) fun _ =>
      .bind (.field fun child => builds_buildBinaryOperator own.id child code node) fun _ =>
        .bind (.field fun child => sound.expression own.id child code) fun _ =>
          .pure ⟨rfl, location, rfl⟩

omit sound in
theorem builds_buildUzumakiExpression :
    Builds code node parentId (buildUzumakiExpression parentId node code) :=
  builds_buildNode fun _ location => .pure ⟨rfl, location, rfl⟩

theorem builds_buildExpression :
    Builds code node parentId (buildExpression builders parentId node code) := by
  unfold buildExpression
  split
  case h_1 => exact builds_buildArrayIndexAccessExpression sound parentId node code
  case h_2 | h_3 | h_4 => exact .bind (builds_buildType sound parentId node code) fun _ => .pure _
  case h_5 => exact builds_buildMemberAccessExpression sound parentId node code
  case h_6 => exact builds_buildTypeMemberAccessExpression sound parentId node code
  case h_7 => exact builds_buildFunctionCallExpression sound parentId node code
  case h_8 => exact builds_buildStructExpression sound parentId node code
  case h_9 => exact builds_buildPrefixUnaryExpression sound parentId node code
  case h_10 => exact builds_buildParenthesizedExpression sound parentId node code
  case h_11 => exact builds_buildBinaryExpression sound parentId node code
  case h_17 => exact builds_buildUzumakiExpression parentId node code
  case h_18 => exact .bind (builds_buildIdentifier parentId node code) fun _ => .pure _
  case h_19 | h_20 => exact .reportAt_bind
  all_goals exact .bind (builds_buildLiteral sound parentId node code) fun _ => .pure _

/-! ## Statements -/

omit sound in
theorem builds_createErrorStatement :
    Builds code node parentId (createErrorStatement parentId node code) :=
  builds_own fun _ => .add ⟨rfl, rfl, rfl⟩

theorem builds_buildBlockStatements :
    Builds code node parentId (buildBlockStatements builders parentId node code) := by
  refine .bind (.mapM' fun child isChild => .bind builds_collectErrors fun _ => .ite ?_ (.pure none))
    fun _ => .pure _
  exact .bind ((sound.statement parentId child code).child isChild) fun _ => .pure _

theorem stores_buildKeywordBlock (kind : BlockKind) (own : Node)
    (location : own.location = getLocation node) :
    Stores code node parentId own.id (buildKeywordBlock builders kind own parentId node code) :=
  .bind (.optional fun child => builds_buildBlockStatements sound own.id child code) fun _ =>
    .add ⟨rfl, location, rfl⟩

theorem builds_buildBlock : Builds code node parentId (buildBlock builders parentId node code) := by
  refine .bind builds_collectErrors fun _ => builds_own fun ownId => ?_
  dsimp only
  split
  case h_5 =>
    exact .bind (builds_buildBlockStatements sound ownId node code) fun _ => .add ⟨rfl, rfl, rfl⟩
  case h_6 | h_7 => exact .reportAt_bind
  all_goals exact stores_buildKeywordBlock sound parentId node code _ ⟨ownId, getLocation node⟩ rfl

theorem builds_buildReturnStatement :
    Builds code node parentId (buildReturnStatement builders parentId node code) := by
  refine builds_buildNode fun own location => ?_
  split
  · rename_i expression isExpression
    exact .bind ((sound.expression own.id expression code).child
      (SyntaxNode.childByFieldName_mem isExpression)) fun _ => .pure ⟨rfl, location, rfl⟩
  · exact .implicitUnit_bind fun _ => ⟨rfl, location, rfl⟩

theorem builds_buildBody (what field : String) :
    Builds code node parentId (buildBody builders what parentId node field code) := by
  unfold buildBody
  split
  · rename_i body isBody
    exact (builds_buildBlock sound parentId body code).child (SyntaxNode.childByFieldName_mem isBody)
  · exact .reportAt_bind

theorem builds_buildLoopStatement :
    Builds code node parentId (buildLoopStatement builders parentId node code) :=
  builds_buildNode fun own location =>
    .bind (.optional fun child => sound.expression own.id child code) fun _ =>
      .bind (builds_buildBody sound own.id node code _ _) fun _ => .pure ⟨rfl, location, rfl⟩

theorem builds_buildCondition :
    Builds code node parentId (buildCondition builders parentId node code) := by
  unfold buildCondition
  split
  · rename_i condition isCondition
    exact (sound.expression parentId condition code).child
      (SyntaxNode.childByFieldName_mem isCondition)
  · exact .reportAt_bind

theorem builds_buildIfStatement :
    Builds code node parentId (buildIfStatement builders parentId node code) :=
  builds_buildNode fun own location =>
    .bind (builds_buildCondition sound own.id node code) fun _ =>
      .bind (builds_buildBody sound own.id node code _ _) fun _ =>
        .bind (.optional fun child => builds_buildBlock sound own.id child code) fun _ =>
          .pure ⟨rfl, location, rfl⟩

theorem builds_buildVariableDefinitionStatement :
    Builds code node parentId (buildVariableDefinitionStatement builders parentId node code) :=
  builds_buildNode fun own location =>
    .bind (.field fun child => builds_buildType sound own.id child code) fun _ =>
      .bind (.field fun child => builds_buildIdentifier own.id child code) fun _ =>
        .bind (.optional fun child => sound.expression own.id child code) fun _ =>
          .pure ⟨rfl, location, rfl⟩

theorem builds_buildTypeDefinitionStatement :
    Builds code node parentId (buildTypeDefinitionStatement builders parentId node code) :=
  builds_buildNode fun own location =>
    .bind (.field fun child => builds_buildType sound own.id child code) fun _ =>
      .bind (.field fun child => builds_buildIdentifier own.id child code) fun _ =>
        .pure ⟨rfl, location, rfl⟩

theorem builds_buildAssignStatement :
    Builds code node parentId (buildAssignStatement builders parentId node code) :=
  builds_buildNode fun own location =>
    .bind (.field fun child => sound.expression own.id child code) fun _ =>
      .bind (.field fun child => sound.expression own.id child code) fun _ =>
        .pure ⟨rfl, location, rfl⟩

theorem builds_buildAssertStatement :
    Builds code node parentId (buildAssertStatement builders parentId node code) :=
  builds_buildNode fun own location =>
    .expect_bind fun inner isInner =>
      .bind ((sound.expression own.id inner code).child (SyntaxNode.child_mem isInner))
        fun _ => .pure ⟨rfl, location, rfl⟩

omit sound in
theorem builds_buildBreakStatement :
    Builds code node parentId (buildBreakStatement parentId node code) :=
  builds_buildNode fun _ location => .pure ⟨rfl, location, rfl⟩

theorem builds_buildConstantDefinition :
    Builds code node parentId (buildConstantDefinition builders parentId node code) :=
  builds_buildNode fun own location =>
    .bind (.field fun child => builds_buildType sound own.id child code) fun _ =>
      .bind (.field fun child => builds_buildIdentifier own.id child code) fun _ =>
        .bind (.field fun child => builds_buildLiteral sound own.id child code) fun _ =>
          .pure ⟨rfl, location, rfl⟩

theorem builds_buildStatement :
    Builds code node parentId (buildStatement builders parentId node code) := by
  unfold buildStatement
  split
  case h_1 => exact builds_buildAssignStatement sound parentId node code
  case h_7 =>
    split
    · rename_i expression isExpression
      exact .bind ((sound.expression parentId expression code).child
        (SyntaxNode.child_mem isExpression)) fun _ => .pure _
    · exact builds_createErrorStatement parentId node code
  case h_8 => exact builds_buildReturnStatement sound parentId node code
  case h_9 => exact builds_buildLoopStatement sound parentId node code
  case h_10 => exact builds_buildIfStatement sound parentId node code
  case h_11 => exact builds_buildVariableDefinitionStatement sound parentId node code
  case h_12 => exact builds_buildTypeDefinitionStatement sound parentId node code
  case h_13 => exact builds_buildAssertStatement sound parentId node code
  case h_14 => exact builds_buildBreakStatement parentId node code
  case h_15 => exact .bind (builds_buildConstantDefinition sound parentId node code) fun _ => .pure _
  case h_16 | h_17 => exact .reportAt_bind
  all_goals exact .bind (builds_buildBlock sound parentId node code) fun _ => .pure _

/-! ## Definitions -/

omit sound in
theorem builds_buildSelfReference :
    Builds code node parentId (buildSelfReference parentId node code) :=
  builds_buildNode fun _ location => .pure ⟨rfl, location, rfl⟩

theorem builds_buildIgnoreArgument :
    Builds code node parentId (buildIgnoreArgument builders parentId node code) :=
  builds_buildNode fun own location =>
    .bind (.field fun child => builds_buildType sound own.id child code) fun _ =>
      .pure ⟨rfl, location, rfl⟩

theorem builds_buildArgument :
    Builds code node parentId (buildArgument builders parentId node code) :=
  builds_buildNode fun own location =>
    .expect_bind fun name isName =>
      .bind (.field fun child => builds_buildType sound own.id child code) fun _ =>
        .bind ((builds_buildIdentifier own.id name code).child
            (SyntaxNode.childByFieldName_mem isName)) fun _ => .pure ⟨rfl, location, rfl⟩

theorem builds_buildArgumentType :
    Builds code node parentId (buildArgumentType builders parentId node code) := by
  refine .bind builds_collectErrors fun _ => ?_
  split
  · exact builds_buildArgument sound parentId node code
  · exact builds_buildSelfReference parentId node code
  · exact builds_buildIgnoreArgument sound parentId node code
  · exact .bind (builds_buildType sound parentId node code) fun _ => .pure _

theorem builds_buildFunctionDefinition :
    Builds code node parentId (buildFunctionDefinition builders parentId node code) := by
  refine .bind builds_collectErrors fun _ => builds_own fun ownId => ?_
  refine .bind (.optional fun _ => .fields fun child =>
    builds_buildArgumentType sound ownId child code) fun _ => ?_
  refine .bind (builds_buildTypeParameters node code ⟨ownId, getLocation node⟩) fun _ => ?_
  refine .bind (.optional fun child => builds_buildType sound ownId child code) fun _ => ?_
  split
  · exact .reportAt_bind
  · rename_i name isName
    refine .bind ((builds_buildIdentifier ownId name code).child
      (SyntaxNode.childByFieldName_mem isName)) fun _ => ?_
    exact .bind (builds_buildBody sound ownId node code _ _) fun _ => .add ⟨rfl, rfl, rfl⟩

theorem builds_buildExternalFunctionDefinition :
    Builds code node parentId (buildExternalFunctionDefinition builders parentId node code) :=
  builds_buildNode fun own location =>
    .bind (.field fun child => builds_buildIdentifier own.id child code) fun _ =>
      .bind (.fields fun child => builds_buildArgumentType sound own.id child code) fun _ =>
        .bind (.optional fun child => builds_buildType sound own.id child code) fun _ =>
          .pure ⟨rfl, location, rfl⟩

theorem builds_buildTypeDefinition :
    Builds code node parentId (buildTypeDefinition builders parentId node code) :=
  builds_buildNode fun own location =>
    .bind (.field fun child => builds_buildType sound own.id child code) fun _ =>
      .bind (.field fun child => builds_buildIdentifier own.id child code) fun _ =>
        .pure ⟨rfl, location, rfl⟩

theorem builds_buildStructField :
    Builds code node parentId (buildStructField builders parentId node code) :=
  builds_buildNode fun own location =>
    .bind (.field fun child => builds_buildType sound own.id child code) fun _ =>
      .bind (.field fun child => builds_buildIdentifier own.id child code) fun _ =>
        .pure ⟨rfl, location, rfl⟩

theorem builds_buildStructDefinition :
    Builds code node parentId (buildStructDefinition builders parentId node code) :=
  builds_buildNode fun own location =>
    .bind (.field fun child => builds_buildIdentifier own.id child code) fun _ =>
      .bind (.fields fun child => builds_buildStructField sound own.id child code) fun _ =>
        .bind (.mapM' fun child isMethod =>
            (builds_buildFunctionDefinition sound own.id child code).child
              (SyntaxNode.mem_childrenByFieldName (List.mem_filter.mp isMethod).1)) fun _ =>
          .pure ⟨rfl, location, rfl⟩

omit sound in
theorem builds_buildEnumDefinition :
    Builds code node parentId (buildEnumDefinition parentId node code) :=
  builds_buildNode fun own location =>
    .bind (.field fun child => builds_buildIdentifier own.id child code) fun _ =>
      .bind (.fields fun child => builds_buildIdentifier own.id child code) fun _ =>
        .pure ⟨rfl, location, rfl⟩

theorem builds_buildSpecDefinition :
    Builds code node parentId (buildSpecDefinition builders parentId node code) :=
  builds_buildNode fun own location =>
    .bind (.field fun child => builds_buildIdentifier own.id child code) fun _ =>
      .bind (.mapM' fun child isChild => (sound.definition own.id child code).child
          (SyntaxNode.mem_namedChildren (List.mem_of_mem_drop isChild))) fun _ =>
        .pure ⟨rfl, location, rfl⟩

theorem builds_buildDefinition :
    Builds code node parentId (buildDefinition builders parentId node code) := by
  unfold buildDefinition
  split
  · exact builds_buildSpecDefinition sound parentId node code
  · exact builds_buildStructDefinition sound parentId node code
  · exact builds_buildEnumDefinition parentId node code
  · exact .bind (builds_buildConstantDefinition sound parentId node code) fun _ => .pure _
  · exact .bind (builds_buildFunctionDefinition sound parentId node code) fun _ => .pure _
  · exact builds_buildExternalFunctionDefinition sound parentId node code
  · exact builds_buildTypeDefinition sound parentId node code
  · exact .report_bind
  · exact .reportAt_bind

omit sound in
theorem builds_buildSegments : Builds code node parentId (buildSegments parentId node code) := by
  unfold buildSegments
  split
  · rename_i literal isLiteral
    exact .bind ((builds_buildStringLiteral parentId literal code).child
      (SyntaxNode.childByFieldName_mem isLiteral)) fun _ => .pure none
  · exact .bind (.fields fun child => builds_buildIdentifier parentId child code) fun _ => .pure _

omit sound in
theorem builds_buildUseDirective :
    Builds code node parentId (buildUseDirective parentId node code) :=
  builds_buildNode fun own location =>
    .bind (builds_buildSegments own.id node code) fun _ =>
      .bind (.fields fun child => builds_buildIdentifier own.id child code) fun _ =>
        .pure ⟨rfl, location, rfl⟩

/-! ## All builders -/

omit sound in
theorem sound_buildersWithin (depth : Nat) : Sound (buildersWithin depth) := by
  induction depth with
  | zero =>
      exact ⟨fun _ _ _ => .abort, fun _ _ _ => .abort, fun _ _ _ => .abort, fun _ _ _ => .abort⟩
  | succ depth induction =>
      exact ⟨builds_buildExpression induction, builds_buildType induction,
        builds_buildStatement induction, builds_buildDefinition induction⟩

end Inference.Ast.Builder

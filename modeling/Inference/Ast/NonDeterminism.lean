import Inference.Ast.Traversal

/-! # Non-determinism of a function

`isNonDet` and `isVoid` are the predicates the code generator asks. `isNonDet` does
not look everywhere: `ShowsNonDet` says where it looks, and `ContainsNonDet` says what
there is to find.
-/

namespace Inference.Ast

def Expression.isNonDet (expression : Expression) : Bool :=
  expression.isUzumaki

mutual

def BlockType.isNonDet : BlockType → Bool
  | .mk .block _ statements => statementListIsNonDet statements
  | .mk _ _ _ => true

def Statement.isNonDet : Statement → Bool
  | .block block =>
      match block with
      | .mk .block _ _ => false
      | .mk _ _ _ => true
  | .expression expression => expression.isNonDet
  | .return_ _ expression => expression.isNonDet
  | .loop _ condition _ => condition.any Expression.isNonDet
  | .if_ _ condition ifArm elseArm =>
      condition.isNonDet || ifArm.isNonDet ||
        (match elseArm with
          | some elseArm => elseArm.isNonDet
          | none => false)
  | .variableDefinition _ _ _ value => value.any Expression.isNonDet
  | .assign _ _ _ | .break_ _ | .typeDefinition _ _ _ | .assert _ _ => false
  | .constantDefinition _ => false

def statementListIsNonDet : List Statement → Bool
  | [] => false
  | head :: tail => head.isNonDet || statementListIsNonDet tail

end

mutual

def BlockType.isVoid : BlockType → Bool
  | .mk _ _ statements => !findsReturn statements

/-- The search of `isVoid`. A block among the statements counts as a return when it
is void, not when it returns. -/
def findsReturn : List Statement → Bool
  | [] => false
  | .return_ _ _ :: _ => true
  | .block block :: tail => block.isVoid || findsReturn tail
  | .expression _ :: tail | .assign _ _ _ :: tail | .loop _ _ _ :: tail => findsReturn tail
  | .break_ _ :: tail | .if_ _ _ _ _ :: tail | .variableDefinition _ _ _ _ :: tail =>
      findsReturn tail
  | .typeDefinition _ _ _ :: tail | .assert _ _ :: tail => findsReturn tail
  | .constantDefinition _ :: tail => findsReturn tail

end

def FunctionDefinition.isVoid (definition : FunctionDefinition) : Bool :=
  match definition.returns with
  | none => true
  | some (.simple .unit) => true
  | some _ => false

def FunctionDefinition.isNonDet (definition : FunctionDefinition) : Bool :=
  definition.body.isNonDet

/-! ## What is non-deterministic -/

/-- A non-deterministic block or an uzumaki, at any depth. -/
def BlockType.ContainsNonDet (block : BlockType) : Prop :=
  (∃ inner ∈ block.blocks, inner.kind ≠ .block) ∨
    ∃ expression ∈ block.nodes, expression.isUzumaki = true

mutual

/-- The statements of a block and of the arms of its conditions, arms of arms included. -/
def BlockType.outline : BlockType → List Statement
  | .mk _ _ statements => statementListOutline statements

def Statement.outline : Statement → List Statement
  | .if_ node condition ifArm elseArm =>
      .if_ node condition ifArm elseArm :: (ifArm.outline ++
        (match elseArm with
          | some elseArm => elseArm.outline
          | none => []))
  | .block block => [.block block]
  | .expression expression => [.expression expression]
  | .assign node left right => [.assign node left right]
  | .return_ node expression => [.return_ node expression]
  | .loop node condition body => [.loop node condition body]
  | .break_ node => [.break_ node]
  | .variableDefinition node name ty value => [.variableDefinition node name ty value]
  | .typeDefinition node name ty => [.typeDefinition node name ty]
  | .assert node expression => [.assert node expression]
  | .constantDefinition definition => [.constantDefinition definition]

def statementListOutline : List Statement → List Statement
  | [] => []
  | head :: tail => head.outline ++ statementListOutline tail

end

/-- A statement that is a non-deterministic block, has one as an arm, or is or has an
uzumaki as its whole expression, condition or initial value. -/
def Statement.ShowsNonDet : Statement → Prop
  | .block inner => inner.kind ≠ .block
  | .expression value | .return_ _ value => value.isUzumaki = true
  | .loop _ condition _ => ∃ value ∈ condition, value.isUzumaki = true
  | .if_ _ condition ifArm elseArm =>
      condition.isUzumaki = true ∨ ifArm.kind ≠ .block ∨ ∃ arm ∈ elseArm, arm.kind ≠ .block
  | .variableDefinition _ _ _ value => ∃ initial ∈ value, initial.isUzumaki = true
  | .assign _ _ _ | .break_ _ | .typeDefinition _ _ _ | .assert _ _ => False
  | .constantDefinition _ => False

def BlockType.ShowsNonDet (block : BlockType) : Prop :=
  block.kind ≠ .block ∨ ∃ statement ∈ block.outline, statement.ShowsNonDet

private theorem Statement.showsNonDet_if (node : Node) (condition : Expression)
    (ifArm : BlockType) (elseArm : Option BlockType) :
    (Statement.if_ node condition ifArm elseArm).ShowsNonDet ↔
      condition.isUzumaki = true ∨ ifArm.kind ≠ .block ∨
        ∃ arm ∈ elseArm, arm.kind ≠ .block :=
  Iff.rfl

mutual

theorem BlockType.isNonDet_iff : ∀ block : BlockType,
    block.isNonDet = true ↔ block.ShowsNonDet
  | .mk kind node statements => by
      have inner := statementListIsNonDet_iff statements
      cases kind <;>
        simp [BlockType.isNonDet, BlockType.ShowsNonDet, BlockType.kind,
          BlockType.outline, inner]

theorem Statement.isNonDet_iff : ∀ statement : Statement,
    statement.isNonDet = true ↔ ∃ inner ∈ statement.outline, inner.ShowsNonDet
  | .if_ node condition ifArm elseArm => by
      have ifPart := BlockType.isNonDet_iff ifArm
      cases elseArm with
      | none =>
          simp only [Statement.isNonDet, Statement.outline, Statement.showsNonDet_if,
            Expression.isNonDet, BlockType.ShowsNonDet, List.append_nil,
            List.exists_mem_cons_iff, Bool.or_eq_true, ifPart]
          simp [or_assoc]
      | some elseArm =>
          have elsePart := BlockType.isNonDet_iff elseArm
          simp only [Statement.isNonDet, Statement.outline, Statement.showsNonDet_if,
            Expression.isNonDet, BlockType.ShowsNonDet, List.exists_mem_cons_iff,
            Bool.or_eq_true, ifPart, elsePart, List.mem_append, or_and_right, exists_or]
          simp only [Option.mem_def, Option.some.injEq, exists_eq_left', or_assoc]
          simp only [or_left_comm]
  | .block (.mk kind _ _) => by
      cases kind <;>
        simp [Statement.isNonDet, Statement.outline, Statement.ShowsNonDet, BlockType.kind]
  | .expression expression => by
      simp [Statement.isNonDet, Statement.outline, Statement.ShowsNonDet, Expression.isNonDet]
  | .return_ _ expression => by
      simp [Statement.isNonDet, Statement.outline, Statement.ShowsNonDet, Expression.isNonDet]
  | .loop _ condition _ => by
      cases condition <;>
        simp [Statement.isNonDet, Statement.outline, Statement.ShowsNonDet,
          Expression.isNonDet]
  | .variableDefinition _ _ _ value => by
      cases value <;>
        simp [Statement.isNonDet, Statement.outline, Statement.ShowsNonDet,
          Expression.isNonDet]
  | .assign _ _ _ => by simp [Statement.isNonDet, Statement.outline, Statement.ShowsNonDet]
  | .break_ _ => by simp [Statement.isNonDet, Statement.outline, Statement.ShowsNonDet]
  | .typeDefinition _ _ _ => by
      simp [Statement.isNonDet, Statement.outline, Statement.ShowsNonDet]
  | .assert _ _ => by simp [Statement.isNonDet, Statement.outline, Statement.ShowsNonDet]
  | .constantDefinition _ => by
      simp [Statement.isNonDet, Statement.outline, Statement.ShowsNonDet]

theorem statementListIsNonDet_iff : ∀ statements : List Statement,
    statementListIsNonDet statements = true ↔
      ∃ inner ∈ statementListOutline statements, inner.ShowsNonDet
  | [] => by simp [statementListIsNonDet, statementListOutline]
  | head :: tail => by
      rw [statementListIsNonDet, Bool.or_eq_true, Statement.isNonDet_iff head,
        statementListIsNonDet_iff tail]
      simp only [statementListOutline, List.mem_append, or_and_right, exists_or]

end

/-! ## What is shown is contained -/

/-- The parts of a statement are parts of the block. -/
def Statement.Within (statement : Statement) (blocks : List BlockType)
    (nodes : List Expression) : Prop :=
  statement.blocks ⊆ blocks ∧ statement.nodes ⊆ nodes

theorem Statement.Within.mono {statement : Statement} {blocks moreBlocks : List BlockType}
    {nodes moreNodes : List Expression} (within : statement.Within blocks nodes)
    (blocksSubset : blocks ⊆ moreBlocks) (nodesSubset : nodes ⊆ moreNodes) :
    statement.Within moreBlocks moreNodes :=
  ⟨fun _ member => blocksSubset (within.1 member),
    fun _ member => nodesSubset (within.2 member)⟩

theorem Statement.Within.self {statement : Statement} :
    statement.Within statement.blocks statement.nodes :=
  ⟨fun _ member => member, fun _ member => member⟩

mutual

theorem BlockType.outline_within : ∀ block : BlockType, ∀ statement ∈ block.outline,
    statement.Within block.blocks block.nodes
  | .mk kind node statements, statement, member => by
      rw [BlockType.outline] at member
      rw [BlockType.blocks, BlockType.nodes]
      exact (statementListOutline_within statements statement member).mono
        (List.subset_cons_self _ _) (List.Subset.refl _)

theorem Statement.outline_within : ∀ outer : Statement, ∀ statement ∈ outer.outline,
    statement.Within outer.blocks outer.nodes
  | .if_ node condition ifArm none, statement, member => by
      simp only [Statement.outline, List.append_nil] at member
      rcases List.mem_cons.mp member with rfl | member
      · exact .self
      · have within := BlockType.outline_within ifArm statement member
        simp only [Statement.blocks, Statement.nodes, List.append_nil]
        exact within.mono (List.Subset.refl _) (List.subset_append_right _ _)
  | .if_ node condition ifArm (some elseArm), statement, member => by
      simp only [Statement.outline] at member
      rcases List.mem_cons.mp member with rfl | member
      · exact .self
      · simp only [Statement.blocks, Statement.nodes]
        rcases List.mem_append.mp member with member | member
        · apply (BlockType.outline_within ifArm statement member).mono
          · exact List.subset_append_left _ _
          · exact List.subset_append_of_subset_left _ (List.subset_append_right _ _)
        · apply (BlockType.outline_within elseArm statement member).mono
          · exact List.subset_append_right _ _
          · exact List.subset_append_right _ _
  | .block _, _, member => by
      rw [List.mem_singleton.mp member]
      exact .self
  | .expression _, _, member => by
      rw [List.mem_singleton.mp member]
      exact .self
  | .assign _ _ _, _, member => by
      rw [List.mem_singleton.mp member]
      exact .self
  | .return_ _ _, _, member => by
      rw [List.mem_singleton.mp member]
      exact .self
  | .loop _ _ _, _, member => by
      rw [List.mem_singleton.mp member]
      exact .self
  | .break_ _, _, member => by
      rw [List.mem_singleton.mp member]
      exact .self
  | .variableDefinition _ _ _ _, _, member => by
      rw [List.mem_singleton.mp member]
      exact .self
  | .typeDefinition _ _ _, _, member => by
      rw [List.mem_singleton.mp member]
      exact .self
  | .assert _ _, _, member => by
      rw [List.mem_singleton.mp member]
      exact .self
  | .constantDefinition _, _, member => by
      rw [List.mem_singleton.mp member]
      exact .self

theorem statementListOutline_within : ∀ statements : List Statement,
    ∀ statement ∈ statementListOutline statements,
      statement.Within (statementListBlocks statements) (statementListNodes statements)
  | [], _, member => by simp [statementListOutline] at member
  | head :: tail, statement, member => by
      rw [statementListOutline] at member
      rw [statementListBlocks, statementListNodes]
      rcases List.mem_append.mp member with member | member
      · exact (Statement.outline_within head statement member).mono
          (List.subset_append_left _ _) (List.subset_append_left _ _)
      · exact (statementListOutline_within tail statement member).mono
          (List.subset_append_right _ _) (List.subset_append_right _ _)

end

theorem BlockType.self_mem_blocks (block : BlockType) : block ∈ block.blocks := by
  cases block
  exact List.mem_cons_self

theorem Statement.ShowsNonDet.contains {statement : Statement}
    (shown : statement.ShowsNonDet) :
    (∃ inner ∈ statement.blocks, inner.kind ≠ .block) ∨
      ∃ expression ∈ statement.nodes, expression.isUzumaki = true := by
  cases statement with
  | block inner => exact .inl ⟨inner, inner.self_mem_blocks, shown⟩
  | expression value => exact .inr ⟨value, value.self_mem_nodes, shown⟩
  | return_ _ value => exact .inr ⟨value, value.self_mem_nodes, shown⟩
  | loop _ condition _ =>
      rcases shown with ⟨value, rfl, uzumaki⟩
      exact .inr ⟨value, List.mem_append_left _ value.self_mem_nodes, uzumaki⟩
  | variableDefinition _ _ _ initial =>
      rcases shown with ⟨value, rfl, uzumaki⟩
      exact .inr ⟨value, List.mem_append_right _ value.self_mem_nodes, uzumaki⟩
  | if_ _ condition ifArm elseArm =>
      rcases shown with uzumaki | kind | ⟨arm, rfl, kind⟩
      · refine .inr ⟨condition, ?_, uzumaki⟩
        cases elseArm <;> simp [Statement.nodes, condition.self_mem_nodes]
      · refine .inl ⟨ifArm, ?_, kind⟩
        cases elseArm <;> simp [Statement.blocks, ifArm.self_mem_blocks]
      · refine .inl ⟨arm, ?_, kind⟩
        simp [Statement.blocks, arm.self_mem_blocks]
  | assign _ _ _ => exact shown.elim
  | break_ _ => exact shown.elim
  | typeDefinition _ _ _ => exact shown.elim
  | assert _ _ => exact shown.elim
  | constantDefinition _ => exact shown.elim

theorem BlockType.ShowsNonDet.contains {block : BlockType} (shown : block.ShowsNonDet) :
    block.ContainsNonDet := by
  rcases shown with kind | ⟨statement, member, shown⟩
  · exact .inl ⟨block, block.self_mem_blocks, kind⟩
  · have within := block.outline_within statement member
    exact shown.contains.imp
      (fun ⟨inner, innerMember, kind⟩ => ⟨inner, within.1 innerMember, kind⟩)
      (fun ⟨value, valueMember, uzumaki⟩ => ⟨value, within.2 valueMember, uzumaki⟩)

end Inference.Ast

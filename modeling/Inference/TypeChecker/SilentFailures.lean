import Inference.TypeChecker.ExpressionInference
import Inference.TypeChecker.ExpressionRuns
import Inference.TypeChecker.OperatorTyping
import Inference.TypeChecker.Revisits

/-! # Failures of the inference

An expression for which no type is found has an error, unless its type is built on a part that has
none: an uzumaki or an array without elements for which no type is recorded.
-/

namespace Inference.TypeChecker

open Inference.Ast Inference.Foundation Collecting

variable {value : Option TypeInfo} {expression : Expression} {environment : Environment}

section

variable [UnicodeCase]

/-! ## Parts without a type -/

/-- The inference of the arguments of a call, which may have no argument list. -/
def inferCallArguments : Option Arguments → CheckM Unit
  | some arguments => inferArgumentList arguments
  | none => pure ()

/-- The expression is built on an uzumaki or an array without elements for which no type is
recorded, and the parts that are inferred besides have no errors. The inference goes from the first
state to the second. -/
inductive Untyped : CheckState → Expression → CheckState → Prop
  | uzumaki {state : CheckState} {node : Node} (unrecorded : state.nodeTypes node.id = none) :
      Untyped state (.uzumaki node) state
  | noElements {state : CheckState} {node : Node} (unrecorded : state.nodeTypes node.id = none) :
      Untyped state (.literal (.array node none)) state
  | firstElement {before after : CheckState} {node : Node} {first : Expression}
      {rest : List Expression} (unrecorded : before.nodeTypes node.id = none)
      (untyped : Untyped before first after) :
      Untyped before (.literal (.array node (some (first :: rest)))) after
  | array {before after : CheckState} {node : Node} {array index : Expression}
      (unrecorded : before.nodeTypes node.id = none) (untyped : Untyped before array after) :
      Untyped before (.arrayIndexAccess node array index) after
  | object {before after : CheckState} {node : Node} {expression : Expression} {name : Identifier}
      (unrecorded : before.nodeTypes node.id = none) (untyped : Untyped before expression after) :
      Untyped before (.memberAccess node expression name) after
  | variantOf {before after : CheckState} {node : Node} {expression : Expression}
      {name : Identifier} (unrecorded : before.nodeTypes node.id = none)
      (untyped : Untyped before expression after) :
      Untyped before (.typeMemberAccess node expression name) after
  | receiver {before middle after : CheckState} {node functionNode : Node} {receiver : Expression}
      {name : Identifier} {typeParameters : Option (List Identifier)}
      {arguments : Option Arguments} (untyped : Untyped before receiver middle)
      (others : (inferCallArguments arguments).Accepts middle () after) :
      Untyped before (.functionCall node (.memberAccess functionNode receiver name) typeParameters
        arguments) after
  | operand {before after : CheckState} {node : Node} {expression : Expression}
      {operator : UnaryOperatorKind} (untyped : Untyped before expression after) :
      Untyped before (.prefixUnary node expression operator) after
  | parenthesized {before after : CheckState} {node : Node} {expression : Expression}
      (untyped : Untyped before expression after) :
      Untyped before (.parenthesized node expression) after
  | left {before middle after : CheckState} {node : Node} {left right : Expression}
      {operator : OperatorKind} {rightType : Option TypeInfo}
      (unrecorded : before.nodeTypes node.id = none) (untyped : Untyped before left middle)
      (other : (inferExpression right).Accepts middle rightType after) :
      Untyped before (.binary node left operator right) after
  | right {before middle after : CheckState} {node : Node} {left right : Expression}
      {operator : OperatorKind} {leftType : TypeInfo}
      (unrecorded : before.nodeTypes node.id = none)
      (other : (inferExpression left).Accepts before (some leftType) middle)
      (untyped : Untyped middle right after) :
      Untyped before (.binary node left operator right) after

/-! ## Runs without errors -/

theorem inferExpression_keepsKeys (expression : Expression) {before after : CheckState}
    (accepted : (inferExpression expression).Accepts before value after) :
    after.reportedErrorKeys = before.reportedErrorKeys := by
  have follows : Follows (inference expression.nodes) (inferExpression expression) :=
    inferExpression_follows expression (List.Subset.refl _)
  have runs : (inferExpression expression before).Follows (inference expression.nodes) before :=
    follows.run trivial
  rcases runs.ends accepted with ⟨-, -, files⟩
  simpa using files.keys

omit [UnicodeCase] in
theorem RecordsType.not_none {before after : CheckState} {nodeId : Nat}
    {typeInfo : Option TypeInfo} : ¬ RecordsType before nodeId typeInfo none after := by
  rintro ⟨_, _, impossible, _⟩
  cases impossible

mutual

/-- Without errors, no type is found only for an expression that is built on a part without one. -/
theorem untyped_of_accepted : (expression : Expression) → {before after : CheckState} →
    before.reportedErrorKeys = [] → (inferExpression expression).Accepts before none after →
      Untyped before expression after
  | .arrayIndexAccess node array index, before, after, noKeys, accepted => by
      rw [inferExpression] at accepted
      rcases cached_accepts accepted with ⟨_, _, impossible, _⟩ | ⟨unrecorded, accepted⟩
      · cases impossible
      rcases accepts_bind.mp accepted with ⟨arrayType, middle, arrayAccepted, accepted⟩
      cases arrayType with
      | none =>
          rcases accepts_pure.mp accepted with ⟨_, rfl⟩
          exact .array unrecorded (untyped_of_accepted array noKeys arrayAccepted)
      | some arrayType =>
          rcases accepts_bind.mp accepted with ⟨indexType, _, _, accepted⟩
          rcases accepts_bind.mp accepted with ⟨_, _, _, accepted⟩
          exact absurd (elementAccess_accepts accepted) RecordsType.not_none
  | .memberAccess node expression name, before, after, noKeys, accepted => by
      rw [inferExpression] at accepted
      rcases cached_accepts accepted with ⟨_, _, impossible, _⟩ | ⟨unrecorded, accepted⟩
      · cases impossible
      rcases accepts_bind.mp accepted with ⟨objectType, middle, objectAccepted, accepted⟩
      rcases withType_accepts accepted with ⟨rfl, _, rfl⟩ | ⟨known, _, accepted⟩
      · exact .object unrecorded (untyped_of_accepted expression noKeys objectAccepted)
      · exact absurd (fieldAccess_accepts accepted) RecordsType.not_none
  | .typeMemberAccess node expression name, before, after, noKeys, accepted => by
      unfold inferExpression at accepted
      rcases cached_accepts accepted with ⟨_, _, impossible, _⟩ | ⟨unrecorded, accepted⟩
      · cases impossible
      have inner : ∀ {middle}, (inferExpression expression).Accepts before none middle →
          Untyped before expression middle :=
        fun accepted => untyped_of_accepted expression noKeys accepted
      split at accepted
      · exact absurd (variantAccess_accepts noKeys accepted) RecordsType.not_none
      · rcases accepts_bind.mp accepted with ⟨_, _, _, failed⟩
        exact absurd failed failWith_accepts
      · exact absurd (variantAccess_accepts noKeys accepted) RecordsType.not_none
      · rcases accepts_bind.mp accepted with ⟨exprType, middle, inside, accepted⟩
        rcases withType_accepts accepted with ⟨rfl, _, rfl⟩ | ⟨known, _, accepted⟩
        · exact .variantOf unrecorded (inner inside)
        · have keys := inferExpression_keepsKeys expression inside
          exact absurd (variantOfType_accepts (keys.trans noKeys) accepted) RecordsType.not_none
  | .functionCall node function typeParameters arguments, before, after, noKeys, accepted => by
      have receiverUntyped : ∀ functionNode receiver name,
          function = .memberAccess functionNode receiver name → ∀ {middle},
            (inferExpression receiver).Accepts before none middle →
              Untyped before receiver middle := by
        intro functionNode receiver name same middle inside
        subst same
        exact untyped_of_accepted receiver noKeys inside
      unfold inferExpression at accepted
      rcases accepts_bind.mp accepted with ⟨table, middle, read, accepted⟩
      rcases getSymbolTable_accepts read with ⟨rfl, rfl⟩
      dsimp only at accepted
      split at accepted
      · rcases callAssociated_accepts accepted with ⟨_, _, _, _, _, _, recorded⟩
        exact absurd recorded RecordsType.not_none
      · split at accepted
        · rename_i functionNode receiver name _
          rcases accepts_bind.mp accepted with ⟨receiverType, last, inside, accepted⟩
          cases receiverType with
          | none =>
              rcases accepts_bind.mp accepted with ⟨_, _, others, accepted⟩
              rcases accepts_pure.mp accepted with ⟨_, rfl⟩
              apply Untyped.receiver (receiverUntyped _ _ _ rfl inside)
              cases arguments <;> exact others
          | some receiverType =>
              rcases callOnReceiver_accepts accepted with ⟨_, _, _, _, _, _, _, _, recorded⟩
              exact absurd recorded RecordsType.not_none
        · rcases callFunction_accepts noKeys accepted with ⟨_, _, _, _, _, _, _, _, recorded⟩
          exact absurd recorded RecordsType.not_none
  | .struct_ node name fields, before, after, noKeys, accepted => by
      rw [inferExpression] at accepted
      rcases cached_accepts accepted with ⟨_, _, impossible, _⟩ | ⟨unrecorded, accepted⟩
      · cases impossible
      · exact absurd (structLiteral_accepts noKeys accepted) RecordsType.not_none
  | .prefixUnary node expression operator, before, after, noKeys, accepted => by
      rw [inferExpression] at accepted
      rcases accepts_bind.mp accepted with ⟨operandType, middle, operandAccepted, accepted⟩
      rcases withType_accepts accepted with ⟨rfl, _, rfl⟩ | ⟨known, _, accepted⟩
      · exact .operand (untyped_of_accepted expression noKeys operandAccepted)
      · exact absurd (applyUnary_accepts accepted) RecordsType.not_none
  | .parenthesized node expression, before, after, noKeys, accepted => by
      rw [inferExpression] at accepted
      rcases accepts_bind.mp accepted with ⟨found, middle, inside, accepted⟩
      rcases withType_accepts accepted with ⟨rfl, _, rfl⟩ | ⟨known, _, accepted⟩
      · exact .parenthesized (untyped_of_accepted expression noKeys inside)
      · exact absurd (recordType_accepts accepted) RecordsType.not_none
  | .binary node left operator right, before, after, noKeys, accepted => by
      rw [inferExpression] at accepted
      rcases cached_accepts accepted with ⟨_, _, impossible, _⟩ | ⟨unrecorded, accepted⟩
      · cases impossible
      rcases accepts_bind.mp accepted with ⟨leftType, middle, leftAccepted, accepted⟩
      rcases accepts_bind.mp accepted with ⟨rightType, last, rightAccepted, accepted⟩
      have keys := inferExpression_keepsKeys left leftAccepted
      cases leftType with
      | none =>
          rcases accepts_pure.mp accepted with ⟨_, rfl⟩
          exact .left unrecorded (untyped_of_accepted left noKeys leftAccepted) rightAccepted
      | some leftType =>
          cases rightType with
          | none =>
              rcases accepts_pure.mp accepted with ⟨_, rfl⟩
              exact .right unrecorded leftAccepted
                (untyped_of_accepted right (keys.trans noKeys) rightAccepted)
          | some rightType =>
              exact absurd (applyBinary_accepts accepted) RecordsType.not_none
  | .literal (.array node none), before, after, noKeys, accepted => by
      rw [inferExpression] at accepted
      unfold inferLiteral at accepted
      rcases cached_accepts accepted with ⟨_, _, impossible, _⟩ | ⟨unrecorded, accepted⟩
      · cases impossible
      · rcases accepts_pure.mp accepted with ⟨_, rfl⟩
        exact .noElements unrecorded
  | .literal (.array node (some [])), before, after, noKeys, accepted => by
      rw [inferExpression] at accepted
      unfold inferLiteral at accepted
      rcases cached_accepts accepted with ⟨_, _, impossible, _⟩ | ⟨unrecorded, accepted⟩
      · cases impossible
      · exact (accepts_abort.mp accepted).elim
  | .literal (.array node (some (first :: rest))), before, after, noKeys, accepted => by
      rw [inferExpression] at accepted
      unfold inferLiteral at accepted
      rcases cached_accepts accepted with ⟨_, _, impossible, _⟩ | ⟨unrecorded, accepted⟩
      · cases impossible
      rcases accepts_bind.mp accepted with ⟨elementType, middle, inside, accepted⟩
      cases elementType with
      | none =>
          rcases accepts_pure.mp accepted with ⟨_, rfl⟩
          exact .firstElement unrecorded (untyped_of_accepted first noKeys inside)
      | some elementType =>
          rcases accepts_bind.mp accepted with ⟨_, _, _, accepted⟩
          exact absurd (recordType_accepts accepted) RecordsType.not_none
  | .literal (.bool node _), before, after, noKeys, accepted
  | .literal (.string node _), before, after, noKeys, accepted
  | .literal (.unit node), before, after, noKeys, accepted => by
      rw [inferExpression, inferLiteral] at accepted
      exact absurd (recordType_accepts accepted) RecordsType.not_none
  | .literal (.number node _), before, after, noKeys, accepted => by
      rw [inferExpression, inferLiteral] at accepted
      rcases cached_accepts accepted with ⟨_, _, impossible, _⟩ | ⟨_, accepted⟩
      · cases impossible
      · exact absurd (recordType_accepts accepted) RecordsType.not_none
  | .identifier identifier, before, after, noKeys, accepted => by
      rw [inferExpression] at accepted
      exact absurd (inferIdentifier_accepts noKeys accepted) RecordsType.not_none
  | .type_ type, before, after, noKeys, accepted => by
      rw [inferExpression] at accepted
      rcases accepts_bind.mp accepted with ⟨_, _, _, accepted⟩
      rcases accepts_bind.mp accepted with ⟨_, _, _, accepted⟩
      cases type with
      | array _ _ size =>
          rcases accepts_bind.mp accepted with ⟨_, _, _, accepted⟩
          cases (accepts_pure.mp accepted).1
      | _ => cases (accepts_pure.mp accepted).1
  | .uzumaki node, before, after, noKeys, accepted => by
      rw [inferExpression, getNodeTypeinfo, accepts_read] at accepted
      rcases accepted with ⟨unrecorded, rfl⟩
      exact .uzumaki unrecorded.symm

end

omit [UnicodeCase] in
theorem cached_of_unrecorded {node : Node} {infer : CheckM (Option TypeInfo)}
    {before after : CheckState}
    (unrecorded : before.nodeTypes node.id = none) (accepted : infer.Accepts before value after) :
    (cached node infer).Accepts before value after := by
  apply cached_ends_iff.mpr
  rw [unrecorded]
  exact accepted

/-- No type is found for an expression that is built on a part without one, and no error is
reported. -/
theorem Untyped.accepted {before after : CheckState} (untyped : Untyped before expression after) :
    (inferExpression expression).Accepts before none after := by
  induction untyped with
  | uzumaki unrecorded =>
      rw [inferExpression, getNodeTypeinfo, accepts_read]
      exact ⟨unrecorded.symm, rfl⟩
  | noElements unrecorded =>
      rw [inferExpression]
      unfold inferLiteral
      exact cached_of_unrecorded unrecorded (accepts_pure.mpr ⟨rfl, rfl⟩)
  | firstElement unrecorded _ inside =>
      rw [inferExpression]
      unfold inferLiteral
      apply cached_of_unrecorded unrecorded
      exact accepts_bind.mpr ⟨none, _, inside, accepts_pure.mpr ⟨rfl, rfl⟩⟩
  | array unrecorded _ inside | object unrecorded _ inside =>
      rw [inferExpression]
      apply cached_of_unrecorded unrecorded
      exact accepts_bind.mpr ⟨none, _, inside, accepts_pure.mpr ⟨rfl, rfl⟩⟩
  | @variantOf before after node expression name unrecorded untyped inside =>
      unfold inferExpression
      apply cached_of_unrecorded unrecorded
      cases untyped <;> exact accepts_bind.mpr ⟨none, _, inside, accepts_pure.mpr ⟨rfl, rfl⟩⟩
  | @receiver before middle after node functionNode receiver name typeParameters arguments _ others
      inside =>
      unfold inferExpression
      apply accepts_bind.mpr
      refine ⟨before.symbolTable, before, accepts_read.mpr ⟨rfl, rfl⟩, ?_⟩
      apply accepts_bind.mpr
      refine ⟨none, middle, inside, ?_⟩
      apply accepts_bind.mpr
      refine ⟨(), after, ?_, accepts_pure.mpr ⟨rfl, rfl⟩⟩
      cases arguments <;> exact others
  | operand _ inside | parenthesized _ inside =>
      rw [inferExpression]
      exact accepts_bind.mpr ⟨none, _, inside, accepts_pure.mpr ⟨rfl, rfl⟩⟩
  | left unrecorded _ other inside =>
      rw [inferExpression]
      apply cached_of_unrecorded unrecorded
      apply accepts_bind.mpr
      refine ⟨none, _, inside, ?_⟩
      exact accepts_bind.mpr ⟨_, _, other, accepts_pure.mpr ⟨rfl, rfl⟩⟩
  | right unrecorded other _ inside =>
      rw [inferExpression]
      apply cached_of_unrecorded unrecorded
      apply accepts_bind.mpr
      refine ⟨_, _, other, ?_⟩
      exact accepts_bind.mpr ⟨none, _, inside, accepts_pure.mpr ⟨rfl, rfl⟩⟩

/-! ## Expressions built on a part without a type -/

/-- The arguments of a call, which may have no argument list. -/
def callArguments : Option Arguments → List Expression
  | some arguments => arguments.map (·.2)
  | none => []

/-- The expression is built on an uzumaki or an array without elements for which no type is
recorded, and the operands and arguments beside that part are as `beside` says. -/
inductive BuiltOnTypeless (beside : Expression → Prop) (state : CheckState) : Expression → Prop
  | uzumaki {node : Node} (unrecorded : state.nodeTypes node.id = none) :
      BuiltOnTypeless beside state (.uzumaki node)
  | noElements {node : Node} (unrecorded : state.nodeTypes node.id = none) :
      BuiltOnTypeless beside state (.literal (.array node none))
  | firstElement {node : Node} {first : Expression} {rest : List Expression}
      (unrecorded : state.nodeTypes node.id = none) (part : BuiltOnTypeless beside state first) :
      BuiltOnTypeless beside state (.literal (.array node (some (first :: rest))))
  | array {node : Node} {array index : Expression} (unrecorded : state.nodeTypes node.id = none)
      (part : BuiltOnTypeless beside state array) :
      BuiltOnTypeless beside state (.arrayIndexAccess node array index)
  | object {node : Node} {expression : Expression} {name : Identifier}
      (unrecorded : state.nodeTypes node.id = none)
      (part : BuiltOnTypeless beside state expression) :
      BuiltOnTypeless beside state (.memberAccess node expression name)
  | variantOf {node : Node} {expression : Expression} {name : Identifier}
      (unrecorded : state.nodeTypes node.id = none)
      (part : BuiltOnTypeless beside state expression) :
      BuiltOnTypeless beside state (.typeMemberAccess node expression name)
  | receiver {node functionNode : Node} {receiver : Expression} {name : Identifier}
      {typeParameters : Option (List Identifier)} {arguments : Option Arguments}
      (part : BuiltOnTypeless beside state receiver)
      (others : ∀ argument ∈ callArguments arguments, beside argument) :
      BuiltOnTypeless beside state
        (.functionCall node (.memberAccess functionNode receiver name) typeParameters arguments)
  | operand {node : Node} {expression : Expression} {operator : UnaryOperatorKind}
      (part : BuiltOnTypeless beside state expression) :
      BuiltOnTypeless beside state (.prefixUnary node expression operator)
  | parenthesized {node : Node} {expression : Expression}
      (part : BuiltOnTypeless beside state expression) :
      BuiltOnTypeless beside state (.parenthesized node expression)
  | left {node : Node} {left right : Expression} {operator : OperatorKind}
      (unrecorded : state.nodeTypes node.id = none) (part : BuiltOnTypeless beside state left)
      (other : beside right) : BuiltOnTypeless beside state (.binary node left operator right)
  | right {node : Node} {left right : Expression} {operator : OperatorKind}
      (unrecorded : state.nodeTypes node.id = none) (other : beside left)
      (part : BuiltOnTypeless beside state right) :
      BuiltOnTypeless beside state (.binary node left operator right)

namespace Environment

/-- The expression is no name of a variable that is not in scope. -/
def Names (environment : Environment) (expression : Expression) : Prop :=
  ∀ identifier, expression = .identifier identifier →
    ∃ typeInfo, environment.lookupVariable identifier.name = some typeInfo

/-- The expression is a literal without elements or a variable in scope. -/
inductive Atom (environment : Environment) : Expression → Prop
  | bool (node : Node) (value : Bool) : environment.Atom (.literal (.bool node value))
  | string (node : Node) (value : String) : environment.Atom (.literal (.string node value))
  | number (node : Node) (value : String) : environment.Atom (.literal (.number node value))
  | unit (node : Node) : environment.Atom (.literal (.unit node))
  | inScope {identifier : Identifier} {typeInfo : TypeInfo}
      (found : environment.lookupVariable identifier.name = some typeInfo) :
      environment.Atom (.identifier identifier)

end Environment

/-- The inference records types and forgets none. -/
theorem inferExpression_forgetsNone (expression : Expression) {before after : CheckState}
    (accepted : (inferExpression expression).Accepts before value after) :
    after.environment = before.environment ∧
      ∀ nodeId, after.nodeTypes nodeId = none → before.nodeTypes nodeId = none := by
  have follows : Follows (inference expression.nodes) (inferExpression expression) :=
    inferExpression_follows expression (List.Subset.refl _)
  have runs : (inferExpression expression before).Follows (inference expression.nodes) before :=
    follows.run trivial
  rcases runs.ends accepted with ⟨path, -, -⟩
  refine path.keeps (fun state => state.environment = before.environment ∧
    ∀ nodeId, state.nodeTypes nodeId = none → before.nodeTypes nodeId = none) ?_ ?_ after
      path.last_mem
  · rintro state next step ⟨same, forgets⟩
    cases step with
    | key name => exact ⟨same, forgets⟩
    | @record written _ typeInfo _ =>
        refine ⟨same, fun nodeId unrecorded => forgets nodeId ?_⟩
        rw [CheckState.setNodeType] at unrecorded
        by_cases own : nodeId = written.id
        · simp [own] at unrecorded
        · simpa [own] using unrecorded
  · exact ⟨rfl, fun _ unrecorded => unrecorded⟩

omit [UnicodeCase] in
theorem BuiltOnTypeless.before {beside : Expression → Prop} {before after : CheckState}
    {expression : Expression}
    (forgets : ∀ nodeId, after.nodeTypes nodeId = none → before.nodeTypes nodeId = none)
    (built : BuiltOnTypeless beside after expression) :
    BuiltOnTypeless beside before expression := by
  induction built with
  | uzumaki unrecorded => exact .uzumaki (forgets _ unrecorded)
  | noElements unrecorded => exact .noElements (forgets _ unrecorded)
  | firstElement unrecorded _ part => exact .firstElement (forgets _ unrecorded) part
  | array unrecorded _ part => exact .array (forgets _ unrecorded) part
  | object unrecorded _ part => exact .object (forgets _ unrecorded) part
  | variantOf unrecorded _ part => exact .variantOf (forgets _ unrecorded) part
  | receiver _ others part => exact .receiver part others
  | operand _ part => exact .operand part
  | parenthesized _ part => exact .parenthesized part
  | left unrecorded _ other part => exact .left (forgets _ unrecorded) part other
  | right unrecorded other _ part => exact .right (forgets _ unrecorded) other part

/-- What is inferred without an error is no unknown name. -/
theorem names_of_accepted {before after : CheckState}
    (scope : before.environment = environment) (noKeys : before.reportedErrorKeys = [])
    (accepted : (inferExpression expression).Accepts before value after) :
    environment.Names expression := by
  rintro identifier rfl
  rw [inferExpression] at accepted
  rcases inferIdentifier_accepts noKeys accepted with ⟨known, found, -⟩
  exact ⟨known, scope ▸ found⟩

theorem names_of_acceptedList
    (arguments : List (Option Identifier × Expression)) {before after : CheckState}
    (scope : before.environment = environment) (noKeys : before.reportedErrorKeys = [])
    (accepted : (inferArgumentList arguments).Accepts before () after) :
    ∀ argument ∈ arguments.map (·.2), environment.Names argument := by
  induction arguments generalizing before with
  | nil => simp
  | cons argument rest induction =>
      rw [inferArgumentList] at accepted
      rcases accepts_bind.mp accepted with ⟨value, middle, first, later⟩
      have keys := inferExpression_keepsKeys argument.2 first
      have same := (inferExpression_forgetsNone argument.2 first).1
      rw [List.map_cons, List.forall_mem_cons]
      exact ⟨names_of_accepted scope noKeys first,
        induction (same.trans scope) (keys.trans noKeys) later⟩

/-- The path by which no type comes up is in the syntax, with the types recorded before. -/
theorem Untyped.built {before after : CheckState} (untyped : Untyped before expression after)
    (scope : before.environment = environment) (noKeys : before.reportedErrorKeys = []) :
    BuiltOnTypeless environment.Names before expression := by
  induction untyped with
  | uzumaki unrecorded => exact .uzumaki unrecorded
  | noElements unrecorded => exact .noElements unrecorded
  | firstElement unrecorded _ part => exact .firstElement unrecorded (part scope noKeys)
  | array unrecorded _ part => exact .array unrecorded (part scope noKeys)
  | object unrecorded _ part => exact .object unrecorded (part scope noKeys)
  | variantOf unrecorded _ part => exact .variantOf unrecorded (part scope noKeys)
  | @receiver _ _ _ _ _ receiver _ _ arguments untyped others part =>
      refine .receiver (part scope noKeys) ?_
      have keys := inferExpression_keepsKeys receiver untyped.accepted
      have same := (inferExpression_forgetsNone receiver untyped.accepted).1
      cases arguments with
      | none => simp [callArguments]
      | some arguments =>
          exact names_of_acceptedList arguments (same.trans scope) (keys.trans noKeys) others
  | operand _ part => exact .operand (part scope noKeys)
  | parenthesized _ part => exact .parenthesized (part scope noKeys)
  | @left _ _ _ _ left right _ _ unrecorded untyped other part =>
      have keys := inferExpression_keepsKeys left untyped.accepted
      have same := (inferExpression_forgetsNone left untyped.accepted).1
      exact .left unrecorded (part scope noKeys)
        (names_of_accepted (same.trans scope) (keys.trans noKeys) other)
  | @right _ _ _ _ left right _ _ unrecorded other _ part =>
      have keys := inferExpression_keepsKeys left other
      have kept := inferExpression_forgetsNone left other
      exact .right unrecorded (names_of_accepted scope noKeys other)
        ((part (kept.1.trans scope) (keys.trans noKeys)).before kept.2)

/-! ## Paths without an error -/

omit [UnicodeCase] in
theorem recordType_keepsOthers (node : Node) (known : TypeInfo) (before : CheckState) :
    ∃ after, (recordType node known).Accepts before (some known) after ∧
      ∀ nodeId ∉ owned [some node.id], after.nodeTypes nodeId = before.nodeTypes nodeId := by
  refine ⟨_, recordType_accepts_iff.mpr ⟨rfl, rfl⟩, fun nodeId outside => ?_⟩
  have other : nodeId ≠ node.id := by simpa using outside
  exact Function.update_of_ne other _ _

/-- An atom gets its type, which is recorded for it at most. -/
theorem Environment.Atom.accepted (atom : environment.Atom expression) {before : CheckState}
    (scope : before.environment = environment) :
    ∃ known after, (inferExpression expression).Accepts before (some known) after ∧
      ∀ nodeId ∉ owned expression.ids, after.nodeTypes nodeId = before.nodeTypes nodeId := by
  cases atom with
  | bool node value | string node value | unit node =>
      rw [inferExpression, inferLiteral]
      exact ⟨_, recordType_keepsOthers node _ before⟩
  | number node value =>
      rw [inferExpression, inferLiteral]
      rcases recorded : before.nodeTypes node.id with _ | known
      · rcases recordType_keepsOthers node ⟨.number .i32, []⟩ before with ⟨after, records, others⟩
        exact ⟨_, after, cached_of_unrecorded recorded records, others⟩
      · refine ⟨known, before, ?_, fun _ _ => rfl⟩
        apply cached_ends_iff.mpr
        rw [recorded]
        exact ⟨rfl, rfl, rfl⟩
  | @inScope identifier typeInfo found =>
      rcases recordType_keepsOthers identifier.toNode typeInfo before with ⟨after, records, others⟩
      refine ⟨typeInfo, after, ?_, others⟩
      have looked : before.symbolTable.lookupVariable identifier.name = some typeInfo := by
        rw [← scope] at found
        exact found
      rw [inferExpression, inferIdentifier]
      apply accepts_bind.mpr
      refine ⟨before.symbolTable, before, accepts_read.mpr ⟨rfl, rfl⟩, ?_⟩
      rw [looked]
      exact records

theorem atoms_accepted (arguments : List (Option Identifier × Expression))
    (atoms : ∀ argument ∈ arguments.map (·.2), environment.Atom argument) {before : CheckState}
    (scope : before.environment = environment) :
    ∃ after, (inferArgumentList arguments).Accepts before () after := by
  induction arguments generalizing before with
  | nil => exact ⟨before, accepts_pure.mpr ⟨rfl, rfl⟩⟩
  | cons argument rest induction =>
      rw [List.map_cons, List.forall_mem_cons] at atoms
      rcases atoms.1.accepted scope with ⟨known, middle, first, -⟩
      have same := (inferExpression_forgetsNone argument.2 first).1
      rcases induction atoms.2 (same.trans scope) with ⟨after, later⟩
      refine ⟨after, ?_⟩
      rw [inferArgumentList]
      exact accepts_bind.mpr ⟨_, middle, first, later⟩

/-- Nothing is reported along a path with atoms beside it. -/
theorem BuiltOnTypeless.untyped {environment : Environment} {state current : CheckState}
    {expression : Expression} (built : BuiltOnTypeless environment.Atom state expression)
    (distinct : DistinctIds expression.ids) (scope : current.environment = environment)
    (fresh : ∀ nodeId ∈ owned expression.ids, state.nodeTypes nodeId = none →
      current.nodeTypes nodeId = none) :
    ∃ after, Untyped current expression after := by
  induction built generalizing current with
  | uzumaki unrecorded =>
      exact ⟨current, .uzumaki (fresh _ (by simp [Expression.ids]) unrecorded)⟩
  | noElements unrecorded =>
      exact ⟨current, .noElements (fresh _ (by simp [Expression.ids, Literal.ids]) unrecorded)⟩
  | @firstElement node first rest unrecorded _ part =>
      rw [Expression.ids, Literal.ids, expressionListIds] at distinct
      have own := fresh node.id (by simp [Expression.ids, Literal.ids]) unrecorded
      rcases part distinct.tail.left scope fun nodeId inside => fresh nodeId
        (by simp [Expression.ids, Literal.ids, expressionListIds, inside]) with ⟨after, untyped⟩
      exact ⟨after, .firstElement own untyped⟩
  | @array node array index unrecorded _ part =>
      rw [Expression.ids] at distinct
      have own := fresh node.id (by simp [Expression.ids]) unrecorded
      rcases part distinct.tail.left scope fun nodeId inside => fresh nodeId
        (by simp [Expression.ids, inside]) with ⟨after, untyped⟩
      exact ⟨after, .array own untyped⟩
  | @object node expression name unrecorded _ part =>
      rw [Expression.ids] at distinct
      have own := fresh node.id (by simp [Expression.ids]) unrecorded
      rcases part distinct.tail.left scope fun nodeId inside => fresh nodeId
        (by simp [Expression.ids, inside]) with ⟨after, untyped⟩
      exact ⟨after, .object own untyped⟩
  | @variantOf node expression name unrecorded _ part =>
      rw [Expression.ids] at distinct
      have own := fresh node.id (by simp [Expression.ids]) unrecorded
      rcases part distinct.tail.left scope fun nodeId inside => fresh nodeId
        (by simp [Expression.ids, inside]) with ⟨after, untyped⟩
      exact ⟨after, .variantOf own untyped⟩
  | @receiver node functionNode receiver name typeParameters arguments _ others part =>
      rw [Expression.ids.eq_def] at distinct
      have called : DistinctIds (Expression.memberAccess functionNode receiver name).ids :=
        distinct.tail.left.left
      rw [Expression.ids] at called
      have within : owned receiver.ids ⊆ owned (Expression.functionCall node
          (.memberAccess functionNode receiver name) typeParameters arguments).ids := by
        intro nodeId inside
        have ofFunction :
            nodeId ∈ owned (Expression.memberAccess functionNode receiver name).ids := by
          rw [Expression.ids]
          simp [inside]
        rw [Expression.ids.eq_def]
        dsimp only
        rw [owned_some, owned_append, owned_append]
        exact .inr (.inl (.inl ofFunction))
      rcases part called.tail.left scope fun nodeId inside => fresh nodeId (within inside) with
        ⟨middle, untyped⟩
      have same := (inferExpression_forgetsNone receiver untyped.accepted).1
      have accepted : ∃ after, (inferCallArguments arguments).Accepts middle () after := by
        cases arguments with
        | none => exact ⟨middle, accepts_pure.mpr ⟨rfl, rfl⟩⟩
        | some arguments => exact atoms_accepted arguments others (same.trans scope)
      rcases accepted with ⟨after, accepted⟩
      exact ⟨after, .receiver untyped accepted⟩
  | @operand node expression operator _ part =>
      rw [Expression.ids] at distinct
      rcases part distinct.tail scope fun nodeId inside => fresh nodeId
        (by simp [Expression.ids, inside]) with ⟨after, untyped⟩
      exact ⟨after, .operand untyped⟩
  | @parenthesized node expression _ part =>
      rw [Expression.ids] at distinct
      rcases part distinct.tail scope fun nodeId inside => fresh nodeId
        (by simp [Expression.ids, inside]) with ⟨after, untyped⟩
      exact ⟨after, .parenthesized untyped⟩
  | @left node left right operator unrecorded _ other part =>
      rw [Expression.ids] at distinct
      have own := fresh node.id (by simp [Expression.ids]) unrecorded
      rcases part distinct.tail.left scope fun nodeId inside => fresh nodeId
        (by simp [Expression.ids, inside]) with ⟨middle, untyped⟩
      have same := (inferExpression_forgetsNone left untyped.accepted).1
      rcases other.accepted (same.trans scope) with ⟨known, after, accepted, -⟩
      exact ⟨after, .left own untyped accepted⟩
  | @right node left right operator unrecorded other _ part =>
      rw [Expression.ids] at distinct
      have own := fresh node.id (by simp [Expression.ids]) unrecorded
      rcases other.accepted scope with ⟨known, middle, accepted, within⟩
      have same := (inferExpression_forgetsNone left accepted).1
      have apart := Set.disjoint_left.mp distinct.tail.disjoint
      have untouched : ∀ nodeId ∈ owned right.ids, state.nodeTypes nodeId = none →
          middle.nodeTypes nodeId = none := by
        intro nodeId inside none
        rw [within nodeId (apart inside)]
        exact fresh nodeId (by simp [Expression.ids, inside]) none
      rcases part distinct.tail.right (same.trans scope) untouched with ⟨after, untyped⟩
      exact ⟨after, .right own accepted untyped⟩

/-! ## Failures without an error -/

/-- Each key that was reported is the key of one of the errors so far. -/
def KeysReported (state : CheckState) (reported : List TypeCheckError) : Prop :=
  ∀ key ∈ state.reportedErrorKeys, ∃ error ∈ reported, error.dedupKey = some key

/-- If no type is found for the expression, there is an error behind the inference. -/
def FailureReported (expression : Expression) (state : CheckState)
    (reported : List TypeCheckError) : Prop :=
  ∀ after errors, (inferExpression expression).Ends state none after errors →
    reported ++ errors ≠ []

/-- A failure is reported if an error was reported before or the expression is not built on a part
without a type. With atoms beside that part it is silent. -/
theorem failureReported_condition (expression : Expression) (state : CheckState)
    (reported : List TypeCheckError) (keys : KeysReported state reported) :
    (reported ≠ [] ∨ ¬ BuiltOnTypeless state.environment.Names state expression →
      FailureReported expression state reported) ∧
    (reported = [] → DistinctIds expression.ids →
      BuiltOnTypeless state.environment.Atom state expression →
        ¬ FailureReported expression state reported) := by
  constructor
  · rintro condition after errors ended empty
    rcases List.append_eq_nil_iff.mp empty with ⟨rfl, rfl⟩
    have noKeys : state.reportedErrorKeys = [] := by
      apply List.eq_nil_iff_forall_not_mem.mpr
      intro key member
      rcases keys key member with ⟨error, impossible, _⟩
      cases impossible
    rcases condition with already | notBuilt
    · exact already rfl
    · exact notBuilt ((untyped_of_accepted expression noKeys ended).built rfl noKeys)
  · rintro rfl distinct built isReported
    rcases built.untyped distinct rfl fun _ _ unrecorded => unrecorded with ⟨after, untyped⟩
    exact isReported after [] untyped.accepted rfl

end

/-- An uzumaki whose type nothing determines. -/
def bareUzumaki : Expression :=
  .uzumaki { id := 1, location := {} }

/-- The uzumaki with something added to it. -/
def addedTo (right : Expression) : Expression :=
  .binary { id := 2, location := {} } bareUzumaki .add right

def unknownName : Identifier :=
  { id := 3, location := {}, name := "x" }

theorem blankState_namesNothing : ¬ blankState.environment.Names (.identifier unknownName) := by
  intro names
  rcases names unknownName rfl with ⟨_, found⟩
  cases found

/-- With an unknown name beside the uzumaki there is an error, with a number there is none. -/
theorem failureReported_condition_added :
    (∃ after, (inferExpression (addedTo (.identifier unknownName))).Ends blankState none after
        [.unknownIdentifier "x" {}]) ∧
      FailureReported (addedTo (.identifier unknownName)) blankState [] ∧
      ¬ FailureReported (addedTo (numberAt 3)) blankState [] := by
  have keys : KeysReported blankState [] := fun _ member => absurd member List.not_mem_nil
  refine ⟨⟨_, rfl⟩, ?_, ?_⟩
  · refine (failureReported_condition _ blankState [] keys).1 (.inr fun built => ?_)
    cases built with
    | left _ _ named => exact blankState_namesNothing named
    | right _ _ part => cases part
  · refine (failureReported_condition _ blankState [] keys).2 rfl ⟨by decide, ?_⟩ ?_
    · have apart : some noId ∉ (addedTo (numberAt 3)).ids := by decide
      exact apart
    · exact .left rfl (.uzumaki rfl) (.number _ _)

theorem bareUzumaki_failsSilently : ¬ FailureReported bareUzumaki blankState [] := by
  intro isReported
  exact isReported blankState [] rfl rfl

end Inference.TypeChecker

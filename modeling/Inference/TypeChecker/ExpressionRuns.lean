import Inference.Ast.Traversal
import Inference.Foundation.Discipline
import Inference.TypeChecker.ExpressionChecker

/-! # Runs of the inference

What every run of the inference keeps, with errors or without. It leaves the symbol
table alone, it records types for the expressions that it is given only, an identifier
gets the type of the variable that it names, and an unknown name is reported once.
-/

namespace Inference.TypeChecker

open Inference.Ast Inference.Foundation

/-! ## The discipline of the inference -/

/-- A write of the inference among some expressions. -/
inductive InferenceStep (nodes : List Expression) (before : CheckState) : CheckState → Prop where
  | key (name : String) : InferenceStep nodes before
      { before with reportedErrorKeys := name :: before.reportedErrorKeys }
  | record {expression : Expression} (member : expression ∈ nodes) (typeInfo : TypeInfo)
      (resolved : ∀ identifier, expression = .identifier identifier →
        before.environment.lookupVariable identifier.name = some typeInfo) :
      InferenceStep nodes before (before.setNodeType expression.id typeInfo)

theorem InferenceStep.table {nodes : List Expression} {before after : CheckState}
    (step : InferenceStep nodes before after) : after.symbolTable = before.symbolTable := by
  cases step <;> rfl

theorem InferenceStep.keys {nodes : List Expression} {before after : CheckState}
    (step : InferenceStep nodes before after) :
    before.reportedErrorKeys ⊆ after.reportedErrorKeys := by
  cases step with
  | key name => exact List.subset_cons_self _ _
  | record _ _ _ => exact List.Subset.refl _

/-- The keys of the errors that a run reports are filed in front of those from before. -/
structure FilesKeys (before : CheckState) (errors : List TypeCheckError) (after : CheckState) :
    Prop where
  keys : after.reportedErrorKeys =
    (errors.filterMap TypeCheckError.dedupKey).reverse ++ before.reportedErrorKeys
  distinct : before.reportedErrorKeys.Nodup → after.reportedErrorKeys.Nodup

theorem FilesKeys.of_same {before after : CheckState}
    (same : after.reportedErrorKeys = before.reportedErrorKeys) : FilesKeys before [] after :=
  ⟨same, fun distinct => same ▸ distinct⟩

theorem FilesKeys.join {first middle last : CheckState} {errors more : List TypeCheckError}
    (left : FilesKeys first errors middle) (right : FilesKeys middle more last) :
    FilesKeys first (errors ++ more) last := by
  constructor
  · rw [right.keys, left.keys, List.filterMap_append, List.reverse_append, List.append_assoc]
  · exact fun distinct => right.distinct (left.distinct distinct)

def inference (nodes : List Expression) : Discipline CheckState TypeCheckError where
  invariant _ := True
  step := InferenceStep nodes
  whole := FilesKeys
  start _ := .of_same rfl
  join := FilesKeys.join

/-- The id of one of the expressions, which is no identifier. -/
def Recordable (nodes : List Expression) (nodeId : Nat) : Prop :=
  ∃ expression ∈ nodes, expression.id = nodeId ∧
    ∀ identifier, expression ≠ .identifier identifier

/-! ## Single steps -/

/-- An error that is not about an unknown name has no key. -/
theorem pushError_files {error : TypeCheckError} (unkeyed : error.dedupKey = none)
    (state : CheckState) : FilesKeys state [error] state := by
  constructor
  · rw [List.filterMap_cons_none unkeyed]
    rfl
  · exact id

theorem pushErrorDedup_outcome (error : TypeCheckError) (state : CheckState) :
    ∃ after errors, (pushErrorDedup error state).outcome = some ((), after, errors) ∧
      ((pushErrorDedup error state).states = [] ∧ after = state ∨
        (pushErrorDedup error state).states = [after] ∧ ∃ name, after =
          { state with reportedErrorKeys := name :: state.reportedErrorKeys }) ∧
      FilesKeys state errors after := by
  cases key : error.dedupKey with
  | none =>
      have unfolded : pushErrorDedup error = pushError error := by rw [pushErrorDedup, key]
      rw [unfolded]
      exact ⟨state, [error], rfl, .inl ⟨rfl, rfl⟩, pushError_files key state⟩
  | some name =>
      have unfolded : pushErrorDedup error state =
          (if name ∈ state.reportedErrorKeys then (pure () : CheckM Unit)
          else do
            Collecting.update fun state =>
              { state with reportedErrorKeys := name :: state.reportedErrorKeys }
            pushError error) state := by
        rw [pushErrorDedup, key]
        exact Collecting.read_bind _ _ state
      rw [unfolded]
      by_cases known : name ∈ state.reportedErrorKeys
      · rw [if_pos known]
        exact ⟨state, [], rfl, .inl ⟨rfl, rfl⟩, .of_same rfl⟩
      · rw [if_neg known]
        refine ⟨_, [error], rfl, .inr ⟨rfl, name, rfl⟩, ?_, ?_⟩
        · rw [List.filterMap_cons_some key]
          rfl
        · exact fun distinct => List.nodup_cons.mpr ⟨known, distinct⟩

section

variable {nodes : List Expression} {before after : CheckState}

theorem pushError_follows {error : TypeCheckError} (unkeyed : error.dedupKey = none) :
    Follows (inference nodes) (pushError error) :=
  ⟨fun _ => .report trivial (pushError_files unkeyed _)⟩

theorem pushErrorDedup_follows (error : TypeCheckError) :
    Follows (inference nodes) (pushErrorDedup error) := by
  constructor
  intro state _
  rcases pushErrorDedup_outcome error state with
    ⟨after, errors, ended, states, files⟩
  have path : Path (InferenceStep nodes) state (pushErrorDedup error state).states after := by
    rcases states with ⟨states, same⟩ | ⟨states, name, changed⟩
    · rw [states, same]
      exact .nil _
    · rw [states, changed]
      exact .cons (.key name) (.nil _)
  constructor
  · exact ⟨after, path⟩
  · intro value final found isEnd
    rw [ended] at isEnd
    cases isEnd
    exact ⟨path, trivial, files⟩

theorem getSymbolTable_follows : Follows (inference nodes) getSymbolTable :=
  .read _

theorem setNodeTypeinfo_follows {nodeId : Nat} (recordable : Recordable nodes nodeId)
    (typeInfo : TypeInfo) : Follows (inference nodes) (setNodeTypeinfo nodeId typeInfo) := by
  rcases recordable with ⟨expression, member, rfl, noIdentifier⟩
  constructor
  intro state _
  apply Run.Follows.update
  · exact .record member typeInfo fun identifier equal => absurd equal (noIdentifier identifier)
  · trivial
  · exact .of_same rfl

theorem recordType_follows {node : Node} (recordable : Recordable nodes node.id)
    (typeInfo : TypeInfo) : Follows (inference nodes) (recordType node typeInfo) :=
  .bind (setNodeTypeinfo_follows recordable typeInfo) fun _ => .pure _

theorem failWith_follows {error : TypeCheckError} (unkeyed : error.dedupKey = none) :
    Follows (inference nodes) (failWith error) :=
  .bind (pushError_follows unkeyed) fun _ => .pure _

/-- A condition that is reported where it fails. -/
theorem require_follows {result : Type} {condition : Prop} [Decidable condition]
    {next : CheckM result} (follows : Follows (inference nodes) next) {error : TypeCheckError}
    (unkeyed : error.dedupKey = none) :
    Follows (inference nodes) (if condition then next else do
      pushError error
      next) :=
  .ite follows (.bind (pushError_follows unkeyed) fun _ => follows)

theorem checkAndReportVisibility_follows (visibility : Visibility) (scope : Nat)
    (location : Location) (context : VisibilityContext) :
    Follows (inference nodes) (checkAndReportVisibility visibility scope location context) :=
  .bind getSymbolTable_follows fun _ => .ite (.pure _) (pushError_follows rfl)

theorem cached_follows {node : Node} {infer : CheckM (Option TypeInfo)}
    (infers : Follows (inference nodes) infer) :
    Follows (inference nodes) (cached node infer) := by
  apply Follows.bind (.read _)
  intro found
  cases found with
  | none => exact infers
  | some typeInfo => exact .pure _

theorem withType_follows {next : TypeInfo → CheckM (Option TypeInfo)}
    (follows : ∀ typeInfo, Follows (inference nodes) (next typeInfo))
    (typeInfo : Option TypeInfo) : Follows (inference nodes) (withType typeInfo next) := by
  cases typeInfo with
  | none => exact .pure _
  | some known => exact follows known

end

/-! ## Accesses and operators -/

section

variable {nodes : List Expression} {node : Node} (recordable : Recordable nodes node.id)

include recordable

theorem elementAccess_follows (arrayType : TypeInfo) :
    Follows (inference nodes) (elementAccess node arrayType) := by
  rw [elementAccess]
  split
  · exact recordType_follows recordable _
  · exact failWith_follows rfl

theorem fieldAccess_follows (name : Identifier) (objectType : TypeInfo) :
    Follows (inference nodes) (fieldAccess node name objectType) := by
  apply Follows.bind getSymbolTable_follows
  intro table
  dsimp only
  split
  · split
    · split
      · apply Follows.bind (checkAndReportVisibility_follows _ _ _ _)
        intro _
        exact recordType_follows recordable _
      · exact failWith_follows rfl
    · exact failWith_follows rfl
  · exact failWith_follows rfl

theorem variantAccess_follows (enumName : String) (name : Identifier) :
    Follows (inference nodes) (variantAccess node enumName name) := by
  apply Follows.bind getSymbolTable_follows
  intro table
  split
  · apply Follows.ite
    · apply Follows.bind (checkAndReportVisibility_follows _ _ _ _)
      intro _
      exact recordType_follows recordable _
    · exact failWith_follows rfl
  · exact .bind (pushErrorDedup_follows _) fun _ => .pure _

theorem variantOfType_follows (name : Identifier) (exprType : TypeInfo) :
    Follows (inference nodes) (variantOfType node name exprType) := by
  rw [variantOfType]
  split
  · exact variantAccess_follows recordable _ name
  · exact failWith_follows rfl

theorem applyUnary_follows (operator : UnaryOperatorKind) (operandType : TypeInfo) :
    Follows (inference nodes) (applyUnary node operator operandType) :=
  .ite (recordType_follows recordable _) (failWith_follows rfl)

omit recordable in
theorem pushMismatch_follows (operator : OperatorKind) (leftType rightType : TypeInfo) :
    Follows (inference nodes) (pushMismatch node operator leftType rightType) :=
  .ite (.pure _) (pushError_follows rfl)

theorem applyBinary_follows (operator : OperatorKind) (leftType rightType : TypeInfo) :
    Follows (inference nodes) (applyBinary node operator leftType rightType) := by
  apply Follows.bind (pushMismatch_follows _ _ _)
  intro _
  cases operator with
  | and | or => exact .ite (recordType_follows recordable _) (failWith_follows rfl)
  | eq | ne | lt | le | gt | ge => exact recordType_follows recordable _
  | _ =>
      apply require_follows _ rfl
      apply Follows.bind (pushMismatch_follows _ _ _)
      intro _
      exact recordType_follows recordable _

/-! ## Calls -/

variable {function : Node} (functionRecordable : Recordable nodes function.id)
  {inferArguments : CheckM Unit} (argumentsFollow : Follows (inference nodes) inferArguments)

include functionRecordable argumentsFollow

theorem callMethod_follows (typeName methodName : String) (method : MethodInfo)
    (arguments : Option Arguments) :
    Follows (inference nodes)
      (callMethod node function typeName methodName method arguments inferArguments) := by
  apply Follows.bind (checkAndReportVisibility_follows _ _ _ _)
  intro _
  apply require_follows _ rfl
  apply Follows.bind argumentsFollow
  intro _
  apply Follows.bind (setNodeTypeinfo_follows functionRecordable _)
  intro _
  exact recordType_follows recordable _

theorem callAssociated_follows (typeName methodName : String) (method : MethodInfo)
    (arguments : Option Arguments) :
    Follows (inference nodes)
      (callAssociated node function typeName methodName method arguments inferArguments) := by
  have call := callMethod_follows recordable functionRecordable argumentsFollow typeName methodName
    method arguments
  exact .ite (.bind (pushError_follows rfl) fun _ => call) call

theorem callOnReceiver_follows (name : Identifier) (receiverType : TypeInfo)
    (arguments : Option Arguments) :
    Follows (inference nodes)
      (callOnReceiver node function name receiverType arguments inferArguments) := by
  apply Follows.bind getSymbolTable_follows
  intro table
  dsimp only
  split
  · split
    · apply require_follows _ rfl
      exact callMethod_follows recordable functionRecordable argumentsFollow _ _ _ arguments
    · exact failWith_follows rfl
  · apply Follows.bind (pushError_follows rfl)
    intro _
    apply Follows.bind argumentsFollow
    intro _
    exact .pure _

omit recordable functionRecordable argumentsFollow

theorem callSubstitutions_follows [UnicodeCase] (name : String) (signature : FuncInfo)
    (typeParameters : Option (List Identifier)) {inferTypeParams : CheckM Substitutions}
    (paramsFollow : Follows (inference nodes) inferTypeParams) :
    Follows (inference nodes)
      (callSubstitutions node name signature typeParameters inferTypeParams) := by
  unfold callSubstitutions
  apply Follows.ite (.pure _)
  cases typeParameters with
  | some typeArguments =>
      apply Follows.ite
      · exact .bind getSymbolTable_follows fun _ => .pure _
      · exact .bind (pushError_follows rfl) fun _ => .pure _
  | none =>
      apply Follows.bind paramsFollow
      intro inferred
      exact .ite (.bind (pushError_follows rfl) fun _ => .pure _) (.pure _)

include recordable argumentsFollow in
theorem callFunction_follows [UnicodeCase] (name : String)
    (typeParameters : Option (List Identifier)) (arguments : Option Arguments)
    {inferTypeParams : FuncInfo → CheckM Substitutions}
    (paramsFollow : ∀ signature, Follows (inference nodes) (inferTypeParams signature)) :
    Follows (inference nodes)
      (callFunction node name typeParameters arguments inferArguments inferTypeParams) := by
  apply Follows.bind getSymbolTable_follows
  intro table
  split
  · apply Follows.bind (checkAndReportVisibility_follows _ _ _ _)
    intro _
    apply Follows.ite
    · apply Follows.bind (pushError_follows rfl)
      intro _
      exact .bind argumentsFollow fun _ => .pure _
    · apply Follows.bind (callSubstitutions_follows name _ typeParameters (paramsFollow _))
      intro substitutions
      apply Follows.bind argumentsFollow
      intro _
      exact recordType_follows recordable _
  · apply Follows.bind (pushErrorDedup_follows _)
    intro _
    exact .bind argumentsFollow fun _ => .pure _

theorem addSubstitution_follows (location : Location) (typeParamName : String)
    (argType : Option TypeInfo) (substitutions : Substitutions) :
    Follows (inference nodes)
      (addSubstitution location typeParamName argType substitutions) := by
  cases argType with
  | none => exact .pure _
  | some argType =>
      rw [addSubstitution]
      split
      · exact require_follows (.pure _) rfl
      · exact .pure _

theorem checkTypeParams_follows (signature : FuncInfo) (location : Location)
    (substitutions : Substitutions) :
    Follows (inference nodes) (checkTypeParams signature location substitutions) :=
  .forM fun _ _ => .ite (.pure _) (pushError_follows rfl)

end

/-! ## Expressions -/

section

variable [UnicodeCase] {nodes : List Expression}

theorem structLiteral_follows {node : Node} (recordable : Recordable nodes node.id)
    (name : Identifier) : Follows (inference nodes) (structLiteral node name) := by
  apply Follows.bind getSymbolTable_follows
  intro table
  split
  · exact recordType_follows recordable _
  · exact .bind (pushErrorDedup_follows _) fun _ => .pure _

omit [UnicodeCase] in
/-- An identifier gets the type of the variable that it names. -/
theorem inferIdentifier_follows {identifier : Identifier}
    (member : .identifier identifier ∈ nodes) :
    Follows (inference nodes) (inferIdentifier identifier) := by
  constructor
  intro state _
  have unfolded : inferIdentifier identifier state = _ := Collecting.read_bind _ _ state
  rw [unfolded]
  cases found : state.symbolTable.lookupVariable identifier.name with
  | none => exact (Follows.bind (pushErrorDedup_follows _) fun _ => .pure _).run trivial
  | some variableType =>
      apply Run.Follows.bind
      · apply Run.Follows.update
        · apply InferenceStep.record member
          intro other same
          cases same
          exact found
        · trivial
        · exact .of_same rfl
      · intro _ middle _ _
        exact (Follows.pure _).run trivial

omit [UnicodeCase] in
theorem associatedFunction_node {environment : Environment} {function : Expression} {node : Node}
    {typeName methodName : String} {method : MethodInfo}
    (found : environment.associatedFunction function = some (node, typeName, methodName, method)) :
    ∃ expression name, function = .typeMemberAccess node expression name := by
  cases function with
  | typeMemberAccess functionNode expression name =>
      simp only [Environment.associatedFunction] at found
      split at found
      · split at found
        · cases found
        · rcases Option.map_eq_some_iff.mp found with ⟨known, _, same⟩
          cases same
          exact ⟨expression, name, rfl⟩
      · cases found
  | _ => cases found

omit [UnicodeCase] in
theorem recordable_of_mem {expression : Expression} (member : expression ∈ nodes)
    (noIdentifier : ∀ identifier, expression ≠ .identifier identifier) :
    Recordable nodes expression.id :=
  ⟨expression, member, rfl, noIdentifier⟩

omit [UnicodeCase] in
theorem functionCall_nodes (node : Node) (function : Expression)
    (typeParameters : Option (List Identifier)) (arguments : Option Arguments) :
    (Expression.functionCall node function typeParameters arguments).nodes =
      .functionCall node function typeParameters arguments ::
        (function.nodes ++ (arguments.map argumentNodes).getD []) := by
  cases arguments <;> rw [Expression.nodes] <;> rfl

/-- A call infers its arguments and the receiver of its function. -/
theorem inferCall_follows {node : Node} {function : Expression}
    {typeParameters : Option (List Identifier)} {arguments : Option Arguments}
    {inferArguments : CheckM Unit} {inferTypeParams : FuncInfo → CheckM Substitutions}
    (recordable : Recordable nodes node.id) (functionMember : function ∈ nodes)
    (argumentsFollow : Follows (inference nodes) inferArguments)
    (paramsFollow : ∀ signature, Follows (inference nodes) (inferTypeParams signature))
    (receiverFollows : ∀ functionNode receiver name,
      function = .memberAccess functionNode receiver name →
        Follows (inference nodes) (inferExpression receiver)) :
    Follows (inference nodes) (do
      let environment := (← getSymbolTable).environment
      match environment.associatedFunction function with
      | some (functionNode, typeName, methodName, method) =>
          callAssociated node functionNode typeName methodName method arguments inferArguments
      | none =>
          match function with
          | .memberAccess functionNode receiver name =>
              match ← inferExpression receiver with
              | some receiverType =>
                  callOnReceiver node functionNode name receiverType arguments inferArguments
              | none =>
                  inferArguments
                  return none
          | function =>
              callFunction node (callName function) typeParameters arguments inferArguments
                inferTypeParams) := by
  apply Follows.bind getSymbolTable_follows
  intro table
  dsimp only
  split
  · rename_i functionNode typeName methodName method found
    rcases associatedFunction_node found with ⟨expression, name, rfl⟩
    have functionRecordable : Recordable nodes functionNode.id :=
      ⟨_, functionMember, rfl, fun _ equal => by cases equal⟩
    exact callAssociated_follows recordable functionRecordable argumentsFollow _ _ _ arguments
  · split
    · rename_i functionNode receiver name _
      apply Follows.bind (receiverFollows functionNode receiver name rfl)
      intro receiverType
      cases receiverType with
      | some receiverType =>
          have functionRecordable : Recordable nodes functionNode.id :=
            ⟨_, functionMember, rfl, fun _ equal => by cases equal⟩
          exact callOnReceiver_follows recordable functionRecordable argumentsFollow name
            receiverType arguments
      | none => exact .bind argumentsFollow fun _ => .pure _
    · exact callFunction_follows recordable argumentsFollow _ typeParameters arguments paramsFollow

mutual

theorem inferExpression_follows : (expression : Expression) → expression.nodes ⊆ nodes →
    Follows (inference nodes) (inferExpression expression)
  | .arrayIndexAccess node array index, within => by
      simp only [Expression.nodes, List.cons_subset, List.append_subset] at within
      rcases within with ⟨self, arrayWithin, indexWithin⟩
      have recordable : Recordable nodes node.id :=
        recordable_of_mem self fun _ equal => by cases equal
      rw [inferExpression]
      apply cached_follows
      apply Follows.bind (inferExpression_follows array arrayWithin)
      intro arrayType
      cases arrayType with
      | none => exact .pure _
      | some arrayType =>
          apply Follows.bind (inferExpression_follows index indexWithin)
          intro indexType
          have checked : Follows (inference nodes) (checkIndexType node indexType) := by
            cases indexType with
            | none => exact .pure _
            | some indexType => exact .ite (.pure _) (pushError_follows rfl)
          apply Follows.bind checked
          intro _
          exact elementAccess_follows recordable arrayType
  | .memberAccess node expression name, within => by
      simp only [Expression.nodes, List.cons_subset] at within
      have recordable : Recordable nodes node.id :=
        recordable_of_mem within.1 fun _ equal => by cases equal
      rw [inferExpression]
      apply cached_follows
      apply Follows.bind (inferExpression_follows expression within.2)
      exact withType_follows (fieldAccess_follows recordable name)
  | .typeMemberAccess node expression name, within => by
      simp only [Expression.nodes, List.cons_subset] at within
      have recordable : Recordable nodes node.id :=
        recordable_of_mem within.1 fun _ equal => by cases equal
      unfold inferExpression
      apply cached_follows
      split
      · exact variantAccess_follows recordable _ name
      · exact .bind (.expect _) fun _ => failWith_follows rfl
      · exact variantAccess_follows recordable _ name
      · apply Follows.bind (inferExpression_follows expression within.2)
        exact withType_follows (variantOfType_follows recordable name)
  | .functionCall node function typeParameters arguments, within => by
      rw [functionCall_nodes, List.cons_subset, List.append_subset] at within
      rcases within with ⟨self, functionWithin, argumentsWithin⟩
      have recordable : Recordable nodes node.id :=
        recordable_of_mem self fun _ equal => by cases equal
      have functionMember := functionWithin function.self_mem_nodes
      unfold inferExpression
      apply inferCall_follows recordable functionMember
      · cases arguments with
        | none => exact .pure _
        | some arguments => exact inferArgumentList_follows arguments argumentsWithin
      · intro signature
        cases arguments with
        | none => exact .pure _
        | some arguments =>
            apply Follows.bind
              (collectSubstitutions_follows node.location arguments argumentsWithin _ _)
            intro substitutions
            exact .bind (checkTypeParams_follows _ _ _) fun _ => .pure _
      · intro functionNode receiver name equal
        subst equal
        simp only [Expression.nodes, List.cons_subset] at functionWithin
        exact inferExpression_follows receiver functionWithin.2
  | .struct_ node name fields, within => by
      have recordable : Recordable nodes node.id :=
        recordable_of_mem (within (Expression.self_mem_nodes _)) fun _ equal => by cases equal
      rw [inferExpression]
      exact cached_follows (structLiteral_follows recordable name)
  | .prefixUnary node expression operator, within => by
      simp only [Expression.nodes, List.cons_subset] at within
      have recordable : Recordable nodes node.id :=
        recordable_of_mem within.1 fun _ equal => by cases equal
      rw [inferExpression]
      apply Follows.bind (inferExpression_follows expression within.2)
      exact withType_follows (applyUnary_follows recordable operator)
  | .parenthesized node expression, within => by
      simp only [Expression.nodes, List.cons_subset] at within
      have recordable : Recordable nodes node.id :=
        recordable_of_mem within.1 fun _ equal => by cases equal
      rw [inferExpression]
      apply Follows.bind (inferExpression_follows expression within.2)
      exact withType_follows (recordType_follows recordable)
  | .binary node left operator right, within => by
      simp only [Expression.nodes, List.cons_subset, List.append_subset] at within
      rcases within with ⟨self, leftWithin, rightWithin⟩
      have recordable : Recordable nodes node.id :=
        recordable_of_mem self fun _ equal => by cases equal
      rw [inferExpression]
      apply cached_follows
      apply Follows.bind (inferExpression_follows left leftWithin)
      intro leftType
      apply Follows.bind (inferExpression_follows right rightWithin)
      intro rightType
      split
      · exact applyBinary_follows recordable operator _ _
      · exact .pure _
  | .literal value, within => by
      simp only [Expression.nodes, List.cons_subset] at within
      rw [inferExpression]
      exact inferLiteral_follows value within.1 within.2
  | .identifier identifier, within => by
      rw [inferExpression]
      exact inferIdentifier_follows (within (Expression.self_mem_nodes _))
  | .type_ type, within => by
      have recordable : Recordable nodes type.id :=
        recordable_of_mem (within (Expression.self_mem_nodes _)) fun _ equal => by cases equal
      rw [inferExpression]
      apply Follows.bind (.expect _)
      intro typeInfo
      apply Follows.bind (setNodeTypeinfo_follows recordable typeInfo)
      intro _
      cases type with
      | array arrayNode elementType size =>
          simp only [Expression.nodes, Type_.nodes, List.cons_subset, List.append_subset] at within
          exact .bind (inferExpression_follows size within.2.2) fun _ => .pure _
      | _ => exact .pure _
  | .uzumaki node, _ => by
      rw [inferExpression]
      exact .read _

theorem inferLiteral_follows : (literal : Literal) → .literal literal ∈ nodes →
    literal.nodes ⊆ nodes → Follows (inference nodes) (inferLiteral literal)
  | .array node elements, self, within => by
      have recordable : Recordable nodes node.id :=
        recordable_of_mem self fun _ equal => by cases equal
      unfold inferLiteral
      apply cached_follows
      cases elements with
      | none => exact .pure _
      | some elements =>
          cases elements with
          | nil => exact .abort
          | cons first rest =>
              simp only [Literal.nodes, expressionListNodes, List.append_subset] at within
              apply Follows.bind (inferExpression_follows first within.1)
              intro elementType
              cases elementType with
              | none => exact .pure _
              | some elementType =>
                  apply Follows.bind (compareElements_follows node elementType rest within.2)
                  intro _
                  exact recordType_follows recordable _
  | .bool node _, self, _ => by
      rw [inferLiteral]
      exact recordType_follows (recordable_of_mem self fun _ equal => by cases equal) _
  | .string node _, self, _ => by
      rw [inferLiteral]
      exact recordType_follows (recordable_of_mem self fun _ equal => by cases equal) _
  | .number node _, self, _ => by
      rw [inferLiteral]
      apply cached_follows
      exact recordType_follows (recordable_of_mem self fun _ equal => by cases equal) _
  | .unit node, self, _ => by
      rw [inferLiteral]
      exact recordType_follows (recordable_of_mem self fun _ equal => by cases equal) _

theorem compareElements_follows (node : Node) (elementType : TypeInfo) :
    (elements : List Expression) → expressionListNodes elements ⊆ nodes →
      Follows (inference nodes) (compareElements node elementType elements)
  | [], _ => by
      rw [compareElements]
      exact .pure _
  | element :: rest, within => by
      simp only [expressionListNodes, List.append_subset] at within
      rw [compareElements]
      apply Follows.bind (inferExpression_follows element within.1)
      intro found
      have compared : Follows (inference nodes) (compareElement node elementType found) := by
        cases found with
        | none => exact .pure _
        | some found => exact .ite (.pure _) (pushError_follows rfl)
      apply Follows.bind compared
      intro _
      exact compareElements_follows node elementType rest within.2

theorem inferArgumentList_follows :
    (arguments : List (Option Identifier × Expression)) → argumentNodes arguments ⊆ nodes →
      Follows (inference nodes) (inferArgumentList arguments)
  | [], _ => by
      rw [inferArgumentList]
      exact .pure _
  | (_, argument) :: rest, within => by
      simp only [argumentNodes, List.append_subset] at within
      rw [inferArgumentList]
      apply Follows.bind (inferExpression_follows argument within.1)
      intro _
      exact inferArgumentList_follows rest within.2

theorem collectSubstitutions_follows (location : Location) :
    (arguments : List (Option Identifier × Expression)) → argumentNodes arguments ⊆ nodes →
      (paramTypes : List TypeInfo) → (substitutions : Substitutions) →
        Follows (inference nodes)
          (collectSubstitutions location arguments paramTypes substitutions)
  | [], _, _, _ => by
      rw [collectSubstitutions]
      · exact .pure _
      · simp
  | (_, argument) :: rest, within, [], _ => by
      rw [collectSubstitutions]
      · exact .pure _
      · simp
  | (_, argument) :: rest, within, paramType :: paramTypes, substitutions => by
      simp only [argumentNodes, List.append_subset] at within
      rw [collectSubstitutions]
      split
      · apply Follows.bind (inferExpression_follows argument within.1)
        intro argType
        apply Follows.bind (addSubstitution_follows _ _ _ _)
        intro known
        exact collectSubstitutions_follows location rest within.2 paramTypes known
      · exact collectSubstitutions_follows location rest within.2 paramTypes substitutions

end

end

end Inference.TypeChecker

import Inference.Ast.Traversal
import Inference.Foundation.Panics
import Inference.TypeChecker.ExpressionChecker

/-! # Panics of the inference

The conversion of a type panics where the size of an array in it is no number literal of 32 bits.
The type expressions that the builder makes have no array in them and its array literals have
elements, so that the inference of an expression always returns.
-/

namespace Inference.TypeChecker

open Inference.Ast Inference.Foundation Collecting

/-! ## Conversions -/

/-- The size of an array type that is a number literal of 32 bits. -/
def isArraySize : Expression → Bool
  | .literal (.number _ value) => (TypeInfo.parseU32 value).isSome
  | _ => false

mutual

/-- Every array type in the type, at any depth, has a number literal of 32 bits as its size. -/
def isSized : Type_ → Bool
  | .array _ elementType size => isArraySize size && isSized elementType
  | .function _ parameters returns =>
      (match parameters with
        | some parameters => areSized parameters
        | none => true) &&
      (match returns with
        | some returns => isSized returns
        | none => true)
  | .simple _ | .generic _ _ _ | .qualifiedName _ _ _ | .qualified _ _ _ | .custom _ => true

def areSized : List Type_ → Bool
  | [] => true
  | head :: tail => isSized head && areSized tail

end

theorem extractArraySize_isSome (size : Expression) :
    (TypeInfo.extractArraySize size).isSome = isArraySize size := by
  cases size with
  | literal value => cases value <;> rfl
  | _ => rfl

private theorem isSome_bind {first second : Type} (value : Option first)
    {next : first → Option second} {nextSome : Bool}
    (same : ∀ known, (next known).isSome = nextSome) :
    (value >>= next).isSome = (value.isSome && nextSome) := by
  cases value with
  | none => rfl
  | some known => exact same known

private theorem isSome_last {first second : Type} (value : Option first) (finish : first → second) :
    (value >>= fun known => some (finish known)).isSome = value.isSome := by
  cases value <;> rfl

mutual

theorem newWithTypeParams_isSome (names : List String) : (type : Type_) →
    (TypeInfo.newWithTypeParams type names).isSome = isSized type
  | .array _ elementType size => by
      rw [TypeInfo.newWithTypeParams, isSized, ← extractArraySize_isSome,
        ← newWithTypeParams_isSome names elementType]
      apply isSome_bind
      intro length
      exact isSome_last _ _
  | .function _ parameters returns => by
      unfold TypeInfo.newWithTypeParams isSized
      cases parameters with
      | none =>
          cases returns with
          | none => rfl
          | some returns =>
              dsimp only
              rw [← newWithTypeParams_isSome names returns]
              exact isSome_last _ _
      | some parameters =>
          dsimp only
          rw [← newAllWithTypeParams_isSome names parameters]
          apply isSome_bind
          intro parameterTypes
          cases returns with
          | none => rfl
          | some returns =>
              dsimp only
              rw [← newWithTypeParams_isSome names returns]
              exact isSome_last _ _
  | .simple _ => by rw [TypeInfo.newWithTypeParams, isSized]; rfl
  | .generic _ _ _ => by rw [TypeInfo.newWithTypeParams, isSized]; rfl
  | .qualifiedName _ _ _ => by rw [TypeInfo.newWithTypeParams, isSized]; rfl
  | .qualified _ _ _ => by rw [TypeInfo.newWithTypeParams, isSized]; rfl
  | .custom identifier => by
      rw [TypeInfo.newWithTypeParams, isSized]
      split <;> rfl

theorem newAllWithTypeParams_isSome (names : List String) : (types : List Type_) →
    (TypeInfo.newAllWithTypeParams types names).isSome = areSized types
  | [] => by rw [TypeInfo.newAllWithTypeParams, areSized]; rfl
  | head :: tail => by
      rw [TypeInfo.newAllWithTypeParams, areSized, ← newWithTypeParams_isSome names head,
        ← newAllWithTypeParams_isSome names tail]
      apply isSome_bind
      intro headType
      exact isSome_last _ _

end

theorem typeInfoWithTypeParams_returns (type : Type_) (names : List String) :
    ReturnsIff (isSized type = true) (typeInfoWithTypeParams type names) :=
  (ReturnsIff.expect _).of_iff (by rw [newWithTypeParams_isSome])

theorem typeInfoOf_returns (type : Type_) :
    ReturnsIff (isSized type = true) (typeInfoOf type) :=
  typeInfoWithTypeParams_returns type []

/-! ## What the builder makes -/

/-- A type expression is made for a generic or a qualified name, and an array literal has an
element list only if it has elements; there are fewer than 2^32 of them, since the parser counts
the children of a node with 32 bits. -/
def AsBuilt : Expression → Prop
  | .type_ (.generic _ _ _) | .type_ (.qualifiedName _ _ _) => True
  | .type_ _ => False
  | .literal (.array _ (some elements)) => elements ≠ [] ∧ elements.length < 2 ^ 32
  | _ => True

theorem isSized_of_asBuilt {type : Type_} (built : AsBuilt (.type_ type)) :
    isSized type = true := by
  cases type with
  | generic _ _ _ | qualifiedName _ _ _ => rw [isSized]
  | _ => exact False.elim built

/-- A computation that never panics. -/
abbrev Total {result : Type} (computation : CheckM result) : Prop :=
  ReturnsIff True computation

/-! ## Single steps -/

theorem pushError_returns (error : TypeCheckError) : Total (pushError error) :=
  .report error

theorem pushErrorDedup_returns (error : TypeCheckError) : Total (pushErrorDedup error) := by
  unfold pushErrorDedup
  split
  · apply ReturnsIff.bind_total (.read _)
    intro reported
    exact .ite (.pure _) (.bind_total (.update _) fun _ => pushError_returns error)
  · exact pushError_returns error

theorem recordType_returns (node : Node) (typeInfo : TypeInfo) :
    Total (recordType node typeInfo) :=
  .bind_total (.update _) fun _ => .pure _

theorem failWith_returns (error : TypeCheckError) : Total (failWith error) :=
  .bind_total (pushError_returns error) fun _ => .pure _

/-- A condition that is reported where it fails. -/
theorem require_returns {result : Type} {condition : Prop} [Decidable condition]
    {next : CheckM result} (returns : Total next) (error : TypeCheckError) :
    Total (if condition then next else do
      pushError error
      next) :=
  .ite returns (.bind_total (pushError_returns error) fun _ => returns)

theorem checkAndReportVisibility_returns (visibility : Visibility) (scope : Nat)
    (location : Location) (context : VisibilityContext) :
    Total (checkAndReportVisibility visibility scope location context) :=
  .bind_total (.read _) fun _ => .ite (.pure _) (pushError_returns _)

theorem cached_returns {node : Node} {infer : CheckM (Option TypeInfo)}
    (returns : Total infer) : Total (cached node infer) := by
  apply ReturnsIff.bind_total (.read _)
  intro found
  cases found with
  | none => exact returns
  | some typeInfo => exact .pure _

theorem withType_returns {next : TypeInfo → CheckM (Option TypeInfo)}
    (returns : ∀ typeInfo, Total (next typeInfo)) (typeInfo : Option TypeInfo) :
    Total (withType typeInfo next) := by
  cases typeInfo with
  | none => exact .pure _
  | some known => exact returns known

/-! ## Accesses and operators -/

theorem checkIndexType_returns (node : Node) (indexType : Option TypeInfo) :
    Total (checkIndexType node indexType) := by
  cases indexType with
  | none => exact .pure _
  | some indexType => exact .ite (.pure _) (pushError_returns _)

theorem elementAccess_returns (node : Node) (arrayType : TypeInfo) :
    Total (elementAccess node arrayType) := by
  rw [elementAccess]
  split
  · exact recordType_returns node _
  · exact failWith_returns _

theorem fieldAccess_returns (node : Node) (name : Identifier) (objectType : TypeInfo) :
    Total (fieldAccess node name objectType) := by
  apply ReturnsIff.bind_total (.read _)
  intro table
  dsimp only
  split
  · split
    · split
      · apply ReturnsIff.bind_total (checkAndReportVisibility_returns _ _ _ _)
        intro _
        exact recordType_returns node _
      · exact failWith_returns _
    · exact failWith_returns _
  · exact failWith_returns _

theorem variantAccess_returns (node : Node) (enumName : String) (name : Identifier) :
    Total (variantAccess node enumName name) := by
  apply ReturnsIff.bind_total (.read _)
  intro table
  split
  · apply ReturnsIff.ite
    · apply ReturnsIff.bind_total (checkAndReportVisibility_returns _ _ _ _)
      intro _
      exact recordType_returns node _
    · exact failWith_returns _
  · exact .bind_total (pushErrorDedup_returns _) fun _ => .pure _

theorem variantOfType_returns (node : Node) (name : Identifier) (exprType : TypeInfo) :
    Total (variantOfType node name exprType) := by
  rw [variantOfType]
  split
  · exact variantAccess_returns node _ name
  · exact failWith_returns _

theorem applyUnary_returns (node : Node) (operator : UnaryOperatorKind) (operandType : TypeInfo) :
    Total (applyUnary node operator operandType) :=
  .ite (recordType_returns node _) (failWith_returns _)

theorem pushMismatch_returns (node : Node) (operator : OperatorKind)
    (leftType rightType : TypeInfo) : Total (pushMismatch node operator leftType rightType) :=
  .ite (.pure _) (pushError_returns _)

theorem applyBinary_returns (node : Node) (operator : OperatorKind)
    (leftType rightType : TypeInfo) : Total (applyBinary node operator leftType rightType) := by
  apply ReturnsIff.bind_total (pushMismatch_returns _ _ _ _)
  intro _
  cases operator with
  | and | or => exact .ite (recordType_returns node _) (failWith_returns _)
  | eq | ne | lt | le | gt | ge => exact recordType_returns node _
  | _ =>
      apply require_returns
      apply ReturnsIff.bind_total (pushMismatch_returns _ _ _ _)
      intro _
      exact recordType_returns node _

/-! ## Calls -/

section

variable {inferArguments : CheckM Unit} (argumentsReturn : Total inferArguments)

include argumentsReturn

theorem callMethod_returns (call function : Node) (typeName methodName : String)
    (method : MethodInfo) (arguments : Option Arguments) :
    Total (callMethod call function typeName methodName method arguments inferArguments) := by
  apply ReturnsIff.bind_total (checkAndReportVisibility_returns _ _ _ _)
  intro _
  apply require_returns
  apply ReturnsIff.bind_total argumentsReturn
  intro _
  apply ReturnsIff.bind_total (.update _)
  intro _
  exact recordType_returns call _

theorem callAssociated_returns (call function : Node) (typeName methodName : String)
    (method : MethodInfo) (arguments : Option Arguments) :
    Total (callAssociated call function typeName methodName method arguments
      inferArguments) := by
  have called := callMethod_returns argumentsReturn call function typeName methodName method
    arguments
  exact .ite (.bind_total (pushError_returns _) fun _ => called) called

theorem callOnReceiver_returns (call function : Node) (name : Identifier)
    (receiverType : TypeInfo) (arguments : Option Arguments) :
    Total (callOnReceiver call function name receiverType arguments inferArguments) := by
  apply ReturnsIff.bind_total (.read _)
  intro table
  dsimp only
  split
  · split
    · exact require_returns (callMethod_returns argumentsReturn call function _ _ _ arguments) _
    · exact failWith_returns _
  · apply ReturnsIff.bind_total (pushError_returns _)
    intro _
    exact .bind_total argumentsReturn fun _ => .pure _

omit argumentsReturn in
theorem callSubstitutions_returns [UnicodeCase] (call : Node) (name : String)
    (signature : FuncInfo) (typeParameters : Option (List Identifier))
    {inferTypeParams : CheckM Substitutions} (paramsReturn : Total inferTypeParams) :
    Total (callSubstitutions call name signature typeParameters inferTypeParams) := by
  unfold callSubstitutions
  apply ReturnsIff.ite (.pure _)
  cases typeParameters with
  | some typeArguments =>
      apply ReturnsIff.ite
      · exact .bind_total (.read _) fun _ => .pure _
      · exact .bind_total (pushError_returns _) fun _ => .pure _
  | none =>
      apply ReturnsIff.bind_total paramsReturn
      intro inferred
      exact .ite (.bind_total (pushError_returns _) fun _ => .pure _) (.pure _)

theorem callFunction_returns [UnicodeCase] (call : Node) (name : String)
    (typeParameters : Option (List Identifier)) (arguments : Option Arguments)
    {inferTypeParams : FuncInfo → CheckM Substitutions}
    (paramsReturn : ∀ signature, Total (inferTypeParams signature)) :
    Total (callFunction call name typeParameters arguments inferArguments inferTypeParams) := by
  apply ReturnsIff.bind_total (.read _)
  intro table
  split
  · apply ReturnsIff.bind_total (checkAndReportVisibility_returns _ _ _ _)
    intro _
    apply ReturnsIff.ite
    · apply ReturnsIff.bind_total (pushError_returns _)
      intro _
      exact .bind_total argumentsReturn fun _ => .pure _
    · apply ReturnsIff.bind_total
        (callSubstitutions_returns call name _ typeParameters (paramsReturn _))
      intro substitutions
      apply ReturnsIff.bind_total argumentsReturn
      intro _
      exact recordType_returns call _
  · apply ReturnsIff.bind_total (pushErrorDedup_returns _)
    intro _
    exact .bind_total argumentsReturn fun _ => .pure _

end

theorem addSubstitution_returns (location : Location) (typeParamName : String)
    (argType : Option TypeInfo) (substitutions : Substitutions) :
    Total (addSubstitution location typeParamName argType substitutions) := by
  cases argType with
  | none => exact .pure _
  | some argType =>
      rw [addSubstitution]
      split
      · exact require_returns (.pure _) _
      · exact .pure _

theorem checkTypeParams_returns (signature : FuncInfo) (location : Location)
    (substitutions : Substitutions) :
    Total (checkTypeParams signature location substitutions) :=
  .forM_total fun _ => .ite (.pure _) (pushError_returns _)

theorem compareElement_returns (node : Node) (expected : TypeInfo) (found : Option TypeInfo) :
    Total (compareElement node expected found) := by
  cases found with
  | none => exact .pure _
  | some found => exact .ite (.pure _) (pushError_returns _)

theorem structLiteral_returns [UnicodeCase] (node : Node) (name : Identifier) :
    Total (structLiteral node name) := by
  apply ReturnsIff.bind_total (.read _)
  intro table
  split
  · exact recordType_returns node _
  · exact .bind_total (pushErrorDedup_returns _) fun _ => .pure _

theorem inferIdentifier_returns (identifier : Identifier) :
    Total (inferIdentifier identifier) := by
  apply ReturnsIff.bind_total (.read _)
  intro table
  split
  · exact recordType_returns identifier.toNode _
  · exact .bind_total (pushErrorDedup_returns _) fun _ => .pure _

/-! ## Expressions -/

variable [UnicodeCase]

/-- A call infers its arguments and the receiver of its function. -/
theorem inferCall_returns {node : Node} {function : Expression}
    {typeParameters : Option (List Identifier)} {arguments : Option Arguments}
    {inferArguments : CheckM Unit} {inferTypeParams : FuncInfo → CheckM Substitutions}
    (argumentsReturn : Total inferArguments)
    (paramsReturn : ∀ signature, Total (inferTypeParams signature))
    (receiverReturns : ∀ functionNode receiver name,
      function = .memberAccess functionNode receiver name → Total (inferExpression receiver)) :
    Total (do
      let environment := (← getSymbolTable).environment
      match environment.associatedFunction function with
      | some (functionNode, typeName, methodName, method) =>
          callAssociated node functionNode typeName methodName method arguments inferArguments
      | none =>
          match function with
          | .memberAccess functionNode receiver name =>
              match ← inferExpression receiver with
              | some receiverType =>
                  callOnReceiver node functionNode name receiverType arguments inferArguments
              | none =>
                  inferArguments
                  return none
          | function =>
              callFunction node (callName function) typeParameters arguments inferArguments
                inferTypeParams) := by
  apply ReturnsIff.bind_total (.read _)
  intro table
  dsimp only
  split
  · exact callAssociated_returns argumentsReturn node _ _ _ _ arguments
  · split
    · rename_i functionNode receiver name _
      apply ReturnsIff.bind_total (receiverReturns functionNode receiver name rfl)
      intro receiverType
      cases receiverType with
      | some receiverType =>
          exact callOnReceiver_returns argumentsReturn node functionNode name receiverType arguments
      | none => exact .bind_total argumentsReturn fun _ => .pure _
    · exact callFunction_returns argumentsReturn node _ typeParameters arguments paramsReturn

mutual

/-- The inference of an expression that the builder made never panics. -/
theorem inferExpression_returns : (expression : Expression) →
    (∀ node ∈ expression.nodes, AsBuilt node) → Total (inferExpression expression)
  | .arrayIndexAccess node array index, built => by
      simp only [Expression.nodes, List.forall_mem_cons, List.forall_mem_append] at built
      rcases built with ⟨-, arrayBuilt, indexBuilt⟩
      rw [inferExpression]
      apply cached_returns
      apply ReturnsIff.bind_total (inferExpression_returns array arrayBuilt)
      intro arrayType
      cases arrayType with
      | none => exact .pure _
      | some arrayType =>
          apply ReturnsIff.bind_total (inferExpression_returns index indexBuilt)
          intro indexType
          apply ReturnsIff.bind_total (checkIndexType_returns node indexType)
          intro _
          exact elementAccess_returns node arrayType
  | .memberAccess node expression name, built => by
      simp only [Expression.nodes, List.forall_mem_cons] at built
      rw [inferExpression]
      apply cached_returns
      apply ReturnsIff.bind_total (inferExpression_returns expression built.2)
      exact withType_returns (fieldAccess_returns node name)
  | .typeMemberAccess node expression name, built => by
      simp only [Expression.nodes, List.forall_mem_cons] at built
      unfold inferExpression
      apply cached_returns
      split
      · exact variantAccess_returns node _ name
      · rename_i type _
        have sized := isSized_of_asBuilt (built.2 _ (Expression.self_mem_nodes _))
        have converted := (typeInfoOf_returns type).of_iff (iff_of_true sized trivial)
        exact .bind_total converted fun _ => failWith_returns _
      · exact variantAccess_returns node _ name
      · apply ReturnsIff.bind_total (inferExpression_returns expression built.2)
        exact withType_returns (variantOfType_returns node name)
  | .functionCall node function typeParameters arguments, built => by
      unfold Expression.nodes at built
      simp only [List.forall_mem_cons, List.forall_mem_append] at built
      rcases built with ⟨-, functionBuilt, argumentsBuilt⟩
      unfold inferExpression
      apply inferCall_returns
      · cases arguments with
        | none => exact .pure _
        | some arguments => exact inferArgumentList_returns arguments argumentsBuilt
      · intro signature
        cases arguments with
        | none => exact .pure _
        | some arguments =>
            apply ReturnsIff.bind_total
              (collectSubstitutions_returns node.location arguments argumentsBuilt _ _)
            intro substitutions
            exact .bind_total (checkTypeParams_returns _ _ _) fun _ => .pure _
      · intro functionNode receiver name equal
        subst equal
        simp only [Expression.nodes, List.forall_mem_cons] at functionBuilt
        exact inferExpression_returns receiver functionBuilt.2
  | .struct_ node name fields, _ => by
      rw [inferExpression]
      exact cached_returns (structLiteral_returns node name)
  | .prefixUnary node expression operator, built => by
      simp only [Expression.nodes, List.forall_mem_cons] at built
      rw [inferExpression]
      apply ReturnsIff.bind_total (inferExpression_returns expression built.2)
      exact withType_returns (applyUnary_returns node operator)
  | .parenthesized node expression, built => by
      simp only [Expression.nodes, List.forall_mem_cons] at built
      rw [inferExpression]
      apply ReturnsIff.bind_total (inferExpression_returns expression built.2)
      exact withType_returns (recordType_returns node)
  | .binary node left operator right, built => by
      simp only [Expression.nodes, List.forall_mem_cons, List.forall_mem_append] at built
      rcases built with ⟨-, leftBuilt, rightBuilt⟩
      rw [inferExpression]
      apply cached_returns
      apply ReturnsIff.bind_total (inferExpression_returns left leftBuilt)
      intro leftType
      apply ReturnsIff.bind_total (inferExpression_returns right rightBuilt)
      intro rightType
      split
      · exact applyBinary_returns node operator _ _
      · exact .pure _
  | .literal value, built => by
      simp only [Expression.nodes, List.forall_mem_cons] at built
      rw [inferExpression]
      exact inferLiteral_returns value built.1 built.2
  | .identifier identifier, _ => by
      rw [inferExpression]
      exact inferIdentifier_returns identifier
  | .type_ type, built => by
      simp only [Expression.nodes, List.forall_mem_cons] at built
      have sized := isSized_of_asBuilt built.1
      rw [inferExpression]
      apply ReturnsIff.bind_total ((typeInfoOf_returns type).of_iff (iff_of_true sized trivial))
      intro typeInfo
      apply ReturnsIff.bind_total (.update _)
      intro _
      cases type with
      | array arrayNode elementType size => exact False.elim built.1
      | _ => exact .pure _
  | .uzumaki node, _ => by
      rw [inferExpression]
      exact .read _

theorem inferLiteral_returns : (literal : Literal) → AsBuilt (.literal literal) →
    (∀ node ∈ literal.nodes, AsBuilt node) → Total (inferLiteral literal)
  | .array node elements, asBuilt, built => by
      unfold inferLiteral
      apply cached_returns
      cases elements with
      | none => exact .pure _
      | some elements =>
          cases elements with
          | nil => exact absurd rfl asBuilt.1
          | cons first rest =>
              simp only [Literal.nodes, expressionListNodes, List.forall_mem_append] at built
              apply ReturnsIff.bind_total (inferExpression_returns first built.1)
              intro elementType
              cases elementType with
              | none => exact .pure _
              | some elementType =>
                  apply ReturnsIff.bind_total (compareElements_returns node elementType rest built.2)
                  intro _
                  exact recordType_returns node _
  | .bool node _, _, _ => by
      rw [inferLiteral]
      exact recordType_returns node _
  | .string node _, _, _ => by
      rw [inferLiteral]
      exact recordType_returns node _
  | .number node _, _, _ => by
      rw [inferLiteral]
      exact cached_returns (recordType_returns node _)
  | .unit node, _, _ => by
      rw [inferLiteral]
      exact recordType_returns node _

theorem compareElements_returns (node : Node) (elementType : TypeInfo) :
    (elements : List Expression) → (∀ inner ∈ expressionListNodes elements, AsBuilt inner) →
      Total (compareElements node elementType elements)
  | [], _ => by
      rw [compareElements]
      exact .pure _
  | element :: rest, built => by
      simp only [expressionListNodes, List.forall_mem_append] at built
      rw [compareElements]
      apply ReturnsIff.bind_total (inferExpression_returns element built.1)
      intro found
      apply ReturnsIff.bind_total (compareElement_returns node elementType found)
      intro _
      exact compareElements_returns node elementType rest built.2

theorem inferArgumentList_returns : (arguments : List (Option Identifier × Expression)) →
    (∀ node ∈ argumentNodes arguments, AsBuilt node) → Total (inferArgumentList arguments)
  | [], _ => by
      rw [inferArgumentList]
      exact .pure _
  | (_, argument) :: rest, built => by
      simp only [argumentNodes, List.forall_mem_append] at built
      rw [inferArgumentList]
      apply ReturnsIff.bind_total (inferExpression_returns argument built.1)
      intro _
      exact inferArgumentList_returns rest built.2

theorem collectSubstitutions_returns (location : Location) :
    (arguments : List (Option Identifier × Expression)) →
      (∀ node ∈ argumentNodes arguments, AsBuilt node) → (paramTypes : List TypeInfo) →
        (substitutions : Substitutions) →
          Total (collectSubstitutions location arguments paramTypes substitutions)
  | [], _, _, _ => by
      rw [collectSubstitutions]
      · exact .pure _
      · simp
  | (_, argument) :: rest, _, [], _ => by
      rw [collectSubstitutions]
      · exact .pure _
      · simp
  | (_, argument) :: rest, built, paramType :: paramTypes, substitutions => by
      simp only [argumentNodes, List.forall_mem_append] at built
      rw [collectSubstitutions]
      split
      · apply ReturnsIff.bind_total (inferExpression_returns argument built.1)
        intro argType
        apply ReturnsIff.bind_total (addSubstitution_returns _ _ _ _)
        intro known
        exact collectSubstitutions_returns location rest built.2 paramTypes known
      · exact collectSubstitutions_returns location rest built.2 paramTypes substitutions

end

end Inference.TypeChecker

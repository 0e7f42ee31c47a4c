import Mathlib.Data.List.ReduceOption
import Inference.Ast.NodeIds
import Inference.TypeChecker.StableRuns

/-! # Visiting an expression again

The inference of an expression whose nodes have different ids is stable. The builtin types own no
id; they are found under one key, which each of them overwrites.
-/

namespace Inference.TypeChecker

open Inference.Ast Inference.Foundation Collecting

/-! ## Ids of the nodes -/

/-- The ids of some nodes that own one. -/
def owned (ids : List OwnId) : Set Nat :=
  { nodeId | some nodeId ∈ ids }

@[simp] theorem owned_nil : owned [] = ∅ := by
  simp [owned]

@[simp] theorem owned_some (nodeId : Nat) (ids : List OwnId) :
    owned (some nodeId :: ids) = insert nodeId (owned ids) := by
  ext other
  simp [owned]

@[simp] theorem owned_append (first second : List OwnId) :
    owned (first ++ second) = owned first ∪ owned second := by
  ext other
  simp [owned]

/-- No id is owned twice, and none is the one that stands for no id. -/
structure DistinctIds (ids : List OwnId) : Prop where
  nodup : ids.reduceOption.Nodup
  owns : noId ∉ owned ids

namespace DistinctIds

variable {first second : List OwnId} {nodeId : Nat} {ids : List OwnId}

theorem left (distinct : DistinctIds (first ++ second)) : DistinctIds first := by
  rcases distinct with ⟨nodup, owns⟩
  rw [List.reduceOption_append] at nodup
  rw [owned_append, Set.mem_union, not_or] at owns
  exact ⟨nodup.of_append_left, owns.1⟩

theorem right (distinct : DistinctIds (first ++ second)) : DistinctIds second := by
  rcases distinct with ⟨nodup, owns⟩
  rw [List.reduceOption_append] at nodup
  rw [owned_append, Set.mem_union, not_or] at owns
  exact ⟨nodup.of_append_right, owns.2⟩

theorem disjoint (distinct : DistinctIds (first ++ second)) :
    Disjoint (owned second) (owned first) := by
  have nodup := distinct.nodup
  rw [List.reduceOption_append, List.nodup_append] at nodup
  rw [Set.disjoint_left]
  intro nodeId inSecond inFirst
  exact nodup.2.2 nodeId (List.reduceOption_mem_iff.mpr inFirst) nodeId
    (List.reduceOption_mem_iff.mpr inSecond) rfl

theorem tail (distinct : DistinctIds (some nodeId :: ids)) : DistinctIds ids := by
  rcases distinct with ⟨nodup, owns⟩
  rw [List.reduceOption_cons_of_some, List.nodup_cons] at nodup
  rw [owned_some, Set.mem_insert_iff, not_or] at owns
  exact ⟨nodup.2, owns.2⟩

theorem head (distinct : DistinctIds (some nodeId :: ids)) : nodeId ∉ owned ids := by
  have nodup := distinct.nodup
  rw [List.reduceOption_cons_of_some, List.nodup_cons] at nodup
  exact fun member => nodup.1 (List.reduceOption_mem_iff.mpr member)

theorem hasId (distinct : DistinctIds (some nodeId :: ids)) : nodeId ≠ noId := by
  have owns := distinct.owns
  rw [owned_some, Set.mem_insert_iff, not_or] at owns
  exact Ne.symm owns.1

/-- A node and what is behind the first of its parts. -/
theorem apart (distinct : DistinctIds (some nodeId :: (first ++ second))) :
    Disjoint (insert nodeId (owned second)) (owned first) := by
  have outside := distinct.head
  rw [owned_append, Set.mem_union, not_or] at outside
  exact Set.disjoint_insert_left.mpr ⟨outside.1, distinct.tail.disjoint⟩

theorem apart_last (distinct : DistinctIds (some nodeId :: (first ++ second))) :
    Disjoint (insert nodeId ∅) (owned second) := by
  have outside := distinct.head
  rw [owned_append, Set.mem_union, not_or] at outside
  simpa using outside.2

end DistinctIds

/-! ## Expressions -/

theorem addSubstitution_stable (location : Location) (typeParamName : String)
    (argType : Option TypeInfo) (substitutions : Substitutions) :
    Stable ∅ (addSubstitution location typeParamName argType substitutions) := by
  cases argType with
  | none => exact .pure _
  | some argType =>
      rw [addSubstitution]
      split
      · exact .ite (.pure _) (.pass (.push _) (.pure _))
      · exact .pure _

variable {arguments : List (Option Identifier × Expression)}

section

variable [UnicodeCase]

/-- A call whose arguments and receiver are stable. -/
theorem inferCall_stable {node : Node} {function : Expression}
    (typeParameters : Option (List Identifier)) (arguments : Option Arguments)
    {argumentIds : List OwnId} {inferArguments : CheckM Unit}
    {inferTypeParams : FuncInfo → CheckM Substitutions}
    (distinct : DistinctIds (some node.id ::
      (function.ids ++ identifierIds typeParameters ++ argumentIds)))
    (stable : Stable (owned argumentIds) inferArguments)
    (infers : ∀ signature, Stable (owned argumentIds) (inferTypeParams signature))
    (survives : ∀ signature,
      Survives (owned argumentIds) (inferTypeParams signature) inferArguments)
    (receiverStable : ∀ functionNode receiver name,
      function = .memberAccess functionNode receiver name →
        Stable (owned receiver.ids) (inferExpression receiver)) :
    Stable (owned (some node.id :: (function.ids ++ identifierIds typeParameters ++ argumentIds)))
        (do
      let environment := (← getSymbolTable).environment
      match environment.associatedFunction function with
      | some (functionNode, typeName, methodName, method) =>
          callAssociated node functionNode typeName methodName method arguments inferArguments
      | none =>
          match function with
          | .memberAccess functionNode receiver name =>
              match ← inferExpression receiver with
              | some receiverType =>
                  callOnReceiver node functionNode name receiverType arguments inferArguments
              | none =>
                  inferArguments
                  return none
          | function =>
              callFunction node (callName function) typeParameters arguments inferArguments
                inferTypeParams) := by
  have hasId := distinct.hasId
  have outside := distinct.head
  simp only [owned_append, Set.mem_union, not_or] at outside
  rcases outside with ⟨⟨nodeOutside, _⟩, outside⟩
  have disjoint : Disjoint (owned argumentIds) (owned function.ids) := by
    have apart := distinct.tail.disjoint
    rw [owned_append, Set.disjoint_union_right] at apart
    exact apart.1
  have functionDistinct := distinct.tail.left.left
  have functionOutside : ∀ functionId ∈ owned function.ids,
      functionId ∉ insert node.id (owned argumentIds) := by
    rintro functionId member (rfl | inside)
    · exact nodeOutside member
    · exact Set.disjoint_left.mp disjoint inside member
  have within : insert node.id (owned argumentIds ∪ owned function.ids) ⊆
      owned (some node.id :: (function.ids ++ identifierIds typeParameters ++ argumentIds)) := by
    simp only [owned_some, owned_append]
    exact Set.insert_subset_insert (Set.union_subset Set.subset_union_right
      (Set.subset_union_left.trans Set.subset_union_left))
  refine Stable.mono within (Concludes.stable ?_)
  apply Concludes.readTable
  intro table
  dsimp only
  split
  · rename_i functionNode typeName methodName method found
    rcases associatedFunction_node found with ⟨expression, name, rfl⟩
    have functionOwned : functionNode.id ∈
        owned (Expression.typeMemberAccess functionNode expression name).ids := by
      simp [Expression.ids]
    refine (Concludes.callAssociated stable outside hasId (functionOutside _ functionOwned)
      _ _ _ arguments).mono ?_
    exact Set.insert_subset (.inr functionOwned) Set.subset_union_left
  · split
    · rename_i functionNode receiver name _
      have functionOwned : functionNode.id ∈
          owned (Expression.memberAccess functionNode receiver name).ids := by
        simp [Expression.ids]
      have receiverOwned : owned receiver.ids ⊆
          owned (Expression.memberAccess functionNode receiver name).ids := by
        intro nodeId member
        simp [Expression.ids, member]
      have receiverOutside : functionNode.id ∉ owned receiver.ids := by
        rw [Expression.ids] at functionDistinct
        have apart := functionDistinct.head
        rw [owned_append, Set.mem_union, not_or] at apart
        exact apart.1
      have apart : Disjoint (insert node.id (insert functionNode.id (owned argumentIds)))
          (owned receiver.ids) := by
        simp only [Set.disjoint_insert_left]
        exact ⟨fun member => nodeOutside (receiverOwned member), receiverOutside,
          disjoint.mono_right receiverOwned⟩
      refine Concludes.mono ?_
        (Concludes.bind (receiverStable functionNode receiver name rfl) ?_ apart hasId)
      · apply Set.union_subset (receiverOwned.trans Set.subset_union_right)
        exact Set.insert_subset (.inr functionOwned) Set.subset_union_left
      · intro receiverType
        cases receiverType with
        | some receiverType =>
            exact .callOnReceiver stable outside hasId (functionOutside _ functionOwned) name
              receiverType arguments
        | none => exact (Concludes.untyped stable outside hasId).mono (Set.subset_insert _ _)
    · refine (Concludes.callFunction _ typeParameters arguments stable infers survives outside
        hasId).mono Set.subset_union_left

omit [UnicodeCase] in
/-- A type is recorded for its own node, if it has one. -/
theorem Stable.setKey (own : OwnId) (typeInfo : TypeInfo) :
    Stable (owned [own]) (setNodeTypeinfo own.key typeInfo) := by
  cases own with
  | some nodeId =>
      rw [owned_some, owned_nil, insert_empty_eq]
      exact .set nodeId typeInfo
  | none =>
      constructor
      · intro before value after errors ended
        rcases ends_update.mp ended with ⟨rfl, rfl⟩
        exact ⟨rfl, fun nodeId _ isOwned => Function.update_of_ne isOwned _ _⟩
      · intro before value after errors ended later _
        exact ⟨_, [], ends_update.mpr ⟨rfl, rfl⟩, rfl,
          fun nodeId _ isOwned => Function.update_of_ne isOwned _ _⟩

omit [UnicodeCase] in
theorem typeInfo_stable (type : Type_) : Stable (owned type.ids) (do
    let typeInfo ← typeInfoOf type
    setNodeTypeinfo type.id typeInfo
    return some typeInfo) := by
  have own : owned [type.own] ⊆ owned type.ids := by
    have member : type.own ∈ type.ids := by
      cases type <;> unfold Type_.ids <;> exact List.mem_cons_self
    intro nodeId isOwn
    have same : some nodeId = type.own := List.mem_singleton.mp isOwn
    rw [← same] at member
    exact member
  rw [← Set.empty_union (owned type.ids)]
  apply Stable.bind (.expect _) _ (Set.disjoint_empty _)
  intro typeInfo
  rw [← Set.union_empty (owned type.ids), ← type.own_key]
  exact .bind ((Stable.setKey type.own typeInfo).mono own) (fun _ => .pure _) (Set.empty_disjoint _)

/-- The expressions of a list are stable, each one for itself. -/
def EachStable (expressions : List Expression) : Prop :=
  ∀ expression ∈ expressions, DistinctIds expression.ids →
    Stable (owned expression.ids) (inferExpression expression)

theorem compareElements_stable (node : Node) (elementType : TypeInfo) {elements : List Expression}
    (each : EachStable elements) (distinct : DistinctIds (expressionListIds elements)) :
    Stable (owned (expressionListIds elements)) (compareElements node elementType elements) := by
  induction elements with
  | nil =>
      rw [compareElements]
      exact .pure _
  | cons element rest induction =>
      rw [expressionListIds] at distinct
      rw [compareElements, expressionListIds, owned_append]
      apply Stable.bind (each element List.mem_cons_self distinct.left) _ distinct.disjoint
      intro found
      have restStable := induction (fun other member => each other (List.mem_cons_of_mem _ member))
        distinct.right
      exact .pass (.element _ _ _) restStable

/-- The arguments of a call are stable, each one for itself. -/
def ArgumentsStable (arguments : List (Option Identifier × Expression)) : Prop :=
  ∀ argument ∈ arguments, DistinctIds argument.2.ids →
    Stable (owned argument.2.ids) (inferExpression argument.2)

section

variable {argument : Option Identifier × Expression} {rest : List (Option Identifier × Expression)}

theorem ArgumentsStable.tail (each : ArgumentsStable (argument :: rest)) : ArgumentsStable rest :=
  fun other member => each other (List.mem_cons_of_mem _ member)

/-- The first argument with the ids of its name. -/
theorem ArgumentsStable.head (each : ArgumentsStable (argument :: rest))
    (distinct : DistinctIds (argument.1.toList.map Identifier.own ++ argument.2.ids)) :
    Stable (owned (argument.1.toList.map Identifier.own ++ argument.2.ids))
      (inferExpression argument.2) := by
  rw [owned_append]
  exact (each argument List.mem_cons_self distinct.right).mono Set.subset_union_right

end

theorem inferArgumentList_stable
    (each : ArgumentsStable arguments) (distinct : DistinctIds (argumentIds arguments)) :
    Stable (owned (argumentIds arguments)) (inferArgumentList arguments) := by
  induction arguments with
  | nil =>
      rw [inferArgumentList]
      exact .pure _
  | cons head rest induction =>
      rw [argumentIds] at distinct
      rw [inferArgumentList, argumentIds, owned_append]
      apply Stable.bind (each.head distinct.left) _ distinct.disjoint
      intro _
      exact induction each.tail distinct.right

theorem collectSubstitutions_stable (location : Location)
    (each : ArgumentsStable arguments)
    (distinct : DistinctIds (argumentIds arguments)) (paramTypes : List TypeInfo)
    (substitutions : Substitutions) :
    Stable (owned (argumentIds arguments))
      (collectSubstitutions location arguments paramTypes substitutions) := by
  induction arguments generalizing paramTypes substitutions with
  | nil =>
      rw [collectSubstitutions]
      · exact .pure _
      · simp
  | cons head rest induction =>
      cases paramTypes with
      | nil =>
          rw [collectSubstitutions]
          · exact .pure _
          · simp
      | cons paramType paramTypes =>
          rw [argumentIds] at distinct
          rw [collectSubstitutions, argumentIds, owned_append]
          split
          · apply Stable.bind (each.head distinct.left) _ distinct.disjoint
            intro argType
            rw [← Set.empty_union (owned (argumentIds rest))]
            apply Stable.bind (addSubstitution_stable _ _ _ _) _ (Set.disjoint_empty _)
            intro known
            exact induction each.tail distinct.right paramTypes known
          · exact (induction each.tail distinct.right paramTypes substitutions).mono
              Set.subset_union_right

/-- The type arguments that are inferred from the arguments do not depend on the arguments being
inferred once more. -/
theorem collectSubstitutions_survives (location : Location)
    (each : ArgumentsStable arguments)
    (distinct : DistinctIds (argumentIds arguments)) (paramTypes : List TypeInfo)
    (substitutions : Substitutions) :
    Survives (owned (argumentIds arguments))
      (collectSubstitutions location arguments paramTypes substitutions)
      (inferArgumentList arguments) := by
  induction arguments generalizing paramTypes substitutions with
  | nil =>
      rw [collectSubstitutions]
      · exact Survives.of_stable (.pure _) (inferArgumentList_stable each distinct)
      · simp
  | cons head rest induction =>
      cases paramTypes with
      | nil =>
          rw [collectSubstitutions]
          · exact Survives.of_stable (.pure _) (inferArgumentList_stable each distinct)
          · simp
      | cons paramType paramTypes =>
          rw [argumentIds] at distinct
          have argumentStable := each.head distinct.left
          have restStable := inferArgumentList_stable each.tail distinct.right
          intro before value middle later after errors more ended same argumentsEnded
          rw [collectSubstitutions] at ended ⊢
          rw [argumentIds, owned_append] at same ⊢
          rw [inferArgumentList] at argumentsEnded
          rcases ends_bind.mp argumentsEnded with
            ⟨again, visited, _, _, argumentAgain, restAgain, _⟩
          cases isGeneric : paramType.kind with
          | generic typeParamName =>
              simp only [isGeneric] at ended
              rcases ends_bind.mp ended with ⟨argType, first, _, _, argumentEnded, ended, _⟩
              rcases ends_bind.mp ended with ⟨known, second, _, _, addEnded, restEnded, _⟩
              have addStable := addSubstitution_stable location typeParamName argType substitutions
              have restKept := collectSubstitutions_stable location each.tail distinct.right
                paramTypes known
              have argumentSame : SameOn
                  (owned (head.1.toList.map Identifier.own ++ head.2.ids)) first later := by
                have added : SameOn (owned (head.1.toList.map Identifier.own ++ head.2.ids))
                    first second :=
                  (addStable.frame addEnded).of_disjoint (Set.empty_disjoint _)
                have collected := (restKept.frame restEnded).of_disjoint distinct.disjoint
                exact (added.trans collected).trans (same.mono Set.subset_union_left)
              have argumentRevisits := argumentStable.again argumentEnded
              rcases argumentRevisits later argumentSame with ⟨last, _, lastEnded, unchanged⟩
              rcases argumentAgain.unique lastEnded with ⟨rfl, rfl, _⟩
              have afterwards := (restStable.frame restAgain).of_disjoint distinct.disjoint
              refine Revisits.bind ((argumentRevisits.moved
                ((argumentSame.trans unchanged.everywhere).trans afterwards)).mono
                  Set.subset_union_left) ?_
              have none : ∀ ids : Set Nat, ∅ ⊆ ids := Set.empty_subset
              have kept : SameOn (∅ : Set Nat) second after :=
                (((restKept.frame restEnded).mono (none _)).trans (same.mono (none _))).trans
                  (((argumentStable.frame argumentAgain).mono (none _)).trans
                    ((restStable.frame restAgain).mono (none _)))
              have added := ((addStable.again addEnded).moved kept).mono (none
                (owned (head.1.toList.map Identifier.own ++ head.2.ids) ∪
                  owned (argumentIds rest)))
              have restSame : SameOn (owned (argumentIds rest)) middle visited :=
                (same.mono Set.subset_union_right).trans unchanged.everywhere
              exact added.bind ((induction each.tail distinct.right paramTypes known restEnded
                restSame restAgain).mono Set.subset_union_right)
          | _ =>
              simp only [isGeneric] at ended
              have restSame : SameOn (owned (argumentIds rest)) middle visited :=
                (same.mono Set.subset_union_right).trans
                  ((argumentStable.frame argumentAgain).of_disjoint distinct.disjoint.symm)
              exact (induction each.tail distinct.right paramTypes substitutions ended restSame
                restAgain).mono Set.subset_union_right

mutual

theorem inferExpression_stable : (expression : Expression) → DistinctIds expression.ids →
    Stable (owned expression.ids) (inferExpression expression)
  | .arrayIndexAccess node array index, distinct => by
      rw [Expression.ids] at distinct
      have inside := distinct.tail
      rw [inferExpression, Expression.ids, owned_some, owned_append]
      refine Concludes.cached ?_ distinct.hasId
      apply Concludes.bind (inferExpression_stable array inside.left) _ distinct.apart distinct.hasId
      intro arrayType
      cases arrayType with
      | none => exact .none
      | some arrayType =>
          refine Concludes.mono (by simp) (Concludes.bind (inferExpression_stable index inside.right)
            ?_ distinct.apart_last distinct.hasId)
          intro indexType
          exact .pass (.indexType node indexType) (Finishes.elementAccess arrayType).concludes
  | .memberAccess node expression name, distinct => by
      rw [Expression.ids] at distinct
      rw [inferExpression, Expression.ids, owned_some, owned_append]
      refine Concludes.cached ?_ distinct.hasId
      apply Concludes.bind (inferExpression_stable expression distinct.tail.left) _ distinct.apart
        distinct.hasId
      intro objectType
      exact ((Finishes.withType (Finishes.fieldAccess name) objectType).concludes).mono
        (Set.empty_subset _)
  | .typeMemberAccess node expression name, distinct => by
      rw [Expression.ids] at distinct
      unfold inferExpression
      rw [Expression.ids, owned_some, owned_append]
      refine Concludes.cached ?_ distinct.hasId
      split
      · exact ((Finishes.variantAccess _ name).concludes).mono (Set.empty_subset _)
      · rw [← Set.empty_union (owned _ ∪ _)]
        apply Concludes.bind (.expect _) _ (Set.disjoint_empty _) distinct.hasId
        intro found
        exact ((Finishes.failWith _).concludes).mono (Set.empty_subset _)
      · exact ((Finishes.variantAccess _ name).concludes).mono (Set.empty_subset _)
      · apply Concludes.bind (inferExpression_stable expression distinct.tail.left) _ distinct.apart
          distinct.hasId
        intro exprType
        exact ((Finishes.withType (Finishes.variantOfType name) exprType).concludes).mono
          (Set.empty_subset _)
  | .functionCall node function typeParameters arguments, distinct => by
      have functionDistinct : DistinctIds function.ids := by
        unfold Expression.ids at distinct
        exact distinct.tail.left.left
      have receiverStable : ∀ functionNode receiver name,
          function = .memberAccess functionNode receiver name →
            Stable (owned receiver.ids) (inferExpression receiver) := by
        intro functionNode receiver name same
        subst same
        rw [Expression.ids] at functionDistinct
        exact inferExpression_stable receiver functionDistinct.tail.left
      unfold inferExpression
      cases arguments with
      | none =>
          simp only [Expression.ids] at distinct ⊢
          exact inferCall_stable typeParameters none distinct (.pure ()) (fun _ => .pure _)
            (fun _ => Survives.of_stable (.pure _) (.pure _)) receiverStable
      | some arguments =>
          simp only [Expression.ids] at distinct ⊢
          have argumentsDistinct := distinct.tail.right
          have each := arguments_stable arguments
          have stable := inferArgumentList_stable each argumentsDistinct
          have reports : ∀ (signature : FuncInfo) (substitutions : Substitutions), Stable ∅ (do
              checkTypeParams signature node.location substitutions
              return substitutions) :=
            fun _ _ => .pass (.typeParams _ _ _) (.pure _)
          apply inferCall_stable typeParameters (some arguments) distinct stable _ _ receiverStable
          · intro signature
            rw [← Set.union_empty (owned _)]
            exact .bind (collectSubstitutions_stable _ each argumentsDistinct _ _)
              (reports signature) (Set.empty_disjoint _)
          · intro signature
            exact .bind (collectSubstitutions_survives _ each argumentsDistinct _ _)
              (reports signature) stable
  | .struct_ node name fields, distinct => by
      unfold Expression.ids at distinct ⊢
      rw [inferExpression, owned_some]
      exact Concludes.cached ((Finishes.structLiteral name).concludes.mono (Set.empty_subset _))
        distinct.hasId
  | .prefixUnary node expression operator, distinct => by
      rw [Expression.ids] at distinct
      rw [inferExpression, Expression.ids, owned_some]
      have outside : Disjoint (insert node.id ∅) (owned expression.ids) := by
        simpa using distinct.head
      apply Concludes.stable
      refine Concludes.mono (by simp) (Concludes.bind
        (inferExpression_stable expression distinct.tail) ?_ outside distinct.hasId)
      intro operandType
      exact (Finishes.withType (Finishes.applyUnary operator) operandType).concludes
  | .parenthesized node expression, distinct => by
      rw [Expression.ids] at distinct
      rw [inferExpression, Expression.ids, owned_some]
      have outside : Disjoint (insert node.id ∅) (owned expression.ids) := by
        simpa using distinct.head
      apply Concludes.stable
      refine Concludes.mono (by simp) (Concludes.bind
        (inferExpression_stable expression distinct.tail) ?_ outside distinct.hasId)
      intro found
      exact (Finishes.withType Finishes.record found).concludes
  | .binary node left operator right, distinct => by
      rw [Expression.ids] at distinct
      have inside := distinct.tail
      rw [inferExpression, Expression.ids, owned_some, owned_append]
      refine Concludes.cached ?_ distinct.hasId
      apply Concludes.bind (inferExpression_stable left inside.left) _ distinct.apart distinct.hasId
      intro leftType
      refine Concludes.mono (by simp) (Concludes.bind (inferExpression_stable right inside.right)
        ?_ distinct.apart_last distinct.hasId)
      intro rightType
      split
      · exact (Finishes.applyBinary operator _ _).concludes
      · exact .none
  | .literal value, distinct => by
      rw [inferExpression, Expression.ids]
      exact inferLiteral_stable value distinct
  | .identifier identifier, distinct => by
      rw [inferExpression, Expression.ids, Identifier.own, owned_some, owned_nil]
      exact (Finishes.inferIdentifier identifier).concludes.stable
  | .type_ (.array node elementType size), distinct => by
      rw [Expression.ids, Type_.ids] at distinct
      have outside := distinct.head
      rw [owned_append, Set.mem_union, not_or] at outside
      rw [inferExpression, Expression.ids, Type_.ids, owned_some, owned_append]
      have visited : Stable (∅ ∪ ({node.id} ∪ owned size.ids)) (do
          let typeInfo ← typeInfoOf (.array node elementType size)
          setNodeTypeinfo node.id typeInfo
          let _ ← inferExpression size
          return some typeInfo) := by
        apply Stable.bind (.expect _) _ (Set.disjoint_empty _)
        intro typeInfo
        apply Stable.bind (.set node.id typeInfo)
        · intro _
          rw [← Set.union_empty (owned size.ids)]
          exact .bind (inferExpression_stable size distinct.tail.right) (fun _ => .pure _)
            (Set.empty_disjoint _)
        · simpa using outside.2
      exact visited.mono (by grind)
  | .type_ (.simple _), _ | .type_ (.generic _ _ _), _ | .type_ (.function _ _ _), _
  | .type_ (.qualifiedName _ _ _), _ | .type_ (.qualified _ _ _), _ | .type_ (.custom _), _ => by
      rw [inferExpression, Expression.ids]
      exact typeInfo_stable _
  | .uzumaki node, distinct => by
      rw [Expression.ids] at distinct
      rw [inferExpression, Expression.ids, owned_some, owned_nil]
      exact .readType distinct.hasId (Set.mem_insert _ _)

theorem inferLiteral_stable : (literal : Literal) → DistinctIds literal.ids →
    Stable (owned literal.ids) (inferLiteral literal)
  | .array node none, distinct => by
      unfold inferLiteral
      rw [Literal.ids, owned_some]
      rw [Literal.ids] at distinct
      exact Concludes.none.cached distinct.hasId
  | .array node (some []), distinct => by
      unfold inferLiteral
      rw [Literal.ids, owned_some]
      rw [Literal.ids] at distinct
      exact Concludes.abort.cached distinct.hasId
  | .array node (some (first :: rest)), distinct => by
      unfold inferLiteral
      simp only [Literal.ids, expressionListIds] at distinct ⊢
      rw [owned_some, owned_append]
      refine Concludes.cached ?_ distinct.hasId
      apply Concludes.bind (inferExpression_stable first distinct.tail.left) _ distinct.apart
        distinct.hasId
      intro elementType
      cases elementType with
      | none => exact .none
      | some elementType =>
          refine Concludes.mono (by simp) (Concludes.bind
            (compareElements_stable node elementType (expressionList_stable rest)
              distinct.tail.right) ?_
            distinct.apart_last distinct.hasId)
          intro _
          exact (Finishes.record _).concludes
  | .bool node _, _ | .string node _, _ | .unit node, _ => by
      rw [inferLiteral, Literal.ids, owned_some, owned_nil]
      exact (Finishes.record _).concludes.stable
  | .number node _, distinct => by
      rw [inferLiteral, Literal.ids, owned_some, owned_nil]
      exact (Finishes.record _).concludes.cached distinct.hasId

theorem expressionList_stable : (expressions : List Expression) →
    ∀ expression ∈ expressions, DistinctIds expression.ids →
      Stable (owned expression.ids) (inferExpression expression)
  | [], _, member, _ => absurd member List.not_mem_nil
  | head :: tail, expression, member, distinct => by
      have first := inferExpression_stable head
      have others := expressionList_stable tail
      rcases List.mem_cons.mp member with rfl | member
      · exact first distinct
      · exact others expression member distinct

theorem arguments_stable : (arguments : List (Option Identifier × Expression)) →
    ∀ argument ∈ arguments, DistinctIds argument.2.ids →
      Stable (owned argument.2.ids) (inferExpression argument.2)
  | [], _, member, _ => absurd member List.not_mem_nil
  | (_, head) :: tail, argument, member, distinct => by
      have first := inferExpression_stable head
      have others := arguments_stable tail
      rcases List.mem_cons.mp member with rfl | member
      · exact first distinct
      · exact others argument member distinct

end

/-- An expression with a type has the same type when it is visited again, and the visit changes
neither the declarations nor the type of a node. -/
theorem inferExpression_revisited (expression : Expression) (distinct : DistinctIds expression.ids)
    {state after : CheckState} {typeInfo : TypeInfo} {errors : List TypeCheckError}
    (ended : (inferExpression expression).Ends state (some typeInfo) after errors) :
    ∃ final more, (inferExpression expression).Ends after (some typeInfo) final more ∧
      final.symbolTable = after.symbolTable ∧
        ∀ nodeId ≠ noId, final.nodeTypes nodeId = after.nodeTypes nodeId := by
  have stable := inferExpression_stable expression distinct
  rcases stable.again ended after (.refl after) with ⟨final, more, again, same⟩
  exact ⟨final, more, again, same.table, fun nodeId hasId =>
    same.types nodeId (Set.mem_univ nodeId) hasId⟩

end

/-- The sum of two numbers in parentheses. -/
def parenthesizedSum : Expression :=
  .parenthesized { id := 1, location := {} }
    (.binary { id := 2, location := {} } (numberAt 3) .add (numberAt 4))

theorem parenthesizedSum_revisited :
    ∃ after errors, (inferExpression parenthesizedSum).Ends blankState
        (some { kind := .number .i32, typeParams := [] }) after errors ∧
      ∃ final more, (inferExpression parenthesizedSum).Ends after
          (some { kind := .number .i32, typeParams := [] }) final more ∧
        final.symbolTable = after.symbolTable ∧
          ∀ nodeId ≠ noId, final.nodeTypes nodeId = after.nodeTypes nodeId :=
  have ended : (inferExpression parenthesizedSum).Ends blankState
      (some { kind := .number .i32, typeParams := [] }) _ _ := rfl
  ⟨_, _, ended, inferExpression_revisited parenthesizedSum
    ⟨by decide, by simp [owned, parenthesizedSum, numberAt, Expression.ids, Literal.ids, noId]⟩
    ended⟩

end Inference.TypeChecker

import Mathlib.Data.List.Count
import Inference.Ast.Traversal

/-! # Ids of the nodes

The nodes of a tree in order, each with the id that it owns. A builtin type owns no id;
all builtin types are found under one and the same id.
-/

namespace Inference.Ast

/-- The id that a node owns. -/
abbrev OwnId := Option Nat

/-- The id under which the annotations of a node are found. -/
def OwnId.key (own : OwnId) : Nat :=
  own.getD noId

def Identifier.own (identifier : Identifier) : OwnId :=
  some identifier.id

def Type_.own : Type_ → OwnId
  | .array node _ _ | .generic node _ _ | .function node _ _ => some node.id
  | .qualifiedName node _ _ | .qualified node _ _ => some node.id
  | .simple _ => none
  | .custom identifier => identifier.own

/-- Only a builtin type that stands in the place of an expression owns no id. -/
def Expression.own : Expression → OwnId
  | .type_ type => type.own
  | expression => some expression.id

@[simp] theorem Type_.own_key (type : Type_) : type.own.key = type.id := by
  cases type <;> rfl

@[simp] theorem Expression.own_key (expression : Expression) :
    expression.own.key = expression.id := by
  cases expression with
  | type_ type => exact type.own_key
  | _ => rfl

theorem Expression.own_none {expression : Expression} (isNone : expression.own = none) :
    ∃ kind, expression = .type_ (.simple kind) := by
  cases expression with
  | type_ type =>
      cases type with
      | simple kind => exact ⟨kind, rfl⟩
      | _ => cases isNone
  | _ => cases isNone

def identifierIds (identifiers : Option (List Identifier)) : List OwnId :=
  (identifiers.getD []).map Identifier.own

mutual

def Type_.ids : Type_ → List OwnId
  | .array node elementType size => some node.id :: (elementType.ids ++ size.ids)
  | .simple _ => [none]
  | .generic node base parameters => some node.id :: base.own :: parameters.map Identifier.own
  | .function node parameters returns =>
      some node.id ::
        ((match parameters with
          | some parameters => typeListIds parameters
          | none => []) ++
        (match returns with
          | some returns => returns.ids
          | none => []))
  | .qualifiedName node qualifier name => [some node.id, qualifier.own, name.own]
  | .qualified node qualifierAlias name => [some node.id, qualifierAlias.own, name.own]
  | .custom identifier => [identifier.own]

def typeListIds : List Type_ → List OwnId
  | [] => []
  | head :: tail => head.ids ++ typeListIds tail

def Expression.ids : Expression → List OwnId
  | .arrayIndexAccess node array index => some node.id :: (array.ids ++ index.ids)
  | .binary node left _ right => some node.id :: (left.ids ++ right.ids)
  | .memberAccess node expression name => some node.id :: (expression.ids ++ [name.own])
  | .typeMemberAccess node expression name => some node.id :: (expression.ids ++ [name.own])
  | .functionCall node function typeParameters arguments =>
      some node.id :: (function.ids ++ identifierIds typeParameters ++
        (match arguments with
          | some arguments => argumentIds arguments
          | none => []))
  | .struct_ node name fields =>
      some node.id :: name.own ::
        (match fields with
          | some fields => fieldIds fields
          | none => [])
  | .prefixUnary node expression _ => some node.id :: expression.ids
  | .parenthesized node expression => some node.id :: expression.ids
  | .literal value => value.ids
  | .identifier identifier => [identifier.own]
  | .type_ type => type.ids
  | .uzumaki node => [some node.id]

def Literal.ids : Literal → List OwnId
  | .array node elements =>
      some node.id ::
        (match elements with
          | some elements => expressionListIds elements
          | none => [])
  | .bool node _ | .string node _ | .number node _ | .unit node => [some node.id]

def expressionListIds : List Expression → List OwnId
  | [] => []
  | head :: tail => head.ids ++ expressionListIds tail

def argumentIds : List (Option Identifier × Expression) → List OwnId
  | [] => []
  | (name, head) :: tail => name.toList.map Identifier.own ++ head.ids ++ argumentIds tail

def fieldIds : List (Identifier × Expression) → List OwnId
  | [] => []
  | (name, head) :: tail => name.own :: (head.ids ++ fieldIds tail)

end

def optionTypeIds : Option Type_ → List OwnId
  | some type => type.ids
  | none => []

def optionIds : Option Expression → List OwnId
  | some expression => expression.ids
  | none => []

def ConstantDefinition.ids (definition : ConstantDefinition) : List OwnId :=
  some definition.id :: definition.name.own :: (definition.ty.ids ++ definition.value.ids)

mutual

def Statement.ids : Statement → List OwnId
  | .block block => block.ids
  | .expression expression => expression.ids
  | .assign node left right => some node.id :: (left.ids ++ right.ids)
  | .return_ node expression => some node.id :: expression.ids
  | .loop node condition body => some node.id :: (optionIds condition ++ body.ids)
  | .break_ node => [some node.id]
  | .if_ node condition ifArm elseArm =>
      some node.id :: (condition.ids ++ ifArm.ids ++
        (match elseArm with
          | some elseArm => elseArm.ids
          | none => []))
  | .variableDefinition node name ty value =>
      some node.id :: name.own :: (ty.ids ++ optionIds value)
  | .typeDefinition node name ty => some node.id :: name.own :: ty.ids
  | .assert node expression => some node.id :: expression.ids
  | .constantDefinition definition => definition.ids

def BlockType.ids : BlockType → List OwnId
  | .mk _ node statements => some node.id :: statementListIds statements

def statementListIds : List Statement → List OwnId
  | [] => []
  | head :: tail => head.ids ++ statementListIds tail

end

def ArgumentType.ids : ArgumentType → List OwnId
  | .selfReference node => [some node.id]
  | .ignoreArgument node ty => some node.id :: ty.ids
  | .argument node name ty => some node.id :: name.own :: ty.ids
  | .type_ type => type.ids

def signatureIds (arguments : Option (List ArgumentType)) (returns : Option Type_) : List OwnId :=
  (arguments.getD []).flatMap ArgumentType.ids ++ optionTypeIds returns

def FunctionDefinition.ids (definition : FunctionDefinition) : List OwnId :=
  some definition.id :: definition.name.own :: (identifierIds definition.typeParameters ++
    signatureIds definition.arguments definition.returns ++ definition.body.ids)

def StructField.ids (field : StructField) : List OwnId :=
  some field.id :: field.name.own :: field.type_.ids

def StructDefinition.ids (definition : StructDefinition) : List OwnId :=
  some definition.id :: definition.name.own ::
    (definition.fields.flatMap StructField.ids ++ definition.methods.flatMap FunctionDefinition.ids)

mutual

def Definition.ids : Definition → List OwnId
  | .spec node name definitions => some node.id :: name.own :: definitionListIds definitions
  | .struct_ definition => definition.ids
  | .enum definition =>
      some definition.id :: definition.name.own :: definition.variants.map Identifier.own
  | .constant definition => definition.ids
  | .function definition => definition.ids
  | .externalFunction definition =>
      some definition.id :: definition.name.own ::
        signatureIds definition.arguments definition.returns
  | .type_ definition => some definition.id :: definition.name.own :: definition.ty.ids
  | .module_ node name body =>
      some node.id :: name.own ::
        (match body with
          | some body => definitionListIds body
          | none => [])

def definitionListIds : List Definition → List OwnId
  | [] => []
  | head :: tail => head.ids ++ definitionListIds tail

end

def UseDirective.ids (directive : UseDirective) : List OwnId :=
  some directive.id :: (identifierIds directive.segments ++ identifierIds directive.importedTypes)

def SourceFile.ids (file : SourceFile) : List OwnId :=
  file.directives.flatMap UseDirective.ids ++ definitionListIds file.definitions

/-! ## Nodes among the ids

Every expression in a node is one of its nodes, and no two of them share their place.
-/

mutual

theorem Type_.nodes_count (own : OwnId) : (type : Type_) →
    (type.own :: type.nodes.map Expression.own).count own ≤ type.ids.count own
  | .array node elementType size => by
      have element := Type_.nodes_count own elementType
      have inSize := Expression.nodes_count own size
      rw [Type_.nodes, Type_.ids]
      simp only [List.map_append, List.count_cons, List.count_append, Type_.own] at element ⊢
      omega
  | .simple _ => by
      rw [Type_.nodes, Type_.ids]
      exact Nat.le_refl _
  | .generic node base parameters => by
      rw [Type_.nodes, Type_.ids]
      simp only [List.map_nil, List.count_cons, List.count_nil, Type_.own]
      omega
  | .function node none none => by
      rw [Type_.nodes, Type_.ids]
      exact Nat.le_refl _
  | .function node none (some returns) => by
      have inReturns := Type_.nodes_count own returns
      rw [Type_.nodes, Type_.ids]
      simp only [List.map_append, List.map_nil, List.count_cons, List.count_append, List.count_nil,
        Type_.own] at inReturns ⊢
      omega
  | .function node (some parameters) none => by
      have inParameters := typeListNodes_count own parameters
      rw [Type_.nodes, Type_.ids]
      simp only [List.map_append, List.map_nil, List.count_cons, List.count_append, List.count_nil,
        Type_.own]
      omega
  | .function node (some parameters) (some returns) => by
      have inParameters := typeListNodes_count own parameters
      have inReturns := Type_.nodes_count own returns
      rw [Type_.nodes, Type_.ids]
      simp only [List.map_append, List.count_cons, List.count_append,
        Type_.own] at inReturns ⊢
      omega
  | .qualifiedName node qualifier name => by
      rw [Type_.nodes, Type_.ids]
      simp only [List.map_nil, List.count_cons, List.count_nil, Type_.own]
      omega
  | .qualified node qualifierAlias name => by
      rw [Type_.nodes, Type_.ids]
      simp only [List.map_nil, List.count_cons, List.count_nil, Type_.own]
      omega
  | .custom identifier => by
      rw [Type_.nodes, Type_.ids]
      exact Nat.le_refl _

theorem typeListNodes_count (own : OwnId) : (types : List Type_) →
    ((typeListNodes types).map Expression.own).count own ≤ (typeListIds types).count own
  | [] => by
      rw [typeListNodes, typeListIds]
      exact Nat.le_refl _
  | head :: tail => by
      have inHead := Type_.nodes_count own head
      have inTail := typeListNodes_count own tail
      rw [typeListNodes, typeListIds]
      simp only [List.map_append, List.count_cons, List.count_append] at inHead ⊢
      omega

theorem Expression.nodes_count (own : OwnId) : (expression : Expression) →
    (expression.nodes.map Expression.own).count own ≤ expression.ids.count own
  | .arrayIndexAccess node array index => by
      have inArray := Expression.nodes_count own array
      have inIndex := Expression.nodes_count own index
      rw [Expression.nodes, Expression.ids]
      simp only [List.map_cons, List.map_append, List.count_cons, List.count_append,
        Expression.own, Expression.id]
      omega
  | .binary node left operator right => by
      have inLeft := Expression.nodes_count own left
      have inRight := Expression.nodes_count own right
      rw [Expression.nodes, Expression.ids]
      simp only [List.map_cons, List.map_append, List.count_cons, List.count_append,
        Expression.own, Expression.id]
      omega
  | .memberAccess node expression name => by
      have inside := Expression.nodes_count own expression
      rw [Expression.nodes, Expression.ids]
      simp only [List.map_cons, List.count_cons, List.count_append, Expression.own, Expression.id]
      omega
  | .typeMemberAccess node expression name => by
      have inside := Expression.nodes_count own expression
      rw [Expression.nodes, Expression.ids]
      simp only [List.map_cons, List.count_cons, List.count_append, Expression.own, Expression.id]
      omega
  | .functionCall node function typeParameters none => by
      have inFunction := Expression.nodes_count own function
      rw [Expression.nodes, Expression.ids]
      simp only [List.map_cons, List.map_append, List.map_nil, List.count_cons, List.count_append,
        List.count_nil, Expression.own, Expression.id]
      omega
  | .functionCall node function typeParameters (some arguments) => by
      have inFunction := Expression.nodes_count own function
      have inArguments := argumentNodes_count own arguments
      rw [Expression.nodes, Expression.ids]
      simp only [List.map_cons, List.map_append, List.count_cons, List.count_append,
        Expression.own, Expression.id]
      omega
  | .struct_ node name none => by
      rw [Expression.nodes, Expression.ids]
      simp only [List.map_cons, List.map_nil, List.count_cons, List.count_nil, Expression.own,
        Expression.id]
      omega
  | .struct_ node name (some fields) => by
      have inFields := fieldNodes_count own fields
      rw [Expression.nodes, Expression.ids]
      simp only [List.map_cons, List.count_cons, Expression.own, Expression.id]
      omega
  | .prefixUnary node expression operator => by
      have inside := Expression.nodes_count own expression
      rw [Expression.nodes, Expression.ids]
      simp only [List.map_cons, List.count_cons, Expression.own, Expression.id]
      omega
  | .parenthesized node expression => by
      have inside := Expression.nodes_count own expression
      rw [Expression.nodes, Expression.ids]
      simp only [List.map_cons, List.count_cons, Expression.own, Expression.id]
      omega
  | .literal value => by
      rw [Expression.nodes, Expression.ids]
      exact Literal.nodes_count own value
  | .identifier identifier => by
      rw [Expression.nodes, Expression.ids]
      exact Nat.le_refl _
  | .type_ type => by
      rw [Expression.nodes, Expression.ids]
      exact Type_.nodes_count own type
  | .uzumaki node => by
      rw [Expression.nodes, Expression.ids]
      exact Nat.le_refl _

theorem Literal.nodes_count (own : OwnId) : (value : Literal) →
    (some value.id :: value.nodes.map Expression.own).count own ≤ value.ids.count own
  | .array node none => by
      rw [Literal.nodes, Literal.ids]
      exact Nat.le_refl _
  | .array node (some elements) => by
      have inElements := expressionListNodes_count own elements
      rw [Literal.nodes, Literal.ids]
      simp only [List.count_cons, Literal.id]
      omega
  | .bool _ _ | .string _ _ | .number _ _ | .unit _ => by
      rw [Literal.nodes, Literal.ids]
      exact Nat.le_refl _

theorem expressionListNodes_count (own : OwnId) : (expressions : List Expression) →
    ((expressionListNodes expressions).map Expression.own).count own ≤
      (expressionListIds expressions).count own
  | [] => by
      rw [expressionListNodes, expressionListIds]
      exact Nat.le_refl _
  | head :: tail => by
      have inHead := Expression.nodes_count own head
      have inTail := expressionListNodes_count own tail
      rw [expressionListNodes, expressionListIds]
      simp only [List.map_append, List.count_append]
      omega

theorem argumentNodes_count (own : OwnId) :
    (arguments : List (Option Identifier × Expression)) →
      ((argumentNodes arguments).map Expression.own).count own ≤ (argumentIds arguments).count own
  | [] => by
      rw [argumentNodes, argumentIds]
      exact Nat.le_refl _
  | (name, head) :: tail => by
      have inHead := Expression.nodes_count own head
      have inTail := argumentNodes_count own tail
      rw [argumentNodes, argumentIds]
      simp only [List.map_append, List.count_append]
      omega

theorem fieldNodes_count (own : OwnId) : (fields : List (Identifier × Expression)) →
    ((fieldNodes fields).map Expression.own).count own ≤ (fieldIds fields).count own
  | [] => by
      rw [fieldNodes, fieldIds]
      exact Nat.le_refl _
  | (name, head) :: tail => by
      have inHead := Expression.nodes_count own head
      have inTail := fieldNodes_count own tail
      rw [fieldNodes, fieldIds]
      simp only [List.map_append, List.count_cons, List.count_append]
      omega

end

theorem optionNodes_count (own : OwnId) (expression : Option Expression) :
    ((optionNodes expression).map Expression.own).count own ≤ (optionIds expression).count own := by
  cases expression with
  | none => exact Nat.le_refl _
  | some expression => exact expression.nodes_count own

theorem ConstantDefinition.nodes_count (own : OwnId) (definition : ConstantDefinition) :
    (some definition.id :: definition.nodes.map Expression.own).count own ≤
      definition.ids.count own := by
  have inType := definition.ty.nodes_count own
  have inValue := Expression.nodes_count own (.literal definition.value)
  rw [Expression.ids] at inValue
  rw [ConstantDefinition.nodes, ConstantDefinition.ids]
  simp only [List.map_append, List.count_cons, List.count_append] at inType ⊢
  omega

end Inference.Ast

import Inference.Ast.Nodes

/-! # Traversal of the syntax tree

The expressions and the blocks that occur in a node at any depth, the node itself
first. The size of an array type is an expression of the type.
-/

namespace Inference.Ast

mutual

def Type_.nodes : Type_ → List Expression
  | .array _ elementType size => elementType.nodes ++ size.nodes
  | .function _ parameters returns =>
      (match parameters with
        | some parameters => typeListNodes parameters
        | none => []) ++
      (match returns with
        | some returns => returns.nodes
        | none => [])
  | .simple _ | .generic _ _ _ | .qualifiedName _ _ _ | .qualified _ _ _ | .custom _ => []

def typeListNodes : List Type_ → List Expression
  | [] => []
  | head :: tail => head.nodes ++ typeListNodes tail

def Expression.nodes : Expression → List Expression
  | .arrayIndexAccess node array index =>
      .arrayIndexAccess node array index :: (array.nodes ++ index.nodes)
  | .binary node left operator right =>
      .binary node left operator right :: (left.nodes ++ right.nodes)
  | .memberAccess node expression name =>
      .memberAccess node expression name :: expression.nodes
  | .typeMemberAccess node expression name =>
      .typeMemberAccess node expression name :: expression.nodes
  | .functionCall node function typeParameters arguments =>
      .functionCall node function typeParameters arguments :: (function.nodes ++
        (match arguments with
          | some arguments => argumentNodes arguments
          | none => []))
  | .struct_ node name fields =>
      .struct_ node name fields ::
        (match fields with
          | some fields => fieldNodes fields
          | none => [])
  | .prefixUnary node expression operator =>
      .prefixUnary node expression operator :: expression.nodes
  | .parenthesized node expression => .parenthesized node expression :: expression.nodes
  | .literal value => .literal value :: value.nodes
  | .identifier name => [.identifier name]
  | .type_ type => .type_ type :: type.nodes
  | .uzumaki node => [.uzumaki node]

/-- The expressions inside a literal. -/
def Literal.nodes : Literal → List Expression
  | .array _ (some elements) => expressionListNodes elements
  | .array _ none | .bool _ _ | .string _ _ | .number _ _ | .unit _ => []

def expressionListNodes : List Expression → List Expression
  | [] => []
  | head :: tail => head.nodes ++ expressionListNodes tail

def argumentNodes : List (Option Identifier × Expression) → List Expression
  | [] => []
  | (_, head) :: tail => head.nodes ++ argumentNodes tail

def fieldNodes : List (Identifier × Expression) → List Expression
  | [] => []
  | (_, head) :: tail => head.nodes ++ fieldNodes tail

end

theorem Expression.self_mem_nodes (expression : Expression) :
    expression ∈ expression.nodes := by
  cases expression with
  | functionCall _ _ _ arguments => cases arguments <;> simp [Expression.nodes]
  | struct_ _ _ fields => cases fields <;> simp [Expression.nodes]
  | _ => simp [Expression.nodes]

def optionTypeNodes : Option Type_ → List Expression
  | some type => type.nodes
  | none => []

def optionNodes : Option Expression → List Expression
  | some expression => expression.nodes
  | none => []

def ConstantDefinition.nodes (definition : ConstantDefinition) : List Expression :=
  definition.ty.nodes ++ (Expression.literal definition.value).nodes

mutual

def Statement.nodes : Statement → List Expression
  | .block block => block.nodes
  | .expression expression => expression.nodes
  | .assign _ left right => left.nodes ++ right.nodes
  | .return_ _ expression => expression.nodes
  | .loop _ condition body => optionNodes condition ++ body.nodes
  | .break_ _ => []
  | .if_ _ condition ifArm elseArm =>
      condition.nodes ++ ifArm.nodes ++
        (match elseArm with
          | some elseArm => elseArm.nodes
          | none => [])
  | .variableDefinition _ _ ty value => ty.nodes ++ optionNodes value
  | .typeDefinition _ _ ty => ty.nodes
  | .assert _ expression => expression.nodes
  | .constantDefinition definition => definition.nodes

def BlockType.nodes : BlockType → List Expression
  | .mk _ _ statements => statementListNodes statements

def statementListNodes : List Statement → List Expression
  | [] => []
  | head :: tail => head.nodes ++ statementListNodes tail

end

mutual

/-- The blocks in a statement at any depth. -/
def Statement.blocks : Statement → List BlockType
  | .block block => block.blocks
  | .loop _ _ body => body.blocks
  | .if_ _ _ ifArm elseArm =>
      ifArm.blocks ++
        (match elseArm with
          | some elseArm => elseArm.blocks
          | none => [])
  | .expression _ | .assign _ _ _ | .return_ _ _ | .break_ _ => []
  | .variableDefinition _ _ _ _ | .typeDefinition _ _ _ | .assert _ _ => []
  | .constantDefinition _ => []

def BlockType.blocks : BlockType → List BlockType
  | .mk kind node statements => .mk kind node statements :: statementListBlocks statements

def statementListBlocks : List Statement → List BlockType
  | [] => []
  | head :: tail => head.blocks ++ statementListBlocks tail

end

def ArgumentType.nodes : ArgumentType → List Expression
  | .selfReference _ => []
  | .ignoreArgument _ ty | .argument _ _ ty => ty.nodes
  | .type_ type => type.nodes

def signatureNodes (arguments : Option (List ArgumentType)) (returns : Option Type_) :
    List Expression :=
  (arguments.getD []).flatMap ArgumentType.nodes ++ optionTypeNodes returns

def FunctionDefinition.nodes (definition : FunctionDefinition) : List Expression :=
  signatureNodes definition.arguments definition.returns ++ definition.body.nodes

def StructDefinition.nodes (definition : StructDefinition) : List Expression :=
  definition.fields.flatMap (·.type_.nodes) ++ definition.methods.flatMap (·.nodes)

mutual

def Definition.nodes : Definition → List Expression
  | .spec _ _ definitions => definitionListNodes definitions
  | .struct_ definition => definition.nodes
  | .enum _ => []
  | .constant definition => definition.nodes
  | .function definition => definition.nodes
  | .externalFunction definition => signatureNodes definition.arguments definition.returns
  | .type_ definition => definition.ty.nodes
  | .module_ _ _ body =>
      match body with
      | some body => definitionListNodes body
      | none => []

def definitionListNodes : List Definition → List Expression
  | [] => []
  | head :: tail => head.nodes ++ definitionListNodes tail

end

end Inference.Ast

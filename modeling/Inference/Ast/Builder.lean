import Inference.Ast.Building

/-! # The builder

The functions that build the nodes of the syntax tree from a concrete tree. They call each other on
the children of a node. How deep the calls may nest is the depth of the stack, behind which the
program is stopped.
-/

namespace Inference.Ast

open Inference.Foundation

/-- The builders for the children of a node. -/
structure Builders where
  expression : (parentId : Nat) → SyntaxNode → Text → Building Expression
  type_ : (parentId : Nat) → SyntaxNode → Text → Building Type_
  statement : (parentId : Nat) → SyntaxNode → Text → Building Statement
  definition : (parentId : Nat) → SyntaxNode → Text → Building Definition

namespace Builder

open Collecting

variable (builders : Builders)

/-! ## Names and literals -/

def buildIdentifier (parentId : Nat) (node : SyntaxNode) (code : Text) : Building Identifier :=
  buildNode (fun name => .expression (.identifier name)) parentId node code fun own => do
    let text ← expect (node.utf8Text code)
    return { own with name := String.ofList text }

/-- The name of what could not be built. -/
def errorIdentifier (location : Location) : Building Identifier := do
  let id ← getNodeId
  return { id, location, name := "<error>" }

def buildTypeParameters (own : Node) (node : SyntaxNode) (code : Text) :
    Building (Option (List Identifier)) := do
  let typeParameters ← buildOptional node "type_parameters" fun list =>
    buildFields list "type" (buildIdentifier own.id · code)
  return typeParameters.bind nonEmpty

def storeLiteral (literal : Literal) : AstNode :=
  .expression (.literal literal)

def buildArrayLiteral (parentId : Nat) (node : SyntaxNode) (code : Text) : Building Literal :=
  buildNode storeLiteral parentId node code fun own => do
    let elements ← node.namedChildren.mapM' (builders.expression own.id · code)
    return .array own (nonEmpty elements)

/-- The text of a node, empty where its bytes are no text. -/
def textOrEmpty (node : SyntaxNode) (code : Text) : Building String :=
  if node.startByte ≤ node.endByte ∧ node.endByte ≤ ByteText.size code then
    return String.ofList ((node.utf8Text code).getD [])
  else abort

def buildBoolLiteral (parentId : Nat) (node : SyntaxNode) (code : Text) : Building Literal :=
  buildNode storeLiteral parentId node code fun own => do
    let text ← textOrEmpty node code
    if text = "true" then return .bool own true
    else if text = "false" then return .bool own false
    else
      reportAt s!"Unexpected boolean literal value '{text}'" node
      return .bool own false

def buildStringLiteral (parentId : Nat) (node : SyntaxNode) (code : Text) : Building Literal :=
  buildNode storeLiteral parentId node code fun own => do
    let text ← expect (node.utf8Text code)
    return .string own (String.ofList text)

def buildNumberLiteral (parentId : Nat) (node : SyntaxNode) (code : Text) : Building Literal :=
  buildNode storeLiteral parentId node code fun own => do
    let text ← expect (node.utf8Text code)
    return .number own (String.ofList text)

def buildUnitLiteral (parentId : Nat) (node : SyntaxNode) (code : Text) : Building Literal :=
  buildNode storeLiteral parentId node code fun own => return .unit own

/-- A unit literal that is not stored. -/
def implicitUnit (node : SyntaxNode) : Building Literal := do
  let id ← getNodeId
  return .unit { id, location := getLocation node }

def buildLiteral (parentId : Nat) (node : SyntaxNode) (code : Text) : Building Literal :=
  match node.kind with
  | "array_literal" => buildArrayLiteral builders parentId node code
  | "bool_literal" => buildBoolLiteral parentId node code
  | "string_literal" => buildStringLiteral parentId node code
  | "number_literal" => buildNumberLiteral parentId node code
  | "unit_literal" => buildUnitLiteral parentId node code
  | kind => do
      reportAt s!"Unexpected literal type '{kind}'" node
      implicitUnit node

/-! ## Types -/

def storeType (type : Type_) : AstNode :=
  .expression (.type_ type)

def buildTypeArray (parentId : Nat) (node : SyntaxNode) (code : Text) : Building Type_ :=
  buildNode storeType parentId node code fun own => do
    let elementType ← buildField node "type" (builders.type_ own.id · code)
    let size ← buildField node "length" (builders.expression own.id · code)
    return .array own elementType size

def buildGenericType (parentId : Nat) (node : SyntaxNode) (code : Text) : Building Type_ :=
  buildNode storeType parentId node code fun own => do
    let base ← buildField node "base_type" (buildIdentifier own.id · code)
    let args ← expect (node.child 1)
    let parameters ← buildFields args "type" (buildIdentifier own.id · code)
    return .generic own base parameters

def buildFunctionType (parentId : Nat) (node : SyntaxNode) (code : Text) : Building Type_ :=
  buildNode storeType parentId node code fun own => do
    let arguments ← buildFields node "argument" (builders.type_ own.id · code)
    let returns ← buildOptional node "returns" (builders.type_ own.id · code)
    return .function own (nonEmpty arguments) returns

def buildTypeQualifiedName (parentId : Nat) (node : SyntaxNode) (code : Text) : Building Type_ :=
  buildNode storeType parentId node code fun own => do
    let qualifierAlias ← buildField node "alias" (buildIdentifier own.id · code)
    let name ← buildField node "name" (buildIdentifier own.id · code)
    return .qualified own qualifierAlias name

def buildQualifiedName (parentId : Nat) (node : SyntaxNode) (code : Text) : Building Type_ :=
  buildNode storeType parentId node code fun own => do
    let qualifier ← buildField node "qualifier" (buildIdentifier own.id · code)
    let name ← buildField node "name" (buildIdentifier own.id · code)
    return .qualifiedName own qualifier name

def buildType (parentId : Nat) (node : SyntaxNode) (code : Text) : Building Type_ :=
  match node.kind with
  | "type_unit" => return .simple .unit
  | "type_bool" => return .simple .bool
  | "type_i8" => return .simple .i8
  | "type_i16" => return .simple .i16
  | "type_i32" => return .simple .i32
  | "type_i64" => return .simple .i64
  | "type_u8" => return .simple .u8
  | "type_u16" => return .simple .u16
  | "type_u32" => return .simple .u32
  | "type_u64" => return .simple .u64
  | "type_array" => buildTypeArray builders parentId node code
  | "generic_type" | "generic_name" => buildGenericType parentId node code
  | "type_qualified_name" => buildTypeQualifiedName parentId node code
  | "qualified_name" => buildQualifiedName parentId node code
  | "type_fn" => buildFunctionType builders parentId node code
  | "identifier" => do return .custom (← buildIdentifier parentId node code)
  | "ERROR" => do
      reportAt "Syntax error in type" node
      return .simple .unit
  | kind => do
      reportAt s!"Unexpected type '{kind}'" node
      return .simple .unit

/-! ## Expressions -/

def buildArrayIndexAccessExpression (parentId : Nat) (node : SyntaxNode) (code : Text) :
    Building Expression :=
  buildNode .expression parentId node code fun own => do
    let array ← builders.expression own.id (← expect (node.namedChild 0)) code
    let index ← builders.expression own.id (← expect (node.namedChild 1)) code
    return .arrayIndexAccess own array index

def buildMemberAccessExpression (parentId : Nat) (node : SyntaxNode) (code : Text) :
    Building Expression :=
  buildNode .expression parentId node code fun own => do
    let expression ← buildField node "expression" (builders.expression own.id · code)
    let name ← buildField node "name" (buildIdentifier own.id · code)
    return .memberAccess own expression name

def buildTypeMemberAccessExpression (parentId : Nat) (node : SyntaxNode) (code : Text) :
    Building Expression :=
  buildNode .expression parentId node code fun own => do
    let expression ← buildField node "expression" (builders.expression own.id · code)
    let name ← buildField node "name" (buildIdentifier own.id · code)
    return .typeMemberAccess own expression name

/-- The name that waits for a value after an expression was built in the place of a name. -/
def pendingAfter (expression : Expression) (pendingName : Option Identifier) : Option Identifier :=
  match expression with
  | .identifier name => some name
  | _ => pendingName

/-- The loop over the parts of a list of names and values. A name waits for the next value, and
`take` is what a value does with the name that waits or with none. -/
def buildParts {name : Type} (nameField valueField : String)
    (take : Option Identifier → Option name) (id : Nat) (code : Text) :
    (children : List SyntaxNode) → (pendingName : Option Identifier) →
      (parts : List (name × Expression)) → Building (List (name × Expression))
  | [], _, parts => return parts
  | child :: rest, pendingName, parts =>
      if child.field = some nameField then do
        let expression ← builders.expression id child code
        buildParts nameField valueField take id code rest (pendingAfter expression pendingName) parts
      else if child.field = some valueField then do
        let expression ← builders.expression id child code
        let name ← expect (take pendingName)
        buildParts nameField valueField take id code rest none (parts ++ [(name, expression)])
      else buildParts nameField valueField take id code rest pendingName parts

def buildFunctionCallExpression (parentId : Nat) (node : SyntaxNode) (code : Text) :
    Building Expression :=
  buildNode .expression parentId node code fun own => do
    let function ← buildField node "function" (builders.expression own.id · code)
    let arguments ←
      buildParts builders "argument_name" "argument" some own.id code node.children none []
    let typeParameters ← buildTypeParameters own node code
    return .functionCall own function typeParameters (nonEmpty arguments)

/-- A value without a name is a panic. -/
def buildStructExpression (parentId : Nat) (node : SyntaxNode) (code : Text) :
    Building Expression :=
  buildNode .expression parentId node code fun own => do
    let name ← buildField node "name" (buildIdentifier own.id · code)
    let fields ← buildParts builders "field" "value" id own.id code node.children none []
    return .struct_ own name (nonEmpty fields)

def unaryOperator : String → Option UnaryOperatorKind
  | "unary_not" => some .not
  | "unary_minus" => some .neg
  | "unary_bitnot" => some .bitNot
  | _ => none

def buildPrefixUnaryExpression (parentId : Nat) (node : SyntaxNode) (code : Text) :
    Building Expression :=
  buildNode .expression parentId node code fun own => do
    let expression ← builders.expression own.id (← expect (node.child 1)) code
    let operatorNode ← expect (node.childByFieldName "operator")
    let operator ← expect (unaryOperator operatorNode.kind)
    return .prefixUnary own expression operator

def buildParenthesizedExpression (parentId : Nat) (node : SyntaxNode) (code : Text) :
    Building Expression :=
  buildNode .expression parentId node code fun own => do
    let expression ← builders.expression own.id (← expect (node.child 1)) code
    return .parenthesized own expression

def binaryOperator : String → Option OperatorKind
  | "**" => some .pow
  | "&&" => some .and
  | "||" => some .or
  | "+" => some .add
  | "-" => some .sub
  | "*" => some .mul
  | "/" => some .div
  | "%" => some .mod
  | "<" => some .lt
  | "<=" => some .le
  | "==" => some .eq
  | "!=" => some .ne
  | ">=" => some .ge
  | ">" => some .gt
  | "<<" => some .shl
  | ">>" => some .shr
  | "^" => some .bitXor
  | "&" => some .bitAnd
  | "|" => some .bitOr
  | _ => none

/-- The operator of a node; addition where there is none of the name. -/
def buildBinaryOperator (node operatorNode : SyntaxNode) : Building OperatorKind :=
  match binaryOperator operatorNode.kind with
  | some operator => return operator
  | none => do
      reportAt s!"Unexpected operator '{operatorNode.kind}'" node
      return .add

def buildBinaryExpression (parentId : Nat) (node : SyntaxNode) (code : Text) :
    Building Expression :=
  buildNode .expression parentId node code fun own => do
    let left ← buildField node "left" (builders.expression own.id · code)
    let operator ← buildField node "operator" (buildBinaryOperator node)
    let right ← buildField node "right" (builders.expression own.id · code)
    return .binary own left operator right

def buildUzumakiExpression (parentId : Nat) (node : SyntaxNode) (code : Text) :
    Building Expression :=
  buildNode .expression parentId node code fun own => return .uzumaki own

def buildExpression (parentId : Nat) (node : SyntaxNode) (code : Text) : Building Expression :=
  match node.kind with
  | "array_index_access_expression" => buildArrayIndexAccessExpression builders parentId node code
  | "generic_name" | "qualified_name" | "type" => do
      return .type_ (← buildType builders parentId node code)
  | "member_access_expression" => buildMemberAccessExpression builders parentId node code
  | "type_member_access_expression" => buildTypeMemberAccessExpression builders parentId node code
  | "function_call_expression" => buildFunctionCallExpression builders parentId node code
  | "struct_expression" => buildStructExpression builders parentId node code
  | "prefix_unary_expression" => buildPrefixUnaryExpression builders parentId node code
  | "parenthesized_expression" => buildParenthesizedExpression builders parentId node code
  | "binary_expression" => buildBinaryExpression builders parentId node code
  | "bool_literal" | "string_literal" | "number_literal" | "array_literal" | "unit_literal" => do
      return .literal (← buildLiteral builders parentId node code)
  | "uzumaki_keyword" => buildUzumakiExpression parentId node code
  | "identifier" => do return .identifier (← buildIdentifier parentId node code)
  | "ERROR" => do
      reportAt "Syntax error in expression" node
      return .identifier (← errorIdentifier (getLocation node))
  | kind => do
      reportAt s!"Unexpected expression node kind '{kind}'" node
      return .identifier (← errorIdentifier (getLocation node))

/-! ## Statements -/

def createErrorStatement (parentId : Nat) (node : SyntaxNode) (code : Text) : Building Statement := do
  let id ← getNodeId
  let name : Identifier := { id, location := getLocation node, name := "<error>" }
  addNode (.expression (.identifier name)) parentId ⟨code, node⟩
  return .expression (.identifier name)

def buildBlockStatements (parentId : Nat) (node : SyntaxNode) (code : Text) :
    Building (List Statement) := do
  let statements ← node.children.mapM' fun child => do
    collectErrors child code
    if child.isNamed then return some (← builders.statement parentId child code)
    else return none
  return statements.reduceOption

def storeBlock (block : BlockType) : AstNode :=
  .statement (.block block)

/-- A block that is not stored, for what is missing. -/
def emptyBlock (location : Location) : Building BlockType := do
  let id ← getNodeId
  return .mk .block { id, location } []

def createErrorBlock (parentId : Nat) (node : SyntaxNode) (code : Text) : Building BlockType := do
  let block ← emptyBlock (getLocation node)
  addNode (storeBlock block) parentId ⟨code, node⟩
  return block

/-- A block behind a keyword, whose statements are those of its body. -/
def buildKeywordBlock (kind : BlockKind) (own : Node) (parentId : Nat) (node : SyntaxNode)
    (code : Text) : Building BlockType := do
  let statements ← buildOptional node "body" (buildBlockStatements builders own.id · code)
  let block := .mk kind own (statements.getD [])
  addNode (storeBlock block) parentId ⟨code, node⟩
  return block

def buildBlock (parentId : Nat) (node : SyntaxNode) (code : Text) : Building BlockType := do
  collectErrors node code
  let id ← getNodeId
  let own : Node := { id, location := getLocation node }
  match node.kind with
  | "assume_block" => buildKeywordBlock builders .assume_ own parentId node code
  | "forall_block" => buildKeywordBlock builders .forall_ own parentId node code
  | "exists_block" => buildKeywordBlock builders .exists_ own parentId node code
  | "unique_block" => buildKeywordBlock builders .unique own parentId node code
  | "block" =>
      let statements ← buildBlockStatements builders id node code
      addNode (storeBlock (.mk .block own statements)) parentId ⟨code, node⟩
      return .mk .block own statements
  | "ERROR" =>
      reportAt "Syntax error in block" node
      createErrorBlock parentId node code
  | kind =>
      reportAt s!"Unexpected block type '{kind}'" node
      createErrorBlock parentId node code

def buildReturnStatement (parentId : Nat) (node : SyntaxNode) (code : Text) : Building Statement :=
  buildNode .statement parentId node code fun own => do
    match node.childByFieldName "expression" with
    | some expression => return .return_ own (← builders.expression own.id expression code)
    | none => return .return_ own (.literal (← implicitUnit node))

/-- The body of a loop or an arm of a conditional. -/
def buildBody (what : String) (parentId : Nat) (node : SyntaxNode) (field : String) (code : Text) :
    Building BlockType :=
  match node.childByFieldName field with
  | some body => buildBlock builders parentId body code
  | none => do
      reportAt ("Missing " ++ what) node
      emptyBlock (getLocation node)

def buildLoopStatement (parentId : Nat) (node : SyntaxNode) (code : Text) : Building Statement :=
  buildNode .statement parentId node code fun own => do
    let condition ← buildOptional node "condition" (builders.expression own.id · code)
    let body ← buildBody builders "loop body" own.id node "body" code
    return .loop own condition body

def buildCondition (parentId : Nat) (node : SyntaxNode) (code : Text) : Building Expression :=
  match node.childByFieldName "condition" with
  | some condition => builders.expression parentId condition code
  | none => do
      reportAt "Missing if condition" node
      return .identifier (← errorIdentifier (getLocation node))

def buildIfStatement (parentId : Nat) (node : SyntaxNode) (code : Text) : Building Statement :=
  buildNode .statement parentId node code fun own => do
    let condition ← buildCondition builders own.id node code
    let ifArm ← buildBody builders "if body" own.id node "if_arm" code
    let elseArm ← buildOptional node "else_arm" (buildBlock builders own.id · code)
    return .if_ own condition ifArm elseArm

def buildVariableDefinitionStatement (parentId : Nat) (node : SyntaxNode) (code : Text) :
    Building Statement :=
  buildNode .statement parentId node code fun own => do
    let ty ← buildField node "type" (buildType builders own.id · code)
    let name ← buildField node "name" (buildIdentifier own.id · code)
    let value ← buildOptional node "value" (builders.expression own.id · code)
    return .variableDefinition own name ty value

def buildTypeDefinitionStatement (parentId : Nat) (node : SyntaxNode) (code : Text) :
    Building Statement :=
  buildNode .statement parentId node code fun own => do
    let ty ← buildField node "type" (buildType builders own.id · code)
    let name ← buildField node "name" (buildIdentifier own.id · code)
    return .typeDefinition own name ty

def buildAssignStatement (parentId : Nat) (node : SyntaxNode) (code : Text) : Building Statement :=
  buildNode .statement parentId node code fun own => do
    let left ← buildField node "left" (builders.expression own.id · code)
    let right ← buildField node "right" (builders.expression own.id · code)
    return .assign own left right

def buildAssertStatement (parentId : Nat) (node : SyntaxNode) (code : Text) : Building Statement :=
  buildNode .statement parentId node code fun own => do
    let expression ← builders.expression own.id (← expect (node.child 1)) code
    return .assert own expression

def buildBreakStatement (parentId : Nat) (node : SyntaxNode) (code : Text) : Building Statement :=
  buildNode .statement parentId node code fun own => return .break_ own

def buildConstantDefinition (parentId : Nat) (node : SyntaxNode) (code : Text) :
    Building ConstantDefinition :=
  buildNode (fun definition => .definition (.constant definition)) parentId node code fun own => do
    let ty ← buildField node "type" (buildType builders own.id · code)
    let name ← buildField node "name" (buildIdentifier own.id · code)
    let value ← buildField node "value" (buildLiteral builders own.id · code)
    return { own with name, ty, value }

def buildStatement (parentId : Nat) (node : SyntaxNode) (code : Text) : Building Statement :=
  match node.kind with
  | "assign_statement" => buildAssignStatement builders parentId node code
  | "block" | "forall_block" | "assume_block" | "exists_block" | "unique_block" => do
      return .block (← buildBlock builders parentId node code)
  | "expression_statement" =>
      match node.child 0 with
      | some expression => do return .expression (← builders.expression parentId expression code)
      | none => createErrorStatement parentId node code
  | "return_statement" => buildReturnStatement builders parentId node code
  | "loop_statement" => buildLoopStatement builders parentId node code
  | "if_statement" => buildIfStatement builders parentId node code
  | "variable_definition_statement" => buildVariableDefinitionStatement builders parentId node code
  | "type_definition_statement" => buildTypeDefinitionStatement builders parentId node code
  | "assert_statement" => buildAssertStatement builders parentId node code
  | "break_statement" => buildBreakStatement parentId node code
  | "constant_definition" => do
      return .constantDefinition (← buildConstantDefinition builders parentId node code)
  | "ERROR" => do
      reportAt "Syntax error in statement" node
      createErrorStatement parentId node code
  | kind => do
      reportAt s!"Unexpected statement type '{kind}'" node
      createErrorStatement parentId node code

/-! ## Definitions -/

def storeDefinition (definition : Definition) : AstNode :=
  .definition definition

def getVisibility (node : SyntaxNode) : Visibility :=
  match node.childByFieldName "visibility" with
  | some _ => .public_
  | none => .private_

def buildSelfReference (parentId : Nat) (node : SyntaxNode) (code : Text) : Building ArgumentType :=
  buildNode .argumentType parentId node code fun own => return .selfReference own

def buildIgnoreArgument (parentId : Nat) (node : SyntaxNode) (code : Text) :
    Building ArgumentType :=
  buildNode .argumentType parentId node code fun own => do
    let ty ← buildField node "type" (buildType builders own.id · code)
    return .ignoreArgument own ty

def buildArgument (parentId : Nat) (node : SyntaxNode) (code : Text) : Building ArgumentType :=
  buildNode .argumentType parentId node code fun own => do
    let nameNode ← expect (node.childByFieldName "name")
    let ty ← buildField node "type" (buildType builders own.id · code)
    let name ← buildIdentifier own.id nameNode code
    return .argument own name ty

def buildArgumentType (parentId : Nat) (node : SyntaxNode) (code : Text) :
    Building ArgumentType := do
  collectErrors node code
  match node.kind with
  | "argument_declaration" => buildArgument builders parentId node code
  | "self_reference" => buildSelfReference parentId node code
  | "ignore_argument" => buildIgnoreArgument builders parentId node code
  | _ => return .type_ (← buildType builders parentId node code)

/-- The placeholder for a function that could not be built. It is not stored. -/
def errorFunction (own : Node) : Building FunctionDefinition := do
  let name ← errorIdentifier own.location
  let body ← emptyBlock own.location
  return { own with name, body }

/-- Without a name nothing is stored for the function. -/
def buildFunctionDefinition (parentId : Nat) (node : SyntaxNode) (code : Text) :
    Building FunctionDefinition := do
  collectErrors node code
  let id ← getNodeId
  let own : Node := { id, location := getLocation node }
  let arguments ← buildOptional node "argument_list" fun list =>
    buildFields list "argument" (buildArgumentType builders id · code)
  let typeParameters ← buildTypeParameters own node code
  let returns ← buildOptional node "returns" (buildType builders id · code)
  match node.childByFieldName "name" with
  | none =>
      reportAt "Missing function name" node
      errorFunction own
  | some nameNode =>
      let name ← buildIdentifier id nameNode code
      let body ← buildBody builders "function body" id node "body" code
      let definition : FunctionDefinition := {
        own with
        visibility := getVisibility node
        name, typeParameters, returns, body
        arguments := arguments.bind nonEmpty }
      addNode (.definition (.function definition)) parentId ⟨code, node⟩
      return definition

def buildExternalFunctionDefinition (parentId : Nat) (node : SyntaxNode) (code : Text) :
    Building Definition :=
  buildNode storeDefinition parentId node code fun own => do
    let name ← buildField node "name" (buildIdentifier own.id · code)
    let arguments ← buildFields node "argument" (buildArgumentType builders own.id · code)
    let returns ← buildOptional node "returns" (buildType builders own.id · code)
    return .externalFunction { own with name, arguments := nonEmpty arguments, returns }

def buildTypeDefinition (parentId : Nat) (node : SyntaxNode) (code : Text) : Building Definition :=
  buildNode storeDefinition parentId node code fun own => do
    let ty ← buildField node "type" (buildType builders own.id · code)
    let name ← buildField node "name" (buildIdentifier own.id · code)
    return .type_ { own with name, ty }

def buildStructField (parentId : Nat) (node : SyntaxNode) (code : Text) : Building StructField :=
  buildNode .misc parentId node code fun own => do
    let type_ ← buildField node "type" (buildType builders own.id · code)
    let name ← buildField node "name" (buildIdentifier own.id · code)
    return { own with name, type_ }

def buildStructDefinition (parentId : Nat) (node : SyntaxNode) (code : Text) :
    Building Definition :=
  buildNode storeDefinition parentId node code fun own => do
    let name ← buildField node "name" (buildIdentifier own.id · code)
    let fields ← buildFields node "field" (buildStructField builders own.id · code)
    let methods ← ((node.childrenByFieldName "method").filter (·.kind = "function_definition")).mapM'
      (buildFunctionDefinition builders own.id · code)
    return .struct_ { own with visibility := getVisibility node, name, fields, methods }

def buildEnumDefinition (parentId : Nat) (node : SyntaxNode) (code : Text) : Building Definition :=
  buildNode storeDefinition parentId node code fun own => do
    let name ← buildField node "name" (buildIdentifier own.id · code)
    let variants ← buildFields node "variant" (buildIdentifier own.id · code)
    return .enum { own with visibility := getVisibility node, name, variants }

/-- The first child with a name of its own is the name of the specification. -/
def buildSpecDefinition (parentId : Nat) (node : SyntaxNode) (code : Text) : Building Definition :=
  buildNode storeDefinition parentId node code fun own => do
    let name ← buildField node "name" (buildIdentifier own.id · code)
    let definitions ← (node.namedChildren.drop 1).mapM' (builders.definition own.id · code)
    return .spec own name definitions

def createErrorDefinition (node : SyntaxNode) : Building Definition := do
  let id ← getNodeId
  return .function (← errorFunction { id, location := getLocation node })

def buildDefinition (parentId : Nat) (node : SyntaxNode) (code : Text) : Building Definition :=
  match node.kind with
  | "spec_definition" => buildSpecDefinition builders parentId node code
  | "struct_definition" => buildStructDefinition builders parentId node code
  | "enum_definition" => buildEnumDefinition parentId node code
  | "constant_definition" => do
      return .constant (← buildConstantDefinition builders parentId node code)
  | "function_definition" => do
      return .function (← buildFunctionDefinition builders parentId node code)
  | "external_function_definition" => buildExternalFunctionDefinition builders parentId node code
  | "type_definition_statement" => buildTypeDefinition builders parentId node code
  | "ERROR" => do
      report s!"Syntax error at {(getLocation node).toString}: unexpected or malformed token"
      createErrorDefinition node
  | kind => do
      reportAt s!"Unexpected definition kind '{kind}'" node
      createErrorDefinition node

/-- The segments of a path. A directive that names a file has none, and the literal is stored. -/
def buildSegments (parentId : Nat) (node : SyntaxNode) (code : Text) :
    Building (Option (List Identifier)) :=
  match node.childByFieldName "from_literal" with
  | some fromLiteral => do
      let _ ← buildStringLiteral parentId fromLiteral code
      return none
  | none => do
      let segments ← buildFields node "segment" (buildIdentifier parentId · code)
      return nonEmpty segments

def buildUseDirective (parentId : Nat) (node : SyntaxNode) (code : Text) : Building UseDirective :=
  buildNode .directive parentId node code fun own => do
    let segments ← buildSegments own.id node code
    let importedTypes ← buildFields node "imported_type" (buildIdentifier own.id · code)
    return { own with segments, importedTypes := nonEmpty importedTypes }

/-! ## Source files -/

/-- The builders on a stack of a depth. -/
def buildersWithin : (depth : Nat) → Builders
  | 0 => ⟨fun _ _ _ => abort, fun _ _ _ => abort, fun _ _ _ => abort, fun _ _ _ => abort⟩
  | depth + 1 => {
      expression := buildExpression (buildersWithin depth)
      type_ := buildType (buildersWithin depth)
      statement := buildStatement (buildersWithin depth)
      definition := buildDefinition (buildersWithin depth) }

/-- What a child of the root adds to the file. -/
def buildItem (parentId : Nat) (code : Text) (file : SourceFile) (child : SyntaxNode) :
    Building SourceFile := do
  if child.kind = "use_directive" then
    let directive ← buildUseDirective parentId child code
    return { file with directives := file.directives ++ [directive] }
  else
    let definition ← builders.definition parentId child code
    return { file with definitions := file.definitions ++ [definition] }

def buildItems (parentId : Nat) (code : Text) :
    (children : List SyntaxNode) → SourceFile → Building SourceFile
  | [], file => return file
  | child :: rest, file => do
      buildItems parentId code rest (← buildItem builders parentId code file child)

def buildSourceFile (root : SyntaxNode) (code : Text) : Building Unit := do
  let id ← getNodeId
  let file ← buildItems builders id code root.children { definitions := [] }
  addNode (.sourceFile { id, location := getLocation root, source := code, file }) noId ⟨code, root⟩

/-- How the builder ends that is given trees and their texts: with the last state, or with the
errors of the first file that has any. Nothing is returned for a panic. -/
def buildAst (depth : Nat) : (sources : List (SyntaxNode × Text)) → BuilderState →
    Option (Except (List String) BuilderState)
  | [], state => some (.ok state)
  | (root, code) :: rest, state =>
      match (buildSourceFile (buildersWithin depth) root code state).outcome with
      | none => none
      | some ((), next, []) => buildAst depth rest next
      | some ((), _, errors) => some (.error errors)

end Builder

end Inference.Ast

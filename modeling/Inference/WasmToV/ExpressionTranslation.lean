import Inference.WasmToV.OperatorTranslation

/-! # Translation of expressions

The linear operator sequence of a body is rebuilt into a tree of blocks and
conditions, which is then printed with one line per operator.
-/

namespace Inference.WasmToV

/-! ## Expression trees -/

mutual

inductive ExpressionPart where
  | operator (operator : Operator)
  | block (label : Operator) (parts : Expression)
  | condition (label : Operator) (thenArm elseArm : Expression)

inductive Expression where
  | mk (parts : List ExpressionPart) (localNameMap : Option NameMap)

end

namespace Expression

def parts : Expression → List ExpressionPart
  | .mk parts _ => parts

def localNameMap : Expression → Option NameMap
  | .mk _ localNameMap => localNameMap

end Expression

/-- Whether a part is the operator that ends an expression. -/
def ExpressionPart.isEnd : ExpressionPart → Bool
  | .operator .end_ => true
  | _ => false

/-! ## Printing -/

def listExt : String := " ::\n"

/-- The offset string in front of every line. -/
def offsetText (tabsCount : Nat) : String :=
  String.join (List.replicate tabsCount "  ")

mutual

def Expression.printWithOffset : Expression → Nat → Outcome String
  | .mk parts localNameMap, tabsCount => do
      let res ← printParts parts localNameMap tabsCount
      return res ++ offsetText tabsCount ++ "nil"

/-- The loop over the parts, with the text that each of them appends. -/
def printParts : List ExpressionPart → Option NameMap → Nat → Outcome String
  | [], _, _ => .ok ""
  | part :: rest, localNameMap, tabsCount => do
      let text ← part.print localNameMap tabsCount
      let restText ← printParts rest localNameMap tabsCount
      return text ++ restText

def ExpressionPart.print : ExpressionPart → Option NameMap → Nat → Outcome String
  | .operator op, localNameMap, tabsCount =>
      match op with
      | .else_ | .end_ => .ok ""
      | op => do
          let text ← translateBasicOperator op localNameMap
          return offsetText tabsCount ++ text ++ listExt
  | .block label blockParts, localNameMap, tabsCount => do
      let labelText ← translateBasicOperator label localNameMap
      let partsText ← blockParts.printWithOffset (tabsCount + 1)
      return offsetText tabsCount ++ labelText ++ " (\n" ++ partsText ++
        ") " ++ "::\n"
  | .condition label thenArm elseArm, localNameMap, tabsCount => do
      let labelText ← translateBasicOperator label localNameMap
      let thenText ← thenArm.printWithOffset (tabsCount + 1)
      let elseText ← elseArm.printWithOffset (tabsCount + 1)
      return offsetText tabsCount ++ labelText ++ " (\n" ++ thenText ++
        ") (\n" ++ elseText ++ ") " ++ "::\n"

end

/-- `to_string` of an expression. An error of the printer becomes a text here. -/
def Expression.toText (expression : Expression) : Outcome String :=
  match expression.printWithOffset 2 with
  | .ok text => .ok text
  | .error (.error _) => .ok "Error rendering expression"
  | .error .panicked => Outcome.panic

/-! ## Rebuilding the tree -/

/-- What the builder does with an operator. -/
inductive OperatorRole where
  | opensBlock
  | opensCondition
  | closes
  | ordinary
  deriving DecidableEq, Repr

def Operator.role : Operator → OperatorRole
  | .block _ | .loop _ | .forall_ _ | .exists_ _ | .assume _ | .unique _ => .opensBlock
  | .if_ _ => .opensCondition
  | .else_ | .end_ => .closes
  | _ => .ordinary

/-- The else arm is empty when the then arm ended in an end. The last part of
the then arm is unwrapped first. -/
def buildElseArm
    (build : List OperatorItem → Outcome (List ExpressionPart × List OperatorItem))
    (thenArm : List ExpressionPart) (iterator : List OperatorItem) :
    Outcome (List ExpressionPart × List OperatorItem) :=
  match thenArm.getLast? with
  | none => Outcome.panic
  | some lastPart => if lastPart.isEnd then .ok ([], iterator) else build iterator

/-- The parts built from an operator iterator, and what the iterator still
holds. The fuel bounds the number of calls; `translateExpression` has enough. -/
def buildParts : Nat → List OperatorItem → Outcome (List ExpressionPart × List OperatorItem)
  | 0, _ => Outcome.panic
  | _ + 1, [] => .ok ([], [])
  | fuel + 1, item :: iterator => do
      let nextOperator ← Outcome.unwrap item
      match nextOperator.role with
      | .opensBlock =>
          let (blockOperations, iterator) ← buildParts fuel iterator
          let (parts, iterator) ← buildParts fuel iterator
          return (.block nextOperator (.mk blockOperations none) :: parts, iterator)
      | .opensCondition =>
          let (thenArm, iterator) ← buildParts fuel iterator
          let (elseArm, iterator) ← buildElseArm (buildParts fuel) thenArm iterator
          let (parts, iterator) ← buildParts fuel iterator
          return (.condition nextOperator (.mk thenArm none) (.mk elseArm none) :: parts, iterator)
      | .closes => return ([.operator nextOperator], iterator)
      | .ordinary =>
          let (parts, iterator) ← buildParts fuel iterator
          return (.operator nextOperator :: parts, iterator)

def translateExpression (iterator : List OperatorItem) :
    Outcome (Expression × List OperatorItem) := do
  let (parts, iterator) ← buildParts (iterator.length + 1) iterator
  return (.mk parts none, iterator)

def translateExpr (operatorsReader : List OperatorItem) (localNameMap : Option NameMap) :
    Outcome String := do
  let (expression, _) ← translateExpression operatorsReader
  Expression.toText (.mk expression.parts localNameMap)

example : translateExpr [.ok (.plain .nop), .ok .end_] none =
    .ok "    BI_nop ::\n    nil" := by
  simp [translateExpr, translateExpression, buildParts, Outcome.unwrap, Operator.role,
    Expression.toText, Expression.printWithOffset, printParts, ExpressionPart.print,
    translateBasicOperator, plainText, listExt, Expression.parts, bind, Except.bind, pure,
    Except.pure, offsetText, String.join]

end Inference.WasmToV

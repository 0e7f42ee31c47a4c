import Inference.WasmToV.Nesting

/-! # Rendering of lines

The text of a body, line by line. It agrees with the recursive printer on every
tree that the builder returns.
-/

namespace Inference.WasmToV

/-! ## Lines -/

/-- Local names are known to the outermost expression only. -/
def namesAt (names : Option NameMap) : Nat → Option NameMap
  | 0 => names
  | _ + 1 => none

namespace Token

def depthAfter (depth : Nat) : Token → Nat
  | .opened _ => depth + 1
  | .closed => depth - 1
  | _ => depth

@[simp] theorem depthAfter_line (op : Operator) (depth : Nat) :
    (line op).depthAfter depth = depth :=
  rfl

@[simp] theorem depthAfter_opened (label : Operator) (depth : Nat) :
    (opened label).depthAfter depth = depth + 1 :=
  rfl

@[simp] theorem depthAfter_nextArm (depth : Nat) : nextArm.depthAfter depth = depth :=
  rfl

@[simp] theorem depthAfter_closed (depth : Nat) : closed.depthAfter (depth + 1) = depth :=
  rfl

/-- The text of a line at a nesting depth. -/
def render (names : Option NameMap) (tabs depth : Nat) : Token → Outcome String
  | .line op => do
      let text ← translateBasicOperator op (namesAt names depth)
      return offsetText (tabs + depth) ++ text ++ listExt
  | .opened label => do
      let text ← translateBasicOperator label (namesAt names depth)
      return offsetText (tabs + depth) ++ text ++ " (\n"
  | .nextArm => .ok (offsetText (tabs + depth) ++ "nil" ++ ") (\n")
  | .closed => .ok (offsetText (tabs + depth) ++ "nil" ++ (") " ++ "::\n"))

end Token

def renderTokens (names : Option NameMap) (tabs : Nat) : Nat → List Token → Outcome String
  | _, [] => .ok ""
  | depth, token :: rest => do
      let text ← token.render names tabs depth
      let restText ← renderTokens names tabs (token.depthAfter depth) rest
      return text ++ restText

/-! ## The printer prints the lines -/

section Printer

variable (names : Option NameMap) (tabs : Nat)

mutual

theorem renderTokens_expression (expression : Expression) (unnamed : expression.Unnamed)
    (depth : Nat) (ending : Token) (suffix : String)
    (seals : ending.render names tabs (depth + 1) =
      .ok (offsetText (tabs + (depth + 1)) ++ "nil" ++ suffix))
    (following : List Token) :
    renderTokens names tabs (depth + 1) (expression.tokens ++ ending :: following) = (do
      let text ← expression.printWithOffset (tabs + (depth + 1))
      let restText ← renderTokens names tabs (ending.depthAfter (depth + 1)) following
      return text ++ (suffix ++ restText)) := by
  match expression, unnamed with
  | .mk parts _, ⟨rfl, unnamed⟩ =>
      rw [tokens_mk, renderTokens_parts parts unnamed (depth + 1), renderTokens, seals,
        Expression.printWithOffset]
      cases printed : printParts parts none (tabs + (depth + 1)) with
      | error failure => simp only [namesAt, printed]; rfl
      | ok text =>
          simp only [namesAt, printed, ok_bind]
          cases renderTokens names tabs (ending.depthAfter (depth + 1)) following with
          | error failure => rfl
          | ok restText => simp [ok_bind, pure, Except.pure, String.append_assoc]

theorem renderTokens_parts (parts : List ExpressionPart) (unnamed : UnnamedParts parts)
    (depth : Nat) (following : List Token) :
    renderTokens names tabs depth (partsTokens parts ++ following) = (do
      let text ← printParts parts (namesAt names depth) (tabs + depth)
      let restText ← renderTokens names tabs depth following
      return text ++ restText) := by
  match parts, unnamed with
  | [], _ =>
      rw [printParts, ok_bind, partsTokens_nil, List.nil_append]
      cases renderTokens names tabs depth following with
      | error failure => rfl
      | ok restText => simp [ok_bind, pure, Except.pure]
  | part :: rest, unnamed =>
      rw [partsTokens_cons, List.append_assoc,
        renderTokens_part part unnamed.1 depth (partsTokens rest ++ following),
        renderTokens_parts rest unnamed.2 depth following, printParts]
      cases part.print (namesAt names depth) (tabs + depth) with
      | error failure => rfl
      | ok text =>
          cases printParts rest (namesAt names depth) (tabs + depth) with
          | error failure => rfl
          | ok partsText =>
              cases renderTokens names tabs depth following with
              | error failure => rfl
              | ok restText => simp [ok_bind, pure, Except.pure, String.append_assoc]

theorem renderTokens_part (part : ExpressionPart) (unnamed : part.Unnamed)
    (depth : Nat) (following : List Token) :
    renderTokens names tabs depth (part.tokens ++ following) = (do
      let text ← part.print (namesAt names depth) (tabs + depth)
      let restText ← renderTokens names tabs depth following
      return text ++ restText) := by
  match part, unnamed with
  | .operator op, _ =>
      by_cases closes : op.role = .closes
      · have printed : (ExpressionPart.operator op).print (namesAt names depth) (tabs + depth) =
            .ok "" := by
          rcases Operator.closes_cases closes with rfl | rfl <;> simp [ExpressionPart.print]
        rw [tokens_closes closes, printed, ok_bind, List.nil_append]
        cases renderTokens names tabs depth following with
        | error failure => rfl
        | ok restText => simp [ok_bind, pure, Except.pure]
      · have printed : (ExpressionPart.operator op).print (namesAt names depth) (tabs + depth) =
            Token.render names tabs depth (.line op) := by
          cases op <;> simp_all [ExpressionPart.print, Operator.role, Token.render]
        rw [tokens_line closes, printed, List.singleton_append, renderTokens]
        rfl
  | .block label body, unnamed =>
      rw [tokens_block, List.cons_append, List.append_assoc, List.singleton_append,
        renderTokens, Token.depthAfter_opened,
        renderTokens_expression body unnamed depth .closed (") " ++ "::\n") rfl following,
        ExpressionPart.print, Token.render, Token.depthAfter_closed, Nat.add_assoc]
      cases translateBasicOperator label (namesAt names depth) with
      | error failure => rfl
      | ok labelText =>
          simp only [ok_bind]
          cases body.printWithOffset (tabs + (depth + 1)) with
          | error failure => rfl
          | ok bodyText =>
              cases renderTokens names tabs depth following with
              | error failure => rfl
              | ok restText => simp [ok_bind, pure, Except.pure, String.append_assoc]
  | .condition label thenArm elseArm, unnamed =>
      rw [tokens_condition, List.cons_append, List.append_assoc, List.cons_append,
        List.append_assoc, List.singleton_append, renderTokens, Token.depthAfter_opened,
        renderTokens_expression thenArm unnamed.1 depth .nextArm ") (\n" rfl,
        Token.depthAfter_nextArm,
        renderTokens_expression elseArm unnamed.2 depth .closed (") " ++ "::\n") rfl following,
        ExpressionPart.print, Token.render, Token.depthAfter_closed, Nat.add_assoc]
      cases translateBasicOperator label (namesAt names depth) with
      | error failure => rfl
      | ok labelText =>
          simp only [ok_bind]
          cases thenArm.printWithOffset (tabs + (depth + 1)) with
          | error failure => rfl
          | ok thenText =>
              simp only [ok_bind]
              cases elseArm.printWithOffset (tabs + (depth + 1)) with
              | error failure => rfl
              | ok elseText =>
                  cases renderTokens names tabs depth following with
                  | error failure => rfl
                  | ok restText => simp [ok_bind, pure, Except.pure, String.append_assoc]

end

end Printer

/-! ## The text of an expression -/

/-- What becomes of the printed lines: an error of an operator turns into a text. -/
def finishText : Outcome String → Outcome String
  | .ok text => .ok (text ++ offsetText 2 ++ "nil")
  | .error (.error _) => .ok "Error rendering expression"
  | .error .panicked => Outcome.panic

theorem toText_eq {parts : List ExpressionPart} (unnamed : UnnamedParts parts)
    (names : Option NameMap) :
    (Expression.mk parts names).toText = finishText (renderTokens names 2 0 (partsTokens parts)) := by
  have rendered := renderTokens_parts names 2 parts unnamed 0 []
  rw [List.append_nil, renderTokens] at rendered
  rw [rendered, Expression.toText, Expression.printWithOffset, namesAt, Nat.add_zero]
  cases printParts parts names 2 with
  | ok text => simp [ok_bind, pure, Except.pure, finishText]
  | error failure => cases failure <;> rfl

/-- The translation of an expression, from the scan of its operators. -/
theorem translateExpr_scan (items : List OperatorItem) (names : Option NameMap) :
    translateExpr items names =
      match skeleton [] items with
      | none => Outcome.panic
      | some tokens => finishText (renderTokens names 2 0 tokens) := by
  rw [translateExpr, translateExpression]
  rcases buildParts_followsScan (Nat.lt_succ_self items.length) with
    ⟨noLines, panics⟩ | ⟨parts, built, predicted⟩
  · rw [panics, noLines]
    rfl
  · rw [built, predicted.tokens]
    simp only [ok_bind, pure, Except.pure, Expression.parts]
    exact toText_eq predicted.unnamed names

end Inference.WasmToV

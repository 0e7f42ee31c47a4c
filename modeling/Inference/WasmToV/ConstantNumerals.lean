import Inference.WasmToV.TermReading

/-! # Constants as numerals

An expression is read as the list of its parts, with the lists of nested parts
as last arguments. A constant is read as its constructor and one numeral exactly
when its immediate is not negative.
-/

namespace Inference.WasmToV

open Foundation
open Foundation.Rocq (Level Symbol runText run)

/-! ## Trees and terms -/

/-- Whether a part has lines. -/
def ExpressionPart.isPrinted : ExpressionPart → Bool
  | .operator op => op.role ≠ .closes
  | _ => true

section Shows

variable (entry : Operator → Rocq.Term → Prop)

mutual

/-- A term is the list of the parts of an expression, where operators are
related to their elements. -/
def Expression.Shows : Expression → Rocq.Term → Prop
  | .mk parts _, term => PartsShow parts term

def PartsShow : List ExpressionPart → Rocq.Term → Prop
  | [], term => term = nilTerm
  | part :: rest, term =>
      if part.isPrinted then
        ∃ head tail, term = .cons head tail ∧ part.Shows head ∧ PartsShow rest tail
      else PartsShow rest term

def ExpressionPart.Shows : ExpressionPart → Rocq.Term → Prop
  | .operator op, term => entry op term
  | .block _ body, term => ∃ function list, term = .apply function list ∧ body.Shows list
  | .condition _ thenArm elseArm, term => ∃ function thenList elseList,
      term = .apply (.apply function thenList) elseList ∧ thenArm.Shows thenList ∧
        elseArm.Shows elseList

end

end Shows

/-- What is known of the element of an operator. -/
def ReadsAsConstant (op : Operator) (term : Rocq.Term) : Prop :=
  DenotesConstant op term ↔ op.NonNegative

def NonNegativeTokens (tokens : List Token) : Prop :=
  ∀ op ∈ tokens.flatMap Token.operators, op.NonNegative

theorem nonNegativeTokens_append (front back : List Token) :
    NonNegativeTokens (front ++ back) ↔ NonNegativeTokens front ∧ NonNegativeTokens back := by
  simp only [NonNegativeTokens, List.flatMap_append, List.mem_append, or_imp, forall_and]

theorem nonNegative_of_none {op : Operator} (noConstant : op.constant = none) :
    op.NonNegative := by
  intro constructors value isConstant
  rw [noConstant] at isConstant
  cases isConstant

variable {label : Operator}

theorem constant_opener
    (role : label.role = .opensBlock ∨ label.role = .opensCondition) : label.constant = none := by
  cases label <;> first | rfl | simp [Operator.role] at role

theorem printable_label (printable : (Token.opened label).Printable) :
    (label.role = .opensBlock ∨ label.role = .opensCondition) ∧ label.support = .supported := by
  cases printable with
  | opened role supported => exact ⟨role, supported⟩

theorem printable_line {op : Operator} (printable : (Token.line op).Printable) :
    op.role = .ordinary ∧ op.support = .supported := by
  cases printable with
  | line role supported => exact ⟨role, supported⟩

/-- Around lists of parts stand lines without constants. -/
theorem nonNegativeTokens_block (printable : (Token.opened label).Printable) (tokens : List Token) :
    NonNegativeTokens (.opened label :: (tokens ++ [.closed])) ↔ NonNegativeTokens tokens := by
  have noConstant := nonNegative_of_none (constant_opener (printable_label printable).1)
  simp only [NonNegativeTokens, List.flatMap_cons, List.flatMap_append, Token.operators,
    List.mem_append, List.mem_singleton, or_imp, forall_and, forall_eq]
  exact ⟨fun all => all.2.1, fun all => ⟨noConstant, all, by simp⟩⟩

theorem nonNegativeTokens_condition
    (printable : (Token.opened label).Printable) (thenTokens elseTokens : List Token) :
    NonNegativeTokens (.opened label :: (thenTokens ++ .nextArm :: (elseTokens ++ [.closed]))) ↔
      NonNegativeTokens thenTokens ∧ NonNegativeTokens elseTokens := by
  have noConstant := nonNegative_of_none (constant_opener (printable_label printable).1)
  simp only [NonNegativeTokens, List.flatMap_cons, List.flatMap_append, Token.operators,
    List.mem_append, List.mem_singleton, or_imp, forall_and, forall_eq, List.nil_append]
  exact ⟨fun all => ⟨all.2.1, all.2.2.1⟩, fun all => ⟨noConstant, all.1, all.2, by simp⟩⟩

section Agreement

mutual

theorem shows_iff (expression : Expression) {term : Rocq.Term}
    (printable : ∀ token ∈ expression.tokens, token.Printable)
    (shows : expression.Shows ReadsAsConstant term) :
    expression.Shows DenotesConstant term ↔ NonNegativeTokens expression.tokens := by
  match expression with
  | .mk parts names =>
      rw [Expression.Shows] at shows ⊢
      rw [tokens_mk] at printable ⊢
      exact partsShow_iff parts printable shows

theorem partsShow_iff (parts : List ExpressionPart) {term : Rocq.Term}
    (printable : ∀ token ∈ partsTokens parts, token.Printable)
    (shows : PartsShow ReadsAsConstant parts term) :
    PartsShow DenotesConstant parts term ↔ NonNegativeTokens (partsTokens parts) := by
  match parts with
  | [] =>
      rw [PartsShow] at shows ⊢
      exact iff_of_true shows (by simp [NonNegativeTokens])
  | part :: rest =>
      rw [partsTokens_cons] at printable ⊢
      rw [nonNegativeTokens_append]
      have restPrintable := fun token member => printable token (List.mem_append_right _ member)
      have partPrintable := fun token member => printable token (List.mem_append_left _ member)
      rw [PartsShow] at shows ⊢
      cases printed : part.isPrinted with
      | true =>
          rw [printed, if_pos rfl] at shows
          rw [if_pos rfl]
          rcases shows with ⟨head, tail, rfl, headShows, tailShows⟩
          rw [← partShows_iff part partPrintable headShows, ← partsShow_iff rest restPrintable tailShows]
          constructor
          · rintro ⟨sameHead, sameTail, same, both⟩
            cases same
            exact both
          · intro both
            exact ⟨head, tail, rfl, both⟩
      | false =>
          rw [printed, if_neg Bool.false_ne_true] at shows
          rw [if_neg Bool.false_ne_true, partsShow_iff rest restPrintable shows]
          cases part with
          | operator op =>
              have closes : op.role = .closes := by simpa [ExpressionPart.isPrinted] using printed
              rw [tokens_closes closes]
              exact ⟨fun all => ⟨by simp [NonNegativeTokens], all⟩, fun all => all.2⟩
          | block _ _ | condition _ _ _ => cases printed

theorem partShows_iff (part : ExpressionPart) {term : Rocq.Term}
    (printable : ∀ token ∈ part.tokens, token.Printable)
    (shows : part.Shows ReadsAsConstant term) :
    part.Shows DenotesConstant term ↔ NonNegativeTokens part.tokens := by
  match part with
  | .operator op =>
      rw [ExpressionPart.Shows] at shows ⊢
      refine Iff.trans shows ?_
      by_cases closes : op.role = .closes
      · rw [tokens_closes closes]
        have noConstant : op.constant = none := by
          rcases Operator.closes_cases closes with rfl | rfl <;> rfl
        exact iff_of_true (nonNegative_of_none noConstant) (by simp [NonNegativeTokens])
      · rw [tokens_line closes]
        simp [NonNegativeTokens, Token.operators]
  | .block label body =>
      rw [tokens_block] at printable ⊢
      rw [nonNegativeTokens_block (printable _ List.mem_cons_self)]
      rw [ExpressionPart.Shows] at shows ⊢
      rcases shows with ⟨function, list, rfl, bodyShows⟩
      rw [← shows_iff body (fun token member => printable token (by simp [member])) bodyShows]
      constructor
      · rintro ⟨_, _, same, denoted⟩
        cases same
        exact denoted
      · intro denoted
        exact ⟨function, list, rfl, denoted⟩
  | .condition label thenArm elseArm =>
      rw [tokens_condition] at printable ⊢
      rw [nonNegativeTokens_condition (printable _ List.mem_cons_self)]
      rw [ExpressionPart.Shows] at shows ⊢
      rcases shows with ⟨function, thenList, elseList, rfl, thenShows, elseShows⟩
      rw [← shows_iff thenArm (fun token member => printable token (by simp [member])) thenShows,
        ← shows_iff elseArm (fun token member => printable token (by simp [member])) elseShows]
      constructor
      · rintro ⟨_, _, _, same, both⟩
        cases same
        exact both
      · intro both
        exact ⟨function, thenList, elseList, rfl, both⟩

end

end Agreement

/-! ## Lines that open a part -/

/-- A block type with its parenthesis is an argument. -/
theorem runText_blockType (block : BlockTerm) (level : Level) (outer : List Level)
    (rest : List Char) :
    ∃ term, runText (.opened [] :: level :: outer) (block.text ++ rest) =
      runText (level.push term :: outer) rest := by
  rcases block with ⟨head, immediates⟩
  have word : ∀ read, (Rocq.readCode head.word).isSome = true → read = head.word ++ [')'] →
      ∃ term, runText (.opened [] :: level :: outer) (read ++ rest) =
        runText (level.push term :: outer) rest := by
    rintro read isRead rfl
    rcases Option.isSome_iff_exists.mp isRead with ⟨term, reads⟩
    refine ⟨term, ?_⟩
    rw [List.append_assoc]
    exact Rocq.runText_argument reads level outer rest
  cases head with
  | funcType =>
      have scanned : Rocq.scan .nothing BlockHead.funcType.word =
          some (.nothing, [.name "BT_id".toList]) := by
        decide +kernel
      have opened : run (.opened [] :: level :: outer) [.name "BT_id".toList] =
          some (.applying [] [.name "BT_id".toList] :: level :: outer) := rfl
      have closed : run (.applying [] [.numeral immediates, .name "BT_id".toList] :: level :: outer)
          [.scope ['N'], .closing] = some (level.push (.apply (.name "BT_id".toList)
            (naturalTerm immediates)) :: outer) := rfl
      refine ⟨.apply (.name "BT_id".toList) (naturalTerm immediates), ?_⟩
      rw [BlockTerm.text, BlockHead.immediatesText, List.append_assoc, List.append_assoc,
        runText_word _ scanned opened,
        List.cons_append, Rocq.runText_number _ _ _ (by decide), Rocq.push_applying,
        ← List.cons_append]
      exact runText_word [.scope ['N'], .closing] (by decide) closed rest
  | _ => exact word _ (by decide +kernel) rfl

theorem runText_opened (role : label.role = .opensBlock ∨ label.role = .opensCondition)
    (supported : label.support = .supported) (names : Option NameMap) :
    ∃ last spine, runText [.opened []] ((Token.opened label).kept names) =
      some [.opened [], .applying [] (last :: spine)] := by
  have ofOpener : ∀ opcode blockty term, openerTerm opcode blockty = some term →
      .opener opcode ∈ sortedHeads → ∃ last spine,
        runText [.opened []] (term.text ++ [' ', '(', '\n']) =
          some [.opened [], .applying [] (last :: spine)] := by
    intro opcode blockty term hasTerm member
    rcases Option.map_eq_some_iff.mp hasTerm with ⟨block, _, rfl⟩
    rcases reads_argument (sortedHeads_read _ member) with ⟨last, spine, read⟩
    rcases runText_blockType block (.applying [] (last :: spine)) [] [' ', '(', '\n'] with
      ⟨blockType, readBlock⟩
    refine ⟨blockType, last :: spine, ?_⟩
    rw [Term.text, List.append_assoc, Rocq.runText_append read]
    exact readBlock.trans (runText_end [.opening] (by decide) rfl)
  rcases term_exists supported (by rcases role with role | role <;> simp [role]) with
    ⟨term, hasTerm⟩
  have kept : (Token.opened label).kept names =
      label.term.elim [] Term.text ++ [' ', '(', '\n'] := rfl
  rw [kept, hasTerm, Option.elim_some]
  cases label with
  | block _ | loop _ | if_ _ | forall_ _ | exists_ _ | assume _ | unique _ =>
      exact ofOpener _ _ term hasTerm (by decide)
  | _ => simp [Operator.role] at role

/-! ## Lines of parts -/

theorem runText_offset (tabs : Nat) (levels : List Level) (rest : List Char) :
    runText levels ((offsetText tabs).toList ++ rest) = runText levels rest := by
  rw [toList_offsetText]
  induction 2 * tabs with
  | zero => rfl
  | succ count induction =>
      rw [List.replicate_succ, List.cons_append, ← induction]
      have scanned : Rocq.scan .nothing [' '] = some (.nothing, []) := by decide
      exact runText_word [] scanned rfl _

section Parts

variable (names : Option NameMap) (tabs : Nat)

/-- The text of some lines, behind which the others stand at the same depth. -/
def LinesAre (depth : Nat) (tokens : List Token) (lines : List Char) : Prop :=
  ∀ following, keptLines names tabs depth (tokens ++ following) =
    lines ++ keptLines names tabs depth following

/-- The lines are read as the elements of a list. -/
def ReadsList (tokens : List Token) (depth : Nat) (shows : Rocq.Term → Prop) : Prop :=
  ∃ lines latest, LinesAre names tabs depth tokens lines ∧
    runText [.opened []] lines = some [.opened latest] ∧ shows (Rocq.listTerm latest nilTerm)

variable {names tabs}

/-- Elements of a nested list and the line that ends it. -/
theorem runText_nested {lines : List Char} {latest : List Rocq.Term}
    (ran : runText [.opened []] lines = some [.opened latest]) (level : Level)
    (outer : List Level) (depth : Nat) (rest : List Char) :
    runText (.opened [] :: level :: outer)
      (lines ++ ((offsetText depth).toList ++ (['n', 'i', 'l', ')'] ++ rest))) =
        runText (level.push (Rocq.listTerm latest nilTerm) :: outer) rest := by
  rw [Rocq.runText_append (Rocq.runText_element ran [] (level :: outer)), List.append_nil,
    runText_offset, runText_listEnd]

mutual

theorem readsList_expression (expression : Expression) (depth : Nat)
    (printable : ∀ token ∈ expression.tokens, token.Printable) :
    ReadsList names tabs expression.tokens depth (expression.Shows ReadsAsConstant) := by
  match expression with
  | .mk parts _ =>
      rw [tokens_mk] at printable ⊢
      rcases readsList_parts parts depth printable with ⟨lines, latest, spelled, ran, shows⟩
      exact ⟨lines, latest, spelled, ran, by rw [Expression.Shows]; exact shows⟩

theorem readsList_parts (parts : List ExpressionPart) (depth : Nat)
    (printable : ∀ token ∈ partsTokens parts, token.Printable) :
    ReadsList names tabs (partsTokens parts) depth (PartsShow ReadsAsConstant parts) := by
  match parts with
  | [] =>
      refine ⟨[], [], fun following => by simp, rfl, ?_⟩
      rw [PartsShow]
      rfl
  | part :: rest =>
      rw [partsTokens_cons] at printable ⊢
      rcases readsList_parts rest depth (fun token member =>
        printable token (List.mem_append_right _ member)) with
        ⟨restLines, latest, restSpelled, restRan, restShows⟩
      cases printed : part.isPrinted with
      | true =>
          rcases readsPart part depth printed (fun token member =>
            printable token (List.mem_append_left _ member)) with ⟨line, head, spelled, ran, shows⟩
          refine ⟨line ++ restLines, latest ++ [head], ?_, ?_, ?_⟩
          · intro following
            rw [List.append_assoc, spelled, restSpelled, List.append_assoc]
          · rw [Rocq.runText_append ran]
            exact Rocq.runText_element restRan [head] []
          · rw [PartsShow, printed, if_pos rfl]
            refine ⟨head, Rocq.listTerm latest nilTerm, ?_, shows, restShows⟩
            rw [Rocq.listTerm, List.foldl_append]
            rfl
      | false =>
          cases part with
          | operator op =>
              have closes : op.role = .closes := by simpa [ExpressionPart.isPrinted] using printed
              rw [tokens_closes closes, List.nil_append]
              refine ⟨restLines, latest, restSpelled, restRan, ?_⟩
              rw [PartsShow, printed, if_neg Bool.false_ne_true]
              exact restShows
          | block _ _ | condition _ _ _ => cases printed

theorem readsPart (part : ExpressionPart) (depth : Nat) (printed : part.isPrinted = true)
    (printable : ∀ token ∈ part.tokens, token.Printable) :
    ∃ line head, LinesAre names tabs depth part.tokens line ∧
      runText [.opened []] line = some [.opened [head]] ∧ part.Shows ReadsAsConstant head := by
  match part with
  | .operator op =>
      have prints : op.role ≠ .closes := by simpa [ExpressionPart.isPrinted] using printed
      rw [tokens_line prints] at printable ⊢
      rcases printable_line (printable _ (List.mem_singleton_self _)) with ⟨role, supported⟩
      rcases runText_line role supported (namesAt names depth) with ⟨head, ran, denotes⟩
      refine ⟨(offsetText (tabs + depth)).toList ++ (Token.line op).kept (namesAt names depth),
        head, fun following => rfl, ?_, ?_⟩
      · rw [runText_offset, ran]
      · rw [ExpressionPart.Shows]
        exact denotes
  | .block label body =>
      rw [tokens_block] at printable ⊢
      rcases printable_label (printable _ List.mem_cons_self) with ⟨role, supported⟩
      rcases runText_opened role supported (namesAt names depth) with ⟨last, spine, opened⟩
      rcases readsList_expression body (depth + 1) (fun token member =>
        printable token (by simp [member])) with ⟨lines, latest, spelled, ran, shows⟩
      rcases Rocq.applied_cons last spine with ⟨function, applied⟩
      refine ⟨(offsetText (tabs + depth)).toList ++
        ((Token.opened label).kept (namesAt names depth) ++
          (lines ++ ((offsetText (tabs + (depth + 1))).toList ++
            (['n', 'i', 'l', ')'] ++ [' ', ':', ':', '\n'])))),
        .apply function (Rocq.listTerm latest nilTerm), ?_, ?_, ?_⟩
      · intro following
        have inner := spelled (.closed :: following)
        rw [List.cons_append, List.append_assoc, List.singleton_append, keptLines,
          Token.depthAfter_opened, inner, keptLines]
        simp only [List.append_assoc]
        rfl
      · rw [runText_offset, Rocq.runText_append opened, runText_nested ran, Rocq.push_applying]
        exact runText_end [.cons] (by decide)
          (run_cons (Rocq.applied_push applied _))
      · rw [ExpressionPart.Shows]
        exact ⟨function, _, rfl, shows⟩
  | .condition label thenArm elseArm =>
      rw [tokens_condition] at printable ⊢
      rcases printable_label (printable _ List.mem_cons_self) with ⟨role, supported⟩
      rcases runText_opened role supported (namesAt names depth) with ⟨last, spine, opened⟩
      rcases readsList_expression thenArm (depth + 1) (fun token member =>
        printable token (by simp [member])) with
        ⟨thenLines, thenLatest, thenSpelled, thenRan, thenShows⟩
      rcases readsList_expression elseArm (depth + 1) (fun token member =>
        printable token (by simp [member])) with
        ⟨elseLines, elseLatest, elseSpelled, elseRan, elseShows⟩
      rcases Rocq.applied_cons last spine with ⟨function, applied⟩
      refine ⟨(offsetText (tabs + depth)).toList ++
        ((Token.opened label).kept (namesAt names depth) ++
          (thenLines ++ ((offsetText (tabs + (depth + 1))).toList ++
            (['n', 'i', 'l', ')'] ++ ([' ', '(', '\n'] ++
              (elseLines ++ ((offsetText (tabs + (depth + 1))).toList ++
                (['n', 'i', 'l', ')'] ++ [' ', ':', ':', '\n'])))))))),
        .apply (.apply function (Rocq.listTerm thenLatest nilTerm))
          (Rocq.listTerm elseLatest nilTerm), ?_, ?_, ?_⟩
      · intro following
        have innerThen := thenSpelled (.nextArm :: (elseArm.tokens ++ .closed :: following))
        have innerElse := elseSpelled (.closed :: following)
        rw [List.cons_append, List.append_assoc, List.cons_append, List.append_assoc,
          List.singleton_append, keptLines, Token.depthAfter_opened, innerThen, keptLines,
          Token.depthAfter_nextArm, innerElse, keptLines]
        simp only [List.append_assoc]
        rfl
      · rw [runText_offset, Rocq.runText_append opened, runText_nested thenRan,
          Rocq.push_applying, runText_word [.opening] (by decide) rfl,
          runText_nested elseRan, Rocq.push_applying]
        exact runText_end [.cons] (by decide)
          (run_cons (Rocq.applied_push (Rocq.applied_push applied _) _))
      · rw [ExpressionPart.Shows]
        exact ⟨function, _, _, rfl, thenShows, elseShows⟩

end

end Parts

/-! ## Expressions -/

def Expression.HasConstant (expression : Expression) : Prop :=
  ∃ op ∈ expression.tokens.flatMap Token.operators, op.constant ≠ none

/-- A term denotes the constants of the expression that is built from operators,
at any depth. -/
def ConstantsShown (items : List OperatorItem) (term : Rocq.Term) : Prop :=
  ∀ expression rest, translateExpression items = .ok (expression, rest) →
    expression.HasConstant → expression.Shows DenotesConstant term

/-- No printed constant is negative, and an expression that becomes an error text
has none. -/
def ConstantsPrintable (items : List OperatorItem) : Prop :=
  match rendition items with
  | .missing => True
  | .misrendered => ∀ tokens, skeleton [] items = some tokens →
      ∀ op ∈ tokens.flatMap Token.operators, op.constant = none
  | .lines tokens => NonNegativeTokens tokens

/-- A list is never read as an application. -/
theorem not_partsShow_apply (entry : Operator → Rocq.Term → Prop) (parts : List ExpressionPart)
    (function argument : Rocq.Term) : ¬ PartsShow entry parts (.apply function argument) := by
  induction parts with
  | nil =>
      rw [PartsShow]
      intro same
      cases same
  | cons part rest induction =>
      rw [PartsShow]
      split
      · rintro ⟨head, tail, same, _⟩
        cases same
      · exact induction

/-- Without constants there is nothing to show. -/
theorem nonNegativeTokens_of_none {expression : Expression}
    (noConstant : ¬ expression.HasConstant) : NonNegativeTokens expression.tokens := by
  intro op member
  apply nonNegative_of_none
  by_contra isConstant
  exact noConstant ⟨op, member, isConstant⟩

variable {items : List OperatorItem} {tokens : List Token}

theorem translateExpression_cases (lines : skeleton [] items = some tokens) :
    ∃ parts rest, translateExpression items = .ok (.mk parts none, rest) ∧
      tokens = partsTokens parts := by
  rcases buildParts_followsScan (Nat.lt_succ_self items.length) with
    ⟨noLines, panics⟩ | ⟨parts, built, predicted⟩
  · rw [noLines] at lines
    cases lines
  · refine ⟨parts, _, by rw [translateExpression, built]; rfl, ?_⟩
    have same := predicted.tokens
    rw [lines] at same
    exact Option.some.inj same

theorem constantsShown_lines {parts : List ExpressionPart}
    {rest : List OperatorItem} (built : translateExpression items = .ok (.mk parts none, rest))
    (printable : ∀ token ∈ partsTokens parts, token.Printable) {term : Rocq.Term}
    (shows : PartsShow ReadsAsConstant parts term) :
    ConstantsShown items term ↔ NonNegativeTokens (partsTokens parts) := by
  have agrees := partsShow_iff parts printable shows
  constructor
  · intro shown
    by_cases hasConstant : (Expression.mk parts none).HasConstant
    · have here := shown _ _ built hasConstant
      rw [Expression.Shows] at here
      exact agrees.mp here
    · have none := nonNegativeTokens_of_none hasConstant
      rwa [tokens_mk] at none
  · intro nonNegative expression other same _
    rw [built] at same
    cases same
    rw [Expression.Shows]
    exact agrees.mpr nonNegative

theorem constantsShown_error
    (lines : skeleton [] items = some tokens) (function argument : Rocq.Term) :
    ConstantsShown items (.apply function argument) ↔
      ∀ op ∈ tokens.flatMap Token.operators, op.constant = none := by
  rcases translateExpression_cases lines with ⟨parts, rest, built, rfl⟩
  constructor
  · intro shown op member
    by_contra isConstant
    have hasConstant : (Expression.mk parts none).HasConstant :=
      ⟨op, by rwa [tokens_mk], isConstant⟩
    have here := shown _ _ built hasConstant
    rw [Expression.Shows] at here
    exact not_partsShow_apply _ _ _ _ here
  · intro noConstant expression other same hasConstant
    rw [built] at same
    cases same
    rcases hasConstant with ⟨op, member, isConstant⟩
    rw [tokens_mk] at member
    exact absurd (noConstant op member) isConstant

/-- The term that a text denotes, also behind a parenthesis. -/
def ReadsExpression (text : String) (term : Rocq.Term) : Prop :=
  text.toList.head? ≠ some '*' ∧ ∃ code, (∀ following, stripComments .code
    (text.toList ++ following) = code ++ stripComments .code following) ∧
      Rocq.readCode code = some term

private theorem error_code : "Error rendering expression".toList =
    ['E', 'r', 'r', 'o', 'r', ' ', 'r', 'e', 'n', 'd', 'e', 'r', 'i', 'n', 'g', ' ',
      'e', 'x', 'p', 'r', 'e', 's', 's', 'i', 'o', 'n'] :=
  String.toList_ofList

theorem readCode_error :
    Rocq.readCode "Error rendering expression".toList =
      some (.apply (.apply (.name "Error".toList) (.name "rendering".toList))
        (.name "expression".toList)) := by
  decide +kernel

theorem readsExpression_error :
    ReadsExpression "Error rendering expression"
      (.apply (.apply (.name "Error".toList) (.name "rendering".toList))
        (.name "expression".toList)) := by
  refine ⟨by rw [error_code]; decide, _, fun following => ?_, readCode_error⟩
  rw [error_code]
  exact stripComments_plain (by decide) (by decide) (by simp)

/-- Lines start with blanks. -/
theorem renderTokens_starts {names : Option NameMap} {text : String}
    (printable : ∀ token ∈ tokens, token.Printable)
    (rendered : renderTokens names 2 0 tokens = .ok text) :
    (text ++ offsetText 2 ++ "nil").toList.head? = some ' ' := by
  rw [String.toList_append, String.toList_append, toList_offsetText]
  cases tokens with
  | nil =>
      cases rendered
      rfl
  | cons token rest =>
      rcases (printable token List.mem_cons_self).render names 2 0 with ⟨line, here, spelled⟩
      rw [renderTokens, here, ok_bind] at rendered
      rcases bind_ok rendered with ⟨later, _, assembled⟩
      cases assembled
      rw [String.toList_append, spelled, toList_offsetText]
      rfl

/-- The text of an expression is read as a term, which denotes the constants
exactly when they can be printed. -/
theorem translateExpr_reads {names : Option NameMap} {text : String}
    (isBalanced : ∀ name, some name ∈ emittedNames names items →
      balanced false 0 name.toList = true)
    (translated : translateExpr items names = .ok text) :
    ∃ term, ReadsExpression text term ∧ (ConstantsShown items term ↔ ConstantsPrintable items) := by
  have described := rendition_describes items names
  rw [translated] at described
  rw [ConstantsPrintable]
  cases printed : rendition items with
  | missing =>
      rw [printed] at described
      rcases described with ⟨_, fails⟩
      cases fails
  | misrendered =>
      rw [printed] at described
      cases described
      refine ⟨_, readsExpression_error, ?_⟩
      cases lines : skeleton [] items with
      | none => simp [rendition, lines] at printed
      | some tokens =>
          rw [constantsShown_error lines]
          simp
  | lines tokens =>
      rw [printed] at described
      rcases described with ⟨printable, lines, rendered, assembled⟩
      cases assembled
      rcases translateExpression_cases (rendition_skeleton printed) with ⟨parts, rest, built, rfl⟩
      have readsParts : ReadsList names 2 (partsTokens parts) 0 (PartsShow ReadsAsConstant parts) :=
        readsList_parts parts 0 printable
      rcases readsParts with
        ⟨kept, latest, spelled, ran, shows⟩
      have keptAll : keptLines names 2 0 (partsTokens parts) = kept := by
        have all := spelled []
        rw [List.append_nil, keptLines, List.append_nil] at all
        exact all
      have nothing : "nil".toList = ['n', 'i', 'l'] := String.toList_ofList
      have starts := renderTokens_starts printable rendered
      refine ⟨Rocq.listTerm latest nilTerm, ⟨by rw [starts]; decide,
        kept ++ ((offsetText 2).toList ++ ['n', 'i', 'l']), ?_, ?_⟩,
        constantsShown_lines built printable shows⟩
      · intro following
        rw [String.toList_append, String.toList_append, nothing, List.append_assoc,
          List.append_assoc, stripComments_lines printable
            (fun name member => isBalanced name (emittedNames_lines printed member)) rendered,
          stripComments_offset, stripComments_plain (by decide) (by decide) (by simp), keptAll]
        simp only [List.append_assoc]
      · rw [Rocq.readCode, List.append_assoc, List.append_assoc, Rocq.runText_append ran,
          runText_offset]
        have ending : runText [.opened latest] (['n', 'i', 'l'] ++ ['\n']) =
            some [.applying latest [nilTerm]] :=
          runText_end [.name ['n', 'i', 'l']] (by decide) rfl
        rw [ending, Option.bind_some]
        exact Rocq.finished_applying rfl

end Inference.WasmToV

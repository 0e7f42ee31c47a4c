import Inference.Wat.FoldedForms
import Mathlib.Tactic.Tauto

/-! # Agreement of folded and flat forms

The stack of levels stands for the folded forms that are still open: whatever is on it, a body is
parsed to the instructions it emits, and the stack is left as it was. The result is the flat form of
the body unless an uzumaki is folded, because the parser treats it as a block.
-/

namespace Inference.Wat.Expr

variable {BlockType TryTable Row : Type} {arguments : Arguments BlockType TryTable Row}
  {texts : Texts BlockType TryTable Row}

/-! ## Reading instructions -/

/-- An instruction is a keyword of the table with its arguments. -/
theorem instruction_cases (reads : Reads arguments texts)
    (instruction : Instruction BlockType TryTable Row) :
    ∃ text written, texts.instruction instruction = .keyword text :: written ∧
      arguments.isInstruction text = true ∧ text ≠ "then" := by
  cases instruction with
  | row row =>
      rcases reads.row row with ⟨read, isRow, _⟩
      refine ⟨_, _, rfl, ?_, fun same => reads.keyword row (by simp [same])⟩
      simp [Arguments.isInstruction, isRow]
  | _ => exact ⟨_, _, rfl, by simp [Arguments.isInstruction, blockRow], by decide⟩

theorem parseId_writeId (label : Option Id) {later : List Token}
    (ends : EndsArguments arguments later) : parseId (writeId label ++ later) = (label, later) := by
  cases label with
  | some label => rfl
  | none =>
      cases later with
      | nil => rfl
      | cons token later =>
          cases token with
          | id name => exact ends.elim
          | _ => rfl

theorem blockRow_row (reads : Reads arguments texts) (row : Row) :
    (blockRow (texts.keyword row) : Option (BlockType → Instruction BlockType TryTable Row)) =
      none := by
  have notNamed := reads.keyword row
  rw [blockRow.eq_def]
  split <;> simp_all

theorem parseInstruction_instruction (reads : Reads arguments texts)
    (instruction : Instruction BlockType TryTable Row) {later : List Token}
    (ends : EndsArguments arguments later) :
    parseInstruction arguments (texts.instruction instruction ++ later) =
      .ok (instruction, later) := by
  cases instruction with
  | row row =>
      rcases reads.row row with ⟨read, isRow, isRead⟩
      have notNamed := reads.keyword row
      simp only [List.mem_cons, not_or] at notNamed
      rw [Texts.instruction, List.cons_append, parseInstruction, blockRow_row reads row]
      dsimp only
      -- The keywords that the table names are not those of other rows.
      split <;> simp_all [bind, Except.bind, pure, Except.pure]
      all_goals tauto
  | else_ label =>
      simp [Texts.instruction, parseInstruction, blockRow, parseId_writeId label ends, pure,
        Except.pure]
  | end_ label =>
      simp [Texts.instruction, parseInstruction, blockRow, parseId_writeId label ends, pure,
        Except.pure]
  | tryTable tryTable =>
      simp [Texts.instruction, parseInstruction, blockRow, reads.tryTable tryTable later ends,
        bind, Except.bind, pure, Except.pure]
  | i32Uzumaki => rfl
  | i64Uzumaki => rfl
  | _ =>
      simp [Texts.instruction, parseInstruction, blockRow, reads.blockType _ later ends, bind,
        Except.bind, pure, Except.pure]

/-! ## What can stand behind arguments -/

theorem endsArguments_instruction (reads : Reads arguments texts)
    (instruction : Instruction BlockType TryTable Row) (later : List Token) :
    EndsArguments arguments (texts.instruction instruction ++ later) ∧
      EndsArguments arguments (.lparen :: (texts.instruction instruction ++ later)) := by
  rcases instruction_cases reads instruction with ⟨text, written, same, isInstruction, _⟩
  rw [same]
  exact ⟨isInstruction, .inl isInstruction⟩

theorem endsArguments_write (reads : Reads arguments texts) {layout : Layout}
    (body : Body BlockType TryTable Row layout) {later : List Token}
    (ends : EndsArguments arguments later) :
    EndsArguments arguments (texts.write body later) := by
  cases body with
  | nil => exact ends
  | flat instruction rest => exact (endsArguments_instruction reads instruction _).1
  | folded operation operands rest =>
      exact (endsArguments_instruction reads operation.instruction _).2
  | block opener body rest => exact (endsArguments_instruction reads opener.instruction _).2
  | ifThen blockType clause then_ rest =>
      exact (endsArguments_instruction reads (.if_ blockType) _).2
  | ifElse blockType clause then_ else_ rest =>
      exact (endsArguments_instruction reads (.if_ blockType) _).2

/-! ## Passes of the loop -/

/-- Some passes of the loop, each of which takes tokens. -/
inductive Passes (arguments : Arguments BlockType TryTable Row) :
    ExpressionParser BlockType TryTable Row → ExpressionParser BlockType TryTable Row → Prop
  | refl : Passes arguments parser parser
  | pass (unfinished : (isEmpty parser.tokens && parser.stack.isEmpty) = false)
      (step : parseStep arguments parser = .ok parser')
      (fewer : parser'.tokens.length < parser.tokens.length)
      (rest : Passes arguments parser' parser'') : Passes arguments parser parser''

theorem Passes.trans {parser parser' parser'' : ExpressionParser BlockType TryTable Row}
    (passes : Passes arguments parser parser') (later : Passes arguments parser' parser'') :
    Passes arguments parser parser'' := by
  induction passes with
  | refl => exact later
  | pass unfinished step fewer _ induction => exact .pass unfinished step fewer (induction later)

/-- A number of passes above the number of tokens is never used up. -/
theorem Passes.parseLoop {parser parser' : ExpressionParser BlockType TryTable Row}
    (passes : Passes arguments parser parser') {fuel : Nat} (enough : parser.tokens.length < fuel) :
    ∃ fuel', parser'.tokens.length < fuel' ∧
      parseLoop arguments fuel parser = Expr.parseLoop arguments fuel' parser' := by
  induction passes generalizing fuel with
  | refl => exact ⟨fuel, enough, rfl⟩
  | @pass parser parser' parser'' unfinished step fewer _ induction =>
      cases fuel with
      | zero => exact absurd enough (Nat.not_lt_zero _)
      | succ fuel =>
          rcases induction (show parser'.tokens.length < fuel by omega) with ⟨fuel', enough', same⟩
          refine ⟨fuel', enough', ?_⟩
          rw [← same, Expr.parseLoop, unfinished, step]
          rfl

section Steps

variable {instrs : List (Instruction BlockType TryTable Row)}
  {stack : List (Level BlockType TryTable Row)} {hints : List BranchHint} {later : List Token}

/-- Inside of an `if` there are only folded forms, and those only in its clause. -/
def Accepts (layout : Layout) : List (Level BlockType TryTable Row) → Prop
  | .if_ (.clause _) :: _ => layout = .folded
  | .if_ _ :: _ => False
  | _ => True

theorem Passes.step {parser parser' : ExpressionParser BlockType TryTable Row}
    (unfinished : (isEmpty parser.tokens && parser.stack.isEmpty) = false)
    (stepped : parseStep arguments parser = .ok parser')
    (fewer : parser'.tokens.length < parser.tokens.length) : Passes arguments parser parser' :=
  .pass unfinished stepped fewer .refl

/-- A flat instruction. -/
theorem passes_flat (reads : Reads arguments texts)
    (instruction : Instruction BlockType TryTable Row) (accepts : Accepts .mixed stack)
    (ends : EndsArguments arguments later) :
    Passes arguments ⟨instrs, stack, hints, texts.instruction instruction ++ later⟩
      ⟨instrs ++ [instruction], stack, hints, later⟩ := by
  have read := parseInstruction_instruction reads instruction ends
  rcases instruction_cases reads instruction with ⟨text, written, same, _, _⟩
  rw [same] at read ⊢
  have placed : misplacedInIf (⟨instrs, stack, hints, .keyword text :: written ++ later⟩ :
      ExpressionParser BlockType TryTable Row) = false := by
    rw [misplacedInIf.eq_def]
    split
    next state _ isIf =>
      change stack = _ at isIf
      rw [isIf] at accepts
      cases state with
      | clause instruction => cases accepts
      | then_ => exact accepts.elim
      | else_ => exact accepts.elim
    next => rfl
  refine Passes.step rfl ?_ ?_
  · rw [parseStep, placed]
    change (parseInstruction arguments (Token.keyword text :: written ++ later) >>= _) = _
    rw [read]
    rfl
  · simp only [List.cons_append, List.length_cons, List.length_append]
    omega

/-- A folded instruction begins. -/
theorem passes_open (reads : Reads arguments texts)
    (instruction : Instruction BlockType TryTable Row) (accepts : Accepts .folded stack)
    (ends : EndsArguments arguments later) :
    Passes arguments ⟨instrs, stack, hints, .lparen :: (texts.instruction instruction ++ later)⟩
      (openFolded ⟨instrs, stack, hints, later⟩ instruction) := by
  have read := parseInstruction_instruction reads instruction ends
  rcases instruction_cases reads instruction with ⟨text, written, same, _, notThen⟩
  rw [same] at read ⊢
  have notIf : handleIfLparen (⟨instrs, stack, hints, .keyword text :: written ++ later⟩ :
      ExpressionParser BlockType TryTable Row) = .ok none := by
    rw [handleIfLparen.eq_def]
    dsimp only
    split
    · split
      next isThen =>
        cases isThen
        exact absurd rfl notThen
      next => rfl
    · exact accepts.elim
    · exact accepts.elim
    · rfl
  refine Passes.step rfl ?_ ?_
  · have placed : misplacedInIf (⟨instrs, stack, hints,
        .lparen :: (.keyword text :: written ++ later)⟩ :
          ExpressionParser BlockType TryTable Row) = false := by
      rw [misplacedInIf.eq_def]
      split <;> rfl
    rw [parseStep, placed]
    change parseLeft arguments ⟨instrs, stack, hints, .keyword text :: written ++ later⟩ = _
    rw [parseLeft, notIf]
    change (parseInstruction arguments (Token.keyword text :: written ++ later) >>= _) = _
    rw [read]
    rfl
  · have tokens : (openFolded (⟨instrs, stack, hints, later⟩ :
        ExpressionParser BlockType TryTable Row) instruction).tokens = later := by
      cases instruction <;> rfl
    rw [tokens]
    simp only [List.cons_append, List.length_cons, List.length_append]
    omega

/-- A level is closed. -/
theorem passes_close {level : Level BlockType TryTable Row}
    {closed : List (Instruction BlockType TryTable Row)}
    (closes : parseRight ⟨instrs, level :: stack, hints, later⟩ = .ok ⟨closed, stack, hints, later⟩) :
    Passes arguments ⟨instrs, level :: stack, hints, .rparen :: later⟩
      ⟨closed, stack, hints, later⟩ := by
  refine Passes.step rfl ?_ (Nat.lt_succ_self _)
  have placed : misplacedInIf (⟨instrs, level :: stack, hints, .rparen :: later⟩ :
      ExpressionParser BlockType TryTable Row) = false := by
    cases level <;> rfl
  rw [parseStep, placed]
  exact closes

theorem passes_then {opener : Instruction BlockType TryTable Row} :
    Passes arguments
      ⟨instrs, .if_ (.clause opener) :: stack, hints, .lparen :: .keyword "then" :: later⟩
      ⟨instrs ++ [opener], .ifArm :: .if_ .then_ :: stack, hints, later⟩ :=
  Passes.step rfl rfl (Nat.lt_trans (Nat.lt_succ_self _) (Nat.lt_succ_self _))

theorem passes_else :
    Passes arguments ⟨instrs, .if_ .then_ :: stack, hints, .lparen :: .keyword "else" :: later⟩
      ⟨instrs ++ [.else_ none], .ifArm :: .if_ .else_ :: stack, hints, later⟩ :=
  Passes.step rfl rfl (Nat.lt_trans (Nat.lt_succ_self _) (Nat.lt_succ_self _))

end Steps

/-! ## Bodies -/

section Levels

variable {layout : Layout} {stack : List (Level BlockType TryTable Row)} {later : List Token}
  {instruction : Instruction BlockType TryTable Row}

theorem accepts_endWith : Accepts layout (.endWith instruction :: stack) := trivial

theorem accepts_ifArm : Accepts layout (.ifArm :: stack) := trivial

theorem accepts_clause : Accepts .folded (.if_ (.clause instruction) :: stack) := rfl

theorem Accepts.folded (accepts : Accepts layout stack) : Accepts .folded stack := by
  rw [Accepts.eq_def] at accepts ⊢
  split at accepts <;> simp_all

theorem endsArguments_rparen : EndsArguments arguments (.rparen :: later) := trivial

theorem endsArguments_then : EndsArguments arguments (.lparen :: .keyword "then" :: later) :=
  .inr (.inl rfl)

end Levels

/-- Whatever levels are open, a body is parsed to what it emits. -/
theorem passes_write (reads : Reads arguments texts) {layout : Layout}
    (body : Body BlockType TryTable Row layout)
    (instrs : List (Instruction BlockType TryTable Row))
    {stack : List (Level BlockType TryTable Row)} {hints : List BranchHint} {later : List Token}
    (accepts : Accepts layout stack) (ends : EndsArguments arguments later) :
    Passes arguments ⟨instrs, stack, hints, texts.write body later⟩
      ⟨instrs ++ body.emitted, stack, hints, later⟩ := by
  induction body generalizing instrs stack later with
  | nil =>
      rw [Body.emitted, List.append_nil]
      exact .refl
  | flat instruction rest induction =>
      refine (passes_flat reads instruction accepts (endsArguments_write reads rest ends)).trans ?_
      have same : instrs ++ (Body.flat instruction rest).emitted =
          instrs ++ [instruction] ++ rest.emitted := by simp [Body.emitted]
      rw [same]
      exact induction _ accepts ends
  | folded operation operands rest operandsInduction restInduction =>
      refine (passes_open reads operation.instruction accepts.folded
        (endsArguments_write reads operands endsArguments_rparen)).trans ?_
      have same : instrs ++ (Body.folded operation operands rest).emitted =
          (if operation.isUzumaki then
              instrs ++ [operation.instruction] ++ operands.emitted ++ [.end_ none]
            else instrs ++ operands.emitted ++ [operation.instruction]) ++ rest.emitted := by
        rw [Body.emitted]
        split <;> simp
      rw [same]
      cases operation with
      | row row =>
          refine (operandsInduction instrs accepts_endWith endsArguments_rparen).trans ?_
          exact (passes_close rfl).trans (restInduction _ accepts ends)
      | i32Uzumaki =>
          refine (operandsInduction (instrs ++ [.i32Uzumaki]) accepts_endWith endsArguments_rparen).trans ?_
          exact (passes_close rfl).trans (restInduction _ accepts ends)
      | i64Uzumaki =>
          refine (operandsInduction (instrs ++ [.i64Uzumaki]) accepts_endWith endsArguments_rparen).trans ?_
          exact (passes_close rfl).trans (restInduction _ accepts ends)
  | block opener body rest bodyInduction restInduction =>
      refine (passes_open reads opener.instruction accepts.folded
        (endsArguments_write reads body endsArguments_rparen)).trans ?_
      have same : instrs ++ (Body.block opener body rest).emitted =
          instrs ++ [opener.instruction] ++ body.emitted ++ [.end_ none] ++ rest.emitted := by
        simp [Body.emitted]
      have opened {later : List Token} : openFolded ⟨instrs, stack, hints, later⟩
          (opener.instruction : Instruction BlockType TryTable Row) =
            ⟨instrs ++ [opener.instruction], .endWith (.end_ none) :: stack, hints, later⟩ := by
        cases opener <;> rfl
      rw [same, opened]
      refine (bodyInduction _ accepts_endWith endsArguments_rparen).trans ?_
      exact (passes_close rfl).trans (restInduction _ accepts ends)
  | ifThen blockType clause then_ rest clauseInduction thenInduction restInduction =>
      refine (passes_open reads (.if_ blockType) accepts.folded
        (endsArguments_write reads clause endsArguments_then)).trans ?_
      refine (clauseInduction _ accepts_clause endsArguments_then).trans (passes_then.trans ?_)
      have same : instrs ++ (Body.ifThen blockType clause then_ rest).emitted =
          instrs ++ clause.emitted ++ [.if_ blockType] ++ then_.emitted ++ [.end_ none] ++
            rest.emitted := by
        simp [Body.emitted]
      rw [same]
      refine (thenInduction _ accepts_ifArm endsArguments_rparen).trans ((passes_close rfl).trans ?_)
      exact (passes_close rfl).trans (restInduction _ accepts ends)
  | ifElse blockType clause then_ else_ rest clauseInduction thenInduction elseInduction
      restInduction =>
      refine (passes_open reads (.if_ blockType) accepts.folded
        (endsArguments_write reads clause endsArguments_then)).trans ?_
      refine (clauseInduction _ accepts_clause endsArguments_then).trans (passes_then.trans ?_)
      have same : instrs ++ (Body.ifElse blockType clause then_ else_ rest).emitted =
          instrs ++ clause.emitted ++ [.if_ blockType] ++ then_.emitted ++ [.else_ none] ++
            else_.emitted ++ [.end_ none] ++ rest.emitted := by
        simp [Body.emitted]
      rw [same]
      refine (thenInduction _ accepts_ifArm endsArguments_rparen).trans ((passes_close rfl).trans ?_)
      refine passes_else.trans ((elseInduction _ accepts_ifArm endsArguments_rparen).trans ?_)
      refine (passes_close rfl).trans ((passes_close rfl).trans ?_)
      exact restInduction _ accepts ends

/-- A body ends where the enclosing form does. -/
theorem parse_write (reads : Reads arguments texts) (body : Body BlockType TryTable Row .mixed)
    {later : List Token} (ends : isEmpty later = true) :
    parse arguments (texts.write body later) = .ok (⟨body.emitted, []⟩, later) := by
  have endsArguments : EndsArguments arguments later := by
    rw [isEmpty.eq_def] at ends
    split at ends
    · trivial
    · trivial
    · cases ends
  have accepts : Accepts .mixed ([] : List (Level BlockType TryTable Row)) := trivial
  rcases (passes_write reads body [] accepts endsArguments).parseLoop (Nat.lt_succ_self _) with
    ⟨fuel, enough, same⟩
  cases fuel with
  | zero => exact absurd enough (Nat.not_lt_zero _)
  | succ fuel =>
      have ended : parseLoop arguments (fuel + 1) ⟨[] ++ body.emitted, [], [], later⟩ =
          .ok ⟨body.emitted, [], [], later⟩ := by
        rw [parseLoop, ends]
        rfl
      rw [parse, same, ended]
      rfl

/-! ## Agreement -/

theorem emitted_length {layout : Layout} (body : Body BlockType TryTable Row layout) :
    body.emitted.length = body.unfold.length + body.foldedUzumakis := by
  induction body with
  | nil => rfl
  | flat instruction rest induction =>
      simp only [Body.emitted, Body.unfold, Body.foldedUzumakis, List.length_cons, induction]
      omega
  | folded operation operands rest operandsInduction restInduction =>
      rw [Body.emitted, Body.unfold, Body.foldedUzumakis]
      split <;> simp only [List.length_append, List.length_cons, operandsInduction, restInduction]
        <;> omega
  | block opener body rest bodyInduction restInduction =>
      simp only [Body.emitted, Body.unfold, Body.foldedUzumakis, List.length_append,
        List.length_cons, bodyInduction, restInduction]
      omega
  | ifThen blockType clause then_ rest clauseInduction thenInduction restInduction =>
      simp only [Body.emitted, Body.unfold, Body.foldedUzumakis, List.length_append,
        List.length_cons, clauseInduction, thenInduction, restInduction]
      omega
  | ifElse blockType clause then_ else_ rest clauseInduction thenInduction elseInduction
      restInduction =>
      simp only [Body.emitted, Body.unfold, Body.foldedUzumakis, List.length_append,
        List.length_cons, clauseInduction, thenInduction, elseInduction, restInduction]
      omega

/-- Without a folded uzumaki, the flat form is emitted. -/
theorem emitted_unfold {layout : Layout} (body : Body BlockType TryTable Row layout)
    (noUzumaki : body.foldedUzumakis = 0) : body.emitted = body.unfold := by
  induction body with
  | nil => rfl
  | flat instruction rest induction =>
      rw [Body.emitted, Body.unfold, induction noUzumaki]
  | folded operation operands rest operandsInduction restInduction =>
      rw [Body.foldedUzumakis] at noUzumaki
      have notUzumaki : ¬ operation.isUzumaki = true := by
        intro isUzumaki
        rw [if_pos isUzumaki] at noUzumaki
        omega
      rw [Body.emitted, Body.unfold, if_neg notUzumaki, operandsInduction (by omega),
        restInduction (by omega)]
  | block opener body rest bodyInduction restInduction =>
      rw [Body.foldedUzumakis] at noUzumaki
      rw [Body.emitted, Body.unfold, bodyInduction (by omega), restInduction (by omega)]
  | ifThen blockType clause then_ rest clauseInduction thenInduction restInduction =>
      rw [Body.foldedUzumakis] at noUzumaki
      rw [Body.emitted, Body.unfold, clauseInduction (by omega), thenInduction (by omega),
        restInduction (by omega)]
  | ifElse blockType clause then_ else_ rest clauseInduction thenInduction elseInduction
      restInduction =>
      rw [Body.foldedUzumakis] at noUzumaki
      rw [Body.emitted, Body.unfold, clauseInduction (by omega), thenInduction (by omega),
        elseInduction (by omega), restInduction (by omega)]

theorem emitted_ofInstructions (instructions : List (Instruction BlockType TryTable Row)) :
    (Body.ofInstructions instructions).emitted = instructions := by
  induction instructions with
  | nil => rfl
  | cons instruction instructions induction => exact congrArg (instruction :: ·) induction

def Instruction.isEnd : Instruction BlockType TryTable Row → Bool
  | .end_ _ => true
  | _ => false

/-- The flat form has the `end`s of the body. -/
theorem unfold_ends {layout : Layout} (body : Body BlockType TryTable Row layout) :
    body.unfold.countP Instruction.isEnd = body.ends := by
  induction body with
  | nil => rfl
  | flat instruction rest induction =>
      rw [Body.unfold, List.countP_cons, induction]
      cases instruction <;> rfl
  | folded operation operands rest operandsInduction restInduction =>
      rw [Body.unfold, List.countP_append, List.countP_cons, operandsInduction, restInduction]
      cases operation <;> rfl
  | block opener body rest bodyInduction restInduction =>
      have notEnd : ¬ (opener.instruction : Instruction BlockType TryTable Row).isEnd = true := by
        cases opener <;> exact Bool.false_ne_true
      rw [Body.unfold, Body.ends, List.countP_append, List.countP_cons_of_neg notEnd,
        List.countP_cons_of_pos rfl, bodyInduction, restInduction]
      omega
  | ifThen blockType clause then_ rest clauseInduction thenInduction restInduction =>
      rw [Body.unfold, Body.ends, List.countP_append, List.countP_append,
        List.countP_cons_of_neg Bool.false_ne_true, List.countP_cons_of_pos rfl, clauseInduction,
        thenInduction, restInduction]
      omega
  | ifElse blockType clause then_ else_ rest clauseInduction thenInduction elseInduction
      restInduction =>
      rw [Body.unfold, Body.ends, List.countP_append, List.countP_append, List.countP_append,
        List.countP_cons_of_neg Bool.false_ne_true, List.countP_cons_of_neg Bool.false_ne_true,
        List.countP_cons_of_pos rfl, clauseInduction, thenInduction, elseInduction, restInduction]
      omega

/-- The folded and the flat text of a body are parsed to one list of instructions, which is the flat
form of the body and has an `end` for each of its blocks. -/
def FormsAgree (arguments : Arguments BlockType TryTable Row) (texts : Texts BlockType TryTable Row)
    (body : Body BlockType TryTable Row .mixed) (later : List Token) : Prop :=
  ∃ expression, parse arguments (texts.write body later) = .ok (expression, later) ∧
    parse arguments (texts.write (.ofInstructions body.unfold) later) = .ok (expression, later) ∧
    expression.instrs = body.unfold ∧ expression.instrs.countP Instruction.isEnd = body.ends

/-- The forms agree exactly when no uzumaki is folded. -/
theorem formsAgree_iff (arguments : Arguments BlockType TryTable Row)
    (texts : Texts BlockType TryTable Row) (reads : Reads arguments texts)
    (body : Body BlockType TryTable Row .mixed) (later : List Token)
    (ends : isEmpty later = true) :
    FormsAgree arguments texts body later ↔ body.foldedUzumakis = 0 := by
  have parsed := parse_write reads body ends
  have flat := parse_write reads (.ofInstructions body.unfold) ends
  rw [emitted_ofInstructions] at flat
  constructor
  · rintro ⟨expression, isParsed, _, isFlat, _⟩
    cases parsed.symm.trans isParsed
    have lengths := emitted_length body
    rw [show body.emitted = body.unfold from isFlat] at lengths
    omega
  · intro noUzumaki
    rw [emitted_unfold body noUzumaki] at parsed
    exact ⟨_, parsed, flat, rfl, unfold_ends body⟩

/-! ## Instructions without arguments -/

inductive PlainRow
  | drop
  | i32Add
  deriving DecidableEq, Repr

def plainArguments : Arguments Unit Empty PlainRow where
  blockType := fun tokens => .ok ((), tokens)
  tryTable := fun _ => .error (.message "expected an instruction")
  row
    | "drop" => some fun tokens => .ok (.drop, tokens)
    | "i32.add" => some fun tokens => .ok (.i32Add, tokens)
    | _ => none

def plainTexts : Texts Unit Empty PlainRow where
  blockType := fun _ => []
  tryTable := nofun
  keyword
    | .drop => "drop"
    | .i32Add => "i32.add"
  arguments := fun _ => []

theorem plainTexts_reads : Reads plainArguments plainTexts where
  blockType := fun _ _ _ => rfl
  tryTable := nofun
  row
    | .drop => ⟨_, rfl, fun _ _ => rfl⟩
    | .i32Add => ⟨_, rfl, fun _ _ => rfl⟩
  keyword
    | .drop => by decide
    | .i32Add => by decide

/-- `(forall (drop (i32.add))) drop` -/
theorem formsAgree_forall :
    FormsAgree plainArguments plainTexts
      (.block (.forall_ ()) (.folded (.row .drop) (.folded (.row .i32Add) .nil .nil) .nil)
        (.flat (.row .drop) .nil)) [.rparen] :=
  (formsAgree_iff plainArguments plainTexts plainTexts_reads _ [.rparen] rfl).mpr rfl

/-- `(drop (i32.uzumaki))` has one `end` too many. -/
theorem foldedUzumaki_disagrees :
    ¬ FormsAgree plainArguments plainTexts
      (.folded (.row .drop) (.folded .i32Uzumaki .nil .nil) .nil) [] := by
  have parsed : parse plainArguments [.lparen, .keyword "drop", .lparen, .keyword "i32.uzumaki",
      .rparen, .rparen] = .ok (⟨[.i32Uzumaki, .end_ none, .row .drop], []⟩, []) := rfl
  rintro ⟨expression, isParsed, _, isFlat, _⟩
  cases parsed.symm.trans isParsed
  cases isFlat

end Inference.Wat.Expr

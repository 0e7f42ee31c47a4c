import Inference.WasmToV.Rendering
import Inference.WasmToV.Support

/-! # Operators that appear in a body

A body appears when the texts of all its operators follow each other in the
emitted text, separated by layout only. Exactly the supported bodies do.
-/

namespace Inference.WasmToV

/-! ## Interleaved texts -/

/-- The characters that the printer puts between operators. -/
def isLayout (symbol : Char) : Bool :=
  symbol = ' ' || symbol = '\n' || symbol = '(' || symbol = ')' || symbol = ':' ||
    symbol = 'n' || symbol = 'i' || symbol = 'l'

/-- The texts stand in this order in the symbols, and only layout stands
between them. -/
inductive Interleaves : List String → List Char → Prop
  | done (layout : gap.all isLayout = true) : Interleaves [] gap
  | next (layout : gap.all isLayout = true) (rest : Interleaves texts following) :
      Interleaves (text :: texts) (gap ++ (text.toList ++ following))

variable {texts : List String} {symbols gap : List Char}

theorem Interleaves.prepend
    (layout : gap.all isLayout = true) (interleaves : Interleaves texts symbols) :
    Interleaves texts (gap ++ symbols) := by
  cases interleaves with
  | done rest => exact .done (by simp [layout, rest])
  | next front rest =>
      rw [← List.append_assoc]
      exact .next (by simp [layout, front]) rest

/-- A text of an operator: with the local names of the body or without. -/
def IsTextOf (names : Option NameMap) (op : Operator) (text : String) : Prop :=
  translateBasicOperator op names = .ok text ∨ translateBasicOperator op none = .ok text

/-- Every item was read, and every printed operator has its place in the text. -/
def OperatorsAppear (names : Option NameMap) (items : List OperatorItem) (text : String) : Prop :=
  (∀ item ∈ items, ∃ op, item = .ok op) ∧
    ∃ texts, List.Forall₂ (IsTextOf names) (printedOperators items) texts ∧
      Interleaves texts text.toList

/-- The expression is translated and all its operators appear in the result. -/
def ExpressionAppears (names : Option NameMap) (items : List OperatorItem) : Prop :=
  ∃ text, translateExpr items names = .ok text ∧ OperatorsAppear names items text

/-! ## Supported expressions -/

/-- Every item can be read and holds a supported operator, the last one does not
open a condition, and only closing operators stand behind the end. -/
structure SupportedExpression (items : List OperatorItem) : Prop where
  operators : ∀ item ∈ items, ∃ op, item = .ok op ∧ op.support = .supported
  lastOperator : ∀ op, items.getLast? = some (.ok op) → op.role ≠ .opensCondition
  behindEnd : ∀ op, .ok op ∈ (scan [] items).2 → op.role = .closes

/-! ## Operator texts -/

/-- The text starts with a symbol that layout does not contain. -/
def StartsTerm (text : String) : Prop :=
  ∃ rest, text.toList = 'B' :: rest

theorem StartsTerm.append {first : String} (starts : StartsTerm first) (second : String) :
    StartsTerm (first ++ second) := by
  obtain ⟨rest, spelled⟩ := starts
  exact ⟨rest ++ second.toList, by rw [String.toList_append, spelled]; rfl⟩

theorem startsTerm_plain (opcode : PlainOpcode) : StartsTerm (plainText opcode) := by
  cases opcode <;> exact ⟨_, String.toList_ofList⟩

theorem startsTerm_memory (opcode : MemoryOpcode) : StartsTerm (memoryHead opcode) := by
  cases opcode <;> exact ⟨_, String.toList_ofList⟩

theorem startsTerm_memoryLane (opcode : MemoryLaneOpcode) :
    StartsTerm (memoryLaneHead opcode) := by
  cases opcode <;> exact ⟨_, String.toList_ofList⟩

theorem startsTerm_lane (opcode : LaneOpcode) : StartsTerm (laneHead opcode) := by
  cases opcode <;> exact ⟨_, String.toList_ofList⟩

variable {text : String}

theorem startsTerm_opener {instruction : String} (starts : StartsTerm instruction)
    {blockty : BlockType}
    (translated : translateOpener instruction blockty = .ok text) : StartsTerm text := by
  obtain ⟨blockText, _, assembled⟩ := bind_ok translated
  cases assembled
  exact ((starts.append _).append _).append _

theorem startsTerm_local {instruction : String} (starts : StartsTerm instruction)
    (localIndex : Nat) (names : Option NameMap) :
    StartsTerm (translateLocal instruction localIndex names) := by
  unfold translateLocal
  split
  · exact ((((starts.append _).append _).append _).append _).append _
  · exact ((starts.append _).append _).append _

theorem startsTerm_brTable {targets : BrTable}
    (translated : translateBrTable targets = .ok text) : StartsTerm text := by
  unfold translateBrTable at translated
  split at translated
  · cases translated
    exact ⟨_, String.toList_ofList⟩
  · obtain ⟨labelidx, _, assembled⟩ := bind_ok translated
    cases assembled
    exact (StartsTerm.append ⟨_, String.toList_ofList⟩ _).append _

variable {op : Operator} {names : Option NameMap}

theorem startsTerm_translated
    (printed : op.role ≠ .closes) (translated : translateBasicOperator op names = .ok text) :
    StartsTerm text := by
  have literal : ∀ word : List Char, StartsTerm (String.ofList ('B' :: word)) :=
    fun word => ⟨word, String.toList_ofList⟩
  cases op with
  | block _ | loop _ | if_ _ | forall_ _ | exists_ _ | assume _ | unique _ =>
      exact startsTerm_opener (literal _) translated
  | else_ | end_ => exact absurd rfl printed
  | localGet _ | localSet _ | localTee _ =>
      cases translated
      exact startsTerm_local (literal _) _ _
  | plain opcode =>
      cases translated
      exact startsTerm_plain opcode
  | brTable targets => exact startsTerm_brTable translated
  | memory opcode memarg =>
      cases translated
      exact ((startsTerm_memory opcode).append _).append _
  | memoryLane opcode memarg lane =>
      cases translated
      exact (((startsTerm_memoryLane opcode).append _).append _).append _
  | lane opcode lane =>
      cases translated
      exact (startsTerm_lane opcode).append _
  | memorySize mem | memoryGrow mem =>
      cases mem with
      | zero =>
          cases translated
          exact literal _
      | succ mem => cases translated
  | atomicFence | atomicMemory _ _ | atomicIndex _ _ _ | atomicField _ _ _ _
  | unimplemented _ _ => cases translated
  | br _ | call _ | memoryInit _ _ | dataDrop _ | v128Const _ =>
      cases translated
      exact (literal _).append _
  | brIf _ | globalGet _ | globalSet _ | refFunc _ | tableFill _ | tableGet _ | tableSet _
  | tableGrow _ | tableSize _ | i32Const _ | i64Const _ | f32Const _ | f64Const _ =>
      cases translated
      exact ((literal _).append _).append _
  | callIndirect _ _ =>
      cases translated
      exact (((literal _).append _).append _).append _
  | memoryCopy _ _ | memoryFill _ =>
      cases translated
      exact literal _

/-- The name of a local can only add a comment to its text. -/
theorem translateLocal_comment (instruction : String) (localIndex : Nat)
    (names : Option NameMap) :
    translateLocal instruction localIndex names = translateLocal instruction localIndex none ∨
      ∃ rest, (translateLocal instruction localIndex names).toList =
        (translateLocal instruction localIndex none).toList ++ ' ' :: '(' :: '*' :: rest := by
  unfold translateLocal
  cases names.bind (·.lookup localIndex) with
  | none => exact .inl rfl
  | some name =>
      refine .inr ⟨name.toList ++ "*)".toList, ?_⟩
      have opening : "%N (*".toList = ['%', 'N', ' ', '(', '*'] := String.toList_ofList
      have percent : "%N".toList = ['%', 'N'] := String.toList_ofList
      simp only [String.toList_append, opening, Option.bind_none, percent, List.append_assoc,
        List.cons_append, List.nil_append]

theorem named_comment {named bare : String}
    (translated : translateBasicOperator op names = .ok named)
    (unnamed : translateBasicOperator op none = .ok bare) :
    named = bare ∨ ∃ rest, named.toList = bare.toList ++ ' ' :: '(' :: '*' :: rest := by
  cases op with
  | localGet localIndex | localSet localIndex | localTee localIndex =>
      cases translated
      cases unnamed
      exact translateLocal_comment _ localIndex names
  | _ => exact .inl (Except.ok.inj (translated.symm.trans unnamed))

/-- Two texts of one operator are equal, or one of them has a comment more. -/
theorem isTextOf_overlap {other : String}
    (textOf : IsTextOf names op text) (otherTextOf : IsTextOf names op other) :
    text = other ∨ (∃ rest, text.toList = other.toList ++ ' ' :: '(' :: '*' :: rest) ∨
      ∃ rest, other.toList = text.toList ++ ' ' :: '(' :: '*' :: rest := by
  rcases textOf with named | unnamed
  · rcases otherTextOf with otherNamed | otherUnnamed
    · exact .inl (Except.ok.inj (named.symm.trans otherNamed))
    · rcases named_comment named otherUnnamed with same | comment
      · exact .inl same
      · exact .inr (.inl comment)
  · rcases otherTextOf with otherNamed | otherUnnamed
    · rcases named_comment otherNamed unnamed with same | comment
      · exact .inl same.symm
      · exact .inr (.inr comment)
    · exact .inl (Except.ok.inj (unnamed.symm.trans otherUnnamed))

theorem isTextOf_starts
    (printed : op.role ≠ .closes) (textOf : IsTextOf names op text) : StartsTerm text := by
  rcases textOf with translated | translated <;> exact startsTerm_translated printed translated

/-! ## Reading the text back -/

theorem Interleaves.uncons (interleaves : Interleaves (text :: texts) symbols) :
    ∃ gap following, gap.all isLayout = true ∧ Interleaves texts following ∧
      symbols = gap ++ (text.toList ++ following) := by
  cases interleaves with
  | next layout rest => exact ⟨_, _, layout, rest, rfl⟩

theorem dropWhile_layout (layout : gap.all isLayout = true) (symbols : List Char) :
    (gap ++ symbols).dropWhile isLayout = symbols.dropWhile isLayout :=
  List.dropWhile_append_of_pos (by simpa using layout)

/-- Layout is followed by a term or by nothing, never by a comment. -/
theorem Interleaves.not_comment (gap : List Char) {rest : List Char}
    (starts : ∀ text ∈ texts, StartsTerm text) (layout : gap.all isLayout = true) :
    ¬ Interleaves texts (gap ++ '*' :: rest) := by
  intro interleaves
  cases texts with
  | nil =>
      cases interleaves with
      | done allLayout => simp [isLayout] at allLayout
  | cons text texts =>
      obtain ⟨front, following, frontLayout, _, spelled⟩ := interleaves.uncons
      obtain ⟨termRest, term⟩ := starts text (by simp)
      have skipped := congrArg (List.dropWhile isLayout) spelled
      rw [dropWhile_layout layout, dropWhile_layout frontLayout, term] at skipped
      simp [isLayout] at skipped

theorem forall_starts {ops : List Operator} (printed : ∀ op ∈ ops, op.role ≠ .closes)
    (translated : List.Forall₂ (IsTextOf names) ops texts) :
    ∀ text ∈ texts, StartsTerm text := by
  induction translated with
  | nil => simp
  | cons textOf _ induction =>
      intro text member
      rcases List.mem_cons.mp member with rfl | later
      · exact isTextOf_starts (printed _ (by simp)) textOf
      · exact induction (fun op opMember => printed op (by simp [opMember])) text later

/-- Two readings of one text start with their first terms at the same place. -/
private theorem same_terms {other : String} {otherGap following otherFollowing : List Char}
    (starts : StartsTerm text) (otherStarts : StartsTerm other)
    (layout : gap.all isLayout = true) (otherLayout : otherGap.all isLayout = true)
    (spelled : gap ++ (text.toList ++ following) =
      otherGap ++ (other.toList ++ otherFollowing)) :
    text.toList ++ following = other.toList ++ otherFollowing := by
  obtain ⟨rest, term⟩ := starts
  obtain ⟨otherRest, otherTerm⟩ := otherStarts
  have skipped := congrArg (List.dropWhile isLayout) spelled
  rw [dropWhile_layout layout, dropWhile_layout otherLayout, term, otherTerm] at skipped
  rw [term, otherTerm]
  simpa [isLayout, List.dropWhile_cons] using skipped

/-- Of two readings of one text, the second cannot hold further operators. -/
theorem interleaves_complete {ops extra : List Operator}
    {others : List String} (printed : ∀ op ∈ ops ++ extra, op.role ≠ .closes)
    (first : List.Forall₂ (IsTextOf names) ops texts) (reading : Interleaves texts symbols)
    (second : List.Forall₂ (IsTextOf names) (ops ++ extra) others)
    (otherReading : Interleaves others symbols) : extra = [] := by
  induction ops generalizing texts others symbols with
  | nil =>
      cases first
      cases reading with
      | done allLayout =>
          cases extra with
          | nil => rfl
          | cons op rest =>
              cases second with
              | cons textOf _ =>
                  obtain ⟨front, following, _, _, rfl⟩ := otherReading.uncons
                  obtain ⟨termRest, term⟩ := isTextOf_starts (printed op (by simp)) textOf
                  rw [term] at allLayout
                  simp [isLayout] at allLayout
  | cons op rest induction =>
      cases first with
      | cons textOf firstRest =>
          cases second with
          | cons otherTextOf secondRest =>
              have restPrinted : ∀ op ∈ rest ++ extra, op.role ≠ .closes :=
                fun op member => printed op (List.mem_cons_of_mem _ member)
              have firstStarts := forall_starts
                (fun op member => restPrinted op (List.mem_append_left _ member)) firstRest
              have secondStarts := forall_starts restPrinted secondRest
              obtain ⟨gap, following, layout, later, rfl⟩ := reading.uncons
              obtain ⟨otherGap, otherFollowing, otherLayout, otherLater, spelled⟩ :=
                otherReading.uncons
              have here := printed op (by simp)
              have terms := same_terms (isTextOf_starts here textOf)
                (isTextOf_starts here otherTextOf) layout otherLayout spelled
              rcases isTextOf_overlap textOf otherTextOf with
                rfl | ⟨comment, longer⟩ | ⟨comment, longer⟩
              · rw [List.append_cancel_left terms] at later
                exact induction restPrinted firstRest later secondRest otherLater
              · rw [longer, List.append_assoc] at terms
                rw [← List.append_cancel_left terms] at otherLater
                exact absurd otherLater
                  (Interleaves.not_comment [' ', '('] secondStarts rfl)
              · rw [longer, List.append_assoc] at terms
                rw [List.append_cancel_left terms] at later
                exact absurd later
                  (Interleaves.not_comment [' ', '('] firstStarts rfl)

/-! ## Printed lines hold the operators -/

theorem isLayout_offset (tabsCount : Nat) : (offsetText tabsCount).toList.all isLayout = true := by
  have spaces : "  ".toList = [' ', ' '] := String.toList_ofList
  simp [offsetText, spaces, isLayout]

theorem isTextOf_namesAt {depth : Nat}
    (translated : translateBasicOperator op (namesAt names depth) = .ok text) :
    IsTextOf names op text := by
  cases depth with
  | zero => exact .inl translated
  | succ depth => exact .inr translated

/-- One term between its offset and the end of its line. -/
private theorem interleaves_line {ending restText : String}
    {tabsCount : Nat} {tail : List Char} (layout : ending.toList.all isLayout = true)
    (rest : Interleaves texts (restText.toList ++ tail)) :
    Interleaves (text :: texts)
      ((offsetText tabsCount ++ text ++ ending ++ restText).toList ++ tail) := by
  simp only [String.toList_append, List.append_assoc]
  exact .next (isLayout_offset tabsCount) (rest.prepend layout)

/-- A line without a term. -/
private theorem interleaves_nil {ending restText : String}
    {tabsCount : Nat} {tail : List Char} (layout : ending.toList.all isLayout = true)
    (rest : Interleaves texts (restText.toList ++ tail)) :
    Interleaves texts
      ((offsetText tabsCount ++ "nil" ++ ending ++ restText).toList ++ tail) := by
  have sealed : "nil".toList.all isLayout = true := by
    rw [String.toList_ofList]
    rfl
  simp only [String.toList_append, List.append_assoc]
  exact ((rest.prepend layout).prepend sealed).prepend (isLayout_offset tabsCount)

/-- The lines that are rendered hold the texts of their operators, in order. -/
theorem renderTokens_interleaves {tabs depth : Nat} {tokens : List Token}
    (rendered : renderTokens names tabs depth tokens = .ok text) :
    ∃ texts, List.Forall₂ (IsTextOf names) (tokens.flatMap Token.operators) texts ∧
      ∀ tail, tail.all isLayout = true → Interleaves texts (text.toList ++ tail) := by
  induction tokens generalizing depth text with
  | nil =>
      cases rendered
      exact ⟨[], .nil, fun tail layout => .done layout⟩
  | cons token rest induction =>
      obtain ⟨line, lineRendered, remaining⟩ := bind_ok rendered
      obtain ⟨restText, restRendered, assembled⟩ := bind_ok remaining
      cases assembled
      obtain ⟨texts, translated, interleaves⟩ := induction restRendered
      cases token with
      | line op =>
          obtain ⟨opText, opTranslated, opLine⟩ := bind_ok lineRendered
          cases opLine
          refine ⟨opText :: texts, .cons (isTextOf_namesAt opTranslated) translated, ?_⟩
          intro tail layout
          exact interleaves_line (by rw [listExt, String.toList_ofList]; rfl)
            (interleaves tail layout)
      | opened label =>
          obtain ⟨labelText, labelTranslated, labelLine⟩ := bind_ok lineRendered
          cases labelLine
          refine ⟨labelText :: texts, .cons (isTextOf_namesAt labelTranslated) translated, ?_⟩
          intro tail layout
          exact interleaves_line (by rw [String.toList_ofList]; rfl) (interleaves tail layout)
      | nextArm =>
          cases lineRendered
          refine ⟨texts, translated, fun tail layout => ?_⟩
          exact interleaves_nil (by rw [String.toList_ofList]; rfl) (interleaves tail layout)
      | closed =>
          cases lineRendered
          refine ⟨texts, translated, fun tail layout => ?_⟩
          exact interleaves_nil
            (by rw [String.toList_append, String.toList_ofList, String.toList_ofList]; rfl)
            (interleaves tail layout)

theorem renderTokens_ok (names : Option NameMap) (tabs depth : Nat) {tokens : List Token}
    (supported : ∀ op ∈ tokens.flatMap Token.operators, op.support = .supported) :
    ∃ text, renderTokens names tabs depth tokens = .ok text := by
  induction tokens generalizing depth with
  | nil => exact ⟨"", rfl⟩
  | cons token rest induction =>
      have lineRendered : ∃ line, token.render names tabs depth = .ok line := by
        cases token with
        | line op | opened op =>
            obtain ⟨text, translated⟩ :=
              translateBasicOperator_ok (supported op (by simp [Token.operators]))
                (namesAt names depth)
            exact ⟨_, by rw [Token.render, translated, ok_bind]; rfl⟩
        | nextArm | closed => exact ⟨_, rfl⟩
      obtain ⟨line, lineRendered⟩ := lineRendered
      obtain ⟨restText, restRendered⟩ := induction (token.depthAfter depth)
        fun op member => supported op (by
          rw [List.flatMap_cons]
          exact List.mem_append_right _ member)
      exact ⟨line ++ restText, by rw [renderTokens, lineRendered, ok_bind, restRendered]; rfl⟩

/-! ## Exactly the supported expressions appear -/

variable {items : List OperatorItem}

theorem mem_printedOperators
    (member : .ok op ∈ items) (printed : op.role ≠ .closes) : op ∈ printedOperators items := by
  induction items with
  | nil => cases member
  | cons item rest induction =>
      cases item with
      | error error =>
          simp only [printedOperators]
          exact induction (by simpa using member)
      | ok first =>
          rcases List.mem_cons.mp member with same | later
          · cases same
            simp [printedOperators, printed]
          · by_cases closes : first.role = .closes
            · simpa [printedOperators, closes] using induction later
            · simp [printedOperators, closes, induction later]

theorem printedOperators_mem (member : op ∈ printedOperators items) : .ok op ∈ items := by
  induction items with
  | nil => simp [printedOperators] at member
  | cons item rest induction =>
      cases item with
      | error error =>
          exact List.mem_cons_of_mem _ (induction (by simpa [printedOperators] using member))
      | ok first =>
          by_cases closes : first.role = .closes
          · exact List.mem_cons_of_mem _
              (induction (by simpa [printedOperators, closes] using member))
          · simp only [printedOperators, closes, if_false, List.mem_cons] at member
            rcases member with rfl | later
            · exact List.mem_cons_self
            · exact List.mem_cons_of_mem _ (induction later)

theorem SupportedExpression.appears
    (supported : SupportedExpression items) (names : Option NameMap) :
    ExpressionAppears names items := by
  have readable : ∀ item ∈ items, ∃ op, item = .ok op := fun item member =>
    (supported.operators item member).imp fun _ => And.left
  obtain ⟨tokens, lines⟩ := skeleton_some [] readable supported.lastOperator
  have nothingBehind : printedOperators (scan [] items).2 = [] := by
    refine List.eq_nil_iff_forall_not_mem.mpr fun op member => ?_
    exact printedOperators_printed _ op member (supported.behindEnd op (printedOperators_mem member))
  have printed := printedOperators_scan lines
  rw [nothingBehind, List.append_nil] at printed
  have tokensSupported : ∀ op ∈ tokens.flatMap Token.operators, op.support = .supported := by
    rw [← printed]
    intro op member
    obtain ⟨_, same, opSupported⟩ := supported.operators _ (printedOperators_mem member)
    cases same
    exact opSupported
  obtain ⟨text, rendered⟩ := renderTokens_ok names 2 0 tokensSupported
  obtain ⟨texts, translated, interleaves⟩ := renderTokens_interleaves rendered
  refine ⟨text ++ offsetText 2 ++ "nil", ?_, readable, texts, by rw [printed]; exact translated, ?_⟩
  · rw [translateExpr_scan, lines]
    simp only [rendered, finishText]
  · rw [String.toList_append, String.toList_append, List.append_assoc]
    refine interleaves _ ?_
    have sealed : "nil".toList = ['n', 'i', 'l'] := String.toList_ofList
    rw [List.all_append, isLayout_offset, sealed]
    rfl

private theorem forall₂_related {α β : Type} {related : α → β → Prop} {first : List α}
    {second : List β} (all : List.Forall₂ related first second) {value : α}
    (member : value ∈ first) : ∃ other, related value other := by
  induction all with
  | nil => cases member
  | cons here _ induction =>
      rcases List.mem_cons.mp member with rfl | later
      · exact ⟨_, here⟩
      · exact induction later

theorem SupportedExpression.of_appears
    (appears : ExpressionAppears names items) : SupportedExpression items := by
  obtain ⟨text, translated, readable, texts, textsOf, interleaves⟩ := appears
  have operators : ∀ item ∈ items, ∃ op, item = .ok op ∧ op.support = .supported := by
    intro item member
    obtain ⟨op, rfl⟩ := readable item member
    refine ⟨op, rfl, ?_⟩
    by_cases closes : op.role = .closes
    · exact support_closes (Operator.closes_cases closes)
    · obtain ⟨_, textOf⟩ := forall₂_related textsOf (mem_printedOperators member closes)
      rcases textOf with named | unnamed
      · exact supported_of_translated named
      · exact supported_of_translated unnamed
  rw [translateExpr_scan] at translated
  cases lines : skeleton [] items with
  | none => simp [lines, Outcome.panic] at translated
  | some tokens =>
      have printed := printedOperators_scan lines
      have tokensSupported : ∀ op ∈ tokens.flatMap Token.operators, op.support = .supported := by
        intro op member
        obtain ⟨_, same, opSupported⟩ := operators _
          (printedOperators_mem (by rw [printed]; exact List.mem_append_left _ member))
        cases same
        exact opSupported
      obtain ⟨linesText, rendered⟩ := renderTokens_ok names 2 0 tokensSupported
      obtain ⟨lineTexts, linesOf, linesInterleave⟩ := renderTokens_interleaves rendered
      simp only [lines, rendered, finishText, Except.ok.injEq] at translated
      have ending : ((offsetText 2).toList ++ "nil".toList).all isLayout = true := by
        have sealed : "nil".toList = ['n', 'i', 'l'] := String.toList_ofList
        rw [List.all_append, isLayout_offset, sealed]
        rfl
      have reading := linesInterleave _ ending
      rw [← List.append_assoc, ← String.toList_append, ← String.toList_append, translated] at reading
      -- All operators have their places already in the lines, so none stands behind the end.
      have nothingBehind : printedOperators (scan [] items).2 = [] :=
        interleaves_complete (by rw [← printed]; exact printedOperators_printed items)
          linesOf reading (by rw [← printed]; exact textsOf) interleaves
      have behindEnd : ∀ op, .ok op ∈ (scan [] items).2 → op.role = .closes := by
        intro op member
        by_contra notCloses
        have behind := mem_printedOperators member notCloses
        rw [nothingBehind] at behind
        cases behind
      refine ⟨operators, fun op isLast opens => ?_, behindEnd⟩
      by_cases nothing : (scan [] items).2 = []
      · rw [skeleton_none_of_last isLast opens nothing] at lines
        cases lines
      · have behind : Except.ok op ∈ (scan [] items).2 := by
          obtain ⟨front, spelled⟩ := scan_suffix [] items
          rw [← spelled, List.getLast?_append_of_ne_nil _ nothing] at isLast
          exact List.mem_of_getLast? isLast
        rw [behindEnd op behind] at opens
        cases opens

theorem expressionAppears_iff (names : Option NameMap) (items : List OperatorItem) :
    ExpressionAppears names items ↔ SupportedExpression items :=
  ⟨.of_appears, fun supported => supported.appears names⟩

end Inference.WasmToV

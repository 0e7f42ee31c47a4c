import Inference.Foundation.RocqText
import Inference.WasmToV.LocalNaming

/-! # Escaping of names

Names of imports and exports are put between quotes, and local names between
comment delimiters, as they are. They are read back when they contain neither.
-/

namespace Inference.WasmToV

open Foundation

/-! ## What is read back -/

/-- Behind a front the text has a literal that denotes the name. -/
def ReadsLiteral (front : List Char) (name : String) (text rest : List Char) : Prop :=
  ∃ literal, text = front ++ '"' :: literal ∧ readLiteral literal = some (name.toList, rest)

/-- The text of an import is read as its two names and its description. -/
def ImportEscaped (entry : Import) : Prop :=
  ∀ text, translateModuleImport entry = .ok text → ∃ between rest desc,
    ReadsLiteral ['M', 'i', ' '] entry.module text.toList between ∧
      ReadsLiteral [' '] entry.name between rest ∧
      translateModuleImportDesc entry = .ok desc ∧ rest = ' ' :: '(' :: (desc.toList ++ [')'])

/-- The text of an export is read as its name and its description. -/
def ExportEscaped (entry : Export) : Prop :=
  ∀ text, translateExportModule entry = .ok text → ∃ rest desc,
    ReadsLiteral ['M', 'e', ' '] entry.name text.toList rest ∧
      translateModuleExportDesc entry = .ok desc ∧ rest = ' ' :: '(' :: (desc.toList ++ [')'])

/-- The comment with a name ends at the delimiter that the translator puts
behind the name. -/
def CommentEscaped (name : String) : Prop :=
  ∀ following, afterComment false 0 (name.toList ++ '*' :: ')' :: following) = some following

/-- The same indices with empty names. -/
def blanked (names : Option NameMap) : Option NameMap :=
  names.map (·.map fun entry => (entry.1, ""))

/-- Names of imports and exports are read back, comments end where they are
closed, and without its comments the text of a body does not depend on names. -/
structure NamesEscaped (parsed : WasmParseData) : Prop where
  imports : ∀ entry ∈ parsed.imports, ImportEscaped entry
  exports : ∀ entry ∈ parsed.exports, ExportEscaped entry
  comments : ∀ index body items name, parsed.functionBodies[index]? = some body →
    body.operators = .ok items →
    some name ∈ emittedNames (functionLocalNames parsed index) items → CommentEscaped name
  stripped : ∀ index body items text blank, parsed.functionBodies[index]? = some body →
    body.operators = .ok items →
    translateExpr items (functionLocalNames parsed index) = .ok text →
    translateExpr items (blanked (functionLocalNames parsed index)) = .ok blank →
    ∀ following, stripComments .code (text.toList ++ following) =
      stripComments .code (blank.toList ++ following)

/-! ## Literals -/

variable {name : String}

section Literals

theorem readsLiteral_iff {front : List Char} {text following : List Char}
    (spelled : text = front ++ '"' :: (name.toList ++ '"' :: following))
    (noQuote : following.head? ≠ some '"') (rest : List Char) :
    ReadsLiteral front name text rest ↔ Lacks '"' name ∧ rest = following := by
  constructor
  · rintro ⟨literal, split, reads⟩
    rw [spelled] at split
    have same := (List.cons.inj (List.append_cancel_left split)).2
    rw [← same] at reads
    exact readLiteral_exact noQuote reads
  · rintro ⟨lacks, rfl⟩
    exact ⟨_, spelled, readLiteral_plain lacks noQuote⟩

theorem importEscaped_iff (entry : Import) :
    ImportEscaped entry ↔
      (entry.supported = true → Lacks '"' entry.module ∧ Lacks '"' entry.name) := by
  have opening : "Mi \"".toList = ['M', 'i', ' ', '"'] := String.toList_ofList
  have middle : "\" \"".toList = ['"', ' ', '"'] := String.toList_ofList
  have closing : "\" (".toList = ['"', ' ', '('] := String.toList_ofList
  have parenthesis : ")".toList = [')'] := String.toList_ofList
  have spelled : ∀ text, translateModuleImport entry = .ok text →
      ∃ desc, translateModuleImportDesc entry = .ok desc ∧
        text.toList = ['M', 'i', ' '] ++ '"' :: (entry.module.toList ++ '"' ::
          ([' '] ++ '"' :: (entry.name.toList ++ '"' :: ' ' :: '(' :: (desc.toList ++ [')'])))) := by
    intro text translated
    rcases bind_ok translated with ⟨desc, descTranslated, assembled⟩
    cases assembled
    refine ⟨desc, descTranslated, ?_⟩
    simp only [String.toList_append, opening, middle, closing, parenthesis, List.append_assoc,
      List.cons_append, List.nil_append]
  constructor
  · intro escaped supported
    rcases (translateModuleImport_succeeds entry).mpr supported with ⟨text, translated⟩
    rcases spelled text translated with ⟨desc, _, text_spelled⟩
    rcases escaped text translated with ⟨between, rest, _, module_, name, _⟩
    rcases (readsLiteral_iff text_spelled (by simp) between).mp module_ with ⟨moduleLacks, rfl⟩
    exact ⟨moduleLacks, ((readsLiteral_iff rfl (by simp) rest).mp name).1⟩
  · intro plain text translated
    rcases plain ((translateModuleImport_succeeds entry).mp ⟨text, translated⟩) with
      ⟨moduleLacks, nameLacks⟩
    rcases spelled text translated with ⟨desc, descTranslated, text_spelled⟩
    exact ⟨_, _, desc, (readsLiteral_iff text_spelled (by simp) _).mpr ⟨moduleLacks, rfl⟩,
      (readsLiteral_iff rfl (by simp) _).mpr ⟨nameLacks, rfl⟩, descTranslated, rfl⟩

theorem exportEscaped_iff (entry : Export) :
    ExportEscaped entry ↔ (entry.supported = true → Lacks '"' entry.name) := by
  have opening : "Me \"".toList = ['M', 'e', ' ', '"'] := String.toList_ofList
  have closing : "\" (".toList = ['"', ' ', '('] := String.toList_ofList
  have parenthesis : ")".toList = [')'] := String.toList_ofList
  have spelled : ∀ text, translateExportModule entry = .ok text →
      ∃ desc, translateModuleExportDesc entry = .ok desc ∧
        text.toList = ['M', 'e', ' '] ++
          '"' :: (entry.name.toList ++ '"' :: ' ' :: '(' :: (desc.toList ++ [')'])) := by
    intro text translated
    rcases bind_ok translated with ⟨desc, descTranslated, assembled⟩
    cases assembled
    refine ⟨desc, descTranslated, ?_⟩
    simp only [String.toList_append, opening, closing, parenthesis, List.append_assoc,
      List.cons_append, List.nil_append]
  constructor
  · intro escaped supported
    rcases (translateExportModule_succeeds entry).mpr supported with ⟨text, translated⟩
    rcases spelled text translated with ⟨desc, _, text_spelled⟩
    rcases escaped text translated with ⟨rest, _, name, _⟩
    exact ((readsLiteral_iff text_spelled (by simp) rest).mp name).1
  · intro plain text translated
    have lacks := plain ((translateExportModule_succeeds entry).mp ⟨text, translated⟩)
    rcases spelled text translated with ⟨desc, descTranslated, text_spelled⟩
    exact ⟨_, desc, (readsLiteral_iff text_spelled (by simp) _).mpr ⟨lacks, rfl⟩,
      descTranslated, rfl⟩

end Literals

theorem commentEscaped_iff (name : String) :
    CommentEscaped name ↔ balanced false 0 name.toList = true := by
  constructor
  · intro escaped
    exact (afterComment_iff false 0 name.toList []).mp (escaped [])
  · intro isBalanced following
    exact (afterComment_iff false 0 name.toList following).mpr isBalanced

/-! ## Texts without delimiters -/

/-- The symbols that start and end comments and literals. -/
def IsDelimiter (symbol : Char) : Prop :=
  symbol = '*' ∨ symbol = '"'

private theorem plain_literal {text ending : List Char}
    (plain : (text ++ ending).all (fun other => other ≠ '*' && other ≠ '"') = true) :
    ((String.ofList text).toList ++ ending).all (fun other => other ≠ '*' && other ≠ '"') =
      true := by
  rw [String.toList_ofList]
  exact plain

theorem sortedHeads_plain :
    ∀ head ∈ sortedHeads, head.word.all (fun other => other ≠ '*' && other ≠ '"') = true := by
  unfold sortedHeads
  repeat' first
    | refine List.forall_mem_cons.mpr ⟨plain_literal (by decide +kernel), ?_⟩
    | exact fun _ member => absurd member List.not_mem_nil

section Delimiters

variable {symbol : Char} (delimiter : IsDelimiter symbol)

include delimiter

theorem lacks_natural (number : Nat) : symbol ∉ (toString number).toList := by
  apply Lacks.natural
  rcases delimiter with rfl | rfl <;> rfl

theorem lacks_integer (number : Int) : symbol ∉ (toString number).toList := by
  by_cases nonnegative : 0 ≤ number
  · rw [toList_toString_int_of_nonneg nonnegative]
    exact lacks_natural delimiter _
  · rw [toList_toString_int_of_neg (by omega), List.mem_cons, not_or]
    refine ⟨?_, lacks_natural delimiter _⟩
    rcases delimiter with rfl | rfl <;> decide

/-- Layout and separators hold no delimiter. -/
theorem lacks_symbols {word : List Char}
    (plain : word.all (fun other => other ≠ '*' && other ≠ '"') = true) : symbol ∉ word := by
  intro member
  have here := List.all_eq_true.mp plain symbol member
  rcases delimiter with rfl | rfl <;> simp at here

theorem lacks_access (access : Access) : symbol ∉ access.text := by
  simp only [Access.text, List.mem_append, not_or]
  exact ⟨lacks_symbols delimiter (by decide),
    ⟨lacks_natural delimiter _, lacks_symbols delimiter (by decide)⟩,
    lacks_natural delimiter _, lacks_symbols delimiter (by decide)⟩

theorem lacks_block (block : BlockTerm) : symbol ∉ block.text := by
  have words : ∀ head : BlockHead,
      head.word.all (fun other => other ≠ '*' && other ≠ '"') = true := by
    intro head
    cases head <;> decide +kernel
  have closing : symbol ∉ [')'] := lacks_symbols delimiter (by decide)
  rcases block with ⟨head, immediates⟩
  rw [BlockTerm.text, List.mem_append, not_or]
  refine ⟨lacks_symbols delimiter (words head), ?_⟩
  cases head with
  | funcType =>
      dsimp only [BlockHead.immediatesText]
      rw [List.mem_append, not_or]
      exact ⟨lacks_natural delimiter _, lacks_symbols delimiter (by decide)⟩
  | _ => exact closing

theorem lacks_immediates (head : Head) (immediates : head.Immediates) :
    symbol ∉ head.immediatesText immediates := by
  have separator : symbol ∉ [' ', ':', ':', '\n'] := lacks_symbols delimiter (by decide)
  have lineEnd : symbol ∉ [':', '\n'] := lacks_symbols delimiter (by decide)
  cases head with
  | plain _ | fixed _ => exact lineEnd
  | opener _ => exact lacks_block delimiter immediates
  | number opcode =>
      rw [Head.immediatesText, List.mem_append, not_or]
      refine ⟨lacks_natural delimiter _, lacks_symbols delimiter ?_⟩
      cases opcode <;> decide
  | lane _ =>
      rw [Head.immediatesText, List.mem_append, not_or]
      exact ⟨lacks_natural delimiter _, separator⟩
  | integer opcode =>
      rw [Head.immediatesText, List.mem_append, not_or]
      refine ⟨lacks_integer delimiter _, lacks_symbols delimiter ?_⟩
      cases opcode <;> decide
  | callIndirect =>
      rcases immediates with ⟨typeIndex, tableIndex⟩
      simp only [Head.immediatesText, List.mem_append, not_or]
      exact ⟨⟨lacks_natural delimiter _, lacks_symbols delimiter (by decide)⟩,
        lacks_natural delimiter _, separator⟩
  | brTable =>
      rw [Head.immediatesText, List.mem_append, not_or]
      refine ⟨?_, lacks_symbols delimiter (by decide)⟩
      intro member
      rcases List.mem_flatMap.mp member with ⟨target, _, inTarget⟩
      rcases List.mem_append.mp inTarget with number | layout
      · exact lacks_natural delimiter _ number
      · exact lacks_symbols delimiter (by decide) layout
  | memory _ =>
      rw [Head.immediatesText, List.mem_append, not_or]
      exact ⟨lacks_access delimiter _, lacks_symbols delimiter (by decide)⟩
  | storeLane _ =>
      rcases immediates with ⟨access, index⟩
      simp only [Head.immediatesText, List.mem_append, not_or]
      exact ⟨lacks_access delimiter _, lacks_natural delimiter _, separator⟩

/-- The term of an operator holds no delimiter. -/
theorem lacks_term {op : Operator} {term : Term} (hasTerm : op.term = some term) :
    symbol ∉ term.text := by
  rw [Term.text, List.mem_append, not_or]
  exact ⟨lacks_symbols delimiter (sortedHeads_plain _ (term_mem hasTerm)),
    lacks_immediates delimiter _ _⟩

end Delimiters

/-! ## Lines without comments -/

/-- A text without delimiters that ends a line is kept. -/
theorem stripComments_line (front : List Char) (noStar : '*' ∉ front) (noQuote : '"' ∉ front)
    (ends : front.getLast? = some '\n') (following : List Char) :
    stripComments .code (front ++ following) = front ++ stripComments .code following := by
  apply stripComments_plain noStar noQuote
  intro opening
  rw [ends] at opening
  cases opening

/-- What is left of a line without its comment. -/
def Operator.keptTail (op : Operator) (names : Option NameMap) : List Char :=
  if (op.comment names).isSome then [' ', ':', ':', '\n'] else op.lineTail names

def Token.kept (names : Option NameMap) : Token → List Char
  | .line op => op.term.elim [] Term.text ++ op.keptTail names
  | token => token.content names

theorem lookup_blanked (names : Option NameMap) (localIndex : Nat) :
    ((blanked names).bind (·.lookup localIndex)) =
      (names.bind (·.lookup localIndex)).map fun _ => "" := by
  cases names with
  | none => rfl
  | some names =>
      induction names with
      | nil => rfl
      | cons entry rest induction =>
          rcases entry with ⟨index, name⟩
          simp only [blanked, Option.map_some, Option.bind_some, List.map_cons,
            List.lookup_cons] at induction ⊢
          cases localIndex == index with
          | true => rfl
          | false => exact induction

theorem comment_blanked (op : Operator) (names : Option NameMap) :
    op.comment (blanked names) = (op.comment names).map fun _ => "" := by
  rw [Operator.comment, Operator.comment]
  cases op.localIndex with
  | none => rfl
  | some localIndex => exact lookup_blanked names localIndex

theorem namesAt_blanked (names : Option NameMap) (depth : Nat) :
    namesAt (blanked names) depth = blanked (namesAt names depth) := by
  cases depth <;> rfl

theorem kept_blanked (token : Token) (names : Option NameMap) :
    token.kept (blanked names) = token.kept names := by
  cases token with
  | line op =>
      have tail : op.keptTail (blanked names) = op.keptTail names := by
        rw [Operator.keptTail, Operator.keptTail, comment_blanked, Option.isSome_map]
        cases known : op.comment names with
        | some name => rfl
        | none =>
            rw [Operator.lineTail, Operator.lineTail, comment_blanked, known]
            rfl
      rw [Token.kept, Token.kept, tail]
  | opened _ | nextArm | closed => rfl

variable {names : Option NameMap} {text : String}

/-- Behind the term of an operator comes its comment, and is left out. -/
theorem stripComments_operator {op : Operator}
    (role : op.role = .ordinary) (translated : translateBasicOperator op names = .ok text)
    (isBalanced : ∀ name, op.comment names = some name → balanced false 0 name.toList = true)
    (following : List Char) :
    stripComments .code (op.term.elim [] Term.text ++ op.lineTail names ++ following) =
      op.term.elim [] Term.text ++ op.keptTail names ++ stripComments .code following := by
  rcases term_exists (supported_of_translated translated) (by simp [role]) with ⟨term, hasTerm⟩
  have spelled := term_text hasTerm translated
  have noStar := lacks_term (.inl rfl : IsDelimiter '*') hasTerm
  have noQuote := lacks_term (.inr rfl : IsDelimiter '"') hasTerm
  rw [hasTerm, Option.elim_some]
  cases known : op.comment names with
  | none =>
      have plainTail : op.lineTail names = [] ∨ op.lineTail names = [':', ':', '\n'] := by
        rw [Operator.lineTail, role, known]
        cases op.localIndex with
        | none => exact .inl rfl
        | some _ => exact .inr rfl
      have ends : (term.text ++ op.lineTail names).getLast? = some '\n' := by
        rw [← spelled]
        simp
      rw [Operator.keptTail, known, Option.isSome_none, if_neg Bool.false_ne_true]
      apply stripComments_line _ _ _ ends
      all_goals
        rw [List.mem_append, not_or]
        rcases plainTail with tail | tail <;> rw [tail]
        · exact ⟨by assumption, by decide⟩
        · exact ⟨by assumption, by decide⟩
  | some name =>
      rcases Option.bind_eq_some_iff.mp known with ⟨localIndex, accesses, _⟩
      have tail : op.lineTail names =
          '(' :: '*' :: (name.toList ++ '*' :: ')' :: [' ', ':', ':', '\n']) := by
        rw [Operator.lineTail, role, known, accesses]
        rfl
      rw [Operator.keptTail, known, Option.isSome_some, if_pos rfl, tail, List.append_assoc,
        stripComments_plain noStar noQuote (by simp), List.append_assoc]
      apply congrArg (term.text ++ ·)
      simp only [List.cons_append, List.append_assoc]
      rw [stripComments_comment (isBalanced name known)]
      exact stripComments_line [' ', ':', ':', '\n']
        (by decide) (by decide) rfl following

theorem stripComments_content {token : Token} (printable : token.Printable)
    (isBalanced : ∀ name, some name ∈ token.localComments names →
      balanced false 0 name.toList = true)
    (following : List Char) :
    stripComments .code (token.content names ++ following) =
      token.kept names ++ stripComments .code following := by
  cases printable with
  | line role supported =>
      rename_i op
      rcases translateBasicOperator_ok supported names with ⟨text, translated⟩
      apply stripComments_operator role translated
      intro name known
      apply isBalanced
      rcases Option.bind_eq_some_iff.mp known with ⟨localIndex, accesses, named⟩
      simp [Token.localComments, Operator.localComments, accesses, named]
  | opened role supported =>
      rename_i label
      rcases term_exists supported (by rcases role with role | role <;> simp [role]) with
        ⟨term, hasTerm⟩
      have noStar := lacks_term (.inl rfl : IsDelimiter '*') hasTerm
      have noQuote := lacks_term (.inr rfl : IsDelimiter '"') hasTerm
      have same : (Token.opened label).kept names = (Token.opened label).content names := rfl
      rw [same, Token.content, hasTerm, Option.elim_some]
      apply stripComments_line
      · simpa using noStar
      · simpa using noQuote
      · simp
  | nextArm =>
      exact stripComments_line ['n', 'i', 'l', ')', ' ', '(', '\n']
        (by decide) (by decide) rfl following
  | closed =>
      exact stripComments_line ['n', 'i', 'l', ')', ' ', ':', ':', '\n']
        (by decide) (by decide) rfl following

/-! ## Bodies without comments -/

/-- What is left of lines without their comments. -/
def keptLines (names : Option NameMap) (tabs : Nat) : Nat → List Token → List Char
  | _, [] => []
  | depth, token :: rest =>
      (offsetText (tabs + depth)).toList ++ token.kept (namesAt names depth) ++
        keptLines names tabs (token.depthAfter depth) rest

theorem keptLines_blanked (names : Option NameMap) (tabs depth : Nat) (tokens : List Token) :
    keptLines (blanked names) tabs depth tokens = keptLines names tabs depth tokens := by
  induction tokens generalizing depth with
  | nil => rfl
  | cons token rest induction =>
      rw [keptLines, keptLines, induction, namesAt_blanked, kept_blanked]

theorem stripComments_offset (tabs : Nat) (following : List Char) :
    stripComments .code ((offsetText tabs).toList ++ following) =
      (offsetText tabs).toList ++ stripComments .code following := by
  rw [toList_offsetText]
  apply stripComments_plain
  · simp
  · simp
  · intro opening
    have member := List.mem_of_getLast? opening
    rw [List.mem_replicate] at member
    exact absurd member.2 (by decide)

/-- Lines with balanced names lose their comments and nothing else. -/
theorem stripComments_lines {tabs depth : Nat} {tokens : List Token}
    (printable : ∀ token ∈ tokens, token.Printable)
    (isBalanced : ∀ name, some name ∈ tokenComments names depth tokens →
      balanced false 0 name.toList = true)
    (rendered : renderTokens names tabs depth tokens = .ok text) (following : List Char) :
    stripComments .code (text.toList ++ following) =
      keptLines names tabs depth tokens ++ stripComments .code following := by
  induction tokens generalizing depth text with
  | nil =>
      cases rendered
      rfl
  | cons token rest induction =>
      rw [renderTokens] at rendered
      rcases bind_ok rendered with ⟨line, lineRendered, renderedRest⟩
      rcases bind_ok renderedRest with ⟨restText, restRendered, assembled⟩
      cases assembled
      have here := printable token List.mem_cons_self
      rcases here.render names tabs depth with ⟨sameLine, sameRendered, spelled⟩
      rw [lineRendered] at sameRendered
      cases sameRendered
      have later := induction (fun other member => printable other (List.mem_cons_of_mem _ member))
        (fun name member => isBalanced name (List.mem_append_right _ member)) restRendered
      rw [String.toList_append, spelled, List.append_assoc, List.append_assoc,
        stripComments_offset,
        stripComments_content here fun name member =>
          isBalanced name (List.mem_append_left _ member),
        later, keptLines]
      simp only [List.append_assoc]

theorem tokenComments_blanked (names : Option NameMap) (depth : Nat) (tokens : List Token)
    (member : some name ∈ tokenComments (blanked names) depth tokens) :
    name = "" := by
  induction tokens generalizing depth with
  | nil => cases member
  | cons token rest induction =>
      rcases List.mem_append.mp member with here | later
      · rw [namesAt_blanked] at here
        cases token with
        | line op =>
            rcases List.mem_map.mp here with ⟨localIndex, _, known⟩
            rw [lookup_blanked] at known
            rcases Option.map_eq_some_iff.mp known with ⟨_, _, same⟩
            exact same.symm
        | opened _ | nextArm | closed => cases here
      · exact induction _ later

/-- The names of the printed lines are among the emitted ones. -/
theorem emittedNames_lines {items : List OperatorItem}
    {tokens : List Token} (printed : rendition items = .lines tokens)
    (member : some name ∈ tokenComments names 0 tokens) :
    some name ∈ emittedNames names items := by
  rw [emittedNames_accesses, printedAccesses, printed,
    ← tokenComments_accesses names (rendition_skeleton printed)]
  exact List.mem_append_left _ member

/-- The text of a body without its comments does not depend on balanced names. -/
theorem translateExpr_stripped {items : List OperatorItem}
    {blank : String} (isBalanced : ∀ name, some name ∈ emittedNames names items →
      balanced false 0 name.toList = true)
    (translated : translateExpr items names = .ok text)
    (blankTranslated : translateExpr items (blanked names) = .ok blank)
    (following : List Char) :
    stripComments .code (text.toList ++ following) =
      stripComments .code (blank.toList ++ following) := by
  have described := rendition_describes items names
  have blankDescribed := rendition_describes items (blanked names)
  rw [translated] at described
  rw [blankTranslated] at blankDescribed
  cases printed : rendition items with
  | missing =>
      rw [printed] at described
      rcases described with ⟨_, fails⟩
      cases fails
  | misrendered =>
      rw [printed] at described blankDescribed
      cases described
      cases blankDescribed
      rfl
  | lines tokens =>
      rw [printed] at described blankDescribed
      rcases described with ⟨printable, lines, rendered, assembled⟩
      rcases blankDescribed with ⟨_, blankLines, blankRendered, blankAssembled⟩
      cases assembled
      cases blankAssembled
      have emptyBalanced : ∀ name, some name ∈ tokenComments (blanked names) 0 tokens →
          balanced false 0 name.toList = true := by
        intro name member
        rw [tokenComments_blanked names 0 tokens member]
        decide
      simp only [String.toList_append, List.append_assoc]
      rw [stripComments_lines printable
          (fun name member => isBalanced name (emittedNames_lines printed member)) rendered,
        stripComments_lines printable emptyBalanced blankRendered, keptLines_blanked]

/-! ## The condition -/

/-- Names are escaped exactly when no name of an import or export that can be
printed has a quote, and every name printed with a local access is balanced. -/
theorem namesEscaped_iff (parsed : WasmParseData) :
    NamesEscaped parsed ↔
      (∀ entry ∈ parsed.imports, entry.supported = true →
        Lacks '"' entry.module ∧ Lacks '"' entry.name) ∧
      (∀ entry ∈ parsed.exports, entry.supported = true → Lacks '"' entry.name) ∧
      ∀ index body items, parsed.functionBodies[index]? = some body →
        body.operators = .ok items → ∀ access ∈ printedAccesses items, ∀ name,
          knownName (functionLocalNames parsed index) access = some name →
            balanced false 0 name.toList = true := by
  have balancedNames : ∀ names items,
      (∀ name, some name ∈ emittedNames names items → balanced false 0 name.toList = true) ↔
        ∀ access ∈ printedAccesses items, ∀ name, knownName names access = some name →
          balanced false 0 name.toList = true := by
    intro names items
    rw [emittedNames_accesses]
    constructor
    · intro each access member name known
      exact each name (List.mem_map.mpr ⟨access, member, known⟩)
    · intro each name member
      rcases List.mem_map.mp member with ⟨access, accessMember, known⟩
      exact each access accessMember name known
  constructor
  · intro escaped
    refine ⟨fun entry member => (importEscaped_iff entry).mp (escaped.imports entry member),
      fun entry member => (exportEscaped_iff entry).mp (escaped.exports entry member), ?_⟩
    intro index body items bodyAt operators
    apply (balancedNames _ items).mp
    intro name member
    exact (commentEscaped_iff name).mp
      (escaped.comments index body items name bodyAt operators member)
  · rintro ⟨imports, exports, locals⟩
    have bodies : ∀ index body items, parsed.functionBodies[index]? = some body →
        body.operators = .ok items → ∀ name,
          some name ∈ emittedNames (functionLocalNames parsed index) items →
            balanced false 0 name.toList = true := by
      intro index body items bodyAt operators
      exact (balancedNames _ items).mpr (locals index body items bodyAt operators)
    exact
      { imports := fun entry member => (importEscaped_iff entry).mpr (imports entry member)
        exports := fun entry member => (exportEscaped_iff entry).mpr (exports entry member)
        comments := by
          intro index body items name bodyAt operators member
          exact (commentEscaped_iff name).mpr
            (bodies index body items bodyAt operators name member)
        stripped := by
          intro index body items text blank bodyAt operators translated blankTranslated
          exact translateExpr_stripped (bodies index body items bodyAt operators) translated
            blankTranslated }

/-- A module that exports its function under a quote, and whose local is named
like the end of a comment. -/
def delimiterNames : List (Item Payload) :=
  [.ok (.functionSection [.ok 0]),
    .ok (.exportSection [.ok { name := "\"", kind := .func, index := 0 }]),
    .ok (.codeSectionEntry
      { locals := .ok [.ok (1, .i32)], operators := .ok [.ok (.localGet 0), .ok .end_] }),
    .ok (.nameSection [.ok (.locals [.ok ⟨0, [.ok ⟨0, "*)"⟩]⟩])])]

/-- Neither is read back. -/
theorem delimiterNames_notEscaped :
    ∃ parsed, parse "m" delimiterNames = .ok parsed ∧ ¬ NamesEscaped parsed ∧
      (∃ entry ∈ parsed.exports, ¬ ExportEscaped entry) ∧
      ∃ name ∈ emittedNames (functionLocalNames parsed 0) [.ok (.localGet 0), .ok .end_],
        ∀ text, name = some text → ¬ CommentEscaped text := by
  have notBalanced : ¬ CommentEscaped "*)" := by
    rw [commentEscaped_iff]
    decide
  have quoted : ¬ ExportEscaped { name := "\"", kind := .func, index := 0 } := by
    rw [exportEscaped_iff]
    intro lacks
    exact lacks rfl (by decide)
  refine ⟨_, rfl, ?_, ⟨_, List.mem_singleton_self _, quoted⟩, some "*)", ?_, ?_⟩
  · intro escaped
    exact quoted (escaped.exports _ (List.mem_singleton_self _))
  · rw [emittedNames_accesses]
    decide
  · rintro text ⟨⟩
    exact notBalanced

end Inference.WasmToV

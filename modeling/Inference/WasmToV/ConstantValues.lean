import Inference.WasmToV.ConstantNumerals
import Inference.WasmToV.EntrySupport

/-! # Values of constants

Bodies, initial values, offsets and element expressions are read as terms in
which every constant is a constructor with one numeral. They are exactly when no
printed constant is negative.
-/

namespace Inference.WasmToV

open Foundation
open Foundation.Rocq (Level Symbol runText run)

/-! ## Constants of a module -/

/-- A term of a list. -/
def listOf (terms : List Rocq.Term) : Rocq.Term :=
  terms.foldr .cons nilTerm

/-- An application to the term of an expression. -/
def ReadsArgument (text : String) (items : List OperatorItem) : Prop :=
  ∃ function argument, Rocq.readTerm text.toList = some (.apply function argument) ∧
    ConstantsShown items argument

/-- Wherever an expression is emitted, the text denotes its constants. -/
structure ConstantsDenote (parsed : WasmParseData) : Prop where
  bodies : ∀ index body items text, parsed.functionBodies[index]? = some body →
    body.operators = .ok items → translateFunctionBody parsed index body = .ok text →
      ∃ term, Rocq.readTerm text.toList = some term ∧ ConstantsShown items term
  globals : ∀ entry ∈ parsed.globals, ∀ text, translateGlobal entry = .ok text →
    ReadsArgument text entry.initExpr.operators
  dataOffsets : ∀ entry ∈ parsed.data, ∀ memoryIndex offset text,
    entry.kind = .active memoryIndex offset → translateModuleDatamode entry = .ok text →
      ReadsArgument text offset.operators
  elementOffsets : ∀ entry ∈ parsed.elements, ∀ tableIndex offset text,
    entry.kind = .active tableIndex offset → translateElementMode entry = .ok text →
      ReadsArgument text offset.operators
  elementItems : ∀ entry ∈ parsed.elements, ∀ refType expressions type text,
    entry.items = .expressions refType expressions →
    translateElementItems entry.items = .ok (type, text) →
      ∃ terms, Rocq.readTerm text.toList = some (listOf terms) ∧
        List.Forall₂ (fun item term => ∀ expression, item = .ok expression →
          ConstantsShown expression.operators term) expressions terms

/-- The names that are printed with local accesses are balanced. -/
def CommentsBalanced (parsed : WasmParseData) : Prop :=
  ∀ index body items, parsed.functionBodies[index]? = some body →
    body.operators = .ok items → ∀ access ∈ printedAccesses items, ∀ name,
      knownName (functionLocalNames parsed index) access = some name →
        balanced false 0 name.toList = true

/-- No emitted constant is negative, and no emitted expression with a constant
becomes an error text. -/
structure ConstantsNonNegative (parsed : WasmParseData) : Prop where
  bodies : ∀ body ∈ parsed.functionBodies, ∀ items, body.operators = .ok items →
    ConstantsPrintable items
  globals : ∀ entry ∈ parsed.globals, entry.ty.contentType.supported = true →
    ConstantsPrintable entry.initExpr.operators
  dataOffsets : ∀ entry ∈ parsed.data, ∀ memoryIndex offset,
    entry.kind = .active memoryIndex offset → ConstantsPrintable offset.operators
  elementOffsets : ∀ entry ∈ parsed.elements, ∀ tableIndex offset,
    entry.kind = .active tableIndex offset → ConstantsPrintable offset.operators
  elementItems : ∀ entry ∈ parsed.elements, ∀ refType expressions,
    entry.items = .expressions refType expressions → refType.supported = true →
    (∀ item ∈ expressions, ∃ expression, item = .ok expression ∧
      rendition expression.operators ≠ .missing) →
      ∀ expression, .ok expression ∈ expressions → ConstantsPrintable expression.operators

/-! ## Expressions without names -/

theorem noNames_balanced (items : List OperatorItem) :
    ∀ name, some name ∈ emittedNames none items → balanced false 0 name.toList = true := by
  intro name member
  rw [emittedNames_accesses] at member
  rcases List.mem_map.mp member with ⟨access, _, known⟩
  simp [knownName] at known

variable {items : List OperatorItem}

theorem constantsPrintable_missing
    (missing : rendition items = .missing) : ConstantsPrintable items := by
  rw [ConstantsPrintable, missing]
  trivial

/-- Exactly the expressions that are not missing have a text. -/
theorem translateExpr_missing (names : Option NameMap) (missing : rendition items = .missing) :
    ∃ failure, translateExpr items names = .error failure := by
  have described := rendition_describes items names
  rw [missing] at described
  exact described

theorem translateExpr_present (items : List OperatorItem) (names : Option NameMap)
    (present : rendition items ≠ .missing) : ∃ text, translateExpr items names = .ok text := by
  have described := rendition_describes items names
  cases printed : rendition items with
  | missing => exact absurd printed present
  | misrendered =>
      rw [printed] at described
      exact ⟨_, described⟩
  | lines tokens =>
      rw [printed] at described
      rcases described with ⟨_, text, _, translated⟩
      exact ⟨_, translated⟩

/-! ## Arguments -/

/-- Texts that hold neither comments nor literals. -/
def PlainText (text : List Char) : Prop :=
  '*' ∉ text ∧ '"' ∉ text

variable {front : List Char}

theorem plainText_append {back : List Char} (first : PlainText front)
    (second : PlainText back) : PlainText (front ++ back) := by
  simp only [PlainText, List.mem_append, not_or]
  exact ⟨⟨first.1, second.1⟩, first.2, second.2⟩

theorem plainText_number (number : Nat) : PlainText (toString number).toList :=
  ⟨lacks_natural (.inl rfl) number, lacks_natural (.inr rfl) number⟩

instance (text : List Char) : Decidable (PlainText text) :=
  inferInstanceAs (Decidable (_ ∧ _))

variable {text : String}

/-- An expression in parentheses behind a function and arguments. -/
theorem readTerm_argument {last : Rocq.Term} {spine : List Rocq.Term}
    {term : Rocq.Term} (plain : PlainText front)
    (opened : runText [.opened []] front = some [.opened [], .applying [] (last :: spine)])
    (reads : ReadsExpression text term) :
    ∃ function, Rocq.readTerm (front ++ (text.toList ++ [')'])) =
      some (.apply function term) := by
  rcases reads with ⟨noStar, code, stripped, readsCode⟩
  rcases Rocq.applied_cons last spine with ⟨function, applied⟩
  refine ⟨function, ?_⟩
  have apart : front.getLast? = some '(' → (text.toList ++ [')']).head? ≠ some '*' := by
    intro _
    cases spelled : text.toList with
    | nil => simp
    | cons first others =>
        rw [spelled] at noStar
        exact noStar
  have closing : stripComments .code [')'] = [')'] := by decide
  have ending : runText [.applying [] (term :: last :: spine)] ['\n'] =
      some [.applying [] (term :: last :: spine)] :=
    runText_end [] (by decide) rfl
  rw [Rocq.readTerm, stripComments_plain plain.1 plain.2 apart, stripped, closing, Rocq.readCode,
    List.append_assoc, List.append_assoc, Rocq.runText_append opened]
  have argument := Rocq.runText_argument readsCode (.applying [] (last :: spine)) [] ['\n']
  rw [Rocq.push_applying, ending] at argument
  rw [List.singleton_append, argument, Option.bind_some]
  exact Rocq.finished_applying (Rocq.applied_push applied term)

theorem readsArgument_iff {last : Rocq.Term} {spine : List Rocq.Term}
    {expression : String} (plain : PlainText front)
    (opened : runText [.opened []] front = some [.opened [], .applying [] (last :: spine)])
    (translated : translateExpr items none = .ok expression)
    (spelled : text.toList = front ++ (expression.toList ++ [')'])) :
    ReadsArgument text items ↔ ConstantsPrintable items := by
  rcases translateExpr_reads (noNames_balanced items) translated with ⟨term, reads, shown⟩
  rcases readTerm_argument plain opened reads with ⟨function, readsTerm⟩
  rw [← spelled] at readsTerm
  rw [← shown]
  constructor
  · rintro ⟨other, argument, same, denoted⟩
    rw [readsTerm] at same
    cases same
    exact denoted
  · intro denoted
    exact ⟨function, term, readsTerm, denoted⟩

/-! ## Fronts of entries -/

/-- A global in front of its initial value. -/
def globalFront (mutability valText : List Char) : List Char :=
  "Mg ".toList ++ (mutability ++ (" (".toList ++ (valText ++ ") (".toList)))

private theorem supported_valTexts {valType : ValType} {valText : String}
    (translated : translateValueType valType = .ok valText) :
    valText.toList ∈ ["T_num T_i32".toList, "T_num T_i64".toList, "T_num T_f32".toList,
      "T_num T_f64".toList, "T_vec T_v128".toList, "T_ref ".toList ++ "T_funcref".toList,
      "T_ref ".toList ++ "T_externref".toList] := by
  cases valType with
  | i32 | i64 | f32 | f64 | v128 =>
      cases translated
      simp
  | ref refType =>
      rcases bind_ok translated with ⟨refText, refTranslated, assembled⟩
      cases assembled
      rw [String.toList_append]
      rw [translateRefType] at refTranslated
      split at refTranslated
      · cases refTranslated
        simp
      · split at refTranslated
        · cases refTranslated
          simp
        · cases refTranslated

private theorem globalFront_reads (mutable : Bool) {valType : ValType} {valText : String}
    (translated : translateValueType valType = .ok valText) :
    let front := globalFront (translateMutability mutable).toList valText.toList
    WordForm.reads .argument front = true ∧ PlainText front := by
  have checked : ∀ mutable : Bool, ∀ text ∈ ["T_num T_i32".toList, "T_num T_i64".toList,
      "T_num T_f32".toList, "T_num T_f64".toList, "T_vec T_v128".toList,
      "T_ref ".toList ++ "T_funcref".toList, "T_ref ".toList ++ "T_externref".toList],
      WordForm.reads .argument (globalFront (translateMutability mutable).toList text) = true ∧
        PlainText (globalFront (translateMutability mutable).toList text) := by
    decide +kernel
  exact checked mutable _ (supported_valTexts translated)

theorem translateGlobal_argument {entry : Global} (translated : translateGlobal entry = .ok text) :
    ReadsArgument text entry.initExpr.operators ↔
      ConstantsPrintable entry.initExpr.operators := by
  rcases bind_ok translated with ⟨valText, valTranslated, rest⟩
  rcases bind_ok rest with ⟨expression, expressionTranslated, assembled⟩
  cases assembled
  rcases globalFront_reads entry.ty.mutable valTranslated with ⟨checked, plain⟩
  rcases reads_argument checked with ⟨last, spine, opened⟩
  have closing : ")".toList = [')'] := String.toList_ofList
  refine readsArgument_iff plain opened expressionTranslated ?_
  simp only [String.toList_append, globalFront, closing, List.append_assoc]

/-- The mode of a segment in front of its offset. -/
def activeFront (word : List Char) (index : Nat) : List Char :=
  word ++ ((toString index).toList ++ ['%', 'N', ' ', '('])

theorem activeFront_reads {word name : List Char} (plain : PlainText word)
    (scanned : Rocq.scan .nothing word = some (.nothing, [.name name])) (index : Nat) :
    PlainText (activeFront word index) ∧
      runText [.opened []] (activeFront word index) =
        some [.opened [], .applying [] [naturalTerm index, .name name]] := by
  refine ⟨plainText_append plain (plainText_append (plainText_number index) (by decide)), ?_⟩
  have opened : run [.opened []] [.name name] = some [.applying [] [.name name]] := rfl
  rw [activeFront, runText_word _ scanned opened, Rocq.runText_number _ _ _ (by decide),
    Rocq.push_applying]
  exact runText_end [.scope ['N'], .opening] (by decide) rfl

/-- An active segment is read as its mode, applied to its offset. -/
theorem active_argument {word name : List Char} (plain : PlainText word)
    (scanned : Rocq.scan .nothing word = some (.nothing, [.name name])) (index : Nat)
    {expression : String} (translated : translateExpr items none = .ok expression)
    (spelled : text.toList =
      word ++ ((toString index).toList ++ ("%N (".toList ++ (expression.toList ++ ")".toList)))) :
    ReadsArgument text items ↔ ConstantsPrintable items := by
  rcases activeFront_reads plain scanned index with ⟨plainFront, opened⟩
  have opening : "%N (".toList = ['%', 'N', ' ', '('] := String.toList_ofList
  have closing : ")".toList = [')'] := String.toList_ofList
  refine readsArgument_iff plainFront opened translated ?_
  rw [spelled, opening, closing, activeFront]
  simp only [List.append_assoc]

theorem translateModuleDatamode_argument {entry : Data} {memoryIndex : Nat} {offset : ConstExpr}
    (kind : entry.kind = .active memoryIndex offset)
    (translated : translateModuleDatamode entry = .ok text) :
    ReadsArgument text offset.operators ↔ ConstantsPrintable offset.operators := by
  rw [translateModuleDatamode, kind] at translated
  rcases bind_ok translated with ⟨expression, expressionTranslated, assembled⟩
  cases assembled
  have scanned : Rocq.scan .nothing "MD_active ".toList =
      some (.nothing, [.name "MD_active".toList]) := by
    decide +kernel
  refine active_argument (by decide +kernel) scanned memoryIndex expressionTranslated ?_
  simp only [String.toList_append, List.append_assoc]

theorem translateElementMode_argument {entry : Element} {tableIndex : Option Nat}
    {offset : ConstExpr} (kind : entry.kind = .active tableIndex offset)
    (translated : translateElementMode entry = .ok text) :
    ReadsArgument text offset.operators ↔ ConstantsPrintable offset.operators := by
  rw [translateElementMode, kind] at translated
  rcases bind_ok translated with ⟨expression, expressionTranslated, assembled⟩
  cases assembled
  have scanned : Rocq.scan .nothing "ME_active ".toList =
      some (.nothing, [.name "ME_active".toList]) := by
    decide +kernel
  refine active_argument (by decide +kernel) scanned (tableIndex.getD 0) expressionTranslated ?_
  simp only [String.toList_append, List.append_assoc]

/-! ## Element expressions -/

theorem listOf_injective {first second : List Rocq.Term}
    (same : listOf first = listOf second) : first = second := by
  induction first generalizing second with
  | nil =>
      cases second with
      | nil => rfl
      | cons _ _ => cases same
  | cons term rest induction =>
      cases second with
      | nil => cases same
      | cons other others =>
          rcases Rocq.Term.cons.inj same with ⟨rfl, sameRest⟩
          rw [induction sameRest]

theorem listTerm_reverse (terms : List Rocq.Term) :
    Rocq.listTerm terms.reverse nilTerm = listOf terms :=
  List.foldl_reverse

/-- One expression of a list, as a term that agrees with it on its constants. -/
def ItemAgrees (item : Except BinaryReaderError ConstExpr) (term : Rocq.Term) : Prop :=
  ∃ expression, item = .ok expression ∧
    (ConstantsShown expression.operators term ↔ ConstantsPrintable expression.operators)

variable {expressions : List (Except BinaryReaderError ConstExpr)}

theorem translateElementExpressions_reads
    (translated : translateElementExpressions expressions = .ok text) :
    ∃ terms code, (∀ following, stripComments .code (text.toList ++ following) =
        code ++ stripComments .code following) ∧
      runText [.opened []] code = some [.opened terms.reverse] ∧
      List.Forall₂ ItemAgrees expressions terms := by
  induction expressions generalizing text with
  | nil =>
      cases translated
      exact ⟨[], [], fun _ => rfl, rfl, .nil⟩
  | cons item rest induction =>
      rcases bind_ok translated with ⟨expression, itemRead, later⟩
      rcases bind_ok later with ⟨here, hereTranslated, latest⟩
      rcases bind_ok latest with ⟨restText, restTranslated, assembled⟩
      cases assembled
      have isOk : item = .ok expression := by
        cases item with
        | ok value =>
            cases itemRead
            rfl
        | error error => cases itemRead
      rcases induction restTranslated with ⟨terms, restCode, restStripped, restRan, agree⟩
      rcases translateExpr_reads (noNames_balanced _) hereTranslated with
        ⟨term, ⟨noStar, code, stripped, readsCode⟩, shown⟩
      have opening : "(".toList = ['('] := String.toList_ofList
      have closing : ")".toList = [')'] := String.toList_ofList
      have separator : " ::\n".toList = [' ', ':', ':', '\n'] := String.toList_ofList
      refine ⟨term :: terms, ['('] ++ (code ++ ')' :: ([' ', ':', ':', '\n'] ++ restCode)),
        ?_, ?_, .cons ⟨expression, isOk, shown⟩ agree⟩
      · intro following
        have apart : ['('].getLast? = some '(' → (here.toList ++ ([')', ' ', ':', ':', '\n'] ++
            (restText.toList ++ following))).head? ≠ some '*' := by
          intro _
          cases spelled : here.toList with
          | nil => simp
          | cons first others =>
              rw [spelled] at noStar
              exact noStar
        have ending := stripComments_line [')', ' ', ':', ':', '\n'] (by decide) (by decide) rfl
          (restText.toList ++ following)
        simp only [String.toList_append, opening, closing, separator, List.append_assoc]
        exact (stripComments_plain (by decide) (by decide) apart).trans
          (by rw [stripped, ending, restStripped]; simp only [List.cons_append, List.nil_append])
      · have parenthesis : run [.opened []] [.opening] = some [.opened [], .opened []] := rfl
        have element : run [(Level.opened []).push term] [.cons] = some [.opened [term]] := rfl
        rw [runText_word [.opening] (by decide) parenthesis,
          Rocq.runText_argument readsCode, runText_word [.cons] (by decide) element,
          Rocq.runText_element restRan [term] [], List.reverse_cons]

theorem translateElementItems_reads {refType : RefType}
    {type : String}
    (translated : translateElementItems (.expressions refType expressions) = .ok (type, text)) :
    ∃ terms, Rocq.readTerm text.toList = some (listOf terms) ∧
      List.Forall₂ ItemAgrees expressions terms := by
  rcases bind_ok translated with ⟨refText, _, later⟩
  rcases bind_ok later with ⟨list, listTranslated, assembled⟩
  cases assembled
  rcases translateElementExpressions_reads listTranslated with
    ⟨terms, code, stripped, ran, agree⟩
  refine ⟨terms, ?_, agree⟩
  have nothing : "nil".toList = ['n', 'i', 'l'] := String.toList_ofList
  have kept : stripComments .code ['n', 'i', 'l'] = ['n', 'i', 'l'] := by decide
  have ending : runText [.opened terms.reverse] (['n', 'i', 'l'] ++ ['\n']) =
      some [.applying terms.reverse [nilTerm]] :=
    runText_end [.name ['n', 'i', 'l']] (by decide) rfl
  rw [Rocq.readTerm, String.toList_append, nothing, stripped, kept, Rocq.readCode,
    List.append_assoc, Rocq.runText_append ran, ending, Option.bind_some, ← listTerm_reverse]
  exact Rocq.finished_applying rfl

/-! ## The condition -/

theorem elementItems_iff {terms : List Rocq.Term}
    (agree : List.Forall₂ ItemAgrees expressions terms) :
    List.Forall₂ (fun item term => ∀ expression, item = .ok expression →
        ConstantsShown expression.operators term) expressions terms ↔
      ∀ expression, .ok expression ∈ expressions →
        ConstantsPrintable expression.operators := by
  induction agree with
  | nil => simp
  | cons here _ induction =>
      rcases here with ⟨expression, rfl, shown⟩
      rw [List.forall₂_cons, induction]
      constructor
      · rintro ⟨first, others⟩ other member
        rcases List.mem_cons.mp member with same | later
        · cases same
          exact shown.mp (first _ rfl)
        · exact others other later
      · intro all
        refine ⟨?_, fun other member => all other (List.mem_cons_of_mem _ member)⟩
        rintro other ⟨⟩
        exact shown.mpr (all _ List.mem_cons_self)

theorem bodies_iff {parsed : WasmParseData} (comments : CommentsBalanced parsed) {index : Nat}
    {body : FunctionBody}
    (bodyAt : parsed.functionBodies[index]? = some body) (operators : body.operators = .ok items)
    (translated : translateFunctionBody parsed index body = .ok text) :
    (∃ term, Rocq.readTerm text.toList = some term ∧ ConstantsShown items term) ↔
      ConstantsPrintable items := by
  rw [translateFunctionBody, operators] at translated
  have isBalanced : ∀ name, some name ∈ emittedNames (functionLocalNames parsed index) items →
      balanced false 0 name.toList = true := by
    intro name member
    rw [emittedNames_accesses] at member
    rcases List.mem_map.mp member with ⟨access, accessMember, known⟩
    exact comments index body items bodyAt operators access accessMember name known
  rcases translateExpr_reads isBalanced translated with ⟨term, ⟨_, code, stripped, reads⟩, shown⟩
  have whole : Rocq.readTerm text.toList = some term := by
    have plain := stripped []
    rw [List.append_nil, stripComments, List.append_nil] at plain
    rw [Rocq.readTerm, plain, reads]
  rw [← shown]
  constructor
  · rintro ⟨other, same, denoted⟩
    rw [whole] at same
    cases same
    exact denoted
  · intro denoted
    exact ⟨term, whole, denoted⟩

/-- Under names that leave comments closed, constants denote their values exactly
when none of them is negative, or turned into the text of an error. -/
theorem constantsDenote_iff (parsed : WasmParseData) (comments : CommentsBalanced parsed) :
    ConstantsDenote parsed ↔ ConstantsNonNegative parsed := by
  constructor
  · intro denote
    refine
      { bodies := ?_
        globals := ?_
        dataOffsets := ?_
        elementOffsets := ?_
        elementItems := ?_ }
    · intro body member items operators
      by_cases missing : rendition items = .missing
      · exact constantsPrintable_missing missing
      · rcases List.mem_iff_getElem?.mp member with ⟨index, bodyAt⟩
        rcases translateExpr_present _ (functionLocalNames parsed index) missing with
          ⟨text, translated⟩
        have bodyTranslated : translateFunctionBody parsed index body = .ok text := by
          rw [translateFunctionBody, operators]
          exact translated
        exact (bodies_iff comments bodyAt operators bodyTranslated).mp
          (denote.bodies index body items text bodyAt operators bodyTranslated)
    · intro entry member supported
      by_cases missing : rendition entry.initExpr.operators = .missing
      · exact constantsPrintable_missing missing
      · rcases (translateGlobal_succeeds entry).mpr
          ⟨supported, translateExpr_present _ none missing⟩ with ⟨text, translated⟩
        exact (translateGlobal_argument translated).mp
          (denote.globals entry member text translated)
    · intro entry member memoryIndex offset kind
      by_cases missing : rendition offset.operators = .missing
      · exact constantsPrintable_missing missing
      · rcases translateExpr_present _ none missing with ⟨expression, expressionTranslated⟩
        have translated : ∃ text, translateModuleDatamode entry = .ok text := by
          rw [translateModuleDatamode, kind]
          exact ⟨_, by dsimp only; rw [expressionTranslated]; rfl⟩
        rcases translated with ⟨text, translated⟩
        exact (translateModuleDatamode_argument kind translated).mp
          (denote.dataOffsets entry member memoryIndex offset text kind translated)
    · intro entry member tableIndex offset kind
      by_cases missing : rendition offset.operators = .missing
      · exact constantsPrintable_missing missing
      · rcases translateExpr_present _ none missing with ⟨expression, expressionTranslated⟩
        have translated : ∃ text, translateElementMode entry = .ok text := by
          rw [translateElementMode, kind]
          exact ⟨_, by dsimp only; rw [expressionTranslated]; rfl⟩
        rcases translated with ⟨text, translated⟩
        exact (translateElementMode_argument kind translated).mp
          (denote.elementOffsets entry member tableIndex offset text kind translated)
    · intro entry member refType expressions same supported readable
      have succeeds : Succeeds (translateElementItems entry.items) := by
        rw [translateElementItems_succeeds, same]
        refine ⟨supported, fun item itemMember => ?_⟩
        rcases readable item itemMember with ⟨expression, isOk, present⟩
        exact ⟨expression, isOk, translateExpr_present _ none present⟩
      rcases succeeds with ⟨⟨type, text⟩, translated⟩
      rcases denote.elementItems entry member refType expressions type text same translated with
        ⟨terms, reads, denoted⟩
      rw [same] at translated
      rcases translateElementItems_reads translated with ⟨others, otherReads, agree⟩
      rw [reads] at otherReads
      rw [← listOf_injective (Option.some.inj otherReads)] at agree
      exact (elementItems_iff agree).mp denoted
  · intro nonNegative
    exact
      { bodies := by
          intro index body items text bodyAt operators translated
          exact (bodies_iff comments bodyAt operators translated).mpr
            (nonNegative.bodies body (List.mem_of_getElem? bodyAt) items operators)
        globals := by
          intro entry member text translated
          have supported := ((translateGlobal_succeeds entry).mp ⟨text, translated⟩).1
          exact (translateGlobal_argument translated).mpr
            (nonNegative.globals entry member supported)
        dataOffsets := by
          intro entry member memoryIndex offset text kind translated
          exact (translateModuleDatamode_argument kind translated).mpr
            (nonNegative.dataOffsets entry member memoryIndex offset kind)
        elementOffsets := by
          intro entry member tableIndex offset text kind translated
          exact (translateElementMode_argument kind translated).mpr
            (nonNegative.elementOffsets entry member tableIndex offset kind)
        elementItems := by
          intro entry member refType expressions type text same translated
          have succeeds := (translateElementItems_succeeds entry.items).mp ⟨_, translated⟩
          rw [same] at translated succeeds
          rcases translateElementItems_reads translated with ⟨terms, reads, agree⟩
          refine ⟨terms, reads, (elementItems_iff agree).mpr ?_⟩
          apply nonNegative.elementItems entry member refType expressions same succeeds.1
          intro item itemMember
          rcases succeeds.2 item itemMember with ⟨expression, isOk, text, itemTranslated⟩
          refine ⟨expression, isOk, fun missing => ?_⟩
          rcases translateExpr_missing none missing with ⟨failure, fails⟩
          rw [fails] at itemTranslated
          cases itemTranslated }

/-! ## Examples -/

section Examples

/-- Balanced comments of a module with one body. -/
private theorem oneBody_balanced {parsed : WasmParseData} {only : FunctionBody}
    {operators : List OperatorItem} (bodies : parsed.functionBodies = [only])
    (read : only.operators = .ok operators)
    (isBalanced : ∀ access ∈ printedAccesses operators, ∀ name,
      knownName (functionLocalNames parsed 0) access = some name →
        balanced false 0 name.toList = true) : CommentsBalanced parsed := by
  intro index body items bodyAt itemsRead
  rw [bodies] at bodyAt
  cases index with
  | zero =>
      cases bodyAt
      rw [read] at itemsRead
      cases itemsRead
      exact isBalanced
  | succ index => simp at bodyAt

/-- A constant under a block, next to a named local, and one in a global. -/
def positiveConstants : List (Item Payload) :=
  [.ok (.functionSection [.ok 0]),
    .ok (.globalSection [.ok { ty := { contentType := .i64, mutable := false, shared := false }
                               initExpr := ⟨[.ok (.i64Const 7), .ok .end_]⟩ }]),
    .ok (.codeSectionEntry
      { locals := .ok [.ok (1, .i32)]
        operators := .ok [.ok (.block .empty), .ok (.i32Const 5), .ok .end_,
          .ok (.localGet 0), .ok .end_] }),
    .ok (.nameSection [.ok (.locals [.ok ⟨0, [.ok ⟨0, "x"⟩]⟩])])]

theorem positiveConstants_denote :
    ∃ parsed, parse "m" positiveConstants = .ok parsed ∧ ConstantsDenote parsed := by
  refine ⟨_, rfl, (constantsDenote_iff _ ?_).mpr ?_⟩
  · refine oneBody_balanced rfl rfl ?_
    decide
  · refine
      { bodies := ?_
        globals := ?_
        dataOffsets := ?_
        elementOffsets := ?_
        elementItems := ?_ }
    · intro body member items operators
      cases List.mem_singleton.mp member
      cases operators
      intro op opMember constructors value isConstant
      rcases List.mem_cons.mp opMember with rfl | later
      · cases isConstant
      · rcases List.mem_cons.mp later with rfl | last
        · cases isConstant
          decide
        · cases List.mem_singleton.mp last
          cases isConstant
    · intro entry member _
      cases List.mem_singleton.mp member
      intro op opMember constructors value isConstant
      cases List.mem_singleton.mp opMember
      cases isConstant
      decide
    all_goals
      intro entry member
      cases member

/-- A function that pushes minus one. -/
def negativeConstant : List (Item Payload) :=
  [.ok (.functionSection [.ok 0]),
    .ok (.codeSectionEntry
      { locals := .ok [], operators := .ok [.ok (.i32Const (-1)), .ok .end_] })]

/-- Its body is read as a subtraction. -/
theorem negativeConstant_subtracted :
    ∃ parsed, parse "m" negativeConstant = .ok parsed ∧ ¬ ConstantsDenote parsed := by
  have reads : ∀ parsed, parse "m" negativeConstant = .ok parsed →
      ∃ body text, parsed.functionBodies = [body] ∧
        body.operators = .ok [.ok (.i32Const (-1)), .ok .end_] ∧
        translateFunctionBody parsed 0 body = .ok text := by
    rintro parsed ⟨⟩
    rcases translateExpr_present [.ok (.i32Const (-1)), .ok .end_] none (by decide) with
      ⟨text, translated⟩
    exact ⟨_, text, rfl, rfl, translated⟩
  refine ⟨_, rfl, fun denote => ?_⟩
  rcases reads _ rfl with ⟨body, text, bodies, operators, translated⟩
  have bodyAt := congrArg (·[0]?) bodies
  have printable := (bodies_iff (oneBody_balanced bodies operators (by decide)) bodyAt operators
    translated).mp (denote.bodies 0 body _ text bodyAt operators translated)
  have nonNegative := printable (.i32Const (-1)) List.mem_cons_self _ _ rfl
  exact absurd nonNegative (by decide)

end Examples

end Inference.WasmToV

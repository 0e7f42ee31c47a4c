import Inference.Foundation.Decimal
import Inference.WasmToV.EntrySupport

/-! # Error recovery

The translation of a module collects the errors of its entries and never returns
them. It does what its documentation promises for the supported modules only.
-/

namespace Inference.WasmToV

/-! ## Failing translations -/

def TableInit.operatorLists : TableInit → List (List OperatorItem)
  | .refNull => []
  | .expr expression => [expression.operators]

def DataKind.operatorLists : DataKind → List (List OperatorItem)
  | .passive => []
  | .active _ offsetExpr => [offsetExpr.operators]

def ElementKind.operatorLists : ElementKind → List (List OperatorItem)
  | .active _ offsetExpr => [offsetExpr.operators]
  | _ => []

def ElementItems.operatorLists : ElementItems → List (List OperatorItem)
  | .functions _ => []
  | .expressions _ items => items.filterMap fun item => item.toOption.map (·.operators)

/-- The operators of every body and constant expression of a module. -/
def WasmParseData.operatorLists (parsed : WasmParseData) : List (List OperatorItem) :=
  parsed.functionBodies.filterMap (·.operators.toOption) ++
    parsed.tables.flatMap (·.init.operatorLists) ++
    parsed.globals.map (·.initExpr.operators) ++
    parsed.data.flatMap (·.kind.operatorLists) ++
    parsed.elements.flatMap fun element =>
      element.kind.operatorLists ++ element.items.operatorLists

/-- An operator cannot be read or its translation fails. -/
def OperatorFails (items : List OperatorItem) : Prop :=
  ∃ item ∈ items, (∃ error, item = .error error) ∨
    ∃ op, item = .ok op ∧ Fails (translateBasicOperator op none)

/-- Some entry of the module, or some operator in it, fails to be translated. -/
inductive SomethingFails (parsed : WasmParseData) (getId : Nat → String) : Prop
  | importEntry (member : entry ∈ parsed.imports) (fails : Fails (translateModuleImport entry))
  | exportEntry (member : entry ∈ parsed.exports) (fails : Fails (translateExportModule entry))
  | table (member : entry ∈ parsed.tables) (fails : Fails (translateTableType entry))
  | memory (member : entry ∈ parsed.memoryTypes) (fails : Fails (translateMemoryType entry))
  | global (member : entry ∈ parsed.globals) (fails : Fails (translateGlobal entry))
  | data (member : entry ∈ parsed.data) (fails : Fails (translateData entry))
  | element (member : entry ∈ parsed.elements) (fails : Fails (translateElement entry))
  | functionType (member : entry ∈ parsed.functionTypes)
      (fails : Fails (translateFunctionType entry))
  | function (member : (body, index) ∈ parsed.functionBodies.zipIdx)
      (fails : Fails (translateFunction parsed index (getId index) body))
  | operator (member : items ∈ parsed.operatorLists) (fails : OperatorFails items)

/-! ## Complete output -/

/-- The text of a section lists the translations of all entries. -/
def Lists {α : Type} (translate : α → Outcome String) (entries : List α) (text : String) : Prop :=
  ∃ texts, List.Forall₂ (fun entry translated => translate entry = .ok translated) entries texts ∧
    text = String.join (texts.map fun translated => "    " ++ translated ++ listExt) ++
      "    " ++ "nil"

/-- The definitions of all bodies, in order, and the list of their names. -/
def ListsFunctions (parsed : WasmParseData) (getId : Nat → String) (names : List String)
    (definitions : String) : Prop :=
  ∃ texts,
    List.Forall₂ (fun entry translated =>
      translateFunction parsed entry.2 (getId entry.2) entry.1 = .ok translated)
      parsed.functionBodies.zipIdx texts ∧
    definitions = String.join texts ∧
    names = parsed.functionBodies.zipIdx.map fun entry =>
      functionName parsed entry.2 (getId entry.2)

/-- The initialiser of a table appears in the table's own text. -/
def TableInitAppears (table : Table) : Prop :=
  ∀ items ∈ table.init.operatorLists,
    (∀ item ∈ items, ∃ op, item = .ok op) ∧
    ∀ op ∈ printedOperators items, ∃ opText tableText,
      translateBasicOperator op none = .ok opText ∧ translateTableType table = .ok tableText ∧
        opText.toList <:+: tableText.toList

/-- The locals of a body are read, and all its operators appear. -/
def BodyAppears (parsed : WasmParseData) (index : Nat) (body : FunctionBody) : Prop :=
  (∃ declared, body.locals = .ok declared) ∧
    ∃ items, body.operators = .ok items ∧
      ExpressionAppears (functionLocalNames parsed index) items

/-- Every entry is listed in the record of the module, and every operator and
every type appears. -/
structure EverythingAppears (parsed : WasmParseData) (getId : Nat → String) (text : String) :
    Prop where
  record : ∃ sections names definitions,
    text = header ++ definitions ++ moduleRecord parsed sections names ∧
    Lists translateModuleImport parsed.imports sections.imports ∧
    Lists translateExportModule parsed.exports sections.exports ∧
    Lists translateTableType parsed.tables sections.tables ∧
    Lists translateMemoryType parsed.memoryTypes sections.memories ∧
    Lists translateGlobal parsed.globals sections.globals ∧
    Lists translateData parsed.data sections.dataSegments ∧
    Lists translateElement parsed.elements sections.elements ∧
    Lists translateFunctionType parsed.functionTypes sections.functionTypes ∧
    ListsFunctions parsed getId names definitions
  bodies : ∀ entry ∈ parsed.functionBodies.zipIdx, BodyAppears parsed entry.2 entry.1
  tables : ∀ table ∈ parsed.tables, TableInitAppears table
  globals : ∀ entry ∈ parsed.globals, ExpressionAppears none entry.initExpr.operators
  data : ∀ entry ∈ parsed.data, ∀ items ∈ entry.kind.operatorLists, ExpressionAppears none items
  elements : ∀ entry ∈ parsed.elements,
    ∀ items ∈ entry.kind.operatorLists ++ entry.items.operatorLists, ExpressionAppears none items
  types : ∀ group ∈ parsed.functionTypes, ∀ ty ∈ group.types, SubTypeAppears ty

/-- A failing translation is returned as an error, and a text is returned only
with everything in it. -/
def ErrorsAreReturned (parsed : WasmParseData) (getId : Nat → String) : Prop :=
  (SomethingFails parsed getId → ∃ error, translate parsed getId = Outcome.fail error) ∧
    ∀ text, translate parsed getId = .ok text → EverythingAppears parsed getId text

/-! ## Supported modules -/

def FunctionBody.Supported (body : FunctionBody) : Prop :=
  (∃ declared, body.locals = .ok declared ∧ SupportedLocals declared) ∧
    ∃ items, body.operators = .ok items ∧ SupportedExpression items

/-- A table without an initialising expression, save for one that only ends. -/
def Table.Supported (table : Table) : Prop :=
  table.ty.elementType.supported = true ∧
    ∀ items ∈ table.init.operatorLists, ∀ item ∈ items, ∃ op, item = .ok op ∧ op.role = .closes

def ElementItems.Supported : ElementItems → Prop
  | .functions items => ∀ item ∈ items, ∃ index, item = .ok index
  | .expressions refType items => refType.supported = true ∧
      ∀ item ∈ items, ∃ expression, item = .ok expression ∧
        SupportedExpression expression.operators

structure Supported (parsed : WasmParseData) : Prop where
  imports : ∀ entry ∈ parsed.imports, entry.supported = true
  exports : ∀ entry ∈ parsed.exports, entry.supported = true
  tables : ∀ entry ∈ parsed.tables, entry.Supported
  globals : ∀ entry ∈ parsed.globals,
    entry.ty.contentType.supported = true ∧ SupportedExpression entry.initExpr.operators
  data : ∀ entry ∈ parsed.data, ∀ items ∈ entry.kind.operatorLists, SupportedExpression items
  elements : ∀ entry ∈ parsed.elements,
    (∀ items ∈ entry.kind.operatorLists, SupportedExpression items) ∧ entry.items.Supported
  functionTypes : ∀ group ∈ parsed.functionTypes, ∀ ty ∈ group.types, ty.supported = true
  functionBodies : ∀ body ∈ parsed.functionBodies, body.Supported

/-! ## The translation never returns an error -/

def NeverReports {α : Type} (outcome : Outcome α) : Prop :=
  ∀ error, outcome ≠ Outcome.fail error

theorem neverReports_bind {α β : Type} {first : Outcome α} {next : α → Outcome β}
    (never : NeverReports first) (follows : ∀ value, NeverReports (next value)) :
    NeverReports (do let value ← first; next value) := by
  intro error reported
  cases first with
  | ok value => exact follows value error reported
  | error failure =>
      refine never error ?_
      simp only [error_bind, Outcome.fail, Except.error.injEq] at reported
      rw [reported]
      rfl

theorem neverReports_pure {α : Type} (value : α) : NeverReports (pure value : Outcome α) := by
  intro error reported
  cases reported

theorem translateSection_neverReports {α : Type} (translate : α → Outcome String)
    (entries : List α) : NeverReports (translateSection translate entries) := by
  induction entries with
  | nil => exact neverReports_pure _
  | cons entry rest induction =>
      unfold translateSection
      split
      · exact neverReports_bind induction fun _ => neverReports_pure _
      · exact neverReports_bind induction fun _ => neverReports_pure _
      · intro error reported
        cases reported

/-- Whatever the module, the result is a text or a panic. -/
theorem translate_neverReports (parsed : WasmParseData) (getId : Nat → String) :
    NeverReports (translate parsed getId) := by
  unfold translate
  refine neverReports_bind ?_ fun _ => neverReports_bind ?_ fun _ => neverReports_pure _
  · unfold translateSections
    repeat refine neverReports_bind (translateSection_neverReports _ _) fun _ => ?_
    exact neverReports_pure _
  · unfold translateFunctionSection
    split
    · exact neverReports_pure _
    · exact neverReports_pure _
    · intro error reported
      cases reported

/-! ## Modules in which nothing fails -/

theorem translateSection_lists {α : Type} {translate : α → Outcome String} {entries : List α}
    (succeed : ∀ entry ∈ entries, Succeeds (translate entry)) :
    ∃ text, translateSection translate entries = .ok (text, []) ∧
      Lists translate entries text := by
  induction entries with
  | nil => exact ⟨_, rfl, [], .nil, rfl⟩
  | cons entry rest induction =>
      obtain ⟨translated, entryTranslated⟩ := succeed entry (by simp)
      obtain ⟨text, restTranslated, texts, translations, assembled⟩ :=
        induction fun later member => succeed later (by simp [member])
      refine ⟨"    " ++ translated ++ listExt ++ text, ?_, translated :: texts,
        .cons entryTranslated translations, ?_⟩
      · simp only [translateSection, entryTranslated, restTranslated, ok_bind]
        rfl
      · rw [assembled, List.map_cons, String.join_cons]
        simp only [String.append_assoc]

theorem translateFunctionsFrom_lists {parsed : WasmParseData} {getId : Nat → String}
    {bodies : List FunctionBody} {index : Nat}
    (succeed : ∀ entry ∈ bodies.zipIdx index,
      Succeeds (translateFunction parsed entry.2 (getId entry.2) entry.1)) :
    ∃ definitions texts,
      translateFunctionsFrom parsed getId index bodies =
        .ok ((bodies.zipIdx index).map fun entry => functionName parsed entry.2 (getId entry.2),
          definitions) ∧
      List.Forall₂ (fun entry translated =>
        translateFunction parsed entry.2 (getId entry.2) entry.1 = .ok translated)
        (bodies.zipIdx index) texts ∧
      definitions = String.join texts := by
  induction bodies generalizing index with
  | nil => exact ⟨_, [], rfl, .nil, rfl⟩
  | cons body rest induction =>
      rw [List.zipIdx_cons] at succeed ⊢
      obtain ⟨definition, translated⟩ := succeed (body, index) (by simp)
      obtain ⟨definitions, texts, restTranslated, translations, assembled⟩ :=
        induction fun entry member => succeed entry (List.mem_cons_of_mem _ member)
      refine ⟨definition ++ definitions, definition :: texts, ?_, .cons translated translations, ?_⟩
      · rw [translateFunctionsFrom, translated, ok_bind, restTranslated, ok_bind]
        rfl
      · rw [assembled, String.join_cons]

/-- Nothing in the sections and the functions fails, operators aside. -/
structure EntriesSucceed (parsed : WasmParseData) (getId : Nat → String) : Prop where
  imports : ∀ entry ∈ parsed.imports, Succeeds (translateModuleImport entry)
  exports : ∀ entry ∈ parsed.exports, Succeeds (translateExportModule entry)
  tables : ∀ entry ∈ parsed.tables, Succeeds (translateTableType entry)
  globals : ∀ entry ∈ parsed.globals, Succeeds (translateGlobal entry)
  data : ∀ entry ∈ parsed.data, Succeeds (translateData entry)
  elements : ∀ entry ∈ parsed.elements, Succeeds (translateElement entry)
  functionTypes : ∀ entry ∈ parsed.functionTypes, Succeeds (translateFunctionType entry)
  functions : ∀ entry ∈ parsed.functionBodies.zipIdx,
    Succeeds (translateFunction parsed entry.2 (getId entry.2) entry.1)

theorem EntriesSucceed.of_nothingFails {parsed : WasmParseData} {getId : Nat → String}
    (nothing : ¬ SomethingFails parsed getId) : EntriesSucceed parsed getId := by
  have succeeds : ∀ {outcome : Outcome String},
      (Fails outcome → SomethingFails parsed getId) → Succeeds outcome := by
    intro outcome something
    by_contra notSucceeds
    exact nothing (something ((fails_iff outcome).mpr notSucceeds))
  exact {
    imports := fun _ member => succeeds (.importEntry member)
    exports := fun _ member => succeeds (.exportEntry member)
    tables := fun _ member => succeeds (.table member)
    globals := fun _ member => succeeds (.global member)
    data := fun _ member => succeeds (.data member)
    elements := fun _ member => succeeds (.element member)
    functionTypes := fun _ member => succeeds (.functionType member)
    functions := fun _ member => succeeds (.function member)
  }

/-- When all entries succeed, the result is the complete record. -/
theorem EntriesSucceed.translate {parsed : WasmParseData} {getId : Nat → String}
    (succeed : EntriesSucceed parsed getId) :
    ∃ sections names definitions,
      WasmToV.translate parsed getId =
        .ok (header ++ definitions ++ moduleRecord parsed sections names) ∧
      Lists translateModuleImport parsed.imports sections.imports ∧
      Lists translateExportModule parsed.exports sections.exports ∧
      Lists translateTableType parsed.tables sections.tables ∧
      Lists translateMemoryType parsed.memoryTypes sections.memories ∧
      Lists translateGlobal parsed.globals sections.globals ∧
      Lists translateData parsed.data sections.dataSegments ∧
      Lists translateElement parsed.elements sections.elements ∧
      Lists translateFunctionType parsed.functionTypes sections.functionTypes ∧
      ListsFunctions parsed getId names definitions := by
  obtain ⟨imports, importsTranslated, importsListed⟩ := translateSection_lists succeed.imports
  obtain ⟨exports, exportsTranslated, exportsListed⟩ := translateSection_lists succeed.exports
  obtain ⟨tables, tablesTranslated, tablesListed⟩ := translateSection_lists succeed.tables
  obtain ⟨memories, memoriesTranslated, memoriesListed⟩ :=
    translateSection_lists fun entry (_ : entry ∈ parsed.memoryTypes) =>
      show Succeeds (translateMemoryType entry) from succeeds_ok _
  obtain ⟨globals, globalsTranslated, globalsListed⟩ := translateSection_lists succeed.globals
  obtain ⟨data, dataTranslated, dataListed⟩ := translateSection_lists succeed.data
  obtain ⟨elements, elementsTranslated, elementsListed⟩ := translateSection_lists succeed.elements
  obtain ⟨types, typesTranslated, typesListed⟩ := translateSection_lists succeed.functionTypes
  obtain ⟨definitions, texts, functionsTranslated, functionTexts, joined⟩ :=
    translateFunctionsFrom_lists succeed.functions
  refine ⟨⟨imports, exports, tables, memories, globals, data, elements, types⟩, _, definitions,
    ?_, importsListed, exportsListed, tablesListed, memoriesListed, globalsListed, dataListed,
    elementsListed, typesListed, texts, functionTexts, joined, rfl⟩
  simp only [WasmToV.translate, translateSections, translateFunctionSection, translateFunctions,
    importsTranslated, exportsTranslated, tablesTranslated, memoriesTranslated,
    globalsTranslated, dataTranslated, elementsTranslated, typesTranslated,
    functionsTranslated, ok_bind]
  rfl

/-! ## Table initialisers -/

/-- No operator text fits into the text of a table. -/
def Termless (text : String) : Prop :=
  'B' ∉ text.toList

theorem Termless.append {first second : String} (firstTermless : Termless first)
    (secondTermless : Termless second) : Termless (first ++ second) := by
  simp only [Termless, String.toList_append, List.mem_append, not_or]
  exact ⟨firstTermless, secondTermless⟩

theorem termless_literal {word : List Char} (absent : 'B' ∉ word) :
    Termless (String.ofList word) := by
  rw [Termless, String.toList_ofList]
  exact absent

theorem termless_toString (number : Nat) : Termless (toString number) := by
  intro member
  exact absurd (Foundation.toList_toString_nat_isDigit number 'B' member) (by decide)

theorem termless_limits (initial : Nat) (maximum : Option Nat) :
    Termless (translateLimits initial maximum) := by
  have someText : Termless "Some(" := termless_literal (by decide)
  have closeText : Termless "%N)" := termless_literal (by decide)
  have noneText : Termless "None" := termless_literal (by decide)
  have percent : Termless "%N" := termless_literal (by decide)
  have minText : Termless "\x7b|lim_min := " := termless_literal (by decide)
  have maxText : Termless "; lim_max := " := termless_literal (by decide)
  have endText : Termless "|\x7d" := termless_literal (by decide)
  have limMin := (termless_toString initial).append percent
  unfold translateLimits
  cases maximum with
  | none => exact (((minText.append limMin).append maxText).append noneText).append endText
  | some max =>
      have limMax := (someText.append (termless_toString max)).append closeText
      exact (((minText.append limMin).append maxText).append limMax).append endText

theorem termless_table {table : Table} {text : String}
    (translated : translateTableType table = .ok text) : Termless text := by
  obtain ⟨elemType, elemTranslated, assembled⟩ := bind_ok translated
  cases assembled
  have mtText : Termless "Mt " := termless_literal (by decide)
  have space : Termless " " := termless_literal (by decide)
  have elemTermless : Termless elemType := by
    unfold translateRefType at elemTranslated
    split at elemTranslated
    · cases elemTranslated
      exact termless_literal (by decide)
    · split at elemTranslated
      · cases elemTranslated
        exact termless_literal (by decide)
      · cases elemTranslated
  exact ((mtText.append (termless_limits _ _)).append space).append elemTermless

theorem tableInitAppears_iff (table : Table) :
    TableInitAppears table ↔
      ∀ items ∈ table.init.operatorLists, ∀ item ∈ items,
        ∃ op, item = .ok op ∧ op.role = .closes := by
  constructor
  · intro appears items itemsMember item member
    obtain ⟨readable, printed⟩ := appears items itemsMember
    obtain ⟨op, rfl⟩ := readable item member
    refine ⟨op, rfl, ?_⟩
    by_contra notCloses
    obtain ⟨opText, tableText, opTranslated, tableTranslated, inside⟩ :=
      printed op (mem_printedOperators member notCloses)
    obtain ⟨rest, term⟩ := startsTerm_translated notCloses opTranslated
    exact termless_table tableTranslated (inside.subset (by rw [term]; exact List.mem_cons_self))
  · intro closers items itemsMember
    refine ⟨fun item member => (closers items itemsMember item member).imp fun _ => And.left, ?_⟩
    intro op member
    obtain ⟨closer, same, closes⟩ := closers items itemsMember _ (printedOperators_mem member)
    cases same
    exact absurd closes (printedOperators_printed items op member)

/-! ## The condition -/

theorem not_operatorFails {items : List OperatorItem}
    (supported : ∀ item ∈ items, ∃ op, item = .ok op ∧ op.support = .supported) :
    ¬ OperatorFails items := by
  rintro ⟨item, member, unreadable | ⟨op, rfl, fails⟩⟩
  · obtain ⟨error, rfl⟩ := unreadable
    obtain ⟨op, same, _⟩ := supported _ member
    cases same
  · obtain ⟨_, same, opSupported⟩ := supported _ member
    cases same
    obtain ⟨text, translated⟩ := translateBasicOperator_ok opSupported none
    rw [translated] at fails
    obtain ⟨failure, failed⟩ := fails
    cases failed

namespace Supported

variable {parsed : WasmParseData}

theorem expressionItems {items : ElementItems} (supported : items.Supported) :
    ∀ operators ∈ items.operatorLists, SupportedExpression operators := by
  cases items with
  | functions indexes => simp [ElementItems.operatorLists]
  | expressions refType items =>
      intro operators member
      obtain ⟨item, itemMember, found⟩ := List.mem_filterMap.mp member
      obtain ⟨expression, rfl, expressionSupported⟩ := supported.2 item itemMember
      cases found
      exact expressionSupported

theorem itemsSucceed {items : ElementItems} (supported : items.Supported) : items.Succeeds := by
  cases items with
  | functions indexes => exact supported
  | expressions refType items =>
      refine ⟨supported.1, fun item member => ?_⟩
      obtain ⟨expression, same, expressionSupported⟩ := supported.2 item member
      exact ⟨expression, same, translateExpr_succeeds expressionSupported none⟩

theorem entriesSucceed (supported : Supported parsed) (getId : Nat → String) :
    EntriesSucceed parsed getId where
  imports entry member := (translateModuleImport_succeeds entry).mpr (supported.imports entry member)
  exports entry member := (translateExportModule_succeeds entry).mpr (supported.exports entry member)
  tables entry member := (translateTableType_succeeds entry).mpr (supported.tables entry member).1
  globals entry member :=
    (translateGlobal_succeeds entry).mpr
      ⟨(supported.globals entry member).1,
        translateExpr_succeeds (supported.globals entry member).2 none⟩
  data entry member :=
    (translateData_succeeds entry).mpr fun _ offsetExpr active =>
      translateExpr_succeeds
        (supported.data entry member _ (by rw [active]; exact List.mem_singleton_self _)) none
  elements entry member :=
    (translateElement_succeeds entry).mpr
      ⟨fun _ offsetExpr active => translateExpr_succeeds
          ((supported.elements entry member).1 _
            (by rw [active]; exact List.mem_singleton_self _)) none,
        itemsSucceed (supported.elements entry member).2⟩
  functionTypes group member :=
    (translateSubTypes_succeeds group.types).mpr fun ty tyMember => by
      obtain ⟨text, translated, _⟩ :=
        (subTypeAppears_iff ty).mpr (supported.functionTypes group member ty tyMember)
      exact ⟨text, translated⟩
  functions entry member := by
    obtain ⟨⟨declared, locals, declaredSupported⟩, items, operators, itemsSupported⟩ :=
      supported.functionBodies entry.1 (List.fst_mem_of_mem_zipIdx member)
    refine (translateFunction_succeeds parsed entry.2 (getId entry.2) entry.1).mpr ⟨?_, ?_⟩
    · intro other same
      rw [locals] at same
      cases same
      exact declaredSupported
    · exact ⟨items, operators, translateExpr_succeeds itemsSupported _⟩

theorem not_somethingFails (supported : Supported parsed) (getId : Nat → String) :
    ¬ SomethingFails parsed getId := by
  have succeed := supported.entriesSucceed getId
  have expression : ∀ {items}, SupportedExpression items → ¬ OperatorFails items :=
    fun itemsSupported => not_operatorFails itemsSupported.operators
  intro something
  cases something with
  | importEntry member fails => exact (fails_iff _).mp fails (succeed.imports _ member)
  | exportEntry member fails => exact (fails_iff _).mp fails (succeed.exports _ member)
  | table member fails => exact (fails_iff _).mp fails (succeed.tables _ member)
  | memory member fails => exact (fails_iff _).mp fails (succeeds_ok _)
  | global member fails => exact (fails_iff _).mp fails (succeed.globals _ member)
  | data member fails => exact (fails_iff _).mp fails (succeed.data _ member)
  | element member fails => exact (fails_iff _).mp fails (succeed.elements _ member)
  | functionType member fails => exact (fails_iff _).mp fails (succeed.functionTypes _ member)
  | function member fails => exact (fails_iff _).mp fails (succeed.functions _ member)
  | operator member fails =>
      simp only [WasmParseData.operatorLists, List.mem_append, List.mem_filterMap,
        List.mem_flatMap, List.mem_map] at member
      rcases member with (((⟨body, bodyMember, found⟩ | ⟨table, tableMember, inTable⟩) |
        ⟨global, globalMember, rfl⟩) | ⟨data, dataMember, inData⟩) |
        ⟨element, elementMember, inOffset | inItems⟩
      · obtain ⟨_, items, operators, itemsSupported⟩ := supported.functionBodies body bodyMember
        rw [operators] at found
        cases found
        exact expression itemsSupported fails
      · refine not_operatorFails (fun item itemMember => ?_) fails
        obtain ⟨op, same, closes⟩ :=
          (supported.tables table tableMember).2 _ inTable item itemMember
        exact ⟨op, same, support_closes (Operator.closes_cases closes)⟩
      · exact expression (supported.globals global globalMember).2 fails
      · exact expression (supported.data data dataMember _ inData) fails
      · exact expression ((supported.elements element elementMember).1 _ inOffset) fails
      · exact expression
          (expressionItems (supported.elements element elementMember).2 _ inItems) fails

theorem everythingAppears (supported : Supported parsed) {getId : Nat → String} {text : String}
    (translated : translate parsed getId = .ok text) : EverythingAppears parsed getId text where
  record := by
    obtain ⟨sections, names, definitions, complete, listed⟩ :=
      (supported.entriesSucceed getId).translate
    rw [translated] at complete
    exact ⟨sections, names, definitions, Except.ok.inj complete, listed⟩
  bodies entry member := by
    obtain ⟨⟨declared, locals, _⟩, items, operators, itemsSupported⟩ :=
      supported.functionBodies entry.1 (List.fst_mem_of_mem_zipIdx member)
    exact ⟨⟨declared, locals⟩, items, operators, itemsSupported.appears _⟩
  tables table member := (tableInitAppears_iff table).mpr (supported.tables table member).2
  globals entry member := (supported.globals entry member).2.appears none
  data entry member items inData := (supported.data entry member items inData).appears none
  elements entry member items inElement := by
    rcases List.mem_append.mp inElement with inOffset | inItems
    · exact ((supported.elements entry member).1 items inOffset).appears none
    · exact (expressionItems (supported.elements entry member).2 items inItems).appears none
  types group member ty tyMember :=
    (subTypeAppears_iff ty).mpr (supported.functionTypes group member ty tyMember)

theorem of_appears {getId : Nat → String} {text : String}
    (succeed : EntriesSucceed parsed getId) (appears : EverythingAppears parsed getId text) :
    Supported parsed where
  imports entry member := (translateModuleImport_succeeds entry).mp (succeed.imports entry member)
  exports entry member := (translateExportModule_succeeds entry).mp (succeed.exports entry member)
  tables entry member :=
    ⟨(translateTableType_succeeds entry).mp (succeed.tables entry member),
      (tableInitAppears_iff entry).mp (appears.tables entry member)⟩
  globals entry member :=
    ⟨((translateGlobal_succeeds entry).mp (succeed.globals entry member)).1,
      .of_appears (appears.globals entry member)⟩
  data entry member items inData := .of_appears (appears.data entry member items inData)
  elements entry member := by
    have items := ((translateElement_succeeds entry).mp (succeed.elements entry member)).2
    have expressions := appears.elements entry member
    refine ⟨fun operators inOffset =>
      .of_appears (expressions operators (List.mem_append_left _ inOffset)), ?_⟩
    cases itemsKind : entry.items with
    | functions indexes =>
        rw [itemsKind] at items
        exact items
    | expressions refType elements =>
        rw [itemsKind] at items expressions
        refine ⟨items.1, fun item itemMember => ?_⟩
        obtain ⟨expression, rfl, _⟩ := items.2 item itemMember
        refine ⟨expression, rfl, .of_appears (expressions _ (List.mem_append_right _ ?_))⟩
        exact List.mem_filterMap.mpr ⟨_, itemMember, rfl⟩
  functionTypes group member ty tyMember :=
    (subTypeAppears_iff ty).mp (appears.types group member ty tyMember)
  functionBodies body member := by
    obtain ⟨index, bodyAt⟩ := List.mem_iff_getElem?.mp member
    have entryMember : (body, index) ∈ parsed.functionBodies.zipIdx :=
      List.mk_mem_zipIdx_iff_getElem?.mpr bodyAt
    obtain ⟨⟨declared, locals⟩, items, operators, expression⟩ := appears.bodies _ entryMember
    have function := (translateFunction_succeeds parsed index (getId index) body).mp
      (succeed.functions _ entryMember)
    exact ⟨⟨declared, locals, function.1 declared locals⟩, items, operators,
      .of_appears expression⟩

end Supported

/-- The module is translated as documented, with failures returned as errors and
nothing missing from the output, exactly when everything in it is supported. -/
theorem errorsAreReturned_iff (parsed : WasmParseData) (getId : Nat → String) :
    ErrorsAreReturned parsed getId ↔ Supported parsed := by
  constructor
  · rintro ⟨returned, complete⟩
    have nothing : ¬ SomethingFails parsed getId := by
      intro something
      obtain ⟨error, reported⟩ := returned something
      exact translate_neverReports parsed getId error reported
    have succeed := EntriesSucceed.of_nothingFails nothing
    obtain ⟨sections, names, definitions, translated, _⟩ := succeed.translate
    exact Supported.of_appears succeed (complete _ translated)
  · intro supported
    exact ⟨fun something => absurd something (supported.not_somethingFails getId),
      fun _ translated => supported.everythingAppears translated⟩

/-- A module with one exported tag: the entry fails, and the section is emitted
empty without an error. -/
theorem exportedTag_notReturned :
    ¬ ErrorsAreReturned
        { WasmParseData.new "m" with
          exports := [{ name := "e", kind := .tag, index := 0 }] } (fun _ => "id") := by
  rintro ⟨returned, _⟩
  obtain ⟨error, reported⟩ := returned (.exportEntry (List.mem_singleton_self _) ⟨_, rfl⟩)
  exact translate_neverReports _ _ error reported

end Inference.WasmToV

import Inference.WasmToV.SegmentTexts
import Inference.WasmToV.SectionLists
import Inference.WasmToV.TypeIndexSpace
import Inference.WasmToV.Totality

/-! # Faithfulness of modules

Which modules have the same text. What the translator keeps of the sections
decides; the rest of a module is dropped without an error.
-/

namespace Inference.WasmToV

open Foundation

/-! ## Sections -/

/-- A section lists what is kept of its accepted entries, each on a line that
does not start like the end of the list. -/
structure Listed {α κ : Type} (legible : α → Prop) (accepted : α → Bool)
    (translate : α → Outcome String) (kept : α → κ) : Prop where
  line : Keeps legible (enclosed "    " listExt translate) kept
  apart : ∀ {entry text behind closing}, translate entry = .ok text →
    text.toList ++ (listExt.toList ++ behind) ≠ "nil".toList ++ closing
  accepts : ∀ {entry}, translate entry ≠ Outcome.panic →
    (Succeeds (translate entry) ↔ accepted entry = true)

variable {text other : String} {errors : List TranslationError} {rest otherRest : List Char}

section Sections

variable {α κ : Type} {legible : α → Prop} {accepted : α → Bool}
  {translate : α → Outcome String} {kept : α → κ}

/-- The list of a section has a line for every accepted entry. -/
theorem section_lines (listed : Listed legible accepted translate kept) {entries : List α}
    (translated : translateSection translate entries = .ok (text, errors)) :
    ∃ lines, translateEach (enclosed "    " listExt translate) (entries.filter accepted) =
      .ok lines ∧ text = lines ++ ("    " ++ "nil") := by
  induction entries generalizing text errors with
  | nil =>
      cases translated
      exact ⟨"", rfl, rfl⟩
  | cons entry rest induction =>
      rw [translateSection] at translated
      cases here : translate entry with
      | ok line =>
          rw [here] at translated
          rcases bind_ok translated with ⟨⟨restText, restErrors⟩, restTranslated, assembled⟩
          cases assembled
          rcases induction restTranslated with ⟨lines, linesTranslated, rfl⟩
          have isAccepted : accepted entry = true := by
            apply (listed.accepts _).mp ⟨line, here⟩
            rw [here]
            exact ok_ne_panic line
          refine ⟨"    " ++ line ++ listExt ++ lines, ?_, ?_⟩
          · rw [List.filter_cons_of_pos isAccepted, translateEach, enclosed, here, linesTranslated]
            rfl
          · simp only [String.append_assoc]
      | error failure =>
          rw [here] at translated
          cases failure with
          | panicked => cases translated
          | error error =>
              rcases bind_ok translated with ⟨⟨restText, restErrors⟩, restTranslated, assembled⟩
              cases assembled
              rcases induction restTranslated with ⟨lines, linesTranslated, spelled⟩
              have notAccepted : ¬ accepted entry = true := by
                rw [← listed.accepts (by rw [here]; exact fail_ne_panic error), here]
                exact succeeds_fail error
              refine ⟨lines, ?_, spelled⟩
              rw [List.filter_cons_of_neg notAccepted]
              exact linesTranslated

theorem section_same (listed : Listed legible accepted translate kept) {entries others : List α}
    {otherErrors : List TranslationError}
    (translated : translateSection translate entries = .ok (text, errors))
    (otherTranslated : translateSection translate others = .ok (other, otherErrors))
    (same : (entries.filter accepted).map kept = (others.filter accepted).map kept) :
    text = other := by
  rcases section_lines listed translated with ⟨lines, linesTranslated, rfl⟩
  rcases section_lines listed otherTranslated with ⟨otherLines, otherLinesTranslated, rfl⟩
  rw [translateEach_same listed.line linesTranslated otherLinesTranslated same]

theorem section_cancel (listed : Listed legible accepted translate kept)
    {entries others : List α} (areLegible : ∀ entry ∈ entries.filter accepted, legible entry)
    (othersLegible : ∀ entry ∈ others.filter accepted, legible entry)
    {otherErrors : List TranslationError}
    (translated : translateSection translate entries = .ok (text, errors))
    (otherTranslated : translateSection translate others = .ok (other, otherErrors))
    (equal : text.toList ++ rest = other.toList ++ otherRest) :
    (entries.filter accepted).map kept = (others.filter accepted).map kept ∧ rest = otherRest := by
  rcases section_lines listed translated with ⟨lines, linesTranslated, rfl⟩
  rcases section_lines listed otherTranslated with ⟨otherLines, otherLinesTranslated, rfl⟩
  have closed : ∀ (rest : List Char) (entry : α) (text : String) (behind : List Char),
      legible entry → enclosed "    " listExt translate entry = .ok text →
        text.toList ++ behind ≠ "    ".toList ++ ("nil".toList ++ rest) := by
    intro rest entry text behind _ here same
    rcases enclosed_starts here with ⟨word, wordTranslated, spelled⟩
    rw [spelled, List.append_assoc, List.append_assoc] at same
    exact listed.apart wordTranslated (List.append_cancel_left same)
  simp only [String.toList_append, List.append_assoc] at equal
  rcases translateEach_cancel listed.line areLegible othersLegible (closed rest) (closed otherRest)
    linesTranslated otherLinesTranslated equal with ⟨same, rests⟩
  exact ⟨same, List.append_cancel_left (List.append_cancel_left rests)⟩

end Sections

/-! ## Accepted entries -/

theorem Keeps.listed {α κ : Type} {legible : α → Prop} {accepted : α → Bool}
    {translate : α → Outcome String} {kept : α → κ} (keeps : Keeps legible translate kept)
    (start : Char) (others : List Char) (notEnd : start ≠ 'n')
    (starts : ∀ {entry text}, translate entry = .ok text →
      ∃ behind, text.toList = (String.ofList (start :: others)).toList ++ behind)
    (accepts : ∀ {entry}, translate entry ≠ Outcome.panic →
      (Succeeds (translate entry) ↔ accepted entry = true)) :
    Listed legible accepted translate kept where
  line := keeps.enclose "    " listExt
  apart := by
    intro entry text behind closing translated same
    have nothing : "nil".toList = ['n', 'i', 'l'] := String.toList_ofList
    rcases starts translated with ⟨later, spelled⟩
    rw [spelled, String.toList_ofList, nothing] at same
    exact notEnd (List.cons.inj same).1
  accepts := accepts

/-- Items that could all be read, of a supported type. -/
def ElementItems.accepted : ElementItems → Bool
  | .functions items => items.all Item.isRead
  | .expressions refType items => refType.supported && items.all Item.isRead

def FuncType.supported (ft : FuncType) : Bool :=
  ft.params.all ValType.supported && ft.results.all ValType.supported

def RecGroup.accepted (recGroup : RecGroup) : Bool :=
  recGroup.kept.all FuncType.supported

theorem imports_listed :
    Listed Import.Legible Import.supported translateModuleImport Import.canonical := by
  apply import_keeps.listed 'M' ['i', ' ', '"'] (by decide)
  · intro entry text translated
    rcases bind_ok translated with ⟨desc, _, assembled⟩
    cases assembled
    simp only [String.toList_append, List.append_assoc]
    exact ⟨_, rfl⟩
  · intro entry _
    exact translateModuleImport_succeeds entry

theorem exports_listed :
    Listed Export.Legible Export.supported translateExportModule id := by
  apply export_keeps.listed 'M' ['e', ' ', '"'] (by decide)
  · intro entry text translated
    rcases bind_ok translated with ⟨desc, _, assembled⟩
    cases assembled
    simp only [String.toList_append, List.append_assoc]
    exact ⟨_, rfl⟩
  · intro entry _
    exact translateExportModule_succeeds entry

theorem tables_listed :
    Listed Always (fun table => table.ty.elementType.supported) translateTableType
      (fun table => table.ty.canonical) := by
  apply table_keeps.listed 'M' ['t', ' '] (by decide)
  · intro table text translated
    rcases bind_ok translated with ⟨elemType, _, assembled⟩
    cases assembled
    simp only [String.toList_append, List.append_assoc]
    exact ⟨_, rfl⟩
  · intro table _
    exact translateTableType_succeeds table

theorem memories_listed :
    Listed Always (fun _ => true) translateMemoryType MemoryType.canonical := by
  apply memory_keeps.listed 'M' ['m', ' '] (by decide)
  · intro memoryType text translated
    cases translated
    rw [String.toList_append]
    exact ⟨_, rfl⟩
  · intro memoryType _
    exact iff_of_true ⟨_, rfl⟩ rfl

theorem globals_listed :
    Listed Always (fun entry => entry.ty.contentType.supported) translateGlobal Global.kept := by
  apply global_keeps.listed 'M' ['g', ' '] (by decide)
  · intro entry text translated
    rcases bind_ok translated with ⟨tgT, _, remaining⟩
    rcases bind_ok remaining with ⟨mgInit, _, assembled⟩
    cases assembled
    simp only [String.toList_append, List.append_assoc]
    exact ⟨_, rfl⟩
  · intro entry notPanics
    rw [ne_eq, translateGlobal_panics] at notPanics
    rw [translateGlobal_succeeds, translateExpr_succeeds_iff, and_iff_left_iff_imp]
    intro supported panics
    exact notPanics ⟨supported, panics⟩

theorem data_listed : Listed Always (fun _ => true) translateData Data.kept := by
  apply data_keeps.listed '\x7b' ['|', '\n'] (by decide)
  · intro entry text translated
    rcases bind_ok translated with ⟨mode, _, assembled⟩
    cases assembled
    simp only [String.toList_append, List.append_assoc]
    exact ⟨_, rfl⟩
  · intro entry notPanics
    rw [ne_eq, translateData_panics] at notPanics
    refine iff_of_true ((translateData_succeeds entry).mpr ?_) rfl
    intro memoryIndex offsetExpr active
    rw [translateExpr_succeeds_iff]
    intro panics
    exact notPanics ⟨memoryIndex, offsetExpr, active, panics⟩

private theorem all_read {α : Type} (items : List (Except BinaryReaderError α)) :
    items.all Item.isRead = true ↔ ∀ item ∈ items, ∃ value, item = .ok value := by
  rw [List.all_eq_true]
  apply forall₂_congr
  intro item _
  cases item <;> simp [Item.isRead]

/-- Items that do not panic fail only when they are not accepted. -/
theorem elementItems_accepted {items : ElementItems} (notPanics : ¬ items.Panics) :
    items.Succeeds ↔ items.accepted = true := by
  cases items with
  | functions items => exact (all_read items).symm
  | expressions refType items =>
      rw [ElementItems.Succeeds, ElementItems.accepted, Bool.and_eq_true, all_read]
      apply and_congr_right
      intro supported
      constructor
      · intro each item member
        rcases each item member with ⟨expression, same, _⟩
        exact ⟨expression, same⟩
      · intro read item member
        rcases read item member with ⟨expression, rfl⟩
        refine ⟨expression, rfl, (translateExpr_succeeds_iff _ _).mpr fun panics => notPanics ?_⟩
        rcases List.mem_iff_append.mp member with ⟨before, after, rfl⟩
        exact ⟨supported, before, _, after, rfl,
          fun earlier earlierMember => read earlier (List.mem_append_left _ earlierMember),
          expression, rfl, panics⟩

theorem elements_listed :
    Listed Always (fun entry => entry.items.accepted) translateElement Element.kept := by
  apply element_keeps.listed '\x7b' ['|', '\n'] (by decide)
  · intro entry text translated
    rcases bind_ok translated with ⟨mode, _, remaining⟩
    rcases bind_ok remaining with ⟨⟨elementType, initial⟩, _, assembled⟩
    cases assembled
    simp only [String.toList_append, List.append_assoc]
    exact ⟨_, rfl⟩
  · intro entry notPanics
    rw [ne_eq, translateElement_panics, Element.Panics, not_or] at notPanics
    rw [translateElement_succeeds, elementItems_accepted notPanics.2, and_iff_right_iff_imp]
    intro _ tableIndex offsetExpr active
    rw [translateExpr_succeeds_iff]
    intro panics
    exact notPanics.1 ⟨tableIndex, offsetExpr, active, panics⟩

theorem funcType_succeeds (ft : FuncType) :
    Succeeds (translateFuncType ft) ↔ ft.supported = true := by
  rw [translateFuncType, succeeds_bind_and fun _ => succeeds_bind_pure,
    translateValueTypes_succeeds, translateValueTypes_succeeds, FuncType.supported,
    Bool.and_eq_true, List.all_eq_true, List.all_eq_true]

theorem translateEach_succeeds {α : Type} (translate : α → Outcome String) (values : List α) :
    Succeeds (translateEach translate values) ↔ ∀ value ∈ values, Succeeds (translate value) := by
  induction values with
  | nil => simp [translateEach]
  | cons value rest induction =>
      rw [translateEach, succeeds_bind_and fun _ => succeeds_bind_pure, induction,
        List.forall_mem_cons]

theorem functionTypes_listed :
    Listed Always RecGroup.accepted translateFunctionType RecGroup.kept where
  line := functionTypeLine_keeps
  apart := by
    intro recGroup text behind closing translated
    rw [functionType_each] at translated
    cases types : recGroup.kept with
    | nil =>
        rw [types] at translated
        cases translated
        have nothing : "".toList = [] := rfl
        rw [nothing, List.nil_append]
        exact words_ne (by decide) _ _
    | cons ft rest =>
        rw [types] at translated
        rcases bind_ok translated with ⟨here, hereTranslated, remaining⟩
        rcases bind_ok remaining with ⟨later, _, assembled⟩
        rcases bind_ok hereTranslated with ⟨params, _, hereRemaining⟩
        rcases bind_ok hereRemaining with ⟨results, _, hereAssembled⟩
        cases assembled
        cases hereAssembled
        simp only [String.toList_append, List.append_assoc]
        exact words_ne (by decide) _ _
  accepts := by
    intro recGroup _
    rw [functionType_each, translateEach_succeeds, RecGroup.accepted, List.all_eq_true]
    simp only [funcType_succeeds]

/-! ## Functions -/

/-- Executable form of `Emitted`. -/
def FunctionBody.emitted (body : FunctionBody) : Bool :=
  (match body.locals with
    | .ok declared => declared.all fun
        | .ok (_, valType) => valType.supported
        | .error _ => false
    | .error _ => true) && bodyRendition body ≠ .missing

theorem emitted_iff (body : FunctionBody) : body.emitted = true ↔ Emitted body := by
  have locals : (∀ declared, body.locals = .ok declared → SupportedLocals declared) ↔
      (match body.locals with
        | .ok declared => declared.all fun
            | .ok (_, valType) => valType.supported
            | .error _ => false
        | .error _ => true) = true := by
    cases body.locals with
    | error error => simp
    | ok declared =>
        simp only [Except.ok.injEq, forall_eq', SupportedLocals, List.all_eq_true]
        apply forall₂_congr
        rintro (error | ⟨reps, valType⟩) _ <;> simp
  rw [FunctionBody.emitted, Bool.and_eq_true, ← locals, decide_eq_true_iff]
  exact ⟨fun ⟨supported, present⟩ => ⟨supported, present⟩,
    fun ⟨supported, present⟩ => ⟨supported, present⟩⟩

instance (body : FunctionBody) : Decidable (Emitted body) :=
  decidable_of_iff _ (emitted_iff body)

/-- A module without names. -/
structure WasmParseData.Unnamed (parsed : WasmParseData) : Prop where
  functions : parsed.funcNamesMap = none
  locals : parsed.funcLocalsNameMap = none

/-- The entry of a function under a generated name. -/
def functionEntry (parsed : WasmParseData) (getId : Nat → String) (body : FunctionBody × Nat) :
    FunctionEntry where
  name := "func_" ++ getId body.2
  typeIndex := functionTypeIndex parsed body.2
  body := body.1

variable {parsed : WasmParseData}

theorem translateFunction_unnamed (unnamed : parsed.Unnamed)
    (getId : Nat → String) (body : FunctionBody) (index : Nat) :
    translateFunction parsed index (getId index) body =
      (functionEntry parsed getId (body, index)).translate := by
  have noNames : functionLocalNames parsed index = none := by
    rw [functionLocalNames, unnamed.locals]
    rfl
  have sameBody : (functionEntry parsed getId (body, index)).body = body := rfl
  rw [translateFunction, FunctionEntry.translate, translateFunctionBody, noNames, functionName,
    unnamed.functions, sameBody]
  cases translateLocals body with
  | error failure => rfl
  | ok locals =>
      cases Outcome.ofItem body.operators with
      | error failure => rfl
      | ok items => rfl

/-- The entries of the emitted functions: all of them or none. -/
def functionEntries (parsed : WasmParseData) (getId : Nat → String) : List FunctionEntry :=
  if ∀ body ∈ parsed.functionBodies, Emitted body then
    parsed.functionBodies.zipIdx.map (functionEntry parsed getId)
  else []

variable {getId : Nat → String} {names : List String}

theorem functionsFrom_each (unnamed : parsed.Unnamed)
    {index : Nat} {bodies : List FunctionBody} {definitions : String}
    (translated : translateFunctionsFrom parsed getId index bodies = .ok (names, definitions)) :
    translateEach FunctionEntry.translate
        ((bodies.zipIdx index).map (functionEntry parsed getId)) = .ok definitions ∧
      names = ((bodies.zipIdx index).map (functionEntry parsed getId)).map FunctionEntry.name := by
  induction bodies generalizing index names definitions with
  | nil =>
      cases translated
      exact ⟨rfl, rfl⟩
  | cons body rest induction =>
      rcases bind_ok translated with ⟨definition, bodyTranslated, remaining⟩
      rcases bind_ok remaining with ⟨⟨restNames, restDefinitions⟩, restTranslated, assembled⟩
      cases assembled
      rcases induction restTranslated with ⟨restEach, restNamed⟩
      rw [translateFunction_unnamed unnamed] at bodyTranslated
      constructor
      · rw [List.zipIdx_cons, List.map_cons, translateEach, bodyTranslated, ok_bind, restEach]
        rfl
      · rw [List.zipIdx_cons, List.map_cons, List.map_cons, ← restNamed, functionName,
          unnamed.functions]
        rfl

/-- The functions of a module are emitted as its entries. -/
theorem functionSection_each (unnamed : parsed.Unnamed)
    {definitions : String}
    (translated : translateFunctionSection parsed getId = .ok (names, definitions, errors)) :
    translateEach FunctionEntry.translate (functionEntries parsed getId) = .ok definitions ∧
      names = (functionEntries parsed getId).map FunctionEntry.name := by
  rw [translateFunctionSection, translateFunctions] at translated
  cases here : translateFunctionsFrom parsed getId 0 parsed.functionBodies with
  | ok result =>
      rcases result with ⟨hereNames, hereDefinitions⟩
      rw [here] at translated
      cases translated
      have emitted := (translateFunctionsFrom_ok here).2.1
      rw [functionEntries, if_pos emitted]
      exact functionsFrom_each unnamed here
  | error failure =>
      rw [here] at translated
      cases failure with
      | panicked => cases translated
      | error error =>
          cases translated
          have notEmitted : ¬ ∀ body ∈ parsed.functionBodies, Emitted body := by
            intro emitted
            have succeed : ∀ entry ∈ parsed.functionBodies.zipIdx 0,
                Succeeds (translateFunction parsed entry.2 (getId entry.2) entry.1) := by
              rintro ⟨body, position⟩ member
              apply (translateFunction_emitted _ _ _ _).mpr
              exact emitted body (List.fst_mem_of_mem_zipIdx member)
            rcases translateFunctionsFrom_lists succeed with ⟨_, _, lists, _⟩
            rw [here] at lists
            cases lists
          rw [functionEntries, if_neg notEmitted]
          exact ⟨rfl, rfl⟩

/-- What is kept of the functions. -/
def WasmParseData.keptFunctions (parsed : WasmParseData) : List KeptFunction :=
  (functionEntries parsed fun _ => "").map fun entry => entry.kept.2

theorem keptFunctions_eq (parsed : WasmParseData) (getId : Nat → String) :
    (functionEntries parsed getId).map (fun entry => entry.kept.2) = parsed.keptFunctions := by
  rw [WasmParseData.keptFunctions, functionEntries, functionEntries]
  split
  · rw [List.map_map, List.map_map]
    rfl
  · rfl

/-- The names of the entries are generated from their positions. -/
theorem functionEntries_names (parsed : WasmParseData) (getId : Nat → String) :
    (functionEntries parsed getId).map FunctionEntry.name =
      (List.range parsed.keptFunctions.length).map fun index => "func_" ++ getId index := by
  rw [← keptFunctions_eq parsed getId, List.length_map, functionEntries]
  split
  · rw [List.length_map, List.length_zipIdx, List.map_map, List.range_eq_range',
      ← List.zipIdx_map_snd, List.map_map]
    rfl
  · rfl

theorem functionEntries_kept (parsed : WasmParseData) (getId : Nat → String) :
    (functionEntries parsed getId).map FunctionEntry.kept =
      ((List.range parsed.keptFunctions.length).map fun index => "func_" ++ getId index).zip
        parsed.keptFunctions := by
  rw [← functionEntries_names, ← keptFunctions_eq parsed getId, List.zip_map']
  rfl

theorem functionEntries_named
    {entry : FunctionEntry} (member : entry ∈ functionEntries parsed getId) :
    ∃ index, entry.name = "func_" ++ getId index := by
  have named := List.mem_map_of_mem (f := FunctionEntry.name) member
  rw [functionEntries_names] at named
  rcases List.mem_map.mp named with ⟨index, _, same⟩
  exact ⟨index, same.symm⟩

/-! ## What is kept of a module -/

structure KeptModule where
  types : List (List FuncType)
  functions : List KeptFunction
  tables : List TableType
  memories : List MemoryType
  globals : List (GlobalType × Rendition)
  elements : List (SegmentMode × KeptItems)
  data : List (SegmentMode × List UInt8)
  startFunction : Option Nat
  imports : List Import
  exports : List Export
  deriving DecidableEq, Repr

/-- What is kept of the accepted entries of every section. -/
def WasmParseData.kept (parsed : WasmParseData) : KeptModule where
  types := (parsed.functionTypes.filter RecGroup.accepted).map RecGroup.kept
  functions := parsed.keptFunctions
  tables :=
    (parsed.tables.filter fun table => table.ty.elementType.supported).map fun table =>
      table.ty.canonical
  memories := parsed.memoryTypes.map MemoryType.canonical
  globals :=
    (parsed.globals.filter fun entry => entry.ty.contentType.supported).map Global.kept
  elements := (parsed.elements.filter fun entry => entry.items.accepted).map Element.kept
  data := parsed.data.map Data.kept
  startFunction := parsed.startFunction
  imports := (parsed.imports.filter Import.supported).map Import.canonical
  exports := parsed.exports.filter Export.supported

/-- Every section of a module and its list. -/
structure SectionsTranslated (parsed : WasmParseData) (sections : SectionTexts) : Prop where
  imports : ∃ errors,
    translateSection translateModuleImport parsed.imports = .ok (sections.imports, errors)
  exports : ∃ errors,
    translateSection translateExportModule parsed.exports = .ok (sections.exports, errors)
  tables : ∃ errors,
    translateSection translateTableType parsed.tables = .ok (sections.tables, errors)
  memories : ∃ errors,
    translateSection translateMemoryType parsed.memoryTypes = .ok (sections.memories, errors)
  globals : ∃ errors,
    translateSection translateGlobal parsed.globals = .ok (sections.globals, errors)
  dataSegments : ∃ errors,
    translateSection translateData parsed.data = .ok (sections.dataSegments, errors)
  elements : ∃ errors,
    translateSection translateElement parsed.elements = .ok (sections.elements, errors)
  functionTypes : ∃ errors,
    translateSection translateFunctionType parsed.functionTypes =
      .ok (sections.functionTypes, errors)

variable {sections : SectionTexts}

theorem translateSections_translated
    (translated : translateSections parsed = .ok (sections, errors)) :
    SectionsTranslated parsed sections := by
  rcases bind_ok translated with ⟨⟨imports, _⟩, importsTranslated, afterImports⟩
  rcases bind_ok afterImports with ⟨⟨exports, _⟩, exportsTranslated, afterExports⟩
  rcases bind_ok afterExports with ⟨⟨tables, _⟩, tablesTranslated, afterTables⟩
  rcases bind_ok afterTables with ⟨⟨memories, _⟩, memoriesTranslated, afterMemories⟩
  rcases bind_ok afterMemories with ⟨⟨globals, _⟩, globalsTranslated, afterGlobals⟩
  rcases bind_ok afterGlobals with ⟨⟨data, _⟩, dataTranslated, afterData⟩
  rcases bind_ok afterData with ⟨⟨elements, _⟩, elementsTranslated, afterElements⟩
  rcases bind_ok afterElements with ⟨⟨types, _⟩, typesTranslated, assembled⟩
  cases assembled
  exact {
    imports := ⟨_, importsTranslated⟩
    exports := ⟨_, exportsTranslated⟩
    tables := ⟨_, tablesTranslated⟩
    memories := ⟨_, memoriesTranslated⟩
    globals := ⟨_, globalsTranslated⟩
    dataSegments := ⟨_, dataTranslated⟩
    elements := ⟨_, elementsTranslated⟩
    functionTypes := ⟨_, typesTranslated⟩
  }

variable {first second : WasmParseData}

theorem sections_same {others : SectionTexts}
    (lists : SectionsTranslated first sections) (otherLists : SectionsTranslated second others)
    (same : first.kept = second.kept) : sections = others := by
  simp only [WasmParseData.kept, KeptModule.mk.injEq] at same
  rcases same with ⟨types, _, tables, memories, globals, elements, data, _, imports, exports⟩
  have sameImports : sections.imports = others.imports := by
    rcases lists.imports with ⟨_, translated⟩
    rcases otherLists.imports with ⟨_, otherTranslated⟩
    exact section_same imports_listed translated otherTranslated imports
  have sameExports : sections.exports = others.exports := by
    rcases lists.exports with ⟨_, translated⟩
    rcases otherLists.exports with ⟨_, otherTranslated⟩
    apply section_same exports_listed translated otherTranslated
    rw [exports]
  have sameTables : sections.tables = others.tables := by
    rcases lists.tables with ⟨_, translated⟩
    rcases otherLists.tables with ⟨_, otherTranslated⟩
    exact section_same tables_listed translated otherTranslated tables
  have sameMemories : sections.memories = others.memories := by
    rcases lists.memories with ⟨_, translated⟩
    rcases otherLists.memories with ⟨_, otherTranslated⟩
    apply section_same memories_listed translated otherTranslated
    rw [List.filter_true, List.filter_true, memories]
  have sameGlobals : sections.globals = others.globals := by
    rcases lists.globals with ⟨_, translated⟩
    rcases otherLists.globals with ⟨_, otherTranslated⟩
    exact section_same globals_listed translated otherTranslated globals
  have sameData : sections.dataSegments = others.dataSegments := by
    rcases lists.dataSegments with ⟨_, translated⟩
    rcases otherLists.dataSegments with ⟨_, otherTranslated⟩
    apply section_same data_listed translated otherTranslated
    rw [List.filter_true, List.filter_true, data]
  have sameElements : sections.elements = others.elements := by
    rcases lists.elements with ⟨_, translated⟩
    rcases otherLists.elements with ⟨_, otherTranslated⟩
    exact section_same elements_listed translated otherTranslated elements
  have sameTypes : sections.functionTypes = others.functionTypes := by
    rcases lists.functionTypes with ⟨_, translated⟩
    rcases otherLists.functionTypes with ⟨_, otherTranslated⟩
    exact section_same functionTypes_listed translated otherTranslated types
  cases sections
  cases others
  rw [SectionTexts.mk.injEq]
  exact ⟨sameImports, sameExports, sameTables, sameMemories, sameGlobals, sameData, sameElements,
    sameTypes⟩

/-- Modules of one name in which the same is kept have one text. -/
theorem translate_same (unnamed : first.Unnamed) (otherUnnamed : second.Unnamed)
    (translated : translate first getId = .ok text)
    (otherTranslated : translate second getId = .ok other)
    (sameName : first.modName = second.modName) (same : first.kept = second.kept) :
    text = other := by
  rcases translate_ok translated with
    ⟨sections, _, names, definitions, _, sectionsOk, functionsOk, spelled⟩
  rcases translate_ok otherTranslated with
    ⟨otherSections, _, otherNames, otherDefinitions, _, otherSectionsOk, otherFunctionsOk,
      otherSpelled⟩
  have sameSections := sections_same (translateSections_translated sectionsOk)
    (translateSections_translated otherSectionsOk) same
  rcases functionSection_each unnamed functionsOk with ⟨each, named⟩
  rcases functionSection_each otherUnnamed otherFunctionsOk with ⟨otherEach, otherNamed⟩
  simp only [WasmParseData.kept, KeptModule.mk.injEq] at same
  rcases same with ⟨_, sameFunctions, _, _, _, _, _, sameStart, _, _⟩
  have sameDefinitions : definitions = otherDefinitions := by
    apply translateEach_same function_keeps each otherEach
    rw [functionEntries_kept, functionEntries_kept, sameFunctions]
  have sameNames : names = otherNames := by
    rw [named, otherNamed, functionEntries_names, functionEntries_names, sameFunctions]
  have sameRecord : moduleRecord first sections names = moduleRecord second otherSections names := by
    unfold moduleRecord
    rw [sameSections, sameName, sameStart]
  rw [spelled, otherSpelled, sameRecord, sameDefinitions, sameNames]

/-! ## Reading a module back -/

/-- Names by which the text can be taken apart: a module name without blanks, and
printed import and export names without quotes. -/
structure WasmParseData.Legible (parsed : WasmParseData) : Prop where
  modName : Lacks ' ' parsed.modName
  imports : ∀ entry ∈ parsed.imports, entry.supported = true → entry.Legible
  exports : ∀ entry ∈ parsed.exports, entry.supported = true → entry.Legible

theorem start_cancel {start otherStart : Option Nat}
    (equal : (translateStart start).toList ++ rest =
      (translateStart otherStart).toList ++ otherRest) :
    start = otherStart ∧ rest = otherRest := by
  have some_text : ∀ index : Nat, translateStart (some index) =
      "  mod_start := Some \x7b|modstart_func := " ++ toString index ++ "%N|\x7d;\n" :=
    fun _ => rfl
  have none_text : translateStart none = "  mod_start := None;\n" := rfl
  cases start with
  | none =>
      cases otherStart with
      | none => exact ⟨rfl, List.append_cancel_left equal⟩
      | some other =>
          rw [none_text, some_text] at equal
          simp only [String.toList_append, List.append_assoc] at equal
          exact absurd equal (words_ne (by decide) _ _)
  | some index =>
      rw [some_text] at equal
      simp only [String.toList_append, List.append_assoc] at equal
      cases otherStart with
      | none =>
          rw [none_text] at equal
          exact absurd equal (words_ne (by decide) _ _)
      | some other =>
          rw [some_text] at equal
          simp only [String.toList_append, List.append_assoc] at equal
          rcases numeral_cancel (endsNumeral_word rfl) (List.append_cancel_left equal) with
            ⟨rfl, rests⟩
          exact ⟨rfl, rests⟩

/-- A definition of a function is not the start of the module record. -/
theorem definition_ne_record {entry : FunctionEntry} {modName : String}
    (legible : entry.Legible) (nameLegible : Lacks ' ' modName)
    (translated : entry.translate = .ok text) (rest otherRest : List Char) :
    text.toList ++ rest ≠
      "Definition ".toList ++ (modName.toList ++ (" : module := ".toList ++ otherRest)) := by
  intro equal
  rcases FunctionEntry.translate_ok translated with ⟨_, _, _, _, _, _, rfl⟩
  simp only [String.toList_append, List.append_assoc] at equal
  have behind := (name_cancel legible nameLegible (List.append_cancel_left equal)).2
  exact (DivergesBelow.of_check (by decide)).append_ne _ _ behind.symm

theorem record_text (parsed : WasmParseData) (sections : SectionTexts) (names : List String)
    (rest : List Char) :
    (moduleRecord parsed sections names).toList ++ rest =
      "Definition ".toList ++ (parsed.modName.toList ++ (" : module := ".toList ++ (lcb.toList ++
      ("  mod_types :=\n".toList ++ (sections.functionTypes.toList ++ (";\n".toList ++
      ("  mod_funcs :=\n".toList ++ ((nameList names).toList ++ (";\n".toList ++
      ("  mod_tables :=\n".toList ++ (sections.tables.toList ++ (";\n".toList ++
      ("  mod_mems :=\n".toList ++ (sections.memories.toList ++ (";\n".toList ++
      ("  mod_globals :=\n".toList ++ (sections.globals.toList ++ (";\n".toList ++
      ("  mod_elems :=\n".toList ++ (sections.elements.toList ++ (";\n".toList ++
      ("  mod_datas :=\n".toList ++ (sections.dataSegments.toList ++ (";\n".toList ++
      ((translateStart parsed.startFunction).toList ++
      ("  mod_imports :=\n".toList ++ (sections.imports.toList ++ (";\n".toList ++
      ("  mod_exports :=\n".toList ++ (sections.exports.toList ++ (";\n".toList ++
      (rcbDot.toList ++ rest)))))))))))))))))))))))))))))))) := by
  unfold moduleRecord
  simp only [String.toList_append, List.append_assoc]

/-- Behind the functions, everything that is kept can be read off the record. -/
theorem record_cancel (legible : first.Legible)
    (otherLegible : second.Legible) {others : SectionTexts}
    (lists : SectionsTranslated first sections) (otherLists : SectionsTranslated second others)
    (sameFunctions : first.keptFunctions = second.keptFunctions)
    (equal : (moduleRecord first sections names).toList ++ rest =
      (moduleRecord second others names).toList ++ otherRest) :
    first.modName = second.modName ∧ first.kept = second.kept := by
  have always : ∀ {α : Type} {entries : List α}, ∀ entry ∈ entries, Always entry :=
    fun _ _ => trivial
  rw [record_text, record_text] at equal
  rcases name_cancel legible.modName otherLegible.modName (List.append_cancel_left equal) with
    ⟨sameName, behindName⟩
  have atTypes := List.append_cancel_left (List.append_cancel_left
    (List.append_cancel_left behindName))
  rcases lists.functionTypes with ⟨_, types⟩
  rcases otherLists.functionTypes with ⟨_, otherTypes⟩
  rcases section_cancel functionTypes_listed always always types otherTypes atTypes with
    ⟨sameTypes, behindTypes⟩
  have atTables := List.append_cancel_left (List.append_cancel_left (List.append_cancel_left
    (List.append_cancel_left (List.append_cancel_left behindTypes))))
  rcases lists.tables with ⟨_, tables⟩
  rcases otherLists.tables with ⟨_, otherTables⟩
  rcases section_cancel tables_listed always always tables otherTables atTables with
    ⟨sameTables, behindTables⟩
  have atMemories := List.append_cancel_left (List.append_cancel_left behindTables)
  rcases lists.memories with ⟨_, memories⟩
  rcases otherLists.memories with ⟨_, otherMemories⟩
  rcases section_cancel memories_listed always always memories otherMemories atMemories with
    ⟨sameMemories, behindMemories⟩
  have atGlobals := List.append_cancel_left (List.append_cancel_left behindMemories)
  rcases lists.globals with ⟨_, globals⟩
  rcases otherLists.globals with ⟨_, otherGlobals⟩
  rcases section_cancel globals_listed always always globals otherGlobals atGlobals with
    ⟨sameGlobals, behindGlobals⟩
  have atElements := List.append_cancel_left (List.append_cancel_left behindGlobals)
  rcases lists.elements with ⟨_, elements⟩
  rcases otherLists.elements with ⟨_, otherElements⟩
  rcases section_cancel elements_listed always always elements otherElements atElements with
    ⟨sameElements, behindElements⟩
  have atData := List.append_cancel_left (List.append_cancel_left behindElements)
  rcases lists.dataSegments with ⟨_, data⟩
  rcases otherLists.dataSegments with ⟨_, otherData⟩
  rcases section_cancel data_listed always always data otherData atData with
    ⟨sameData, behindData⟩
  rcases start_cancel (List.append_cancel_left behindData) with ⟨sameStart, behindStart⟩
  have importsLegible : ∀ {parsed : WasmParseData}, parsed.Legible →
      ∀ entry ∈ parsed.imports.filter Import.supported, entry.Legible := by
    intro parsed isLegible entry member
    rcases List.mem_filter.mp member with ⟨inModule, supported⟩
    exact isLegible.imports entry inModule supported
  have exportsLegible : ∀ {parsed : WasmParseData}, parsed.Legible →
      ∀ entry ∈ parsed.exports.filter Export.supported, entry.Legible := by
    intro parsed isLegible entry member
    rcases List.mem_filter.mp member with ⟨inModule, supported⟩
    exact isLegible.exports entry inModule supported
  rcases lists.imports with ⟨_, imports⟩
  rcases otherLists.imports with ⟨_, otherImports⟩
  rcases section_cancel imports_listed (importsLegible legible) (importsLegible otherLegible) imports
    otherImports (List.append_cancel_left behindStart) with ⟨sameImports, behindImports⟩
  have atExports := List.append_cancel_left (List.append_cancel_left behindImports)
  rcases lists.exports with ⟨_, exports⟩
  rcases otherLists.exports with ⟨_, otherExports⟩
  rcases section_cancel exports_listed (exportsLegible legible) (exportsLegible otherLegible) exports
    otherExports atExports with ⟨sameExports, _⟩
  rw [List.filter_true, List.filter_true] at sameMemories sameData
  rw [List.map_id, List.map_id] at sameExports
  refine ⟨sameName, ?_⟩
  simp only [WasmParseData.kept, KeptModule.mk.injEq]
  exact ⟨sameTypes, sameFunctions, sameTables, sameMemories, sameGlobals, sameElements, sameData,
    sameStart, sameImports, sameExports⟩

/-- What is kept of a module can be read back from its text. -/
theorem translate_kept (unnamed : first.Unnamed)
    (otherUnnamed : second.Unnamed) (legible : first.Legible) (otherLegible : second.Legible)
    (ids : ∀ index, Lacks ' ' (getId index)) (translated : translate first getId = .ok text)
    (otherTranslated : translate second getId = .ok text) :
    first.modName = second.modName ∧ first.kept = second.kept := by
  rcases translate_ok translated with
    ⟨sections, _, names, definitions, _, sectionsOk, functionsOk, spelled⟩
  rcases translate_ok otherTranslated with
    ⟨otherSections, _, otherNames, otherDefinitions, _, otherSectionsOk, otherFunctionsOk,
      otherSpelled⟩
  have lists := translateSections_translated sectionsOk
  have otherLists := translateSections_translated otherSectionsOk
  rcases functionSection_each unnamed functionsOk with ⟨each, named⟩
  rcases functionSection_each otherUnnamed otherFunctionsOk with ⟨otherEach, otherNamed⟩
  have entriesLegible : ∀ parsed, ∀ entry ∈ functionEntries parsed getId, entry.Legible := by
    intro parsed entry member
    rcases functionEntries_named member with ⟨index, name⟩
    rw [FunctionEntry.Legible, name]
    exact (Lacks.literal (by decide)).append (ids index)
  have equal := congrArg String.toList (spelled.symm.trans otherSpelled)
  rw [String.toList_append, String.toList_append, String.toList_append, String.toList_append,
    List.append_assoc, List.append_assoc] at equal
  have behindHeader := List.append_cancel_left equal
  have record : ∀ (parsed : WasmParseData) (sections : SectionTexts) (names : List String),
      ∃ behind, (moduleRecord parsed sections names).toList =
        "Definition ".toList ++ (parsed.modName.toList ++ (" : module := ".toList ++ behind)) := by
    intro parsed sections names
    have taken := record_text parsed sections names []
    rw [List.append_nil] at taken
    exact ⟨_, taken⟩
  have closed : ∀ {parsed : WasmParseData}, parsed.Legible → ∀ sections names
      (entry : FunctionEntry) (text : String) (rest : List Char),
      entry.Legible → entry.translate = .ok text →
        text.toList ++ rest ≠ (moduleRecord parsed sections names).toList := by
    intro parsed isLegible sections names entry text rest entryLegible here
    rcases record parsed sections names with ⟨behind, taken⟩
    rw [taken]
    exact definition_ne_record entryLegible isLegible.modName here rest behind
  rcases translateEach_cancel function_keeps (entriesLegible first) (entriesLegible second)
    (closed legible sections names) (closed otherLegible otherSections otherNames) each otherEach
    behindHeader with ⟨sameEntries, sameRecord⟩
  have sameFunctions : first.keptFunctions = second.keptFunctions := by
    rw [← keptFunctions_eq first getId, ← keptFunctions_eq second getId]
    have seconds := congrArg (List.map Prod.snd) sameEntries
    rw [List.map_map, List.map_map] at seconds
    exact seconds
  have sameNames : names = otherNames := by
    rw [named, otherNamed, functionEntries_names, functionEntries_names, sameFunctions]
  rw [sameNames] at sameRecord
  have extended := congrArg (· ++ []) sameRecord
  exact record_cancel legible otherLegible lists otherLists sameFunctions extended

/-! ## Modules without names -/

/-- The payloads hold no name section. -/
def NoNames (payloads : List (Item Payload)) : Prop :=
  ∀ subsections, .ok (.nameSection subsections) ∉ payloads

theorem parsePayload_unnamed {result : WasmParseData} {payload : Payload}
    (other : ∀ subsections, payload ≠ .nameSection subsections)
    (parses : parsePayload parsed payload = .ok result) (unnamed : parsed.Unnamed) :
    result.Unnamed := by
  cases payload with
  | nameSection subsections => exact absurd rfl (other subsections)
  | unhandled => cases parses
  | typeSection _ | importSection _ | functionSection _ | tableSection _ | memorySection _
  | globalSection _ | exportSection _ | elementSection _ | dataSection _ =>
      rcases bind_ok parses with ⟨values, _, assembled⟩
      cases assembled
      exact ⟨unnamed.functions, unnamed.locals⟩
  | startSection _ | codeSectionEntry _ =>
      cases parses
      exact ⟨unnamed.functions, unnamed.locals⟩
  | _ =>
      cases parses
      exact unnamed

theorem parsePayloads_unnamed {result : WasmParseData} {payloads : List (Item Payload)}
    (noNames : NoNames payloads) (parses : parsePayloads parsed payloads = .ok result)
    (unnamed : parsed.Unnamed) : result.Unnamed := by
  induction payloads generalizing parsed with
  | nil =>
      cases parses
      exact unnamed
  | cons item rest induction =>
      rcases bind_ok parses with ⟨payload, read, remaining⟩
      rcases bind_ok remaining with ⟨middle, parsedHere, later⟩
      cases item with
      | error error => cases read
      | ok value =>
          cases read
          apply induction _ later
          · apply parsePayload_unnamed _ parsedHere unnamed
            rintro subsections rfl
            exact noNames subsections List.mem_cons_self
          · intro subsections member
            exact noNames subsections (List.mem_cons_of_mem _ member)

/-- A module that `parse` returns for payloads without a name section, and that
is translated. -/
def Accepted (parsed : WasmParseData) : Prop :=
  ∃ modName payloads, parse modName payloads = .ok parsed ∧ NoNames payloads ∧
    ∀ getId, Succeeds (translate parsed getId)

theorem Accepted.unnamed (accepted : Accepted parsed) :
    parsed.Unnamed := by
  rcases accepted with ⟨modName, payloads, parses, noNames, _⟩
  exact parsePayloads_unnamed noNames parses ⟨rfl, rfl⟩

/-! ## The property -/

/-- The table of an active segment written out. -/
def ElementKind.explicit : ElementKind → ElementKind
  | .active tableIndex offsetExpr => .active (some (tableIndex.getD 0)) offsetExpr
  | kind => kind

/-- The page size of a memory written out. -/
def MemoryType.explicit (memoryType : MemoryType) : MemoryType :=
  { memoryType with pageSizeLog2 := some (memoryType.pageSizeLog2.getD 16) }

def TypeRef.explicit : TypeRef → TypeRef
  | .memory memoryType => .memory memoryType.explicit
  | ty => ty

/-- The function type that an index denotes. -/
def WasmParseData.signature (parsed : WasmParseData) (typeIndex : Nat) : Option FuncType :=
  parsed.types[typeIndex]?.bind SubType.funcType

/-- Two modules agree in everything but their names and the operators of their
functions. -/
structure Agree (first second : WasmParseData) : Prop where
  imports : first.imports.map (fun entry => (entry.module, entry.name, entry.ty.explicit)) =
    second.imports.map fun entry => (entry.module, entry.name, entry.ty.explicit)
  exports : first.exports = second.exports
  tables : first.tables = second.tables
  memories : first.memoryTypes.map MemoryType.explicit =
    second.memoryTypes.map MemoryType.explicit
  globals : first.globals = second.globals
  elements : first.elements.map (fun entry => (entry.kind.explicit, entry.items)) =
    second.elements.map fun entry => (entry.kind.explicit, entry.items)
  data : first.data = second.data
  startFunction : first.startFunction = second.startFunction
  signatures : first.functionTypeIndexes.map first.signature =
    second.functionTypeIndexes.map second.signature
  locals : first.functionBodies.map FunctionBody.declaredLocals =
    second.functionBodies.map FunctionBody.declaredLocals

/-- The default page has 64 KiB. -/
def MemoryType.Expressible (memoryType : MemoryType) : Prop :=
  memoryType.memory64 = false ∧ memoryType.shared = false ∧ memoryType.pageSizeLog2.getD 16 = 16

def TableType.Expressible (tableType : TableType) : Prop :=
  tableType.table64 = false ∧ tableType.shared = false ∧ tableType.elementType.supported = true

def GlobalType.Expressible (globalType : GlobalType) : Prop :=
  globalType.shared = false ∧ globalType.contentType.supported = true

def TypeRef.Expressible : TypeRef → Prop
  | .func _ => True
  | .table tableType => tableType.Expressible
  | .memory memoryType => memoryType.Expressible
  | .global globalType => globalType.Expressible
  | .tag _ => False

def TableInit.Expressible : TableInit → Prop
  | .refNull => True
  | .expr _ => False

/-- A final function type without a supertype. -/
def SubType.Expressible (ty : SubType) : Prop :=
  ty.supported = true ∧ ty.compositeType.shared = false ∧ ty.isFinal = true ∧
    ty.supertypeIdx = none

/-- No operator of the expression is rejected. -/
def ExpressibleExpression (items : List OperatorItem) : Prop :=
  rendition items ≠ .misrendered

/-- The model has a place for every feature that the module uses. -/
structure WasmParseData.Expressible (parsed : WasmParseData) : Prop where
  imports : ∀ entry ∈ parsed.imports, entry.ty.Expressible
  exports : ∀ entry ∈ parsed.exports, entry.kind ≠ .tag
  tables : ∀ table ∈ parsed.tables, table.ty.Expressible ∧ table.init.Expressible
  memories : ∀ memoryType ∈ parsed.memoryTypes, memoryType.Expressible
  globals : ∀ entry ∈ parsed.globals,
    entry.ty.Expressible ∧ ExpressibleExpression entry.initExpr.operators
  data : ∀ entry ∈ parsed.data, ∀ items ∈ entry.kind.operatorLists, ExpressibleExpression items
  elements : ∀ entry ∈ parsed.elements,
    (∀ refType items, entry.items = .expressions refType items → refType.supported = true) ∧
      ∀ items ∈ entry.kind.operatorLists ++ entry.items.operatorLists, ExpressibleExpression items
  types : ∀ ty ∈ parsed.types, ty.Expressible
  functions : ∀ body ∈ parsed.functionBodies, bodyRendition body ≠ .misrendered ∧
    ∀ valType ∈ body.declaredLocals.getD [], valType.supported = true

/-- A module that uses an inexpressible feature is rejected with an error. -/
def InexpressibleRejected (parsed : WasmParseData) : Prop :=
  ¬ parsed.Expressible → ∀ getId, ∃ error, translate parsed getId = Outcome.fail error

/-- Modules with one text agree, and inexpressible ones are rejected. The texts
are compared under the same generated names. -/
structure Faithful (first second : WasmParseData) : Prop where
  agree : ∀ getId : Nat → String, (∀ index, Lacks ' ' (getId index)) → ∀ text,
    translate first getId = .ok text → translate second getId = .ok text → Agree first second
  rejected : InexpressibleRejected first
  otherRejected : InexpressibleRejected second

/-- Where all that is kept of two modules of one name is the same, they agree in
the rest, and both are expressible. -/
structure Determined (first second : WasmParseData) : Prop where
  agree : first.modName = second.modName → first.kept = second.kept → Agree first second
  expressible : first.Expressible
  otherExpressible : second.Expressible

/-- Nothing is ever rejected. -/
theorem inexpressibleRejected_iff (parsed : WasmParseData) :
    InexpressibleRejected parsed ↔ parsed.Expressible := by
  constructor
  · intro rejected
    by_contra inexpressible
    rcases rejected inexpressible fun _ => "" with ⟨error, fails⟩
    exact translate_neverReports parsed _ error fails
  · intro expressible inexpressible
    exact absurd expressible inexpressible

/-- The text of a module determines the module only where what is kept of it
does, and then always, unless a name spells out a delimiter. -/
theorem translate_faithful {first second : WasmParseData} (accepted : Accepted first)
    (otherAccepted : Accepted second) :
    (Faithful first second → Determined first second) ∧
      (first.Legible → second.Legible → Determined first second → Faithful first second) := by
  constructor
  · intro faithful
    refine ⟨?_, (inexpressibleRejected_iff first).mp faithful.rejected,
      (inexpressibleRejected_iff second).mp faithful.otherRejected⟩
    intro sameName same
    have ids : ∀ _ : Nat, Lacks ' ' "" := fun _ => .literal (by decide)
    have unnamed := accepted.unnamed
    have otherUnnamed := otherAccepted.unnamed
    rcases accepted with ⟨_, _, _, _, succeeds⟩
    rcases otherAccepted with ⟨_, _, _, _, otherSucceeds⟩
    rcases succeeds fun _ => "" with ⟨text, translated⟩
    rcases otherSucceeds fun _ => "" with ⟨other, otherTranslated⟩
    have sameText := translate_same unnamed otherUnnamed translated otherTranslated sameName same
    rw [← sameText] at otherTranslated
    exact faithful.agree _ ids text translated otherTranslated
  · intro legible otherLegible determined
    refine ⟨?_, (inexpressibleRejected_iff first).mpr determined.expressible,
      (inexpressibleRejected_iff second).mpr determined.otherExpressible⟩
    intro getId ids text translated otherTranslated
    rcases translate_kept accepted.unnamed otherAccepted.unnamed legible otherLegible ids translated
      otherTranslated with ⟨sameName, same⟩
    exact determined.agree sameName same

/-- A module with one memory, and with entries of its own in most of the other sections. -/
def filled (memoryType : MemoryType) : WasmParseData :=
  { WasmParseData.new "m" with
    imports := [⟨"env", "log", .func 0⟩]
    exports := [⟨"run", .func, 1⟩]
    memoryTypes := [memoryType]
    globals := [⟨⟨.i64, false, false⟩, ⟨[.ok (.i64Const 7), .ok .end_]⟩⟩]
    data := [⟨.active 0 ⟨[.ok (.i32Const 8), .ok .end_]⟩, [1, 2]⟩]
    functionTypes := [⟨[functionType [.i32] []]⟩, ⟨[functionType [] [.i32]]⟩]
    functionTypeIndexes := [1]
    functionBodies :=
      [{ locals := .ok [.ok (1, .i32)], operators := .ok [.ok (.localGet 0), .ok .end_] }] }

/-- The sections of the module in their order. -/
def filledPayloads (memoryType : MemoryType) : List (Item Payload) :=
  [.ok (.typeSection ((filled memoryType).functionTypes.map .ok)),
    .ok (.importSection ((filled memoryType).imports.map .ok)), .ok (.functionSection [.ok 1]),
    .ok (.memorySection [.ok memoryType]),
    .ok (.globalSection ((filled memoryType).globals.map .ok)),
    .ok (.exportSection ((filled memoryType).exports.map .ok)),
    .ok (.codeSectionEntry
      { locals := .ok [.ok (1, .i32)], operators := .ok [.ok (.localGet 0), .ok .end_] }),
    .ok (.dataSection ((filled memoryType).data.map .ok))]

theorem filled_accepted (memoryType : MemoryType) : Accepted (filled memoryType) := by
  refine ⟨"m", filledPayloads memoryType, rfl, ?_, fun getId => ⟨_, rfl⟩⟩
  intro subsections member
  simp [filledPayloads] at member

theorem filled_legible (memoryType : MemoryType) : (filled memoryType).Legible where
  modName := .literal (by decide)
  imports := by
    intro entry member supported
    cases List.mem_singleton.mp member
    exact ⟨.literal (by decide), .literal (by decide)⟩
  exports := by
    intro entry member supported
    cases List.mem_singleton.mp member
    exact .literal (by decide)

theorem filled_expressible (pages : Nat) : (filled ⟨false, false, pages, none, none⟩).Expressible where
  imports := by simp [filled, TypeRef.Expressible]
  exports := by simp [filled]
  tables := by simp [filled, WasmParseData.new]
  memories := by simp [filled, MemoryType.Expressible]
  globals := by
    intro entry member
    cases List.mem_singleton.mp member
    exact ⟨⟨rfl, rfl⟩, by unfold ExpressibleExpression; decide⟩
  data := by
    intro entry member items isOffset
    cases List.mem_singleton.mp member
    cases List.mem_singleton.mp isOffset
    unfold ExpressibleExpression
    decide
  elements := by simp [filled, WasmParseData.new]
  types := by
    intro ty member
    have isType : ty = functionType [.i32] [] ∨ ty = functionType [] [.i32] := by
      simpa [filled, WasmParseData.types] using member
    rcases isType with rfl | rfl <;> exact ⟨rfl, rfl, rfl, rfl⟩
  functions := by
    intro body member
    cases List.mem_singleton.mp member
    exact ⟨by decide, by decide⟩

/-- Memories of one page and of two pages are told apart. -/
theorem translate_faithful_filled :
    Faithful (filled ⟨false, false, 1, none, none⟩) (filled ⟨false, false, 2, none, none⟩) := by
  apply (translate_faithful (filled_accepted _) (filled_accepted _)).2 (filled_legible _)
    (filled_legible _)
  refine ⟨?_, filled_expressible 1, filled_expressible 2⟩
  intro _ same
  have memories := congrArg KeptModule.memories same
  exact absurd memories (by decide)

/-- A module with one memory. -/
def oneMemory (memoryType : MemoryType) : WasmParseData :=
  { WasmParseData.new "m" with memoryTypes := [memoryType] }

theorem oneMemory_accepted (memoryType : MemoryType) : Accepted (oneMemory memoryType) := by
  refine ⟨"m", [.ok (.memorySection [.ok memoryType])], rfl, ?_, fun getId => ⟨_, rfl⟩⟩
  intro subsections member
  cases List.mem_singleton.mp member

/-- A shared memory has the text of one that is not shared. -/
theorem sharedMemory_notFaithful :
    Accepted (oneMemory ⟨false, true, 1, some 1, none⟩) ∧
      Accepted (oneMemory ⟨false, false, 1, some 1, none⟩) ∧
      ¬ Faithful (oneMemory ⟨false, true, 1, some 1, none⟩)
        (oneMemory ⟨false, false, 1, some 1, none⟩) := by
  refine ⟨oneMemory_accepted _, oneMemory_accepted _, ?_⟩
  intro faithful
  have agree := faithful.agree (fun _ => "") (fun _ => .literal (by decide)) _ rfl rfl
  exact absurd agree.memories (by decide)

end Inference.WasmToV

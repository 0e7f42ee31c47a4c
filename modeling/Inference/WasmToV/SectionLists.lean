import Inference.Foundation.Delimiter
import Inference.WasmToV.ErrorRecovery

/-! # Lists of sections

A section is emitted as a list with one line for every entry that is translated.
The list can be read back when no entry breaks its line.
-/

namespace Inference.WasmToV

open Foundation

/-- A list of entries, one on each line. -/
def listText (entries : List String) : String :=
  String.join (entries.map fun entry => "    " ++ entry ++ listExt) ++ "    " ++ "nil"

theorem listText_cons (entry : String) (rest : List String) :
    listText (entry :: rest) = "    " ++ entry ++ listExt ++ listText rest := by
  simp only [listText, List.map_cons, String.join_cons, String.append_assoc]

theorem toList_listText_nil : (listText []).toList = "    nil".toList := by
  decide +kernel

theorem toList_listText_cons (entry : String) (rest : List String) :
    (listText (entry :: rest)).toList =
      [' ', ' ', ' ', ' '] ++
        (entry.toList ++ [' ', ':', ':'] ++ '\n' :: (listText rest).toList) := by
  have offset : "    ".toList = [' ', ' ', ' ', ' '] := String.toList_ofList
  have ending : listExt.toList = [' ', ':', ':', '\n'] := String.toList_ofList
  rw [listText_cons]
  simp only [String.toList_append, offset, ending, List.append_assoc, List.cons_append,
    List.nil_append]

/-- The texts of the entries that are translated, without the others. -/
def translatedEntries {α : Type} (translate : α → Outcome String) (entries : List α) :
    List String :=
  entries.filterMap fun entry => (translate entry).toOption

theorem translateSection_ok {α : Type} {translate : α → Outcome String} {entries : List α}
    {text : String} {errors : List TranslationError}
    (translated : translateSection translate entries = .ok (text, errors)) :
    text = listText (translatedEntries translate entries) := by
  induction entries generalizing text errors with
  | nil =>
      cases translated
      rfl
  | cons entry rest induction =>
      rw [translateSection] at translated
      cases here : translate entry with
      | ok line =>
          rw [here] at translated
          rcases bind_ok translated with ⟨⟨restText, restErrors⟩, restTranslated, assembled⟩
          cases assembled
          rw [translatedEntries, List.filterMap_cons, here, induction restTranslated]
          exact (listText_cons _ _).symm
      | error failure =>
          rw [here] at translated
          cases failure with
          | panicked => cases translated
          | error error =>
              rcases bind_ok translated with ⟨⟨restText, restErrors⟩, restTranslated, assembled⟩
              cases assembled
              rw [translatedEntries, List.filterMap_cons, here, induction restTranslated]
              rfl

/-- An entry is followed by the next line, and the list ends without one. -/
theorem listText_injective {entries others : List String}
    (lines : ∀ entry ∈ entries, Lacks '\n' entry) (otherLines : ∀ entry ∈ others, Lacks '\n' entry)
    (equal : listText entries = listText others) : entries = others := by
  have line : ∀ entry, Lacks '\n' entry → '\n' ∉ entry.toList ++ [' ', ':', ':'] := by
    intro entry lacks
    rw [List.mem_append, not_or]
    exact ⟨lacks, by decide⟩
  have last : ∀ entry rest, listText (entry :: rest) ≠ listText [] := by
    intro entry rest same
    have spelled := congrArg String.toList same
    rw [toList_listText_cons, toList_listText_nil] at spelled
    have absent : '\n' ∉ "    nil".toList := by decide
    apply absent
    rw [← spelled]
    simp
  induction entries generalizing others with
  | nil =>
      cases others with
      | nil => rfl
      | cons other rest => exact absurd equal.symm (last other rest)
  | cons entry rest induction =>
      cases others with
      | nil => exact absurd equal (last entry rest)
      | cons other otherRest =>
          have spelled := congrArg String.toList equal
          rw [toList_listText_cons, toList_listText_cons] at spelled
          rcases delimited_cancel (line entry (lines entry List.mem_cons_self))
            (line other (otherLines other List.mem_cons_self))
            (List.append_cancel_left spelled) with ⟨sameEntry, sameRest⟩
          rw [String.toList_injective (List.append_cancel_right sameEntry),
            induction (fun later member => lines later (List.mem_cons_of_mem entry member))
              (fun later member => otherLines later (List.mem_cons_of_mem other member))
              (String.toList_injective sameRest)]

/-! ## The sections of a module -/

/-- Every section lists the entries of the module that are translated. -/
structure SectionsListed (parsed : WasmParseData) (sections : SectionTexts) : Prop where
  imports : sections.imports = listText (translatedEntries translateModuleImport parsed.imports)
  exports : sections.exports = listText (translatedEntries translateExportModule parsed.exports)
  tables : sections.tables = listText (translatedEntries translateTableType parsed.tables)
  memories :
    sections.memories = listText (translatedEntries translateMemoryType parsed.memoryTypes)
  globals : sections.globals = listText (translatedEntries translateGlobal parsed.globals)
  dataSegments : sections.dataSegments = listText (translatedEntries translateData parsed.data)
  elements : sections.elements = listText (translatedEntries translateElement parsed.elements)
  functionTypes :
    sections.functionTypes =
      listText (translatedEntries translateFunctionType parsed.functionTypes)

theorem translateSections_ok {parsed : WasmParseData} {sections : SectionTexts}
    {errors : List TranslationError}
    (translated : translateSections parsed = .ok (sections, errors)) :
    SectionsListed parsed sections := by
  rcases bind_ok translated with ⟨⟨imports, _⟩, importsTranslated, afterImports⟩
  rcases bind_ok afterImports with ⟨⟨exports, _⟩, exportsTranslated, afterExports⟩
  rcases bind_ok afterExports with ⟨⟨tables, _⟩, tablesTranslated, afterTables⟩
  rcases bind_ok afterTables with ⟨⟨memories, _⟩, memoriesTranslated, afterMemories⟩
  rcases bind_ok afterMemories with ⟨⟨globals, _⟩, globalsTranslated, afterGlobals⟩
  rcases bind_ok afterGlobals with ⟨⟨data, _⟩, dataTranslated, afterData⟩
  rcases bind_ok afterData with ⟨⟨elements, _⟩, elementsTranslated, afterElements⟩
  rcases bind_ok afterElements with ⟨⟨types, _⟩, typesTranslated, assembled⟩
  cases assembled
  exact {
    imports := translateSection_ok importsTranslated
    exports := translateSection_ok exportsTranslated
    tables := translateSection_ok tablesTranslated
    memories := translateSection_ok memoriesTranslated
    globals := translateSection_ok globalsTranslated
    dataSegments := translateSection_ok dataTranslated
    elements := translateSection_ok elementsTranslated
    functionTypes := translateSection_ok typesTranslated
  }

/-- The text of a translated module. -/
theorem translate_ok {parsed : WasmParseData} {getId : Nat → String} {text : String}
    (translated : translate parsed getId = .ok text) :
    ∃ sections sectionErrors names definitions functionErrors,
      translateSections parsed = .ok (sections, sectionErrors) ∧
      translateFunctionSection parsed getId = .ok (names, definitions, functionErrors) ∧
      text = header ++ definitions ++ moduleRecord parsed sections names := by
  rcases bind_ok translated with ⟨⟨sections, sectionErrors⟩, sectionsTranslated, remaining⟩
  rcases bind_ok remaining with
    ⟨⟨names, definitions, functionErrors⟩, functionsTranslated, assembled⟩
  cases assembled
  exact ⟨_, _, _, _, _, sectionsTranslated, functionsTranslated, rfl⟩

end Inference.WasmToV

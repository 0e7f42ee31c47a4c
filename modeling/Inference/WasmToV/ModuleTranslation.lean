import Mathlib.Algebra.Ring.Nat
import Inference.WasmToV.ExpressionTranslation

/-! # Translation of modules

The sections of a module are translated one entry at a time and assembled into
one record. Errors of entries are collected on the way.
-/

namespace Inference.WasmToV

/-! ## Parsed modules -/

structure WasmParseData where
  modName : String
  funcNamesMap : Option NameMap
  funcLocalsNameMap : Option LocalsNameMap
  startFunction : Option Nat
  imports : List Import
  exports : List Export
  tables : List Table
  memoryTypes : List MemoryType
  globals : List Global
  data : List Data
  elements : List Element
  functionTypes : List RecGroup
  functionTypeIndexes : List Nat
  functionBodies : List FunctionBody
  deriving Repr

def WasmParseData.new (modName : String) : WasmParseData where
  modName := modName
  funcNamesMap := none
  funcLocalsNameMap := none
  startFunction := none
  imports := []
  exports := []
  tables := []
  memoryTypes := []
  globals := []
  data := []
  elements := []
  functionTypes := []
  functionTypeIndexes := []
  functionBodies := []

/-! ## Section entries -/

def lcb : String := "\x7b|\n"

def rcbDot : String := "|\x7d.\n"

def translateMutability (mutable : Bool) : String :=
  if mutable then "MUT_var" else "MUT_const"

/-- The limits record shared by tables and memories. -/
def translateLimits (initial : Nat) (maximum : Option Nat) : String :=
  let limMin := toString initial ++ "%N"
  let limMax :=
    match maximum with
    | some max => "Some(" ++ toString max ++ "%N)"
    | none => "None"
  "\x7b|lim_min := " ++ limMin ++ "; lim_max := " ++ limMax ++ "|\x7d"

def translateTableTypeLimits (tableType : TableType) : String :=
  translateLimits tableType.initial tableType.maximum

def translateMemoryTypeLimits (memoryType : MemoryType) : String :=
  translateLimits memoryType.initial memoryType.maximum

def translateModuleImportDesc (entry : Import) : Outcome String :=
  match entry.ty with
  | .func index => .ok ("MID_func " ++ toString index ++ "%N")
  | .global globalType => do
      let tgMut := translateMutability globalType.mutable
      let tgT ← translateValueType globalType.contentType
      return "MID_global \x7b|tg_mut := " ++ tgMut ++ "; tg_t := " ++ tgT ++ "|\x7d"
  | .memory memoryType => .ok ("MID_mem " ++ translateMemoryTypeLimits memoryType)
  | .table tableType => .ok ("MID_table " ++ translateTableTypeLimits tableType)
  | .tag _ => Outcome.fail .tagNotSupportedInImport

def translateModuleImport (entry : Import) : Outcome String := do
  let impDesc ← translateModuleImportDesc entry
  return "Mi \"" ++ entry.module ++ "\" \"" ++ entry.name ++ "\" (" ++ impDesc ++ ")"

def translateModuleExportDesc (entry : Export) : Outcome String :=
  match entry.kind with
  | .func => .ok ("MED_func " ++ toString entry.index ++ "%N")
  | .table => .ok ("MED_table " ++ toString entry.index ++ "%N")
  | .memory => .ok ("MED_mem " ++ toString entry.index ++ "%N")
  | .global => .ok ("MED_global " ++ toString entry.index ++ "%N")
  | .tag => Outcome.fail .tagNotSupported

def translateExportModule (entry : Export) : Outcome String := do
  let modexpDesc ← translateModuleExportDesc entry
  return "Me \"" ++ entry.name ++ "\" (" ++ modexpDesc ++ ")"

/-- The initialising expression of a table is not part of its text. -/
def translateTableType (table : Table) : Outcome String := do
  let ttLimits := translateTableTypeLimits table.ty
  let ttElemType ← translateRefType table.ty.elementType
  return "Mt " ++ ttLimits ++ " " ++ ttElemType

def translateMemoryType (memoryType : MemoryType) : Outcome String :=
  .ok ("Mm " ++ translateMemoryTypeLimits memoryType)

def translateGlobal (entry : Global) : Outcome String := do
  let tgMut := translateMutability entry.ty.mutable
  let tgT ← translateValueType entry.ty.contentType
  let mgInit ← translateExpr entry.initExpr.operators none
  return "Mg " ++ tgMut ++ " (" ++ tgT ++ ") (" ++ mgInit ++ ")"

def translateModuleDatamode (data : Data) : Outcome String :=
  match data.kind with
  | .active memoryIndex offsetExpr => do
      let expression ← translateExpr offsetExpr.operators none
      return "MD_active " ++ toString memoryIndex ++ "%N (" ++ expression ++ ")"
  | .passive => .ok "MD_passive"

/-- A digit of the `02X` format. -/
def upperHexDigit (value : Nat) : Char :=
  (Nat.digitChar value).toUpper

def translateByte (byte : UInt8) : String :=
  "#" ++ String.ofList [upperHexDigit (byte.toNat / 16), upperHexDigit (byte.toNat % 16)]

def translateData (data : Data) : Outcome String := do
  let moddataMode ← translateModuleDatamode data
  let moddataInit := String.join (data.data.map fun byte => translateByte byte ++ " :: ") ++ "nil"
  return "\x7b|\n" ++ "    moddata_init := " ++ moddataInit ++ ";\n" ++
    "    moddata_mode := " ++ moddataMode ++ ";\n" ++ "|\x7d"

def translateElementMode (element : Element) : Outcome String :=
  match element.kind with
  | .active tableIndex offsetExpr => do
      let tableidx := tableIndex.getD 0
      let expr ← translateExpr offsetExpr.operators none
      return "ME_active " ++ toString tableidx ++ "%N (" ++ expr ++ ")"
  | .passive => .ok "ME_passive"
  | .declared => .ok "ME_declared"

def translateElementExpressions :
    List (Except BinaryReaderError ConstExpr) → Outcome String
  | [] => .ok ""
  | result :: rest => do
      let exprReader ← Outcome.ofItem result
      let expr ← translateExpr exprReader.operators none
      let exprList ← translateElementExpressions rest
      return "(" ++ expr ++ ")" ++ " ::\n" ++ exprList

def translateElementFunctions : List (Except BinaryReaderError Nat) → Outcome String
  | [] => .ok ""
  | result :: rest => do
      let index ← Outcome.ofItem result
      let indexes ← translateElementFunctions rest
      return toString index ++ "::" ++ indexes

/-- Type and initial items of an element segment. -/
def translateElementItems (items : ElementItems) : Outcome (String × String) :=
  match items with
  | .expressions refType elements => do
      let modelemType ← translateRefType refType
      let exprList ← translateElementExpressions elements
      return (modelemType, exprList ++ "nil")
  | .functions elements => do
      let indexes ← translateElementFunctions elements
      return ("T_funcref", "ME_functions " ++ indexes ++ "nil")

def translateElement (element : Element) : Outcome String := do
  let modelemMode ← translateElementMode element
  let (modelemType, modelemInit) ← translateElementItems element.items
  return "\x7b|\n" ++ "modelem_type := " ++ modelemType ++ ";\n" ++
    "modelem_init :=\n" ++ modelemInit ++ ";\n" ++
    "modelem_mode := " ++ modelemMode ++ ";\n" ++ "|\x7d"

/-- A list of value types, each followed by a cons. -/
def translateValueTypes : List ValType → Outcome String
  | [] => .ok ""
  | valType :: rest => do
      let valType ← translateValueType valType
      let restText ← translateValueTypes rest
      return valType ++ " :: " ++ restText

/-- One type of a group. The kinds other than functions are left to do and emit
nothing. -/
def translateSubType (ty : SubType) : Outcome String :=
  match ty.compositeType.inner with
  | .func ft => do
      let paramsStr ← translateValueTypes ft.params
      let resultsStr ← translateValueTypes ft.results
      return "Tf (" ++ (paramsStr ++ "nil") ++ ") (" ++ (resultsStr ++ "nil") ++ ")"
  | .array _ | .struct _ | .cont _ => .ok ""

def translateSubTypes : List SubType → Outcome String
  | [] => .ok ""
  | ty :: rest => do
      let text ← translateSubType ty
      let restText ← translateSubTypes rest
      return text ++ restText

def translateFunctionType (recGroup : RecGroup) : Outcome String :=
  translateSubTypes recGroup.types

/-! ## Functions -/

/-- Name of the body at a position of the code section. The identifier is drawn
at random for every body. -/
def functionName (parsed : WasmParseData) (index : Nat) (id : String) : String :=
  match parsed.funcNamesMap with
  | some funcNamesMap => (funcNamesMap.lookup (index % 2 ^ 32)).getD ("func_" ++ id)
  | none => "func_" ++ id

def functionTypeIndex (parsed : WasmParseData) (index : Nat) : Nat :=
  parsed.functionTypeIndexes[index]?.getD 0

/-- Names looked up for the locals of a body. -/
def functionLocalNames (parsed : WasmParseData) (index : Nat) : Option NameMap :=
  parsed.funcLocalsNameMap.bind (·.lookup (functionTypeIndex parsed index))

def translateLocalGroups :
    List (Except BinaryReaderError (Nat × ValType)) → Outcome String
  | [] => .ok ""
  | item :: rest => do
      let (reps, valType) ← Outcome.unwrap item
      let valType ← translateValueType valType
      let restText ← translateLocalGroups rest
      return String.join (List.replicate reps (valType ++ " :: ")) ++ restText

def translateLocals (body : FunctionBody) : Outcome String :=
  match body.locals with
  | .ok localsReader => do
      let modfuncLocals ← translateLocalGroups localsReader
      return modfuncLocals ++ "nil"
  | .error _ => .ok "nil"

def translateFunctionBody (parsed : WasmParseData) (index : Nat) (body : FunctionBody) :
    Outcome String := do
  let operatorsReader ← Outcome.ofItem body.operators
  translateExpr operatorsReader (functionLocalNames parsed index)

/-- Definition emitted for the body at a position of the code section. -/
def translateFunction (parsed : WasmParseData) (index : Nat) (id : String)
    (body : FunctionBody) : Outcome String := do
  let modfuncType := functionTypeIndex parsed index
  let modfuncLocals ← translateLocals body
  let modfuncBody ← translateFunctionBody parsed index body
  return "Definition " ++ functionName parsed index id ++ " : module_func := " ++ lcb ++
    "  modfunc_type := " ++ toString modfuncType ++ "%N;\n" ++
    "  modfunc_locals := " ++ modfuncLocals ++ ";\n" ++
    "  modfunc_body :=\n" ++ modfuncBody ++ ";\n" ++ rcbDot ++ "\n"

/-- Names and definitions of the bodies from a position on. -/
def translateFunctionsFrom (parsed : WasmParseData) (getId : Nat → String) :
    Nat → List FunctionBody → Outcome (List String × String)
  | _, [] => .ok ([], "")
  | index, body :: rest => do
      let definition ← translateFunction parsed index (getId index) body
      let (names, definitions) ← translateFunctionsFrom parsed getId (index + 1) rest
      return (functionName parsed index (getId index) :: names, definition ++ definitions)

def translateFunctions (parsed : WasmParseData) (getId : Nat → String) :
    Outcome (List String × String) :=
  translateFunctionsFrom parsed getId 0 parsed.functionBodies

/-! ## Modules -/

/-- The list of a section and the errors of the entries left out of it. -/
def translateSection {α : Type} (translate : α → Outcome String) :
    List α → Outcome (String × List TranslationError)
  | [] => .ok ("    " ++ "nil", [])
  | entry :: rest =>
      match translate entry with
      | .ok translated => do
          let (text, errors) ← translateSection translate rest
          return ("    " ++ translated ++ listExt ++ text, errors)
      | .error (.error error) => do
          let (text, errors) ← translateSection translate rest
          return (text, error :: errors)
      | .error .panicked => Outcome.panic

def header : String :=
  "Require Import List.\n" ++
  "Require Import String.\n" ++
  "Require Import BinNat.\n" ++
  "Require Import ZArith.\n" ++
  "From Wasm Require Import bytes.\n" ++
  "From Wasm Require Import numerics.\n" ++
  "From Wasm Require Import datatypes.\n" ++
  "\n" ++
  "Definition Vi32 i := VAL_int32 (Wasm_int.int_of_Z i32m i).\n" ++
  "Definition Vi64 i := VAL_int64 (Wasm_int.int_of_Z i64m i).\n" ++
  "Definition Mt l et := \x7b|modtab_type := \x7b|tt_limits := l; tt_elem_type := et|\x7d|\x7d.\n" ++
  "Definition Mm l := \x7b|modmem_type := l|\x7d.\n" ++
  "Definition Mg mut t init := \x7b|modglob_type := \x7b|tg_mut := mut; tg_t := t|\x7d; modglob_init := init|\x7d.\n" ++
  "\n" ++
  "Definition Mi m n d := \x7b|\n" ++
  "  imp_module := list_byte_of_string m;\n" ++
  "  imp_name := list_byte_of_string n;\n" ++
  "  imp_desc := d;\n" ++
  "|\x7d.\n" ++
  "\n" ++
  "Definition Me n d := \x7b|\n" ++
  "  modexp_name := list_byte_of_string n;\n" ++
  "  modexp_desc := d;\n" ++
  "|\x7d.\n" ++
  "\n" ++
  "Definition Ma of al := \x7b|memarg_offset := of; memarg_align := al|\x7d.\n" ++
  "\n"

/-- Lists of the sections, in the order in which they are translated. -/
structure SectionTexts where
  imports : String
  exports : String
  tables : String
  memories : String
  globals : String
  dataSegments : String
  elements : String
  functionTypes : String

/-- The sections other than the functions, and the errors found in them. -/
def translateSections (parsed : WasmParseData) :
    Outcome (SectionTexts × List TranslationError) := do
  let (translatedImports, importErrors) ← translateSection translateModuleImport parsed.imports
  let (createdExports, exportErrors) ← translateSection translateExportModule parsed.exports
  let (createdTables, tableErrors) ← translateSection translateTableType parsed.tables
  let (createdMemoryTypes, memoryErrors) ←
    translateSection translateMemoryType parsed.memoryTypes
  let (createdGlobals, globalErrors) ← translateSection translateGlobal parsed.globals
  let (createdDataSegments, dataErrors) ← translateSection translateData parsed.data
  let (createdElements, elementErrors) ← translateSection translateElement parsed.elements
  let (createdFunctionTypes, functionTypeErrors) ←
    translateSection translateFunctionType parsed.functionTypes
  return ({
    imports := translatedImports
    exports := createdExports
    tables := createdTables
    memories := createdMemoryTypes
    globals := createdGlobals
    dataSegments := createdDataSegments
    elements := createdElements
    functionTypes := createdFunctionTypes
  }, importErrors ++ exportErrors ++ tableErrors ++ memoryErrors ++ globalErrors ++
    dataErrors ++ elementErrors ++ functionTypeErrors)

/-- Names and definitions of the functions, or nothing and the error. -/
def translateFunctionSection (parsed : WasmParseData) (getId : Nat → String) :
    Outcome (List String × String × List TranslationError) :=
  match translateFunctions parsed getId with
  | .ok (names, definitions) => .ok (names, definitions, [])
  | .error (.error error) => .ok ([], "", [error])
  | .error .panicked => Outcome.panic

def nameList (names : List String) : String :=
  String.join (names.map fun functionName => "    " ++ functionName ++ listExt) ++
    "    " ++ "nil"

def translateStart (startFunction : Option Nat) : String :=
  match startFunction with
  | some startFunction =>
      "  mod_start := Some \x7b|modstart_func := " ++ toString startFunction ++ "%N|\x7d;\n"
  | none => "  mod_start := None;\n"

/-- The module record. -/
def moduleRecord (parsed : WasmParseData) (sections : SectionTexts) (names : List String) :
    String :=
  "Definition " ++ parsed.modName ++ " : module := " ++ lcb ++
  "  mod_types :=\n" ++ sections.functionTypes ++ ";\n" ++
  "  mod_funcs :=\n" ++ nameList names ++ ";\n" ++
  "  mod_tables :=\n" ++ sections.tables ++ ";\n" ++
  "  mod_mems :=\n" ++ sections.memories ++ ";\n" ++
  "  mod_globals :=\n" ++ sections.globals ++ ";\n" ++
  "  mod_elems :=\n" ++ sections.elements ++ ";\n" ++
  "  mod_datas :=\n" ++ sections.dataSegments ++ ";\n" ++
  translateStart parsed.startFunction ++
  "  mod_imports :=\n" ++ sections.imports ++ ";\n" ++
  "  mod_exports :=\n" ++ sections.exports ++ ";\n" ++ rcbDot

def translate (parsed : WasmParseData) (getId : Nat → String) : Outcome String := do
  let (sections, sectionErrors) ← translateSections parsed
  let (names, definitions, functionErrors) ← translateFunctionSection parsed getId
  -- The collected errors are dropped here, as in the source.
  let _errors := sectionErrors ++ functionErrors
  return header ++ definitions ++ moduleRecord parsed sections names

end Inference.WasmToV

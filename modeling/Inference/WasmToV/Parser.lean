import Inference.WasmToV.ModuleTranslation

/-! # Parsing payloads

One pass over the payloads of the binary reader collects the sections of a
module. The first error ends it.
-/

namespace Inference.WasmToV

/-! ## Payloads -/

abbrev Item (α : Type) := Except BinaryReaderError α

/-- A name and the index it is given to. -/
structure Naming where
  index : Nat
  name : String
  deriving DecidableEq, Repr

/-- The names of the locals of one function. -/
structure IndirectNaming where
  index : Nat
  names : List (Item Naming)
  deriving Repr

/-- A subsection of the name section. -/
inductive Name where
  | module (name : String)
  | function (names : List (Item Naming))
  | locals (names : List (Item IndirectNaming))
  | other
  deriving Repr

inductive Payload where
  | version
  | typeSection (items : List (Item RecGroup))
  | importSection (items : List (Item Import))
  | functionSection (items : List (Item Nat))
  | tableSection (items : List (Item Table))
  | memorySection (items : List (Item MemoryType))
  | tagSection
  | globalSection (items : List (Item Global))
  | exportSection (items : List (Item Export))
  | startSection (func : Nat)
  | elementSection (items : List (Item Element))
  | dataCountSection
  | dataSection (items : List (Item Data))
  | codeSectionStart
  | codeSectionEntry (body : FunctionBody)
  -- Sections of components.
  | componentSection
  | nameSection (subsections : List (Item Name))
  | otherCustomSection
  | unknownSection
  | finished
  | unhandled
  deriving Repr

/-! ## Collecting items -/

/-- All items of a section, or the first error. -/
def collectItems {α : Type} : List (Item α) → Outcome (List α)
  | [] => .ok []
  | item :: rest => do
      let value ← Outcome.ofItem item
      let values ← collectItems rest
      return value :: values

/-- All items of a section that is read with `unwrap()`. -/
def unwrapItems {α : Type} : List (Item α) → Outcome (List α)
  | [] => .ok []
  | item :: rest => do
      let value ← Outcome.unwrap item
      let values ← unwrapItems rest
      return value :: values

/-- Insert the names of a subsection, in order. -/
def insertNamings : NameMap → List (Item Naming) → Outcome NameMap
  | names, [] => .ok names
  | names, item :: rest => do
      let naming ← Outcome.ofItem item
      insertNamings ((naming.index, naming.name) :: names) rest

def insertIndirectNamings : LocalsNameMap → List (Item IndirectNaming) → Outcome LocalsNameMap
  | functions, [] => .ok functions
  | functions, item :: rest => do
      let local_ ← Outcome.ofItem item
      let names ← insertNamings ((functions.lookup local_.index).getD []) local_.names
      insertIndirectNamings ((local_.index, names) :: functions) rest

/-! ## Parsing -/

def parseName (parsed : WasmParseData) : Name → Outcome WasmParseData
  | .module name => .ok { parsed with modName := name }
  | .function funcNames => do
      let funcNamesMap ← insertNamings [] funcNames
      if funcNamesMap.isEmpty then return parsed
      else return { parsed with funcNamesMap := some funcNamesMap }
  | .locals locals => do
      let funcLocalsNameMap ← insertIndirectNamings [] locals
      if funcLocalsNameMap.isEmpty then return parsed
      else return { parsed with funcLocalsNameMap := some funcLocalsNameMap }
  | .other => .ok parsed

def parseNames : WasmParseData → List (Item Name) → Outcome WasmParseData
  | parsed, [] => .ok parsed
  | parsed, item :: rest => do
      let name ← Outcome.ofItem item
      let parsed ← parseName parsed name
      parseNames parsed rest

def parsePayload (parsed : WasmParseData) : Payload → Outcome WasmParseData
  | .version => .ok parsed
  | .typeSection items => do
      let types ← collectItems items
      return { parsed with functionTypes := parsed.functionTypes ++ types }
  | .importSection items => do
      let imports ← collectItems items
      return { parsed with imports := parsed.imports ++ imports }
  | .functionSection items => do
      let indexes ← unwrapItems items
      return { parsed with functionTypeIndexes := parsed.functionTypeIndexes ++ indexes }
  | .tableSection items => do
      let tables ← collectItems items
      return { parsed with tables := parsed.tables ++ tables }
  | .memorySection items => do
      let memories ← collectItems items
      return { parsed with memoryTypes := parsed.memoryTypes ++ memories }
  | .tagSection => .ok parsed
  | .globalSection items => do
      let globals ← collectItems items
      return { parsed with globals := parsed.globals ++ globals }
  | .exportSection items => do
      let exports ← collectItems items
      return { parsed with exports := parsed.exports ++ exports }
  | .startSection func => .ok { parsed with startFunction := some func }
  | .elementSection items => do
      let elements ← collectItems items
      return { parsed with elements := parsed.elements ++ elements }
  | .dataCountSection => .ok parsed
  | .dataSection items => do
      let data ← collectItems items
      return { parsed with data := parsed.data ++ data }
  | .codeSectionStart => .ok parsed
  | .codeSectionEntry body =>
      .ok { parsed with functionBodies := parsed.functionBodies ++ [body] }
  | .componentSection => .ok parsed
  | .nameSection subsections => parseNames parsed subsections
  | .otherCustomSection => .ok parsed
  | .unknownSection => .ok parsed
  | .finished => .ok parsed
  | .unhandled => Outcome.panic

def parsePayloads : WasmParseData → List (Item Payload) → Outcome WasmParseData
  | parsed, [] => .ok parsed
  | parsed, item :: rest => do
      let payload ← Outcome.ofItem item
      let parsed ← parsePayload parsed payload
      parsePayloads parsed rest

def parse (modName : String) (payloads : List (Item Payload)) : Outcome WasmParseData :=
  parsePayloads (.new modName) payloads

/-- The whole pipeline on the payloads that the binary reader yields. -/
def translateBytes (modName : String) (payloads : List (Item Payload))
    (getId : Nat → String) : Outcome String := do
  let parseData ← parse modName payloads
  translate parseData getId

end Inference.WasmToV

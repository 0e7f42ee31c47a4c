import Inference.WasmToV.Parser

/-! # Contents of a module

What the payloads hold, read off them without the parser, and that the parser
collects it. The name section is read the way its last subsection with entries
determines it.
-/

namespace Inference.WasmToV

/-! ## Contents of payloads -/

def readable {α : Type} (items : List (Item α)) : List α :=
  items.filterMap Except.toOption

@[simp] theorem readable_nil {α : Type} : readable ([] : List (Item α)) = [] :=
  rfl

@[simp] theorem readable_ok {α : Type} (value : α) (rest : List (Item α)) :
    readable (.ok value :: rest) = value :: readable rest :=
  rfl

def importedBy : Payload → List Import
  | .importSection items => readable items
  | _ => []

/-- The type indices that a function section declares. -/
def declaredBy : Payload → List Nat
  | .functionSection items => readable items
  | _ => []

def globalsOf : Payload → List Global
  | .globalSection items => readable items
  | _ => []

def elementsOf : Payload → List Element
  | .elementSection items => readable items
  | _ => []

def dataOf : Payload → List Data
  | .dataSection items => readable items
  | _ => []

def definedBy : Payload → List FunctionBody
  | .codeSectionEntry body => [body]
  | _ => []

/-- The function names of a subsection, with their indices. -/
def Name.functionEntries : Name → List (List (Nat × String))
  | .function names => [(readable names).map fun naming => (naming.index, naming.name)]
  | _ => []

/-- The local names of a subsection, function by function. -/
def Name.localEntries : Name → List (List IndirectNaming)
  | .locals names => [readable names]
  | _ => []

def namedBy : Payload → List (List (Nat × String))
  | .nameSection subsections => (readable subsections).flatMap Name.functionEntries
  | _ => []

def localsNamedBy : Payload → List (List IndirectNaming)
  | .nameSection subsections => (readable subsections).flatMap Name.localEntries
  | _ => []

/-- The names that entries give to the locals of a function, with their indices. -/
def namesFor (function : Nat) (entries : List IndirectNaming) : List (Nat × String) :=
  (entries.filter (·.index = function)).flatMap fun entry =>
    (readable entry.names).map fun naming => (naming.index, naming.name)

section Contents

variable (payloads : List (Item Payload))

def definedBodies : List FunctionBody :=
  (readable payloads).flatMap definedBy

def declaredTypes : List Nat :=
  (readable payloads).flatMap declaredBy

def definedGlobals : List Global :=
  (readable payloads).flatMap globalsOf

def definedElements : List Element :=
  (readable payloads).flatMap elementsOf

def definedData : List Data :=
  (readable payloads).flatMap dataOf

/-- The number of imported functions, which come first in the index space. -/
def importedFunctions : Nat :=
  ((readable payloads).flatMap importedBy).countP fun entry =>
    match entry.ty with
    | .func _ => true
    | _ => false

/-- The name that the name section gives to an index. The last subsection with
entries counts, and in it the last entry of an index. -/
def assignedName (index : Nat) : Option String :=
  (((readable payloads).flatMap namedBy).filter (!·.isEmpty)).getLast?.bind
    (·.reverse.lookup index)

/-- The name that the name section gives to a local of a function. -/
def assignedLocal (function localIndex : Nat) : Option String :=
  (((readable payloads).flatMap localsNamedBy).filter (!·.isEmpty)).getLast?.bind fun entries =>
    (namesFor function entries).reverse.lookup localIndex

end Contents

/-! ## Reading items -/

theorem collectItems_ok {α : Type} {items : List (Item α)} {values : List α}
    (collected : collectItems items = .ok values) : values = readable items := by
  induction items generalizing values with
  | nil =>
      cases collected
      rfl
  | cons item rest induction =>
      obtain ⟨value, read, remaining⟩ := bind_ok collected
      obtain ⟨later, laterCollected, assembled⟩ := bind_ok remaining
      cases assembled
      cases item with
      | error error => cases read
      | ok value =>
          cases read
          rw [induction laterCollected]
          rfl

theorem unwrapItems_ok {α : Type} {items : List (Item α)} {values : List α}
    (unwrapped : unwrapItems items = .ok values) : values = readable items := by
  induction items generalizing values with
  | nil =>
      cases unwrapped
      rfl
  | cons item rest induction =>
      obtain ⟨value, read, remaining⟩ := bind_ok unwrapped
      obtain ⟨later, laterUnwrapped, assembled⟩ := bind_ok remaining
      cases assembled
      cases item with
      | error error => cases read
      | ok value =>
          cases read
          rw [induction laterUnwrapped]
          rfl

theorem insertNamings_ok {items : List (Item Naming)} {names result : NameMap}
    (inserted : insertNamings names items = .ok result) :
    result = ((readable items).map fun naming => (naming.index, naming.name)).reverse ++ names := by
  induction items generalizing names with
  | nil =>
      cases inserted
      rfl
  | cons item rest induction =>
      obtain ⟨naming, read, remaining⟩ := bind_ok inserted
      cases item with
      | error error => cases read
      | ok naming =>
          cases read
          rw [induction remaining]
          simp

/-- The names of one more entry, put in front of those its function has. -/
def insertLocals (functions : LocalsNameMap) (entry : IndirectNaming) : LocalsNameMap :=
  (entry.index,
    ((readable entry.names).map fun naming => (naming.index, naming.name)).reverse ++
      (functions.lookup entry.index).getD []) :: functions

theorem insertIndirectNamings_ok {items : List (Item IndirectNaming)}
    {functions result : LocalsNameMap}
    (inserted : insertIndirectNamings functions items = .ok result) :
    result = (readable items).foldl insertLocals functions := by
  induction items generalizing functions with
  | nil =>
      cases inserted
      rfl
  | cons item rest induction =>
      obtain ⟨entry, read, remaining⟩ := bind_ok inserted
      obtain ⟨names, namesInserted, restInserted⟩ := bind_ok remaining
      cases item with
      | error error => cases read
      | ok entry =>
          cases read
          rw [induction restInserted, insertNamings_ok namesInserted]
          rfl

/-- The names of a function, whatever the order of the entries. -/
theorem foldl_insertLocals_lookup (entries : List IndirectNaming) (functions : LocalsNameMap)
    (function : Nat) :
    ((entries.foldl insertLocals functions).lookup function).getD [] =
      (namesFor function entries).reverse ++ (functions.lookup function).getD [] := by
  induction entries generalizing functions with
  | nil => rfl
  | cons entry rest induction =>
      rw [List.foldl_cons, induction, insertLocals]
      by_cases same : entry.index = function
      · simp [namesFor, same]
      · have other : (function == entry.index) = false := by
          simpa using Ne.symm same
        simp [namesFor, same, List.lookup_cons, other]

theorem foldl_insertLocals_isEmpty (entries : List IndirectNaming) (functions : LocalsNameMap) :
    (entries.foldl insertLocals functions).isEmpty = (entries.isEmpty && functions.isEmpty) := by
  induction entries generalizing functions with
  | nil => simp
  | cons entry rest induction =>
      rw [List.foldl_cons, induction]
      simp [insertLocals]

/-! ## Replacing names -/

/-- What a function name subsection makes of the names known before it. -/
def replaceNames (known : Option NameMap) (entries : List (Nat × String)) : Option NameMap :=
  if entries.isEmpty then known else some entries.reverse

/-- What a local name subsection makes of the names known before it. -/
def replaceLocals (known : Option LocalsNameMap) (entries : List IndirectNaming) :
    Option LocalsNameMap :=
  if entries.isEmpty then known else some (entries.foldl insertLocals [])

/-- Of several subsections the last one with entries counts. -/
theorem foldl_replace {α β : Type} (build : List α → β) (subsections : List (List α))
    (known : Option β) :
    subsections.foldl (fun known entries => if entries.isEmpty then known else some (build entries))
        known =
      ((subsections.filter (!·.isEmpty)).getLast?.map build).or known := by
  induction subsections generalizing known with
  | nil => rfl
  | cons entries rest induction =>
      rw [List.foldl_cons, induction]
      cases entries with
      | nil => rfl
      | cons entry others =>
          have kept : ((entry :: others) :: rest).filter (!·.isEmpty) =
              (entry :: others) :: rest.filter (!·.isEmpty) := rfl
          rw [if_neg (by simp), kept, List.getLast?_cons]
          cases (rest.filter (!·.isEmpty)).getLast? <;> rfl

/-! ## The parser collects the contents -/

/-- The parsed data holds what the payloads add to the data before them. -/
structure Collects (payloads : List Payload) (parsed result : WasmParseData) : Prop where
  functionNames :
    result.funcNamesMap = (payloads.flatMap namedBy).foldl replaceNames parsed.funcNamesMap
  localNames :
    result.funcLocalsNameMap =
      (payloads.flatMap localsNamedBy).foldl replaceLocals parsed.funcLocalsNameMap
  imports : result.imports = parsed.imports ++ payloads.flatMap importedBy
  typeIndexes :
    result.functionTypeIndexes = parsed.functionTypeIndexes ++ payloads.flatMap declaredBy
  globals : result.globals = parsed.globals ++ payloads.flatMap globalsOf
  elements : result.elements = parsed.elements ++ payloads.flatMap elementsOf
  data : result.data = parsed.data ++ payloads.flatMap dataOf
  bodies : result.functionBodies = parsed.functionBodies ++ payloads.flatMap definedBy

theorem Collects.refl (parsed : WasmParseData) : Collects [] parsed parsed where
  functionNames := rfl
  localNames := rfl
  imports := by simp
  typeIndexes := by simp
  globals := by simp
  elements := by simp
  data := by simp
  bodies := by simp

theorem Collects.trans {first second : List Payload} {parsed middle result : WasmParseData}
    (front : Collects first parsed middle) (back : Collects second middle result) :
    Collects (first ++ second) parsed result where
  functionNames := by
    rw [back.functionNames, front.functionNames, List.flatMap_append, List.foldl_append]
  localNames := by
    rw [back.localNames, front.localNames, List.flatMap_append, List.foldl_append]
  imports := by simp [back.imports, front.imports]
  typeIndexes := by simp [back.typeIndexes, front.typeIndexes]
  globals := by simp [back.globals, front.globals]
  elements := by simp [back.elements, front.elements]
  data := by simp [back.data, front.data]
  bodies := by simp [back.bodies, front.bodies]

/-- What a change of names leaves as it is. -/
theorem Collects.of_names {payload : Payload} {parsed result : WasmParseData}
    (names : result.funcNamesMap = (namedBy payload).foldl replaceNames parsed.funcNamesMap)
    (locals : result.funcLocalsNameMap =
      (localsNamedBy payload).foldl replaceLocals parsed.funcLocalsNameMap)
    (isNames : ∃ subsections, payload = .nameSection subsections)
    (same : result = { parsed with
      modName := result.modName
      funcNamesMap := result.funcNamesMap
      funcLocalsNameMap := result.funcLocalsNameMap }) :
    Collects [payload] parsed result := by
  rcases isNames with ⟨subsections, rfl⟩
  rw [same]
  exact {
    functionNames := by simpa using names
    localNames := by simpa using locals
    imports := by simp [importedBy]
    typeIndexes := by simp [declaredBy]
    globals := by simp [globalsOf]
    elements := by simp [elementsOf]
    data := by simp [dataOf]
    bodies := by simp [definedBy]
  }

theorem parseName_ok {parsed result : WasmParseData} {name : Name}
    (parses : parseName parsed name = .ok result) :
    Collects [.nameSection [.ok name]] parsed result := by
  cases name with
  | module name | other =>
      cases parses
      exact .of_names rfl rfl ⟨_, rfl⟩ rfl
  | locals names =>
      obtain ⟨localNames, inserted, assembled⟩ := bind_ok parses
      rw [insertIndirectNamings_ok inserted] at assembled
      have replaced : localsNamedBy (.nameSection [.ok (.locals names)]) = [readable names] := by
        simp [localsNamedBy, Name.localEntries]
      simp only [foldl_insertLocals_isEmpty, List.isEmpty_nil, Bool.and_true] at assembled
      split at assembled
      case isTrue empty =>
          cases assembled
          refine .of_names rfl ?_ ⟨_, rfl⟩ rfl
          rw [replaced, List.foldl_cons, List.foldl_nil, replaceLocals, if_pos empty]
      case isFalse nonempty =>
          cases assembled
          refine .of_names rfl ?_ ⟨_, rfl⟩ rfl
          rw [replaced, List.foldl_cons, List.foldl_nil, replaceLocals, if_neg nonempty]
  | function names =>
      obtain ⟨funcNames, inserted, assembled⟩ := bind_ok parses
      rw [insertNamings_ok inserted, List.append_nil] at assembled
      have replaced : namedBy (.nameSection [.ok (.function names)]) =
          [(readable names).map fun naming => (naming.index, naming.name)] := by
        simp [namedBy, Name.functionEntries]
      simp only [List.isEmpty_reverse] at assembled
      split at assembled
      case isTrue empty =>
          cases assembled
          refine .of_names ?_ rfl ⟨_, rfl⟩ rfl
          rw [replaced, List.foldl_cons, List.foldl_nil, replaceNames, if_pos empty]
      case isFalse nonempty =>
          cases assembled
          refine .of_names ?_ rfl ⟨_, rfl⟩ rfl
          rw [replaced, List.foldl_cons, List.foldl_nil, replaceNames, if_neg nonempty]

theorem parseNames_ok {parsed result : WasmParseData} {subsections : List (Item Name)}
    (parses : parseNames parsed subsections = .ok result) :
    Collects [.nameSection subsections] parsed result := by
  induction subsections generalizing parsed with
  | nil =>
      cases parses
      exact .of_names rfl rfl ⟨_, rfl⟩ rfl
  | cons item rest induction =>
      obtain ⟨name, read, remaining⟩ := bind_ok parses
      obtain ⟨later, nameParses, restParses⟩ := bind_ok remaining
      cases item with
      | error error => cases read
      | ok name =>
          cases read
          have both := (parseName_ok nameParses).trans (induction restParses)
          -- A name section adds what its first subsection and the remaining ones add.
          exact { both with
            functionNames := by simpa [namedBy] using both.functionNames
            localNames := by simpa [localsNamedBy] using both.localNames }

theorem parsePayload_ok {parsed result : WasmParseData} {payload : Payload}
    (parses : parsePayload parsed payload = .ok result) : Collects [payload] parsed result := by
  cases payload with
  | nameSection subsections => exact parseNames_ok parses
  | unhandled => cases parses
  | functionSection items =>
      obtain ⟨indexes, unwrapped, assembled⟩ := bind_ok parses
      cases assembled
      constructor <;>
        simp [namedBy, localsNamedBy, importedBy, declaredBy, globalsOf, elementsOf, dataOf,
          definedBy, unwrapItems_ok unwrapped]
  | importSection items | typeSection items | tableSection items | memorySection items
  | globalSection items | exportSection items | elementSection items | dataSection items =>
      obtain ⟨values, collected, assembled⟩ := bind_ok parses
      cases assembled
      constructor <;>
        simp [namedBy, localsNamedBy, importedBy, declaredBy, globalsOf, elementsOf, dataOf,
          definedBy, collectItems_ok collected]
  | _ =>
      cases parses
      constructor <;>
        simp [namedBy, localsNamedBy, importedBy, declaredBy, globalsOf, elementsOf, dataOf,
          definedBy]

theorem parsePayloads_ok {parsed result : WasmParseData} {payloads : List (Item Payload)}
    (parses : parsePayloads parsed payloads = .ok result) :
    Collects (readable payloads) parsed result := by
  induction payloads generalizing parsed with
  | nil =>
      cases parses
      exact Collects.refl _
  | cons item rest induction =>
      obtain ⟨payload, read, remaining⟩ := bind_ok parses
      obtain ⟨later, payloadParses, restParses⟩ := bind_ok remaining
      cases item with
      | error error => cases read
      | ok payload =>
          cases read
          exact (parsePayload_ok payloadParses).trans (induction restParses)

section Parsed

variable {modName : String} {payloads : List (Item Payload)} {parsed : WasmParseData}
  (parses : parse modName payloads = .ok parsed)

include parses

theorem functionBodies_defined : parsed.functionBodies = definedBodies payloads :=
  (parsePayloads_ok parses).bodies

theorem globals_defined : parsed.globals = definedGlobals payloads :=
  (parsePayloads_ok parses).globals

theorem elements_defined : parsed.elements = definedElements payloads :=
  (parsePayloads_ok parses).elements

theorem data_defined : parsed.data = definedData payloads :=
  (parsePayloads_ok parses).data

theorem functionTypeIndexes_declared : parsed.functionTypeIndexes = declaredTypes payloads :=
  (parsePayloads_ok parses).typeIndexes

theorem lookup_assignedName (index : Nat) :
    parsed.funcNamesMap.bind (·.lookup index) = assignedName payloads index := by
  have names : parsed.funcNamesMap = ((((readable payloads).flatMap namedBy).filter
      (!·.isEmpty)).getLast?.map List.reverse).or none := by
    rw [(parsePayloads_ok parses).functionNames]
    exact foldl_replace List.reverse _ _
  rw [names, assignedName]
  cases (((readable payloads).flatMap namedBy).filter (!·.isEmpty)).getLast? <;> rfl

theorem lookup_assignedLocal (function localIndex : Nat) :
    (parsed.funcLocalsNameMap.bind (·.lookup function)).bind (·.lookup localIndex) =
      assignedLocal payloads function localIndex := by
  have names : parsed.funcLocalsNameMap = ((((readable payloads).flatMap localsNamedBy).filter
      (!·.isEmpty)).getLast?.map (·.foldl insertLocals [])).or none := by
    rw [(parsePayloads_ok parses).localNames]
    exact foldl_replace (fun entries => entries.foldl insertLocals []) _ _
  rw [names, assignedLocal]
  cases (((readable payloads).flatMap localsNamedBy).filter (!·.isEmpty)).getLast? with
  | none => rfl
  | some entries =>
      have known := foldl_insertLocals_lookup entries [] function
      simp only [List.lookup_nil, Option.getD_none, List.append_nil] at known
      simp only [Option.map_some, Option.or_none, Option.bind_some]
      rw [← known]
      cases (entries.foldl insertLocals []).lookup function <;> rfl

end Parsed

end Inference.WasmToV

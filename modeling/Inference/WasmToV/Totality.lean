import Inference.WasmToV.ExpressionPanics
import Inference.WasmToV.FunctionNaming

/-! # Panics of the translation

A module is translated, or an error is returned, unless one of the unwrapped
results or `todo!()` arms is reached. Which inputs reach one is read off the
payloads.
-/

namespace Inference.WasmToV

/-! ## Panics of sequences -/

@[simp] theorem fail_ne_panic {α : Type} (error : TranslationError) :
    (Outcome.fail error : Outcome α) ≠ Outcome.panic := by
  intro same
  cases same

@[simp] theorem ok_ne_panic {α : Type} (value : α) : (.ok value : Outcome α) ≠ Outcome.panic := by
  intro same
  cases same

@[simp] theorem pure_ne_panic {α : Type} (value : α) :
    (pure value : Outcome α) ≠ Outcome.panic :=
  ok_ne_panic value

theorem panics_bind {α β : Type} {first : Outcome α} {next : α → Outcome β} :
    (do let value ← first; next value) = Outcome.panic ↔
      first = Outcome.panic ∨ ∃ value, first = .ok value ∧ next value = Outcome.panic := by
  cases first with
  | ok value => simp [ok_bind]
  | error failure =>
      rw [error_bind]
      cases failure with
      | panicked => simp [Outcome.panic]
      | error error => simp [Outcome.panic]

/-- When what follows never panics, only the first half counts. -/
theorem panics_bind_pure {α β : Type} {first : Outcome α} {result : α → β} :
    (do let value ← first; return result value) = Outcome.panic ↔ first = Outcome.panic := by
  rw [panics_bind]
  simp

/-- When panics of what follows do not depend on the value, both halves count on
their own. -/
theorem panics_bind_or {α β : Type} {first : Outcome α} {next : α → Outcome β} {later : Prop}
    (follows : ∀ value, next value = Outcome.panic ↔ later) :
    (do let value ← first; next value) = Outcome.panic ↔
      first = Outcome.panic ∨ Succeeds first ∧ later := by
  rw [panics_bind]
  apply or_congr_right
  constructor
  · rintro ⟨value, success, rest⟩
    exact ⟨⟨value, success⟩, (follows value).mp rest⟩
  · rintro ⟨⟨value, success⟩, rest⟩
    exact ⟨value, success, (follows value).mpr rest⟩

/-- The first item that does not pass panics. -/
def PanicsFirst {α : Type} (passes panics : α → Prop) (items : List α) : Prop :=
  ∃ before item after, items = before ++ item :: after ∧ (∀ earlier ∈ before, passes earlier) ∧
    panics item

theorem not_panicsFirst_nil {α : Type} (passes panics : α → Prop) :
    ¬ PanicsFirst passes panics [] := by
  rintro ⟨before, item, after, split, _⟩
  simp at split

theorem panicsFirst_cons {α : Type} (passes panics : α → Prop) (item : α) (rest : List α) :
    PanicsFirst passes panics (item :: rest) ↔
      panics item ∨ passes item ∧ PanicsFirst passes panics rest := by
  constructor
  · rintro ⟨before, here, after, split, passed, panicked⟩
    cases before with
    | nil =>
        rcases List.cons.inj split with ⟨rfl, _⟩
        exact .inl panicked
    | cons first others =>
        rcases List.cons.inj split with ⟨rfl, rests⟩
        exact .inr ⟨passed item List.mem_cons_self, others, here, after, rests,
          fun earlier member => passed earlier (List.mem_cons_of_mem item member), panicked⟩
  · rintro (panicked | ⟨passed, before, here, after, rfl, othersPassed, panicked⟩)
    · exact ⟨[], item, rest, rfl, by simp, panicked⟩
    · exact ⟨item :: before, here, after, rfl, List.forall_mem_cons.mpr ⟨passed, othersPassed⟩,
        panicked⟩

/-! ## Reading payloads -/

/-- Every item was read. -/
def Read {α : Type} (items : List (Item α)) : Prop :=
  ∀ item ∈ items, ∃ value, item = .ok value

def Name.Reads : Name → Prop
  | .function names => Read names
  | .locals entries => ∀ item ∈ entries, ∃ entry, item = .ok entry ∧ Read entry.names
  | _ => True

/-- The payload is one that is handled, and all of it was read. -/
def Payload.Reads : Payload → Prop
  | .typeSection items => Read items
  | .importSection items => Read items
  | .functionSection items => Read items
  | .tableSection items => Read items
  | .memorySection items => Read items
  | .globalSection items => Read items
  | .exportSection items => Read items
  | .elementSection items => Read items
  | .dataSection items => Read items
  | .nameSection subsections => ∀ item ∈ subsections, ∃ name, item = .ok name ∧ name.Reads
  | .unhandled => False
  | _ => True

/-- The items of the function section are unwrapped, and some payloads are left
to do. -/
def Payload.Panics : Payload → Prop
  | .functionSection items => ¬ Read items
  | .unhandled => True
  | _ => False

theorem ofItem_ne_panic {α : Type} (item : Except BinaryReaderError α) :
    Outcome.ofItem item ≠ Outcome.panic := by
  cases item <;> simp [Outcome.ofItem]

theorem collectItems_succeeds {α : Type} (items : List (Item α)) :
    Succeeds (collectItems items) ↔ Read items := by
  induction items with
  | nil => simp [collectItems, Read]
  | cons item rest induction =>
      rw [collectItems, succeeds_bind_and fun _ => succeeds_bind_pure, ofItem_succeeds, induction,
        Read, Read, List.forall_mem_cons]

theorem collectItems_ne_panic {α : Type} (items : List (Item α)) :
    collectItems items ≠ Outcome.panic := by
  induction items with
  | nil => exact ok_ne_panic []
  | cons item rest induction =>
      rw [collectItems, ne_eq, panics_bind_or fun _ => panics_bind_pure]
      simp [ofItem_ne_panic, induction]

theorem unwrapItems_succeeds {α : Type} (items : List (Item α)) :
    Succeeds (unwrapItems items) ↔ Read items := by
  induction items with
  | nil => simp [unwrapItems, Read]
  | cons item rest induction =>
      rw [unwrapItems, succeeds_bind_and fun _ => succeeds_bind_pure, induction, Read, Read,
        List.forall_mem_cons]
      apply and_congr_left
      intro _
      cases item <;> simp [Outcome.unwrap]

theorem unwrapItems_panics {α : Type} (items : List (Item α)) :
    unwrapItems items = Outcome.panic ↔ ¬ Read items := by
  induction items with
  | nil => simp [unwrapItems, Read]
  | cons item rest induction =>
      rw [unwrapItems, panics_bind_or fun _ => panics_bind_pure, induction]
      cases item with
      | error error => simp [Outcome.unwrap, Read]
      | ok value => simp [Outcome.unwrap, Read]

theorem insertNamings_succeeds (names : NameMap) (items : List (Item Naming)) :
    Succeeds (insertNamings names items) ↔ Read items := by
  induction items generalizing names with
  | nil => simp [insertNamings, Read]
  | cons item rest induction =>
      rw [insertNamings, succeeds_bind_and fun _ => induction _, ofItem_succeeds, Read, Read,
        List.forall_mem_cons]

theorem insertNamings_ne_panic (names : NameMap) (items : List (Item Naming)) :
    insertNamings names items ≠ Outcome.panic := by
  induction items generalizing names with
  | nil => exact ok_ne_panic names
  | cons item rest induction =>
      rw [insertNamings, ne_eq, panics_bind]
      simp [ofItem_ne_panic, induction]

theorem insertIndirectNamings_succeeds (functions : LocalsNameMap)
    (items : List (Item IndirectNaming)) :
    Succeeds (insertIndirectNamings functions items) ↔
      ∀ item ∈ items, ∃ entry, item = .ok entry ∧ Read entry.names := by
  induction items generalizing functions with
  | nil => simp [insertIndirectNamings]
  | cons item rest induction =>
      rw [insertIndirectNamings, List.forall_mem_cons]
      cases item with
      | error error => simp [Outcome.ofItem, Outcome.fail, error_bind, Succeeds]
      | ok entry =>
          rw [Outcome.ofItem, ok_bind, succeeds_bind_and fun _ => induction _,
            insertNamings_succeeds]
          simp

theorem insertIndirectNamings_ne_panic (functions : LocalsNameMap)
    (items : List (Item IndirectNaming)) :
    insertIndirectNamings functions items ≠ Outcome.panic := by
  induction items generalizing functions with
  | nil => exact ok_ne_panic functions
  | cons item rest induction =>
      rw [insertIndirectNamings, ne_eq, panics_bind]
      simp only [ofItem_ne_panic, false_or, not_exists, not_and]
      intro entry _
      rw [panics_bind]
      simp [insertNamings_ne_panic, induction]

theorem parseName_succeeds (parsed : WasmParseData) (name : Name) :
    Succeeds (parseName parsed name) ↔ name.Reads := by
  cases name with
  | module name | other => simp [parseName, Name.Reads]
  | function names =>
      rw [parseName, succeeds_bind_and fun _ => ?_, insertNamings_succeeds, and_true]
      · rfl
      · split <;> simp
  | locals entries =>
      rw [parseName, succeeds_bind_and fun _ => ?_, insertIndirectNamings_succeeds, and_true]
      · rfl
      · split <;> simp

theorem parseName_ne_panic (parsed : WasmParseData) (name : Name) :
    parseName parsed name ≠ Outcome.panic := by
  cases name with
  | module name | other => simp [parseName]
  | function names =>
      rw [parseName, ne_eq, panics_bind]
      simp only [insertNamings_ne_panic, false_or, not_exists, not_and]
      intro names _
      split <;> simp
  | locals entries =>
      rw [parseName, ne_eq, panics_bind]
      simp only [insertIndirectNamings_ne_panic, false_or, not_exists, not_and]
      intro functions _
      split <;> simp

theorem parseNames_succeeds (parsed : WasmParseData) (subsections : List (Item Name)) :
    Succeeds (parseNames parsed subsections) ↔
      ∀ item ∈ subsections, ∃ name, item = .ok name ∧ name.Reads := by
  induction subsections generalizing parsed with
  | nil => simp [parseNames]
  | cons item rest induction =>
      rw [parseNames, List.forall_mem_cons]
      cases item with
      | error error => simp [Outcome.ofItem, Outcome.fail, error_bind, Succeeds]
      | ok name =>
          rw [Outcome.ofItem, ok_bind, succeeds_bind_and fun _ => induction _, parseName_succeeds]
          simp

theorem parseNames_ne_panic (parsed : WasmParseData) (subsections : List (Item Name)) :
    parseNames parsed subsections ≠ Outcome.panic := by
  induction subsections generalizing parsed with
  | nil => exact ok_ne_panic parsed
  | cons item rest induction =>
      rw [parseNames, ne_eq, panics_bind]
      simp only [ofItem_ne_panic, false_or, not_exists, not_and]
      intro name _
      rw [panics_bind]
      simp [parseName_ne_panic, induction]

theorem parsePayload_succeeds (parsed : WasmParseData) (payload : Payload) :
    Succeeds (parsePayload parsed payload) ↔ payload.Reads := by
  cases payload with
  | nameSection subsections => exact parseNames_succeeds parsed subsections
  | functionSection items =>
      rw [parsePayload, succeeds_bind_pure, unwrapItems_succeeds]
      rfl
  | typeSection items | importSection items | tableSection items | memorySection items
  | globalSection items | exportSection items | elementSection items | dataSection items =>
      rw [parsePayload, succeeds_bind_pure, collectItems_succeeds]
      rfl
  | unhandled => simp [parsePayload, Payload.Reads]
  | _ => simp [parsePayload, Payload.Reads]

theorem parsePayload_panics (parsed : WasmParseData) (payload : Payload) :
    parsePayload parsed payload = Outcome.panic ↔ payload.Panics := by
  cases payload with
  | nameSection subsections =>
      exact iff_of_false (parseNames_ne_panic parsed subsections) id
  | functionSection items =>
      rw [parsePayload, panics_bind_pure, unwrapItems_panics]
      rfl
  | typeSection items | importSection items | tableSection items | memorySection items
  | globalSection items | exportSection items | elementSection items | dataSection items =>
      rw [parsePayload, panics_bind_pure]
      exact iff_of_false (collectItems_ne_panic items) id
  | unhandled => exact iff_of_true rfl trivial
  | _ => exact iff_of_false (ok_ne_panic _) id

/-- A payload that was read and handled. -/
def Item.Reads (item : Item Payload) : Prop :=
  ∃ payload, item = .ok payload ∧ payload.Reads

def Item.Panics (item : Item Payload) : Prop :=
  ∃ payload, item = .ok payload ∧ payload.Panics

theorem parsePayloads_succeeds (parsed : WasmParseData) (payloads : List (Item Payload)) :
    Succeeds (parsePayloads parsed payloads) ↔ ∀ item ∈ payloads, Item.Reads item := by
  induction payloads generalizing parsed with
  | nil => simp [parsePayloads]
  | cons item rest induction =>
      rw [parsePayloads, List.forall_mem_cons]
      cases item with
      | error error => simp [Outcome.ofItem, Outcome.fail, error_bind, Succeeds, Item.Reads]
      | ok payload =>
          rw [Outcome.ofItem, ok_bind, succeeds_bind_and fun _ => induction _,
            parsePayload_succeeds]
          simp [Item.Reads]

theorem parsePayloads_panics (parsed : WasmParseData) (payloads : List (Item Payload)) :
    parsePayloads parsed payloads = Outcome.panic ↔
      PanicsFirst Item.Reads Item.Panics payloads := by
  induction payloads generalizing parsed with
  | nil => exact iff_of_false (ok_ne_panic parsed) (not_panicsFirst_nil _ _)
  | cons item rest induction =>
      rw [panicsFirst_cons, parsePayloads]
      cases item with
      | error error => simp [Outcome.ofItem, Outcome.fail, error_bind, Outcome.panic, Item.Reads,
          Item.Panics]
      | ok payload =>
          rw [Outcome.ofItem, ok_bind, panics_bind_or fun _ => induction _, parsePayload_panics,
            parsePayload_succeeds]
          simp [Item.Reads, Item.Panics]

/-! ## Translating entries -/

theorem translateSection_panics {α : Type} (translate : α → Outcome String) (entries : List α) :
    translateSection translate entries = Outcome.panic ↔
      ∃ entry ∈ entries, translate entry = Outcome.panic := by
  induction entries with
  | nil => simp [translateSection]
  | cons entry rest induction =>
      rw [translateSection]
      cases here : translate entry with
      | ok text =>
          rw [panics_bind_pure, induction]
          simp [here]
      | error failure =>
          cases failure with
          | panicked => exact iff_of_true rfl ⟨entry, List.mem_cons_self, here⟩
          | error error =>
              rw [panics_bind_pure, induction]
              simp [here, Outcome.panic]

theorem ne_panic_of_support {outcome : Outcome String}
    (described : (∃ text, outcome = .ok text) ∨ ∃ error, outcome = Outcome.fail error) :
    outcome ≠ Outcome.panic := by
  rcases described with ⟨text, rfl⟩ | ⟨error, rfl⟩
  · exact ok_ne_panic text
  · exact fail_ne_panic error

theorem translateRefType_ne_panic (refType : RefType) :
    translateRefType refType ≠ Outcome.panic := by
  apply ne_panic_of_support
  cases supported : refType.supported with
  | true => exact .inl (translateRefType_supported supported)
  | false => exact .inr ⟨_, translateRefType_unsupported supported⟩

theorem translateValueType_ne_panic (valType : ValType) :
    translateValueType valType ≠ Outcome.panic := by
  apply ne_panic_of_support
  cases supported : valType.supported with
  | true => exact .inl (translateValueType_supported supported)
  | false => exact .inr (translateValueType_unsupported supported)

theorem translateValueTypes_ne_panic (valTypes : List ValType) :
    translateValueTypes valTypes ≠ Outcome.panic := by
  induction valTypes with
  | nil => exact ok_ne_panic ""
  | cons valType rest induction =>
      rw [translateValueTypes, ne_eq, panics_bind_or fun _ => panics_bind_pure]
      simp [translateValueType_ne_panic, induction]

theorem translateModuleImport_ne_panic (entry : Import) :
    translateModuleImport entry ≠ Outcome.panic := by
  rw [translateModuleImport, ne_eq, panics_bind_pure, translateModuleImportDesc]
  cases entry.ty with
  | global globalType =>
      simp only
      rw [panics_bind_pure]
      exact translateValueType_ne_panic _
  | func _ | table _ | memory _ | tag _ => simp

theorem translateExportModule_ne_panic (entry : Export) :
    translateExportModule entry ≠ Outcome.panic := by
  rw [translateExportModule, ne_eq, panics_bind_pure, translateModuleExportDesc]
  cases entry.kind <;> simp

theorem translateTableType_ne_panic (table : Table) :
    translateTableType table ≠ Outcome.panic := by
  rw [translateTableType, ne_eq, panics_bind_pure]
  exact translateRefType_ne_panic _

theorem translateSubTypes_ne_panic (types : List SubType) :
    translateSubTypes types ≠ Outcome.panic := by
  induction types with
  | nil => exact ok_ne_panic ""
  | cons ty rest induction =>
      have here : translateSubType ty ≠ Outcome.panic := by
        unfold translateSubType
        split
        · rw [ne_eq, panics_bind_or fun _ => panics_bind_pure]
          simp [translateValueTypes_ne_panic]
        all_goals exact ok_ne_panic ""
      rw [translateSubTypes, ne_eq, panics_bind_or fun _ => panics_bind_pure]
      simp [here, induction]

/-- The type of the global is supported, and its initialiser panics. -/
def Global.Panics (entry : Global) : Prop :=
  entry.ty.contentType.supported = true ∧ ExpressionPanics entry.initExpr.operators

theorem translateGlobal_panics (entry : Global) :
    translateGlobal entry = Outcome.panic ↔ entry.Panics := by
  rw [translateGlobal, panics_bind_or fun _ => panics_bind_pure, translateValueType_succeeds,
    translateExpr_panics]
  simp [translateValueType_ne_panic, Global.Panics]

def Data.Panics (entry : Data) : Prop :=
  ∃ memoryIndex offsetExpr, entry.kind = .active memoryIndex offsetExpr ∧
    ExpressionPanics offsetExpr.operators

theorem translateData_panics (entry : Data) :
    translateData entry = Outcome.panic ↔ entry.Panics := by
  rw [translateData, panics_bind_pure, translateModuleDatamode, Data.Panics]
  cases kind : entry.kind with
  | passive => simp
  | active memoryIndex offsetExpr =>
      simp only
      rw [panics_bind_pure, translateExpr_panics]
      simp

/-- An expression of a segment panics, and all before it are read. -/
def ElementItems.Panics : ElementItems → Prop
  | .functions _ => False
  | .expressions refType items => refType.supported = true ∧
      PanicsFirst (fun item => ∃ expression, item = .ok expression)
        (fun item => ∃ expression, item = .ok expression ∧ ExpressionPanics expression.operators)
        items

def Element.Panics (entry : Element) : Prop :=
  (∃ tableIndex offsetExpr, entry.kind = .active tableIndex offsetExpr ∧
    ExpressionPanics offsetExpr.operators) ∨ entry.items.Panics

theorem translateElementFunctions_ne_panic (items : List (Except BinaryReaderError Nat)) :
    translateElementFunctions items ≠ Outcome.panic := by
  induction items with
  | nil => exact ok_ne_panic ""
  | cons item rest induction =>
      rw [translateElementFunctions, ne_eq, panics_bind_or fun _ => panics_bind_pure]
      simp [ofItem_ne_panic, induction]

/-- An expression of an entry is turned into a text unless it panics. -/
theorem translateExpr_succeeds_iff (items : List OperatorItem) (names : Option NameMap) :
    Succeeds (translateExpr items names) ↔ ¬ ExpressionPanics items := by
  rw [← translateExpr_panics items names, translateExpr_scan]
  cases skeleton [] items with
  | none => simp
  | some tokens =>
      dsimp only
      cases renderTokens names 2 0 tokens with
      | ok text => simp [finishText]
      | error failure => cases failure <;> simp [finishText]

theorem translateElementExpressions_panics
    (items : List (Except BinaryReaderError ConstExpr)) :
    translateElementExpressions items = Outcome.panic ↔
      PanicsFirst (fun item => ∃ expression, item = .ok expression)
        (fun item => ∃ expression, item = .ok expression ∧ ExpressionPanics expression.operators)
        items := by
  induction items with
  | nil => exact iff_of_false (ok_ne_panic "") (not_panicsFirst_nil _ _)
  | cons item rest induction =>
      rw [panicsFirst_cons, translateElementExpressions]
      cases item with
      | error error => simp [Outcome.ofItem, Outcome.fail, error_bind, Outcome.panic]
      | ok expression =>
          rw [Outcome.ofItem, ok_bind, panics_bind_or fun _ => panics_bind_pure, induction,
            translateExpr_panics, translateExpr_succeeds_iff]
          by_cases panics : ExpressionPanics expression.operators <;> simp [panics]

theorem translateElementItems_panics (items : ElementItems) :
    translateElementItems items = Outcome.panic ↔ items.Panics := by
  cases items with
  | functions items =>
      rw [translateElementItems, panics_bind_pure]
      exact iff_of_false (translateElementFunctions_ne_panic items) id
  | expressions refType items =>
      rw [translateElementItems, panics_bind_or fun _ => panics_bind_pure,
        translateRefType_succeeds, translateElementExpressions_panics, ElementItems.Panics]
      simp [translateRefType_ne_panic]

theorem translateElementMode_panics (entry : Element) :
    translateElementMode entry = Outcome.panic ↔
      ∃ tableIndex offsetExpr, entry.kind = .active tableIndex offsetExpr ∧
        ExpressionPanics offsetExpr.operators := by
  rw [translateElementMode]
  cases kind : entry.kind with
  | passive | declared => simp
  | active tableIndex offsetExpr =>
      simp only
      rw [panics_bind_pure, translateExpr_panics]
      simp

theorem translateElement_panics (entry : Element) :
    translateElement entry = Outcome.panic ↔ entry.Panics := by
  rw [translateElement, panics_bind_or fun _ => panics_bind_pure, translateElementMode_panics,
    translateElementItems_panics, Element.Panics, translateElementMode_succeeds]
  constructor
  · rintro (mode | ⟨_, items⟩)
    · exact .inl mode
    · exact .inr items
  · rintro (mode | items)
    · exact .inl mode
    · by_cases mode : ∃ tableIndex offsetExpr, entry.kind = .active tableIndex offsetExpr ∧
          ExpressionPanics offsetExpr.operators
      · exact .inl mode
      · refine .inr ⟨?_, items⟩
        intro tableIndex offsetExpr active
        apply (translateExpr_succeeds_iff _ _).mpr
        exact fun panics => mode ⟨tableIndex, offsetExpr, active, panics⟩

/-! ## Translating functions -/

/-- A local declaration of a supported type. -/
def SupportedGroup (item : Except BinaryReaderError (Nat × ValType)) : Prop :=
  ∃ reps valType, item = .ok (reps, valType) ∧ valType.supported = true

/-- The local declarations that can be read before an unreadable one are all
supported, or all of them are and the operators panic. -/
def FunctionBody.Panics (body : FunctionBody) : Prop :=
  (∃ declared, body.locals = .ok declared ∧
      PanicsFirst SupportedGroup (fun item => ∃ error, item = .error error) declared) ∨
    (∀ declared, body.locals = .ok declared → SupportedLocals declared) ∧
      ∃ items, body.operators = .ok items ∧ ExpressionPanics items

theorem translateLocalGroups_panics (declared : List (Except BinaryReaderError (Nat × ValType))) :
    translateLocalGroups declared = Outcome.panic ↔
      PanicsFirst SupportedGroup (fun item => ∃ error, item = .error error) declared := by
  induction declared with
  | nil => exact iff_of_false (ok_ne_panic "") (not_panicsFirst_nil _ _)
  | cons item rest induction =>
      rw [panicsFirst_cons, translateLocalGroups]
      cases item with
      | error error => simp [Outcome.unwrap, Outcome.panic, error_bind]
      | ok group =>
          rcases group with ⟨reps, valType⟩
          rw [Outcome.unwrap, ok_bind]
          dsimp only
          rw [panics_bind_or fun _ => panics_bind_pure, induction, translateValueType_succeeds]
          simp [translateValueType_ne_panic, SupportedGroup]

theorem translateLocals_panics (body : FunctionBody) :
    translateLocals body = Outcome.panic ↔
      ∃ declared, body.locals = .ok declared ∧
        PanicsFirst SupportedGroup (fun item => ∃ error, item = .error error) declared := by
  rw [translateLocals]
  cases locals : body.locals with
  | error error => simp
  | ok declared =>
      simp only
      rw [panics_bind_pure, translateLocalGroups_panics]
      simp

theorem translateFunctionBody_panics (parsed : WasmParseData) (index : Nat)
    (body : FunctionBody) :
    translateFunctionBody parsed index body = Outcome.panic ↔
      ∃ items, body.operators = .ok items ∧ ExpressionPanics items := by
  rw [translateFunctionBody]
  cases operators : body.operators with
  | error error => simp [Outcome.ofItem, Outcome.fail, error_bind, Outcome.panic]
  | ok items =>
      rw [Outcome.ofItem, ok_bind, translateExpr_panics]
      simp

theorem translateFunction_panics (parsed : WasmParseData) (index : Nat) (id : String)
    (body : FunctionBody) :
    translateFunction parsed index id body = Outcome.panic ↔ body.Panics := by
  rw [translateFunction, panics_bind_or fun _ => panics_bind_pure, translateLocals_panics,
    translateLocals_succeeds, translateFunctionBody_panics]
  rfl

theorem translateFunctionsFrom_panics (parsed : WasmParseData) (getId : Nat → String)
    (index : Nat) (bodies : List FunctionBody) :
    translateFunctionsFrom parsed getId index bodies = Outcome.panic ↔
      PanicsFirst Emitted FunctionBody.Panics bodies := by
  induction bodies generalizing index with
  | nil => exact iff_of_false (ok_ne_panic _) (not_panicsFirst_nil _ _)
  | cons body rest induction =>
      rw [panicsFirst_cons, translateFunctionsFrom, panics_bind_or fun _ => ?_,
        translateFunction_panics, translateFunction_emitted]
      rw [panics_bind_pure, induction]

/-! ## The condition -/

/-- The places at which the translation of a module panics. What is parsed before
them was read, and what is translated before them succeeds. -/
inductive Panics (payloads : List (Item Payload)) : Prop
  | parsing (first : PanicsFirst Item.Reads Item.Panics payloads)
  | global (read : ∀ item ∈ payloads, Item.Reads item) (member : entry ∈ definedGlobals payloads)
      (panics : entry.Panics)
  | data (read : ∀ item ∈ payloads, Item.Reads item) (member : entry ∈ definedData payloads)
      (panics : entry.Panics)
  | element (read : ∀ item ∈ payloads, Item.Reads item)
      (member : entry ∈ definedElements payloads) (panics : entry.Panics)
  | function (read : ∀ item ∈ payloads, Item.Reads item)
      (first : PanicsFirst Emitted FunctionBody.Panics (definedBodies payloads))

/-- When the first half reports no error, what follows is reached unless it panics. -/
theorem panics_bind_never {α β : Type} {first : Outcome α} {next : α → Outcome β} {later : Prop}
    (never : NeverReports first) (follows : ∀ value, next value = Outcome.panic ↔ later) :
    (do let value ← first; next value) = Outcome.panic ↔ first = Outcome.panic ∨ later := by
  rw [panics_bind_or follows]
  cases first with
  | ok value => simp
  | error failure =>
      cases failure with
      | panicked => simp [Outcome.panic]
      | error error => exact absurd rfl (never error)

/-- Only the sections with expressions panic. -/
theorem translateSections_panics (parsed : WasmParseData) :
    translateSections parsed = Outcome.panic ↔
      (∃ entry ∈ parsed.globals, entry.Panics) ∨ (∃ entry ∈ parsed.data, entry.Panics) ∨
        ∃ entry ∈ parsed.elements, entry.Panics := by
  have never := @translateSection_neverReports
  rw [translateSections, panics_bind_never (never _ _) fun _ =>
    panics_bind_never (never _ _) fun _ => panics_bind_never (never _ _) fun _ =>
    panics_bind_never (never _ _) fun _ => panics_bind_never (never _ _) fun _ =>
    panics_bind_never (never _ _) fun _ => panics_bind_never (never _ _) fun _ =>
    panics_bind_pure]
  simp only [translateSection_panics, translateModuleImport_ne_panic,
    translateExportModule_ne_panic, translateTableType_ne_panic, translateGlobal_panics,
    translateData_panics, translateElement_panics, translateFunctionType,
    translateSubTypes_ne_panic, translateMemoryType, ok_ne_panic, and_false, exists_false,
    false_or, or_false]

theorem translateFunctionSection_panics (parsed : WasmParseData) (getId : Nat → String) :
    translateFunctionSection parsed getId = Outcome.panic ↔
      PanicsFirst Emitted FunctionBody.Panics parsed.functionBodies := by
  rw [← translateFunctionsFrom_panics parsed getId 0, ← translateFunctions,
    translateFunctionSection]
  cases translateFunctions parsed getId with
  | ok result => simp
  | error failure => cases failure <;> simp [Outcome.panic]

theorem translate_panics (parsed : WasmParseData) (getId : Nat → String) :
    translate parsed getId = Outcome.panic ↔
      ((∃ entry ∈ parsed.globals, entry.Panics) ∨ (∃ entry ∈ parsed.data, entry.Panics) ∨
        ∃ entry ∈ parsed.elements, entry.Panics) ∨
          PanicsFirst Emitted FunctionBody.Panics parsed.functionBodies := by
  have never : NeverReports (translateSections parsed) := by
    unfold translateSections
    repeat refine neverReports_bind (translateSection_neverReports _ _) fun _ => ?_
    exact neverReports_pure _
  rw [translate, panics_bind_never never fun _ => panics_bind_pure,
    translateSections_panics, translateFunctionSection_panics]

/-- The translation of bytes returns a text or an error exactly when no payload
holds one of the inputs at which it panics. -/
theorem translateBytes_total_iff (modName : String) (payloads : List (Item Payload))
    (getId : Nat → String) :
    translateBytes modName payloads getId ≠ Outcome.panic ↔ ¬ Panics payloads := by
  rw [ne_eq, not_iff_not, translateBytes, panics_bind, parse, parsePayloads_panics]
  constructor
  · rintro (parsing | ⟨parsed, parses, panics⟩)
    · exact .parsing parsing
    · have read := (parsePayloads_succeeds _ payloads).mp ⟨parsed, parses⟩
      rw [translate_panics, globals_defined parses, data_defined parses, elements_defined parses,
        functionBodies_defined parses] at panics
      rcases panics with (⟨entry, member, panics⟩ | ⟨entry, member, panics⟩ |
        ⟨entry, member, panics⟩) | first
      · exact .global read member panics
      · exact .data read member panics
      · exact .element read member panics
      · exact .function read first
  · intro panics
    have translated : (∀ item ∈ payloads, Item.Reads item) →
        ((∃ entry ∈ definedGlobals payloads, entry.Panics) ∨
          (∃ entry ∈ definedData payloads, entry.Panics) ∨
          ∃ entry ∈ definedElements payloads, entry.Panics) ∨
            PanicsFirst Emitted FunctionBody.Panics (definedBodies payloads) →
        ∃ parsed, parsePayloads (.new modName) payloads = .ok parsed ∧
          translate parsed getId = Outcome.panic := by
      intro read panics
      rcases (parsePayloads_succeeds (.new modName) payloads).mpr read with ⟨parsed, parses⟩
      refine ⟨parsed, parses, ?_⟩
      rw [translate_panics, globals_defined parses, data_defined parses, elements_defined parses,
        functionBodies_defined parses]
      exact panics
    cases panics with
    | parsing first => exact .inl first
    | global read member panics => exact .inr (translated read (.inl (.inl ⟨_, member, panics⟩)))
    | data read member panics =>
        exact .inr (translated read (.inl (.inr (.inl ⟨_, member, panics⟩))))
    | element read member panics =>
        exact .inr (translated read (.inl (.inr (.inr ⟨_, member, panics⟩))))
    | function read first => exact .inr (translated read (.inr first))

/-- A valid function that extends the sign of a byte, which is left to do. -/
theorem translateBytes_signExtension :
    translateBytes "m" [.ok (.functionSection [.ok 0]),
      .ok (.codeSectionEntry {
        locals := .ok []
        operators := .ok [.ok (.i32Const 0), .ok (.unimplemented .i32Extend8S []),
          .ok (.plain .drop), .ok .end_] })]
      (fun _ => "id") = Outcome.panic :=
  rfl

end Inference.WasmToV

import Inference.WasmToV.Appearance
import Inference.WasmToV.ModuleTranslation

/-! # Supported section entries

Which entries of the sections the translator accepts. A constant expression or a
body never makes its entry fail with an error, because the printer turns errors
into text; what an entry needs for its expressions to appear is stated apart.
-/

namespace Inference.WasmToV

/-! ## Success -/

def Succeeds {α : Type} (outcome : Outcome α) : Prop :=
  ∃ value, outcome = .ok value

def Fails {α : Type} (outcome : Outcome α) : Prop :=
  ∃ failure, outcome = .error failure

theorem fails_iff {α : Type} (outcome : Outcome α) : Fails outcome ↔ ¬ Succeeds outcome := by
  cases outcome <;> simp [Fails, Succeeds]

@[simp] theorem succeeds_ok {α : Type} (value : α) : Succeeds (.ok value) :=
  ⟨value, rfl⟩

@[simp] theorem succeeds_pure {α : Type} (value : α) : Succeeds (pure value) :=
  ⟨value, rfl⟩

@[simp] theorem succeeds_fail {α : Type} (error : TranslationError) :
    ¬ Succeeds (Outcome.fail error : Outcome α) := by
  simp [Succeeds, Outcome.fail]

@[simp] theorem succeeds_panic {α : Type} : ¬ Succeeds (Outcome.panic : Outcome α) := by
  simp [Succeeds, Outcome.panic]

theorem succeeds_bind {α β : Type} {first : Outcome α} {next : α → Outcome β} :
    Succeeds (do let value ← first; next value) ↔
      ∃ value, first = .ok value ∧ Succeeds (next value) := by
  cases first with
  | error failure => simp [Succeeds, error_bind]
  | ok value => simp [ok_bind]

/-- When the success of what follows does not depend on the value, both halves
count on their own. -/
theorem succeeds_bind_and {α β : Type} {first : Outcome α} {next : α → Outcome β} {later : Prop}
    (follows : ∀ value, Succeeds (next value) ↔ later) :
    Succeeds (do let value ← first; next value) ↔ Succeeds first ∧ later := by
  rw [succeeds_bind]
  constructor
  · rintro ⟨value, success, rest⟩
    exact ⟨⟨value, success⟩, (follows value).mp rest⟩
  · rintro ⟨⟨value, success⟩, rest⟩
    exact ⟨value, success, (follows value).mpr rest⟩

theorem succeeds_bind_pure {α β : Type} {first : Outcome α} {result : α → β} :
    Succeeds (do let value ← first; return result value) ↔ Succeeds first := by
  rw [succeeds_bind_and fun value => iff_true_intro (succeeds_pure (result value)), and_true]

/-! ## Types -/

theorem translateRefType_succeeds (refType : RefType) :
    Succeeds (translateRefType refType) ↔ refType.supported = true := by
  cases supported : refType.supported with
  | true => simpa [Succeeds] using translateRefType_supported supported
  | false => simp [translateRefType_unsupported supported]

theorem translateValueType_succeeds (valType : ValType) :
    Succeeds (translateValueType valType) ↔ valType.supported = true := by
  cases supported : valType.supported with
  | true => simpa [Succeeds] using translateValueType_supported supported
  | false =>
      obtain ⟨error, rejected⟩ := translateValueType_unsupported supported
      simp [rejected]

theorem translateValueTypes_succeeds (valTypes : List ValType) :
    Succeeds (translateValueTypes valTypes) ↔ ∀ valType ∈ valTypes, valType.supported = true := by
  induction valTypes with
  | nil => simp [translateValueTypes]
  | cons valType rest induction =>
      rw [translateValueTypes, succeeds_bind_and fun _ => succeeds_bind_pure,
        List.forall_mem_cons, induction, translateValueType_succeeds]

/-! ## Imports and exports -/

def Import.supported (entry : Import) : Bool :=
  match entry.ty with
  | .global globalType => globalType.contentType.supported
  | .tag _ => false
  | _ => true

def Export.supported (entry : Export) : Bool :=
  match entry.kind with
  | .tag => false
  | _ => true

theorem translateModuleImport_succeeds (entry : Import) :
    Succeeds (translateModuleImport entry) ↔ entry.supported = true := by
  rw [translateModuleImport, succeeds_bind_pure,
    translateModuleImportDesc, Import.supported]
  cases entry.ty with
  | global globalType =>
      simp only
      rw [succeeds_bind_pure, translateValueType_succeeds]
  | tag funcTypeIdx => simp
  | func typeIndex | table tableType | memory memoryType => simp

theorem translateExportModule_succeeds (entry : Export) :
    Succeeds (translateExportModule entry) ↔ entry.supported = true := by
  rw [translateExportModule, succeeds_bind_pure,
    translateModuleExportDesc, Export.supported]
  cases entry.kind <;> simp

/-! ## Expressions of entries -/

/-- The expression is translated, possibly into the text of an error. -/
theorem translateExpr_succeeds {items : List OperatorItem} (supported : SupportedExpression items)
    (names : Option NameMap) : Succeeds (translateExpr items names) := by
  obtain ⟨text, translated, _⟩ := supported.appears names
  exact ⟨text, translated⟩

theorem translateTableType_succeeds (table : Table) :
    Succeeds (translateTableType table) ↔ table.ty.elementType.supported = true := by
  rw [translateTableType, succeeds_bind_pure, translateRefType_succeeds]

theorem translateGlobal_succeeds (entry : Global) :
    Succeeds (translateGlobal entry) ↔
      entry.ty.contentType.supported = true ∧
        Succeeds (translateExpr entry.initExpr.operators none) := by
  rw [translateGlobal, succeeds_bind_and fun _ => succeeds_bind_pure,
    translateValueType_succeeds]

/-! ## Types of the type section -/

def SubType.supported (ty : SubType) : Bool :=
  match ty.compositeType.inner with
  | .func ft => ft.params.all ValType.supported && ft.results.all ValType.supported
  | _ => false

theorem translateSubTypes_succeeds (types : List SubType) :
    Succeeds (translateSubTypes types) ↔ ∀ ty ∈ types, Succeeds (translateSubType ty) := by
  induction types with
  | nil => simp [translateSubTypes]
  | cons ty rest induction =>
      rw [translateSubTypes, succeeds_bind_and fun _ => succeeds_bind_pure,
        List.forall_mem_cons, induction]

/-- A type appears when it is translated into a text, and not into nothing. -/
def SubTypeAppears (ty : SubType) : Prop :=
  ∃ text, translateSubType ty = .ok text ∧ text ≠ ""

theorem subTypeAppears_iff (ty : SubType) : SubTypeAppears ty ↔ ty.supported = true := by
  unfold SubTypeAppears
  cases inner : ty.compositeType.inner with
  | array fieldType | struct fields | cont typeIndex =>
      simp [translateSubType, SubType.supported, inner]
  | func ft =>
      have succeeds : Succeeds (translateSubType ty) ↔ ty.supported = true := by
        simp only [translateSubType, inner, SubType.supported, Bool.and_eq_true, List.all_eq_true]
        rw [succeeds_bind_and fun _ => succeeds_bind_pure, translateValueTypes_succeeds,
          translateValueTypes_succeeds]
      rw [← succeeds]
      constructor
      · rintro ⟨text, translated, _⟩
        exact ⟨text, translated⟩
      · rintro ⟨text, translated⟩
        refine ⟨text, translated, ?_⟩
        rintro rfl
        simp only [translateSubType, inner] at translated
        obtain ⟨paramsStr, _, rest⟩ := bind_ok translated
        obtain ⟨resultsStr, _, assembled⟩ := bind_ok rest
        have empty := congrArg String.toList (Except.ok.inj assembled)
        have opening : "Tf (".toList = ['T', 'f', ' ', '('] := String.toList_ofList
        simp [opening] at empty

/-! ## Data and elements -/

theorem translateModuleDatamode_succeeds (data : Data) :
    Succeeds (translateModuleDatamode data) ↔
      ∀ memoryIndex offsetExpr, data.kind = .active memoryIndex offsetExpr →
        Succeeds (translateExpr offsetExpr.operators none) := by
  unfold translateModuleDatamode
  cases kind : data.kind with
  | passive => simp
  | active memoryIndex offsetExpr =>
      simp only
      rw [succeeds_bind_pure]
      simp

theorem translateData_succeeds (data : Data) :
    Succeeds (translateData data) ↔
      ∀ memoryIndex offsetExpr, data.kind = .active memoryIndex offsetExpr →
        Succeeds (translateExpr offsetExpr.operators none) := by
  rw [translateData, succeeds_bind_pure, translateModuleDatamode_succeeds]

theorem ofItem_succeeds {α : Type} (item : Except BinaryReaderError α) :
    Succeeds (Outcome.ofItem item) ↔ ∃ value, item = .ok value := by
  cases item <;> simp [Outcome.ofItem]

theorem translateElementFunctions_succeeds (items : List (Except BinaryReaderError Nat)) :
    Succeeds (translateElementFunctions items) ↔ ∀ item ∈ items, ∃ index, item = .ok index := by
  induction items with
  | nil => simp [translateElementFunctions]
  | cons item rest induction =>
      rw [translateElementFunctions, succeeds_bind_and fun _ => succeeds_bind_pure,
        List.forall_mem_cons, induction, ofItem_succeeds]

theorem translateElementExpressions_succeeds
    (items : List (Except BinaryReaderError ConstExpr)) :
    Succeeds (translateElementExpressions items) ↔
      ∀ item ∈ items, ∃ expression, item = .ok expression ∧
        Succeeds (translateExpr expression.operators none) := by
  induction items with
  | nil => simp [translateElementExpressions]
  | cons item rest induction =>
      rw [translateElementExpressions, List.forall_mem_cons, ← induction]
      cases item with
      | error error => simp [Outcome.ofItem, Outcome.fail, error_bind, Succeeds]
      | ok expression =>
          simp only [Outcome.ofItem, ok_bind]
          rw [succeeds_bind_and fun _ => succeeds_bind_pure]
          simp

/-- What the translation of an element segment needs besides its offset. -/
def ElementItems.Succeeds : ElementItems → Prop
  | .functions items => ∀ item ∈ items, ∃ index, item = .ok index
  | .expressions refType items => refType.supported = true ∧
      ∀ item ∈ items, ∃ expression, item = .ok expression ∧
        WasmToV.Succeeds (translateExpr expression.operators none)

theorem translateElementItems_succeeds (items : ElementItems) :
    Succeeds (translateElementItems items) ↔ items.Succeeds := by
  cases items with
  | functions items =>
      rw [translateElementItems, succeeds_bind_pure, translateElementFunctions_succeeds,
        ElementItems.Succeeds]
  | expressions refType items =>
      rw [translateElementItems, succeeds_bind_and fun _ => succeeds_bind_pure,
        translateRefType_succeeds, translateElementExpressions_succeeds, ElementItems.Succeeds]

theorem translateElementMode_succeeds (element : Element) :
    Succeeds (translateElementMode element) ↔
      ∀ tableIndex offsetExpr, element.kind = .active tableIndex offsetExpr →
        Succeeds (translateExpr offsetExpr.operators none) := by
  unfold translateElementMode
  cases kind : element.kind with
  | passive | declared => simp
  | active tableIndex offsetExpr =>
      simp only
      rw [succeeds_bind_pure]
      simp

theorem translateElement_succeeds (element : Element) :
    Succeeds (translateElement element) ↔
      (∀ tableIndex offsetExpr, element.kind = .active tableIndex offsetExpr →
        Succeeds (translateExpr offsetExpr.operators none)) ∧ element.items.Succeeds := by
  rw [translateElement, succeeds_bind_and fun _ => succeeds_bind_pure,
    translateElementMode_succeeds, translateElementItems_succeeds]

/-! ## Functions -/

/-- Local declarations that can be read and have supported types. -/
def SupportedLocals (declared : List (Except BinaryReaderError (Nat × ValType))) : Prop :=
  ∀ item ∈ declared, ∃ reps valType, item = .ok (reps, valType) ∧ valType.supported = true

theorem translateLocalGroups_succeeds
    (declared : List (Except BinaryReaderError (Nat × ValType))) :
    Succeeds (translateLocalGroups declared) ↔ SupportedLocals declared := by
  unfold SupportedLocals
  induction declared with
  | nil => simp [translateLocalGroups]
  | cons item rest induction =>
      rw [translateLocalGroups, List.forall_mem_cons, ← induction]
      cases item with
      | error error => simp [Outcome.unwrap, Outcome.panic, error_bind, Succeeds]
      | ok group =>
          obtain ⟨reps, valType⟩ := group
          simp only [Outcome.unwrap, ok_bind]
          rw [succeeds_bind_and fun _ => succeeds_bind_pure, translateValueType_succeeds]
          simp

theorem translateLocals_succeeds (body : FunctionBody) :
    Succeeds (translateLocals body) ↔
      ∀ declared, body.locals = .ok declared → SupportedLocals declared := by
  unfold translateLocals
  cases locals : body.locals with
  | error error => simp
  | ok declared =>
      simp only
      rw [succeeds_bind_pure, translateLocalGroups_succeeds]
      simp

theorem translateFunctionBody_succeeds (parsed : WasmParseData) (index : Nat)
    (body : FunctionBody) :
    Succeeds (translateFunctionBody parsed index body) ↔
      ∃ items, body.operators = .ok items ∧
        Succeeds (translateExpr items (functionLocalNames parsed index)) := by
  rw [translateFunctionBody]
  cases body.operators with
  | error error => simp [Outcome.ofItem, Outcome.fail, error_bind, Succeeds]
  | ok items => simp [Outcome.ofItem, ok_bind]

theorem translateFunction_succeeds (parsed : WasmParseData) (index : Nat) (id : String)
    (body : FunctionBody) :
    Succeeds (translateFunction parsed index id body) ↔
      (∀ declared, body.locals = .ok declared → SupportedLocals declared) ∧
        ∃ items, body.operators = .ok items ∧
          Succeeds (translateExpr items (functionLocalNames parsed index)) := by
  rw [translateFunction, succeeds_bind_and fun _ => succeeds_bind_pure,
    translateLocals_succeeds, translateFunctionBody_succeeds]

end Inference.WasmToV

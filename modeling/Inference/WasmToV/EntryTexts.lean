import Inference.Foundation.Delimiter
import Inference.WasmToV.Faithfulness
import Inference.WasmToV.EntrySupport

/-! # Texts of entries

What the text of a section entry keeps of the entry. Entries that agree in it
have the same text, and it can be read back from the text, together with what
follows the text.
-/

namespace Inference.WasmToV

open Foundation

/-! ## Kept parts -/

/-- A translation keeps exactly a part of its input. Reading it back may need
that the input is legible. -/
structure Keeps {α κ : Type} (legible : α → Prop) (translate : α → Outcome String)
    (kept : α → κ) : Prop where
  same : ∀ {first second text other}, translate first = .ok text → translate second = .ok other →
    kept first = kept second → text = other
  cancel : ∀ {first second text other rest otherRest}, legible first → legible second →
    translate first = .ok text → translate second = .ok other →
    text.toList ++ rest = other.toList ++ otherRest → kept first = kept second ∧ rest = otherRest

/-- Nothing has to be legible. -/
def Always {α : Type} (_ : α) : Prop :=
  True

variable {text : String}

section Combinators

variable {α β κ : Type} {legible : α → Prop} {translate : α → Outcome String} {kept : α → κ}

/-- A translation between two fixed texts. -/
def enclosed (front back : String) (translate : α → Outcome String) (value : α) :
    Outcome String := do
  let text ← translate value
  return front ++ text ++ back

theorem Keeps.enclose (keeps : Keeps legible translate kept) (front back : String) :
    Keeps legible (enclosed front back translate) kept := by
  constructor
  · intro first second text other translated otherTranslated same
    rcases bind_ok translated with ⟨here, hereTranslated, assembled⟩
    rcases bind_ok otherTranslated with ⟨otherHere, otherHereTranslated, otherAssembled⟩
    cases assembled
    cases otherAssembled
    rw [keeps.same hereTranslated otherHereTranslated same]
  · intro first second text other rest otherRest isLegible otherLegible translated otherTranslated
      equal
    rcases bind_ok translated with ⟨here, hereTranslated, assembled⟩
    rcases bind_ok otherTranslated with ⟨otherHere, otherHereTranslated, otherAssembled⟩
    cases assembled
    cases otherAssembled
    simp only [String.toList_append, List.append_assoc] at equal
    rcases keeps.cancel isLegible otherLegible hereTranslated otherHereTranslated
      (List.append_cancel_left equal) with ⟨same, rests⟩
    exact ⟨same, List.append_cancel_left rests⟩

theorem enclosed_starts {front back : String} {value : α}
    (translated : enclosed front back translate value = .ok text) :
    ∃ here, translate value = .ok here ∧
      text.toList = front.toList ++ (here.toList ++ back.toList) := by
  rcases bind_ok translated with ⟨here, hereTranslated, assembled⟩
  cases assembled
  exact ⟨here, hereTranslated, by simp only [String.toList_append, List.append_assoc]⟩

/-- The texts of all elements, one behind the other. -/
def translateEach (translate : α → Outcome String) : List α → Outcome String
  | [] => .ok ""
  | value :: rest => do
      let text ← translate value
      let restText ← translateEach translate rest
      return text ++ restText

theorem translateEach_same (keeps : Keeps legible translate kept) {values others : List α}
    {other : String} (translated : translateEach translate values = .ok text)
    (otherTranslated : translateEach translate others = .ok other)
    (same : values.map kept = others.map kept) : text = other := by
  induction values generalizing others text other with
  | nil =>
      rcases List.map_eq_nil_iff.mp same.symm with rfl
      exact Except.ok.inj (translated.symm.trans otherTranslated)
  | cons value rest induction =>
      cases others with
      | nil => cases same
      | cons otherValue otherRest =>
          rcases bind_ok translated with ⟨here, hereTranslated, remaining⟩
          rcases bind_ok remaining with ⟨later, laterTranslated, assembled⟩
          rcases bind_ok otherTranslated with ⟨otherHere, otherHereTranslated, otherRemaining⟩
          rcases bind_ok otherRemaining with ⟨otherLater, otherLaterTranslated, otherAssembled⟩
          cases assembled
          cases otherAssembled
          rcases List.cons.inj same with ⟨sameHere, sameLater⟩
          rw [keeps.same hereTranslated otherHereTranslated sameHere,
            induction laterTranslated otherLaterTranslated sameLater]

/-- Elements can be read back when no element starts like what closes the list. -/
theorem translateEach_cancel (keeps : Keeps legible translate kept) {values others : List α}
    (areLegible : ∀ value ∈ values, legible value) (othersLegible : ∀ value ∈ others, legible value)
    {closing otherClosing : List Char}
    (closed : ∀ value text rest, legible value → translate value = .ok text →
      text.toList ++ rest ≠ closing)
    (otherClosed : ∀ value text rest, legible value → translate value = .ok text →
      text.toList ++ rest ≠ otherClosing)
    {other : String} (translated : translateEach translate values = .ok text)
    (otherTranslated : translateEach translate others = .ok other)
    (equal : text.toList ++ closing = other.toList ++ otherClosing) :
    values.map kept = others.map kept ∧ closing = otherClosing := by
  induction values generalizing others text other with
  | nil =>
      cases translated
      cases others with
      | nil =>
          cases otherTranslated
          exact ⟨rfl, equal⟩
      | cons otherValue otherRest =>
          rcases bind_ok otherTranslated with ⟨here, hereTranslated, remaining⟩
          rcases bind_ok remaining with ⟨later, _, assembled⟩
          cases assembled
          rw [String.toList_append, List.append_assoc] at equal
          exact absurd equal.symm (closed otherValue here _
            (othersLegible otherValue List.mem_cons_self) hereTranslated)
  | cons value rest induction =>
      rcases bind_ok translated with ⟨here, hereTranslated, remaining⟩
      rcases bind_ok remaining with ⟨later, laterTranslated, assembled⟩
      cases assembled
      rw [String.toList_append, List.append_assoc] at equal
      have hereLegible := areLegible value List.mem_cons_self
      cases others with
      | nil =>
          cases otherTranslated
          exact absurd equal (otherClosed value here _ hereLegible hereTranslated)
      | cons otherValue otherRest =>
          rcases bind_ok otherTranslated with ⟨otherHere, otherHereTranslated, otherRemaining⟩
          rcases bind_ok otherRemaining with ⟨otherLater, otherLaterTranslated, otherAssembled⟩
          cases otherAssembled
          rw [String.toList_append, List.append_assoc] at equal
          rcases keeps.cancel hereLegible (othersLegible otherValue List.mem_cons_self)
            hereTranslated otherHereTranslated equal with ⟨sameHere, behind⟩
          rcases induction (fun later member => areLegible later (List.mem_cons_of_mem value member))
            (fun later member => othersLegible later (List.mem_cons_of_mem otherValue member))
            laterTranslated otherLaterTranslated behind with ⟨sameLater, closings⟩
          exact ⟨by rw [List.map_cons, List.map_cons, sameHere, sameLater], closings⟩

end Combinators

variable {rest otherRest : List Char}

section Words

theorem words_ne {first second : List Char}
    (diverge : (DivergesBelow.check first second || DivergesBelow.check second first) = true)
    (rest otherRest : List Char) :
    (String.ofList first).toList ++ rest ≠ (String.ofList second).toList ++ otherRest := by
  rw [String.toList_ofList, String.toList_ofList]
  rcases (Bool.or_eq_true _ _).mp diverge with below | above
  · exact (DivergesBelow.of_check below).append_ne rest otherRest
  · exact ((DivergesBelow.of_check above).append_ne otherRest rest).symm

theorem endsNumeral_word {symbol : Char} (notDigit : symbol.isDigit = false) :
    EndsNumeral (String.ofList (symbol :: rest)).toList := by
  rw [String.toList_ofList]
  exact .of_cons notDigit

theorem numeral_cancel {separator : String} (ends : EndsNumeral separator.toList)
    {first second : Nat} (equal : (toString first).toList ++ (separator.toList ++ rest) =
      (toString second).toList ++ (separator.toList ++ otherRest)) :
    first = second ∧ rest = otherRest := by
  apply PrefixCode.natural ends
  rw [List.append_assoc, List.append_assoc]
  exact equal

theorem ends_natural : EndsNumeral "%N".toList :=
  endsNumeral_word rfl

theorem natural_keeps {separator : String} (ends : EndsNumeral separator.toList) :
    Keeps Always (fun number : Nat => .ok (toString number ++ separator)) id := by
  constructor
  · intro first second text other translated otherTranslated same
    cases translated
    cases otherTranslated
    cases same
    rfl
  · intro first second text other rest otherRest _ _ translated otherTranslated equal
    cases translated
    cases otherTranslated
    rw [String.toList_append, String.toList_append, List.append_assoc, List.append_assoc] at equal
    exact numeral_cancel ends equal

end Words

/-! ## Types -/

theorem refType_keeps : Keeps Always translateRefType id := by
  have cases_ok : ∀ {refType : RefType} {text : String}, translateRefType refType = .ok text →
      (refType = .funcref ∧ text = "T_funcref") ∨ (refType = .externref ∧ text = "T_externref") := by
    intro refType text translated
    unfold translateRefType at translated
    split at translated
    case isTrue func =>
        cases translated
        exact .inl ⟨func, rfl⟩
    case isFalse =>
        split at translated
        case isTrue isExternal =>
            cases translated
            exact .inr ⟨isExternal, rfl⟩
        case isFalse => cases translated
  constructor
  · intro first second text other translated otherTranslated same
    rw [id, id] at same
    rw [same, otherTranslated] at translated
    exact (Except.ok.inj translated).symm
  · intro first second text other rest otherRest _ _ translated otherTranslated equal
    rcases cases_ok translated with ⟨rfl, rfl⟩ | ⟨rfl, rfl⟩ <;>
      rcases cases_ok otherTranslated with ⟨rfl, rfl⟩ | ⟨rfl, rfl⟩
    · exact ⟨rfl, List.append_cancel_left equal⟩
    · exact absurd equal (words_ne (by decide) _ _)
    · exact absurd equal (words_ne (by decide) _ _)
    · exact ⟨rfl, List.append_cancel_left equal⟩

theorem valueType_keeps : Keeps Always translateValueType id := by
  constructor
  · intro first second text other translated otherTranslated same
    rw [id, id] at same
    rw [same, otherTranslated] at translated
    exact (Except.ok.inj translated).symm
  · intro first second text other rest otherRest _ _ translated otherTranslated equal
    have reference : ∀ {refType : RefType} {text : String},
        translateValueType (.ref refType) = .ok text →
          ∃ refText, translateRefType refType = .ok refText ∧
            text.toList = "T_ref ".toList ++ refText.toList := by
      intro refType text translated
      rcases bind_ok translated with ⟨refText, refTranslated, assembled⟩
      cases assembled
      exact ⟨refText, refTranslated, String.toList_append⟩
    cases first with
    | ref refType =>
        rcases reference translated with ⟨refText, refTranslated, spelled⟩
        rw [spelled, List.append_assoc] at equal
        cases second with
        | ref otherType =>
            rcases reference otherTranslated with ⟨otherText, otherRefTranslated, otherSpelled⟩
            rw [otherSpelled, List.append_assoc] at equal
            rcases refType_keeps.cancel trivial trivial refTranslated otherRefTranslated
              (List.append_cancel_left equal) with ⟨rfl, rests⟩
            exact ⟨rfl, rests⟩
        | i32 | i64 | f32 | f64 | v128 =>
            cases otherTranslated
            exact absurd equal (words_ne (by decide) _ _)
    | i32 | i64 | f32 | f64 | v128 =>
        cases translated
        cases second with
        | ref otherType =>
            rcases reference otherTranslated with ⟨otherText, otherRefTranslated, otherSpelled⟩
            rw [otherSpelled, List.append_assoc] at equal
            exact absurd equal (words_ne (by decide) _ _)
        | i32 | i64 | f32 | f64 | v128 =>
            cases otherTranslated
            first
              | exact absurd equal (words_ne (by decide) _ _)
              | exact ⟨rfl, List.append_cancel_left equal⟩

/-! ## Limits -/

private def maximumText : Option Nat → String
  | some max => "Some(" ++ toString max ++ "%N)"
  | none => "None"

private theorem limits_text (initial : Nat) (maximum : Option Nat) :
    translateLimits initial maximum = "\x7b|lim_min := " ++ (toString initial ++ "%N") ++
      "; lim_max := " ++ maximumText maximum ++ "|\x7d" := by
  cases maximum <;> rfl

private theorem maximum_cancel {maximum otherMaximum : Option Nat}
    (equal : (maximumText maximum).toList ++ rest = (maximumText otherMaximum).toList ++ otherRest) :
    maximum = otherMaximum ∧ rest = otherRest := by
  cases maximum with
  | none =>
      cases otherMaximum with
      | none => exact ⟨rfl, List.append_cancel_left equal⟩
      | some other =>
          simp only [maximumText, String.toList_append, List.append_assoc] at equal
          exact absurd equal (words_ne (by decide) _ _)
  | some max =>
      simp only [maximumText, String.toList_append, List.append_assoc] at equal
      cases otherMaximum with
      | none => exact absurd equal (words_ne (by decide) _ _)
      | some other =>
          simp only [String.toList_append, List.append_assoc] at equal
          rcases numeral_cancel (endsNumeral_word rfl) (List.append_cancel_left equal) with
            ⟨rfl, rests⟩
          exact ⟨rfl, rests⟩

theorem limits_cancel {initial otherInitial : Nat} {maximum otherMaximum : Option Nat}
    (equal : (translateLimits initial maximum).toList ++ rest =
      (translateLimits otherInitial otherMaximum).toList ++ otherRest) :
    initial = otherInitial ∧ maximum = otherMaximum ∧ rest = otherRest := by
  simp only [limits_text, String.toList_append, List.append_assoc] at equal
  rcases numeral_cancel ends_natural (List.append_cancel_left equal) with ⟨sameInitial, behind⟩
  rcases maximum_cancel (List.append_cancel_left behind) with ⟨sameMaximum, rests⟩
  exact ⟨sameInitial, sameMaximum, List.append_cancel_left rests⟩

theorem mutability_cancel {mutable otherMutable : Bool}
    (equal : (translateMutability mutable).toList ++ rest =
      (translateMutability otherMutable).toList ++ otherRest) :
    mutable = otherMutable ∧ rest = otherRest := by
  cases mutable <;> cases otherMutable <;>
    first
    | exact absurd equal (words_ne (by decide) _ _)
    | exact ⟨rfl, List.append_cancel_left equal⟩

/-- What is kept of the type of a table. -/
def TableType.canonical (tableType : TableType) : TableType :=
  { tableType with table64 := false, shared := false }

/-- What is kept of the type of an imported table: its limits. -/
def TableType.limitsOnly (tableType : TableType) : TableType :=
  { tableType.canonical with elementType := .funcref }

/-- What is kept of the type of a memory: its limits. -/
def MemoryType.canonical (memoryType : MemoryType) : MemoryType :=
  { memoryType with memory64 := false, shared := false, pageSizeLog2 := none }

def GlobalType.canonical (globalType : GlobalType) : GlobalType :=
  { globalType with shared := false }

theorem tableLimits_eq {first second : TableType} (same : first.limitsOnly = second.limitsOnly) :
    translateTableTypeLimits first = translateTableTypeLimits second := by
  simp only [TableType.limitsOnly, TableType.canonical, TableType.mk.injEq] at same
  rw [translateTableTypeLimits, translateTableTypeLimits, same.2.2.1, same.2.2.2.1]

theorem tableLimits_cancel {first second : TableType}
    (equal : (translateTableTypeLimits first).toList ++ rest =
      (translateTableTypeLimits second).toList ++ otherRest) :
    first.limitsOnly = second.limitsOnly ∧ rest = otherRest := by
  rcases limits_cancel equal with ⟨initial, maximum, rests⟩
  simp [TableType.limitsOnly, TableType.canonical, initial, maximum, rests]

theorem memoryLimits_eq {first second : MemoryType} (same : first.canonical = second.canonical) :
    translateMemoryTypeLimits first = translateMemoryTypeLimits second := by
  simp only [MemoryType.canonical, MemoryType.mk.injEq] at same
  rw [translateMemoryTypeLimits, translateMemoryTypeLimits, same.2.2.1, same.2.2.2.1]

theorem memoryLimits_cancel {first second : MemoryType}
    (equal : (translateMemoryTypeLimits first).toList ++ rest =
      (translateMemoryTypeLimits second).toList ++ otherRest) :
    first.canonical = second.canonical ∧ rest = otherRest := by
  rcases limits_cancel equal with ⟨initial, maximum, rests⟩
  simp [MemoryType.canonical, initial, maximum, rests]

/-! ## Imports and exports -/

def TypeRef.canonical : TypeRef → TypeRef
  | .func typeIndex => .func typeIndex
  | .table tableType => .table tableType.limitsOnly
  | .memory memoryType => .memory memoryType.canonical
  | .global globalType => .global globalType.canonical
  | .tag funcTypeIdx => .tag funcTypeIdx

/-- What is kept of an import: the types of tables, memories and globals lose
what has no place in the description. -/
def Import.canonical (entry : Import) : Import :=
  { entry with ty := entry.ty.canonical }

def TypeRef.kind : TypeRef → ExternalKind
  | .func _ => .func
  | .table _ => .table
  | .memory _ => .memory
  | .global _ => .global
  | .tag _ => .tag

/-- The word that a description starts with. Tags have none. -/
private def descriptionWord : ExternalKind → String
  | .func => "MID_func "
  | .table => "MID_table "
  | .memory => "MID_mem "
  | .global => "MID_global \x7b|tg_mut := "
  | .tag => ""

private theorem descriptionWord_ne {first second : ExternalKind} (different : first ≠ second)
    (notTag : first ≠ .tag) (otherNotTag : second ≠ .tag) (rest otherRest : List Char) :
    (descriptionWord first).toList ++ rest ≠ (descriptionWord second).toList ++ otherRest := by
  cases first <;> cases second <;>
    first
    | exact words_ne (by decide) rest otherRest
    | contradiction

private theorem importGlobal_text {entry : Import} {globalType : GlobalType}
    (kind : entry.ty = .global globalType) (translated : translateModuleImportDesc entry = .ok text) :
    ∃ tgT, translateValueType globalType.contentType = .ok tgT ∧
      text = "MID_global \x7b|tg_mut := " ++ translateMutability globalType.mutable ++
        "; tg_t := " ++ tgT ++ "|\x7d" := by
  rw [translateModuleImportDesc, kind] at translated
  rcases bind_ok translated with ⟨tgT, typeTranslated, assembled⟩
  cases assembled
  exact ⟨tgT, typeTranslated, rfl⟩

/-- A description starts with the word of its kind, and is not one of a tag. -/
private theorem importDesc_starts {entry : Import}
    (translated : translateModuleImportDesc entry = .ok text) :
    entry.ty.kind ≠ .tag ∧
      ∃ behind, text.toList = (descriptionWord entry.ty.kind).toList ++ behind := by
  cases kind : entry.ty with
  | tag _ =>
      rw [translateModuleImportDesc, kind] at translated
      cases translated
  | global _ =>
      rcases importGlobal_text kind translated with ⟨_, _, rfl⟩
      simp only [String.toList_append, List.append_assoc]
      exact ⟨by simp [TypeRef.kind], _, rfl⟩
  | func _ | table _ | memory _ =>
      rw [translateModuleImportDesc, kind] at translated
      cases translated
      simp only [String.toList_append, List.append_assoc]
      exact ⟨by simp [TypeRef.kind], _, rfl⟩

theorem importDesc_keeps :
    Keeps Always translateModuleImportDesc (fun entry => entry.ty.canonical) := by
  constructor
  · intro first second text other translated otherTranslated same
    cases kind : first.ty <;> cases otherKind : second.ty <;>
      simp only [kind, otherKind, TypeRef.canonical, TypeRef.func.injEq, TypeRef.table.injEq,
        TypeRef.memory.injEq, TypeRef.global.injEq, TypeRef.tag.injEq, reduceCtorEq] at same
    case func =>
      simp only [translateModuleImportDesc, kind, otherKind, same] at translated otherTranslated
      exact Except.ok.inj (translated.symm.trans otherTranslated)
    case table =>
      simp only [translateModuleImportDesc, kind, otherKind, tableLimits_eq same]
        at translated otherTranslated
      exact Except.ok.inj (translated.symm.trans otherTranslated)
    case memory =>
      simp only [translateModuleImportDesc, kind, otherKind, memoryLimits_eq same]
        at translated otherTranslated
      exact Except.ok.inj (translated.symm.trans otherTranslated)
    case global globalType otherType =>
      rcases importGlobal_text kind translated with ⟨tgT, typeTranslated, rfl⟩
      rcases importGlobal_text otherKind otherTranslated with ⟨otherT, otherTypeTranslated, rfl⟩
      simp only [GlobalType.canonical, GlobalType.mk.injEq] at same
      rw [valueType_keeps.same typeTranslated otherTypeTranslated same.1, same.2.1]
    case tag =>
      have starts := (importDesc_starts translated).1
      rw [kind] at starts
      exact absurd rfl starts
  · intro first second text other rest otherRest _ _ translated otherTranslated equal
    rcases importDesc_starts translated with ⟨notTag, _, spelled⟩
    rcases importDesc_starts otherTranslated with ⟨otherNotTag, _, otherSpelled⟩
    have sameKind : first.ty.kind = second.ty.kind := by
      by_contra different
      rw [spelled, otherSpelled, List.append_assoc, List.append_assoc] at equal
      exact descriptionWord_ne different notTag otherNotTag _ _ equal
    clear spelled otherSpelled
    cases kind : first.ty <;> cases otherKind : second.ty <;>
      simp only [kind, otherKind, TypeRef.kind, reduceCtorEq] at sameKind
    case func =>
      simp only [translateModuleImportDesc, kind, otherKind, Except.ok.injEq]
        at translated otherTranslated
      subst translated otherTranslated
      simp only [String.toList_append, List.append_assoc] at equal
      rcases numeral_cancel ends_natural (List.append_cancel_left equal) with ⟨rfl, rests⟩
      exact ⟨rfl, rests⟩
    case table =>
      simp only [translateModuleImportDesc, kind, otherKind, Except.ok.injEq]
        at translated otherTranslated
      subst translated otherTranslated
      simp only [String.toList_append, List.append_assoc] at equal
      rcases tableLimits_cancel (List.append_cancel_left equal) with ⟨same, rests⟩
      exact ⟨congrArg TypeRef.table same, rests⟩
    case memory =>
      simp only [translateModuleImportDesc, kind, otherKind, Except.ok.injEq]
        at translated otherTranslated
      subst translated otherTranslated
      simp only [String.toList_append, List.append_assoc] at equal
      rcases memoryLimits_cancel (List.append_cancel_left equal) with ⟨same, rests⟩
      exact ⟨congrArg TypeRef.memory same, rests⟩
    case global globalType otherType =>
      rcases importGlobal_text kind translated with ⟨tgT, typeTranslated, rfl⟩
      rcases importGlobal_text otherKind otherTranslated with ⟨otherT, otherTypeTranslated, rfl⟩
      simp only [String.toList_append, List.append_assoc] at equal
      rcases mutability_cancel (List.append_cancel_left equal) with ⟨sameMutable, behind⟩
      rcases valueType_keeps.cancel trivial trivial typeTranslated otherTypeTranslated
        (List.append_cancel_left behind) with ⟨sameType, rests⟩
      rw [id, id] at sameType
      simp only [TypeRef.canonical, GlobalType.canonical, sameMutable, sameType, true_and]
      exact List.append_cancel_left rests
    case tag =>
      rw [kind] at notTag
      exact absurd rfl notTag

/-- Names without quotes. -/
def Import.Legible (entry : Import) : Prop :=
  Lacks '"' entry.module ∧ Lacks '"' entry.name

def Export.Legible (entry : Export) : Prop :=
  Lacks '"' entry.name

/-- A name ends at a symbol that it lacks. -/
theorem name_cancel {symbol : Char} {first second : String} (lacks : Lacks symbol first)
    (otherLacks : Lacks symbol second) {behind otherBehind : List Char}
    (equal : first.toList ++ ((String.ofList (symbol :: behind)).toList ++ rest) =
      second.toList ++ ((String.ofList (symbol :: otherBehind)).toList ++ otherRest)) :
    first = second ∧ behind ++ rest = otherBehind ++ otherRest := by
  rw [String.toList_ofList, String.toList_ofList] at equal
  rcases delimited_cancel lacks otherLacks equal with ⟨same, rests⟩
  exact ⟨String.toList_inj.mp same, rests⟩

theorem import_keeps : Keeps Import.Legible translateModuleImport Import.canonical := by
  constructor
  · intro first second text other translated otherTranslated same
    rcases bind_ok translated with ⟨impDesc, descTranslated, assembled⟩
    rcases bind_ok otherTranslated with ⟨otherDesc, otherDescTranslated, otherAssembled⟩
    cases assembled
    cases otherAssembled
    simp only [Import.canonical, Import.mk.injEq] at same
    rw [importDesc_keeps.same descTranslated otherDescTranslated same.2.2, same.1, same.2.1]
  · intro first second text other rest otherRest legible otherLegible translated otherTranslated
      equal
    rcases bind_ok translated with ⟨impDesc, descTranslated, assembled⟩
    rcases bind_ok otherTranslated with ⟨otherDesc, otherDescTranslated, otherAssembled⟩
    cases assembled
    cases otherAssembled
    simp only [String.toList_append, List.append_assoc] at equal
    rcases name_cancel legible.1 otherLegible.1 (List.append_cancel_left equal) with
      ⟨sameModule, behindModule⟩
    rcases name_cancel legible.2 otherLegible.2 (List.append_cancel_left behindModule) with
      ⟨sameName, behindName⟩
    rcases importDesc_keeps.cancel trivial trivial descTranslated otherDescTranslated
      (List.append_cancel_left behindName) with ⟨sameDesc, rests⟩
    simp only [Import.canonical, sameModule, sameName, sameDesc, true_and]
    exact List.append_cancel_left rests

private def exportWord : ExternalKind → String
  | .func => "MED_func "
  | .table => "MED_table "
  | .memory => "MED_mem "
  | .global => "MED_global "
  | .tag => ""

private theorem exportWord_ne {first second : ExternalKind} (different : first ≠ second)
    (notTag : first ≠ .tag) (otherNotTag : second ≠ .tag) (rest otherRest : List Char) :
    (exportWord first).toList ++ rest ≠ (exportWord second).toList ++ otherRest := by
  cases first <;> cases second <;>
    first
    | exact words_ne (by decide) rest otherRest
    | contradiction

private theorem exportDesc_text {entry : Export}
    (translated : translateModuleExportDesc entry = .ok text) :
    entry.kind ≠ .tag ∧ text = exportWord entry.kind ++ toString entry.index ++ "%N" := by
  rw [translateModuleExportDesc] at translated
  cases kind : entry.kind <;> rw [kind] at translated <;> cases translated <;>
    exact ⟨by simp, rfl⟩

theorem export_keeps : Keeps Export.Legible translateExportModule id := by
  constructor
  · intro first second text other translated otherTranslated same
    rw [id, id] at same
    rw [same, otherTranslated] at translated
    exact (Except.ok.inj translated).symm
  · intro first second text other rest otherRest legible otherLegible translated otherTranslated
      equal
    rcases bind_ok translated with ⟨desc, descTranslated, assembled⟩
    rcases bind_ok otherTranslated with ⟨otherDesc, otherDescTranslated, otherAssembled⟩
    cases assembled
    cases otherAssembled
    rcases exportDesc_text descTranslated with ⟨notTag, rfl⟩
    rcases exportDesc_text otherDescTranslated with ⟨otherNotTag, rfl⟩
    simp only [String.toList_append, List.append_assoc] at equal
    rcases name_cancel legible otherLegible (List.append_cancel_left equal) with
      ⟨sameName, behindName⟩
    have behind := List.append_cancel_left behindName
    have sameKind : first.kind = second.kind := by
      by_contra different
      exact exportWord_ne different notTag otherNotTag _ _ behind
    rw [sameKind] at behind
    rcases numeral_cancel ends_natural (List.append_cancel_left behind) with
      ⟨sameIndex, rests⟩
    refine ⟨?_, List.append_cancel_left rests⟩
    cases first
    cases second
    cases sameName
    cases sameKind
    cases sameIndex
    rfl

/-! ## Tables and memories -/

theorem table_keeps : Keeps Always translateTableType (fun table => table.ty.canonical) := by
  constructor
  · intro first second text other translated otherTranslated same
    rcases bind_ok translated with ⟨elemType, typeTranslated, assembled⟩
    rcases bind_ok otherTranslated with ⟨otherType, otherTypeTranslated, otherAssembled⟩
    cases assembled
    cases otherAssembled
    have sameLimits := tableLimits_eq (congrArg TableType.limitsOnly same)
    simp only [TableType.canonical, TableType.mk.injEq] at same
    rw [refType_keeps.same typeTranslated otherTypeTranslated same.1]
    exact congrArg (fun limits => "Mt " ++ limits ++ " " ++ otherType) sameLimits
  · intro first second text other rest otherRest _ _ translated otherTranslated equal
    rcases bind_ok translated with ⟨elemType, typeTranslated, assembled⟩
    rcases bind_ok otherTranslated with ⟨otherType, otherTypeTranslated, otherAssembled⟩
    cases assembled
    cases otherAssembled
    simp only [String.toList_append, List.append_assoc] at equal
    rcases tableLimits_cancel (List.append_cancel_left equal) with ⟨sameLimits, behind⟩
    rcases refType_keeps.cancel trivial trivial typeTranslated otherTypeTranslated
      (List.append_cancel_left behind) with ⟨sameType, rests⟩
    simp only [TableType.limitsOnly, TableType.canonical, TableType.mk.injEq] at sameLimits
    rw [id, id] at sameType
    simp only [TableType.canonical, sameLimits, sameType, true_and]
    exact rests

theorem memory_keeps : Keeps Always translateMemoryType MemoryType.canonical := by
  constructor
  · intro first second text other translated otherTranslated same
    cases translated
    cases otherTranslated
    rw [memoryLimits_eq same]
  · intro first second text other rest otherRest _ _ translated otherTranslated equal
    cases translated
    cases otherTranslated
    simp only [String.toList_append, List.append_assoc] at equal
    exact memoryLimits_cancel (List.append_cancel_left equal)

end Inference.WasmToV

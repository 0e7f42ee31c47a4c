import Inference.WasmToV.EntryTexts
import Inference.WasmToV.ModuleContents
import Inference.WasmToV.FunctionNaming

/-! # Texts of entries with expressions

Globals, segments, types and functions. Of an expression the canonical operators
of its lines are kept, or that it cannot be printed.
-/

namespace Inference.WasmToV

open Foundation

/-! ## Expressions -/

def Rendition.canonical : Rendition → Rendition
  | .lines tokens => .lines (tokens.map Token.canonical)
  | rendition => rendition

/-- What is kept of an expression. -/
def keptExpression (items : List OperatorItem) : Rendition :=
  (rendition items).canonical

theorem commentsFrom_none (depth : Nat) (tokens : List Token) :
    commentsFrom none depth tokens = tokens.map fun _ => none := by
  induction tokens generalizing depth with
  | nil => rfl
  | cons token rest induction =>
      have noNames : namesAt none depth = none := by
        cases depth <;> rfl
      have noComment : token.comment none = none := by
        cases token with
        | line op =>
            rw [Token.comment, Operator.comment]
            cases op.localIndex <;> rfl
        | opened _ | nextArm | closed => rfl
      rw [commentsFrom, noNames, noComment, induction, List.map_cons]

/-- Without names, renditions differ when their canonical forms do. -/
theorem differ_none_iff {first second : Rendition} (present : first ≠ .missing)
    (otherPresent : second ≠ .missing) :
    first.Differ none none second ↔ first.canonical ≠ second.canonical := by
  cases first with
  | missing => exact absurd rfl present
  | misrendered =>
      cases second with
      | missing => exact absurd rfl otherPresent
      | misrendered => simp [Rendition.Differ, Rendition.canonical]
      | lines others => simp [Rendition.Differ, Rendition.canonical]
  | lines tokens =>
      cases second with
      | missing => exact absurd rfl otherPresent
      | misrendered => simp [Rendition.Differ, Rendition.canonical]
      | lines others =>
          simp only [Rendition.Differ, Rendition.canonical, ne_eq, Rendition.lines.injEq,
            commentsFrom_none]
          constructor
          · rintro (apart | apart) same
            · exact apart same
            · have lengths := congrArg List.length same
              rw [List.length_map, List.length_map] at lengths
              apply apart
              rw [List.map_const', List.map_const', lengths]
          · exact .inl

variable {items : List OperatorItem} {text : String}

theorem rendition_present {names : Option NameMap}
    (translated : translateExpr items names = .ok text) : rendition items ≠ .missing := by
  intro missing
  have described := rendition_describes items names
  rw [missing, translated] at described
  rcases described with ⟨_, fails⟩
  cases fails

theorem expression_keeps : Keeps Always (translateExpr · none) keptExpression := by
  constructor
  · intro first second text other translated otherTranslated same
    have alike : ¬ (rendition first).Differ none none (rendition second) := by
      rw [differ_none_iff (rendition_present translated) (rendition_present otherTranslated)]
      exact not_not.mpr same
    rcases Rendition.texts_of_not_differ alike (rendition_describes first none)
      (rendition_describes second none) with ⟨common, ok, otherOk⟩
    rw [ok] at translated
    rw [otherOk] at otherTranslated
    exact (Except.ok.inj translated).symm.trans (Except.ok.inj otherTranslated)
  · intro first second text other rest otherRest _ _ translated otherTranslated equal
    have legible := Rendition.legible_unnamed (rendition first) (rendition second)
    rcases translateExpr_cancel legible translated otherTranslated equal with ⟨alike, rests⟩
    rw [differ_none_iff (rendition_present translated) (rendition_present otherTranslated)]
      at alike
    exact ⟨not_not.mp alike, rests⟩

/-! ## Globals -/

def Global.kept (entry : Global) : GlobalType × Rendition :=
  (entry.ty.canonical, keptExpression entry.initExpr.operators)

theorem global_keeps : Keeps Always translateGlobal Global.kept := by
  constructor
  · intro first second text other translated otherTranslated same
    rcases bind_ok translated with ⟨tgT, typeTranslated, remaining⟩
    rcases bind_ok remaining with ⟨mgInit, initTranslated, assembled⟩
    rcases bind_ok otherTranslated with ⟨otherT, otherTypeTranslated, otherRemaining⟩
    rcases bind_ok otherRemaining with ⟨otherInit, otherInitTranslated, otherAssembled⟩
    cases assembled
    cases otherAssembled
    rcases Prod.mk.inj same with ⟨sameType, sameInit⟩
    simp only [GlobalType.canonical, GlobalType.mk.injEq] at sameType
    rw [valueType_keeps.same typeTranslated otherTypeTranslated sameType.1, sameType.2.1,
      expression_keeps.same initTranslated otherInitTranslated sameInit]
  · intro first second text other rest otherRest _ _ translated otherTranslated equal
    rcases bind_ok translated with ⟨tgT, typeTranslated, remaining⟩
    rcases bind_ok remaining with ⟨mgInit, initTranslated, assembled⟩
    rcases bind_ok otherTranslated with ⟨otherT, otherTypeTranslated, otherRemaining⟩
    rcases bind_ok otherRemaining with ⟨otherInit, otherInitTranslated, otherAssembled⟩
    cases assembled
    cases otherAssembled
    simp only [String.toList_append, List.append_assoc] at equal
    rcases mutability_cancel (List.append_cancel_left equal) with ⟨sameMutable, behindMutable⟩
    rcases valueType_keeps.cancel trivial trivial typeTranslated otherTypeTranslated
      (List.append_cancel_left behindMutable) with ⟨sameType, behindType⟩
    rcases expression_keeps.cancel trivial trivial initTranslated otherInitTranslated
      (List.append_cancel_left behindType) with ⟨sameInit, rests⟩
    rw [id, id] at sameType
    refine ⟨?_, List.append_cancel_left rests⟩
    simp only [Global.kept, GlobalType.canonical, sameMutable, sameType, sameInit]

/-! ## Modes of segments -/

/-- What is kept of the mode of a segment. -/
inductive SegmentMode where
  | passive
  | declared
  | active (index : Nat) (offset : Rendition)
  deriving DecidableEq, Repr

def DataKind.mode : DataKind → SegmentMode
  | .passive => .passive
  | .active memoryIndex offsetExpr => .active memoryIndex (keptExpression offsetExpr.operators)

/-- A table that is not named is the first one. -/
def ElementKind.mode : ElementKind → SegmentMode
  | .passive => .passive
  | .declared => .declared
  | .active tableIndex offsetExpr =>
      .active (tableIndex.getD 0) (keptExpression offsetExpr.operators)

/-- The text of an active mode. -/
def activeText (front : String) (index : Nat) (items : List OperatorItem) : Outcome String := do
  let expression ← translateExpr items none
  return front ++ toString index ++ "%N (" ++ expression ++ ")"

variable {front other : String} {index : Nat}

theorem active_same {otherIndex : Nat} {others : List OperatorItem}
    (translated : activeText front index items = .ok text)
    (otherTranslated : activeText front otherIndex others = .ok other)
    (sameIndex : index = otherIndex) (sameOffset : keptExpression items = keptExpression others) :
    text = other := by
  rcases bind_ok translated with ⟨expression, offsetTranslated, assembled⟩
  rcases bind_ok otherTranslated with ⟨otherExpression, otherOffsetTranslated, otherAssembled⟩
  cases assembled
  cases otherAssembled
  rw [expression_keeps.same offsetTranslated otherOffsetTranslated sameOffset, sameIndex]

variable {rest otherRest : List Char}

theorem active_cancel {otherIndex : Nat} {others : List OperatorItem}
    (translated : activeText front index items = .ok text)
    (otherTranslated : activeText front otherIndex others = .ok other)
    (equal : text.toList ++ rest = other.toList ++ otherRest) :
    SegmentMode.active index (keptExpression items) =
      .active otherIndex (keptExpression others) ∧ rest = otherRest := by
  rcases bind_ok translated with ⟨expression, offsetTranslated, assembled⟩
  rcases bind_ok otherTranslated with ⟨otherExpression, otherOffsetTranslated, otherAssembled⟩
  cases assembled
  cases otherAssembled
  simp only [String.toList_append, List.append_assoc] at equal
  rcases numeral_cancel (endsNumeral_word rfl) (List.append_cancel_left equal) with
    ⟨sameIndex, behind⟩
  rcases expression_keeps.cancel trivial trivial offsetTranslated otherOffsetTranslated behind with
    ⟨sameOffset, rests⟩
  exact ⟨by rw [sameIndex, sameOffset], List.append_cancel_left rests⟩

theorem active_starts (translated : activeText front index items = .ok text) :
    ∃ behind, text.toList = front.toList ++ behind := by
  rcases bind_ok translated with ⟨expression, _, assembled⟩
  cases assembled
  simp only [String.toList_append, List.append_assoc]
  exact ⟨_, rfl⟩

theorem dataMode_keeps : Keeps Always translateModuleDatamode (fun entry => entry.kind.mode) := by
  constructor
  · intro first second text other translated otherTranslated same
    cases kind : first.kind <;> cases otherKind : second.kind <;>
      simp only [kind, otherKind, DataKind.mode, SegmentMode.active.injEq, reduceCtorEq] at same <;>
      simp only [translateModuleDatamode, kind, otherKind] at translated otherTranslated
    case passive => exact Except.ok.inj (translated.symm.trans otherTranslated)
    case active => exact active_same translated otherTranslated same.1 same.2
  · intro first second text other rest otherRest _ _ translated otherTranslated equal
    cases kind : first.kind <;> cases otherKind : second.kind <;>
      simp only [translateModuleDatamode, kind, otherKind] at translated otherTranslated
    case passive.passive =>
      cases translated
      cases otherTranslated
      exact ⟨rfl, List.append_cancel_left equal⟩
    case active.active => exact active_cancel translated otherTranslated equal
    case passive.active =>
      cases translated
      rcases active_starts otherTranslated with ⟨_, spelled⟩
      rw [spelled, List.append_assoc] at equal
      exact absurd equal (words_ne (by decide) _ _)
    case active.passive =>
      cases otherTranslated
      rcases active_starts translated with ⟨_, spelled⟩
      rw [spelled, List.append_assoc] at equal
      exact absurd equal (words_ne (by decide) _ _)

theorem elementMode_keeps : Keeps Always translateElementMode (fun entry => entry.kind.mode) := by
  constructor
  · intro first second text other translated otherTranslated same
    cases kind : first.kind <;> cases otherKind : second.kind <;>
      simp only [kind, otherKind, ElementKind.mode, SegmentMode.active.injEq, reduceCtorEq]
        at same <;>
      simp only [translateElementMode, kind, otherKind] at translated otherTranslated
    case passive | declared => exact Except.ok.inj (translated.symm.trans otherTranslated)
    case active => exact active_same translated otherTranslated same.1 same.2
  · intro first second text other rest otherRest _ _ translated otherTranslated equal
    cases kind : first.kind <;> cases otherKind : second.kind <;>
      simp only [translateElementMode, kind, otherKind] at translated otherTranslated
    case passive.passive | declared.declared =>
      cases translated
      cases otherTranslated
      exact ⟨rfl, List.append_cancel_left equal⟩
    case active.active => exact active_cancel translated otherTranslated equal
    case passive.declared | declared.passive =>
      cases translated
      cases otherTranslated
      exact absurd equal (words_ne (by decide) _ _)
    case passive.active | declared.active =>
      cases translated
      rcases active_starts otherTranslated with ⟨_, spelled⟩
      rw [spelled, List.append_assoc] at equal
      exact absurd equal (words_ne (by decide) _ _)
    case active.passive | active.declared =>
      cases otherTranslated
      rcases active_starts translated with ⟨_, spelled⟩
      rw [spelled, List.append_assoc] at equal
      exact absurd equal (words_ne (by decide) _ _)

/-! ## Data -/

theorem byte_cancel {first second : UInt8}
    (equal : (translateByte first).toList ++ rest = (translateByte second).toList ++ otherRest) :
    first = second ∧ rest = otherRest := by
  have digits : ∀ first second : Fin 16,
      upperHexDigit first.val = upperHexDigit second.val → first = second := by
    decide
  have mark : "#".toList = ['#'] := String.toList_ofList
  simp only [translateByte, String.toList_append, String.toList_ofList, mark, List.cons_append,
    List.nil_append, List.cons.injEq, true_and] at equal
  rcases equal with ⟨high, low, rests⟩
  refine ⟨?_, rests⟩
  have firstBound := first.toNat_lt
  have secondBound := second.toNat_lt
  have sameHigh := digits ⟨first.toNat / 16, by omega⟩ ⟨second.toNat / 16, by omega⟩ high
  have sameLow := digits ⟨first.toNat % 16, by omega⟩ ⟨second.toNat % 16, by omega⟩ low
  rw [Fin.mk.injEq] at sameHigh sameLow
  apply UInt8.toNat_inj.mp
  omega

theorem bytes_cancel {first second : List UInt8}
    (equal : (String.join (first.map fun byte => translateByte byte ++ " :: ")).toList ++
        ("nil".toList ++ rest) =
      (String.join (second.map fun byte => translateByte byte ++ " :: ")).toList ++
        ("nil".toList ++ otherRest)) :
    first = second ∧ rest = otherRest := by
  have mark : "#".toList = ['#'] := String.toList_ofList
  have closing : "nil".toList = ['n', 'i', 'l'] := String.toList_ofList
  have starts : ∀ (byte : UInt8) (behind later : List Char),
      (translateByte byte).toList ++ behind ≠ "nil".toList ++ later := by
    intro byte behind later same
    simp [translateByte, mark, closing] at same
  induction first generalizing second with
  | nil =>
      cases second with
      | nil => exact ⟨rfl, List.append_cancel_left (List.append_cancel_left equal)⟩
      | cons byte others =>
          simp only [List.map_cons, String.join_cons, String.toList_append, List.append_assoc]
            at equal
          exact absurd equal.symm (starts _ _ _)
  | cons byte others induction =>
      simp only [List.map_cons, String.join_cons, String.toList_append, List.append_assoc] at equal
      cases second with
      | nil => exact absurd equal (starts _ _ _)
      | cons other otherRest =>
          simp only [List.map_cons, String.join_cons, String.toList_append, List.append_assoc]
            at equal
          rcases byte_cancel equal with ⟨rfl, behind⟩
          rcases induction (List.append_cancel_left behind) with ⟨rfl, rests⟩
          exact ⟨rfl, rests⟩

def Data.kept (entry : Data) : SegmentMode × List UInt8 :=
  (entry.kind.mode, entry.data)

theorem data_keeps : Keeps Always translateData Data.kept := by
  constructor
  · intro first second text other translated otherTranslated same
    rcases bind_ok translated with ⟨mode, modeTranslated, assembled⟩
    rcases bind_ok otherTranslated with ⟨otherMode, otherModeTranslated, otherAssembled⟩
    cases assembled
    cases otherAssembled
    rcases Prod.mk.inj same with ⟨sameMode, sameData⟩
    rw [dataMode_keeps.same modeTranslated otherModeTranslated sameMode, sameData]
  · intro first second text other rest otherRest _ _ translated otherTranslated equal
    rcases bind_ok translated with ⟨mode, modeTranslated, assembled⟩
    rcases bind_ok otherTranslated with ⟨otherMode, otherModeTranslated, otherAssembled⟩
    cases assembled
    cases otherAssembled
    simp only [String.toList_append, List.append_assoc] at equal
    rcases bytes_cancel (List.append_cancel_left (List.append_cancel_left equal)) with
      ⟨sameData, behind⟩
    rcases dataMode_keeps.cancel trivial trivial modeTranslated otherModeTranslated
      (List.append_cancel_left (List.append_cancel_left behind)) with ⟨sameMode, rests⟩
    refine ⟨?_, List.append_cancel_left (List.append_cancel_left rests)⟩
    rw [Data.kept, Data.kept, sameMode, sameData]

/-! ## Elements -/

/-- What is kept of the items of an element segment. -/
inductive KeptItems where
  | functions (indexes : List Nat)
  | expressions (refType : RefType) (expressions : List Rendition)
  deriving DecidableEq, Repr

def ElementItems.kept : ElementItems → KeptItems
  | .functions items => .functions (readable items)
  | .expressions refType items =>
      .expressions refType ((readable items).map fun entry => keptExpression entry.operators)

def Element.kept (entry : Element) : SegmentMode × KeptItems :=
  (entry.kind.mode, entry.items.kept)

theorem readable_of_read {α : Type} {items : List (Item α)}
    (read : ∀ item ∈ items, ∃ value, item = .ok value) : items = (readable items).map .ok := by
  induction items with
  | nil => rfl
  | cons item rest induction =>
      rw [List.forall_mem_cons] at read
      rcases read.1 with ⟨value, rfl⟩
      rw [readable_ok, List.map_cons, ← induction read.2]

theorem elementFunctions_each (indexes : List Nat) :
    translateElementFunctions (indexes.map .ok) =
      translateEach (fun index : Nat => .ok (toString index ++ "::")) indexes := by
  induction indexes with
  | nil => rfl
  | cons index rest induction =>
      rw [List.map_cons, translateElementFunctions, Outcome.ofItem, ok_bind, induction]
      rfl

theorem elementExpressions_each (expressions : List ConstExpr) :
    translateElementExpressions (expressions.map .ok) =
      translateEach (enclosed "(" (")" ++ " ::\n") fun entry : ConstExpr =>
        translateExpr entry.operators none) expressions := by
  induction expressions with
  | nil => rfl
  | cons entry rest induction =>
      rw [List.map_cons, translateElementExpressions, Outcome.ofItem, ok_bind, induction,
        translateEach, enclosed]
      cases translateExpr entry.operators none with
      | error failure => rfl
      | ok text =>
          simp only [ok_bind, pure, Except.pure, String.append_assoc]

/-- What the items of a translated segment are made of. -/
theorem elementItems_ok {items : ElementItems} {elementType initial : String}
    (translated : translateElementItems items = .ok (elementType, initial)) :
    (∃ indexes here, items.kept = .functions indexes ∧ elementType = "T_funcref" ∧
      translateEach (fun index : Nat => .ok (toString index ++ "::")) indexes = .ok here ∧
      initial = "ME_functions " ++ here ++ "nil") ∨
    ∃ refType expressions here,
      items.kept = .expressions refType
        (expressions.map fun entry : ConstExpr => keptExpression entry.operators) ∧
      translateRefType refType = .ok elementType ∧
      translateEach (enclosed "(" (")" ++ " ::\n") fun entry : ConstExpr =>
        translateExpr entry.operators none) expressions = .ok here ∧
      initial = here ++ "nil" := by
  have reads := (translateElementItems_succeeds items).mp ⟨_, translated⟩
  cases items with
  | functions items =>
      rw [readable_of_read reads, translateElementItems, elementFunctions_each] at translated
      rcases bind_ok translated with ⟨here, hereTranslated, assembled⟩
      cases assembled
      exact .inl ⟨_, here, rfl, rfl, hereTranslated, rfl⟩
  | expressions refType items =>
      have read : ∀ item ∈ items, ∃ value, item = .ok value := by
        intro item member
        rcases reads.2 item member with ⟨expression, same, _⟩
        exact ⟨expression, same⟩
      rw [readable_of_read read, translateElementItems, elementExpressions_each] at translated
      rcases bind_ok translated with ⟨typeText, typeTranslated, remaining⟩
      rcases bind_ok remaining with ⟨here, hereTranslated, assembled⟩
      cases assembled
      exact .inr ⟨refType, _, here, rfl, typeTranslated, hereTranslated, rfl⟩

private theorem index_ne_closing (index : Nat) (rest otherRest : List Char) :
    (toString index ++ "::").toList ++ rest ≠ "nil".toList ++ otherRest := by
  have closing : "nil".toList = ['n', 'i', 'l'] := String.toList_ofList
  intro same
  cases digits : (toString index).toList with
  | nil =>
      rw [Nat.toString_eq_repr, Nat.toList_repr] at digits
      exact Nat.toDigits_ne_nil digits
  | cons digit others =>
      have isDigit := toList_toString_nat_isDigit index digit (by rw [digits]; exact List.mem_cons_self)
      simp only [String.toList_append, digits, closing, List.cons_append, List.cons.injEq] at same
      rw [same.1] at isDigit
      exact absurd isDigit (by decide)

private theorem parenthesis_ne_closing {α : Type} {translate : α → Outcome String} {back : String}
    {value : α} (translated : enclosed "(" back translate value = .ok text)
    (rest otherRest : List Char) : text.toList ++ rest ≠ "nil".toList ++ otherRest := by
  rcases enclosed_starts translated with ⟨here, _, spelled⟩
  rw [spelled, List.append_assoc]
  exact words_ne (by decide) _ _

/-- The expressions of a segment are not function indices. -/
private theorem functions_ne_expressions {expressions : List ConstExpr}
    {back : String} {translate : ConstExpr → Outcome String}
    (translated : translateEach (enclosed "(" back translate) expressions = .ok text)
    (rest otherRest : List Char) :
    "ME_functions ".toList ++ rest ≠ text.toList ++ ("nil".toList ++ otherRest) := by
  cases expressions with
  | nil =>
      cases translated
      exact words_ne (by decide) rest otherRest
  | cons entry others =>
      rcases bind_ok translated with ⟨here, hereTranslated, remaining⟩
      rcases bind_ok remaining with ⟨later, _, assembled⟩
      cases assembled
      rcases enclosed_starts hereTranslated with ⟨_, _, spelled⟩
      rw [String.toList_append, spelled, List.append_assoc, List.append_assoc]
      exact words_ne (by decide) _ _

private theorem indexes_cancel {indexes others : List Nat}
    (translated : translateEach (fun index : Nat => .ok (toString index ++ "::")) indexes = .ok text)
    (otherTranslated :
      translateEach (fun index : Nat => .ok (toString index ++ "::")) others = .ok other)
    (equal : text.toList ++ ("nil".toList ++ rest) = other.toList ++ ("nil".toList ++ otherRest)) :
    indexes = others ∧ rest = otherRest := by
  have closed : ∀ (rest : List Char) (index : Nat) (text : String) (behind : List Char),
      Always index → (.ok (toString index ++ "::") : Outcome String) = .ok text →
        text.toList ++ behind ≠ "nil".toList ++ rest := by
    rintro rest index text behind _ ⟨⟩
    exact index_ne_closing index behind rest
  rcases translateEach_cancel (natural_keeps (endsNumeral_word rfl)) (fun _ _ => trivial)
    (fun _ _ => trivial) (closed rest) (closed otherRest) translated otherTranslated equal with
    ⟨same, rests⟩
  rw [List.map_id, List.map_id] at same
  exact ⟨same, List.append_cancel_left rests⟩

private theorem expressions_cancel {expressions others : List ConstExpr}
    (translated : translateEach (enclosed "(" (")" ++ " ::\n") fun entry : ConstExpr =>
      translateExpr entry.operators none) expressions = .ok text)
    (otherTranslated : translateEach (enclosed "(" (")" ++ " ::\n") fun entry : ConstExpr =>
      translateExpr entry.operators none) others = .ok other)
    (equal : text.toList ++ ("nil".toList ++ rest) = other.toList ++ ("nil".toList ++ otherRest)) :
    (expressions.map fun entry => keptExpression entry.operators) =
      (others.map fun entry => keptExpression entry.operators) ∧ rest = otherRest := by
  have keeps : Keeps Always (fun entry : ConstExpr => translateExpr entry.operators none)
      (fun entry => keptExpression entry.operators) :=
    { same := expression_keeps.same
      cancel := expression_keeps.cancel }
  rcases translateEach_cancel (keeps.enclose "(" (")" ++ " ::\n")) (fun _ _ => trivial)
    (fun _ _ => trivial)
    (fun _ _ behind _ here => parenthesis_ne_closing here behind rest)
    (fun _ _ behind _ here => parenthesis_ne_closing here behind otherRest)
    translated otherTranslated equal with ⟨same, rests⟩
  exact ⟨same, List.append_cancel_left rests⟩

theorem elementItems_same {first second : ElementItems} {texts others : String × String}
    (translated : translateElementItems first = .ok texts)
    (otherTranslated : translateElementItems second = .ok others)
    (same : first.kept = second.kept) : texts = others := by
  rcases texts with ⟨elementType, initial⟩
  rcases others with ⟨otherType, otherInitial⟩
  rcases elementItems_ok translated with
    ⟨indexes, here, kept, rfl, hereTranslated, rfl⟩ |
    ⟨refType, expressions, here, kept, typeTranslated, hereTranslated, rfl⟩ <;>
    rcases elementItems_ok otherTranslated with
      ⟨otherIndexes, otherHere, otherKept, rfl, otherHereTranslated, rfl⟩ |
      ⟨otherRef, others, otherHere, otherKept, otherTypeTranslated, otherHereTranslated, rfl⟩ <;>
    rw [kept, otherKept] at same
  · cases same
    rw [hereTranslated] at otherHereTranslated
    cases otherHereTranslated
    rfl
  · cases same
  · cases same
  · rcases KeptItems.expressions.inj same with ⟨rfl, sameExpressions⟩
    have keeps : Keeps Always (fun entry : ConstExpr => translateExpr entry.operators none)
        (fun entry => keptExpression entry.operators) :=
      { same := expression_keeps.same
        cancel := expression_keeps.cancel }
    rw [translateEach_same (keeps.enclose "(" (")" ++ " ::\n")) hereTranslated
      otherHereTranslated sameExpressions]
    rw [typeTranslated] at otherTypeTranslated
    cases otherTypeTranslated
    rfl

theorem elementItems_cancel {first second : ElementItems}
    {elementType initial otherType otherInitial : String} (separator : List Char)
    (translated : translateElementItems first = .ok (elementType, initial))
    (otherTranslated : translateElementItems second = .ok (otherType, otherInitial))
    (equal : elementType.toList ++ (separator ++ (initial.toList ++ rest)) =
      otherType.toList ++ (separator ++ (otherInitial.toList ++ otherRest))) :
    first.kept = second.kept ∧ rest = otherRest := by
  have funcref : translateRefType .funcref = .ok "T_funcref" := rfl
  rcases elementItems_ok translated with
    ⟨indexes, here, kept, rfl, hereTranslated, rfl⟩ |
    ⟨refType, expressions, here, kept, typeTranslated, hereTranslated, rfl⟩ <;>
    rcases elementItems_ok otherTranslated with
      ⟨otherIndexes, otherHere, otherKept, rfl, otherHereTranslated, rfl⟩ |
      ⟨otherRef, others, otherHere, otherKept, otherTypeTranslated, otherHereTranslated, rfl⟩ <;>
    simp only [String.toList_append, List.append_assoc] at equal
  · have initials := List.append_cancel_left (List.append_cancel_left equal)
    rcases indexes_cancel hereTranslated otherHereTranslated (List.append_cancel_left initials) with
      ⟨rfl, rests⟩
    exact ⟨by rw [kept, otherKept], rests⟩
  · have behind := (refType_keeps.cancel trivial trivial funcref otherTypeTranslated equal).2
    exact absurd (List.append_cancel_left behind)
      (functions_ne_expressions otherHereTranslated _ _)
  · have behind := (refType_keeps.cancel trivial trivial typeTranslated funcref equal).2
    exact absurd (List.append_cancel_left behind).symm
      (functions_ne_expressions hereTranslated _ _)
  · rcases refType_keeps.cancel trivial trivial typeTranslated otherTypeTranslated equal with
      ⟨sameType, behind⟩
    rcases expressions_cancel hereTranslated otherHereTranslated
      (List.append_cancel_left behind) with ⟨sameExpressions, rests⟩
    rw [id, id] at sameType
    exact ⟨by rw [kept, otherKept, sameType, sameExpressions], rests⟩

theorem element_keeps : Keeps Always translateElement Element.kept := by
  constructor
  · intro first second text other translated otherTranslated same
    rcases bind_ok translated with ⟨mode, modeTranslated, remaining⟩
    rcases bind_ok remaining with ⟨⟨elementType, initial⟩, itemsTranslated, assembled⟩
    rcases bind_ok otherTranslated with ⟨otherMode, otherModeTranslated, otherRemaining⟩
    rcases bind_ok otherRemaining with
      ⟨⟨otherType, otherInitial⟩, otherItemsTranslated, otherAssembled⟩
    cases assembled
    cases otherAssembled
    rcases Prod.mk.inj same with ⟨sameMode, sameItems⟩
    have texts := elementItems_same itemsTranslated otherItemsTranslated sameItems
    cases texts
    rw [elementMode_keeps.same modeTranslated otherModeTranslated sameMode]
  · intro first second text other rest otherRest _ _ translated otherTranslated equal
    rcases bind_ok translated with ⟨mode, modeTranslated, remaining⟩
    rcases bind_ok remaining with ⟨⟨elementType, initial⟩, itemsTranslated, assembled⟩
    rcases bind_ok otherTranslated with ⟨otherMode, otherModeTranslated, otherRemaining⟩
    rcases bind_ok otherRemaining with
      ⟨⟨otherType, otherInitial⟩, otherItemsTranslated, otherAssembled⟩
    cases assembled
    cases otherAssembled
    simp only [String.toList_append, List.append_assoc] at equal
    have types := List.append_cancel_left (List.append_cancel_left equal)
    rcases elementItems_cancel (";\n".toList ++ "modelem_init :=\n".toList) itemsTranslated
      otherItemsTranslated (by rw [List.append_assoc, List.append_assoc]; exact types) with
      ⟨sameItems, behind⟩
    rcases elementMode_keeps.cancel trivial trivial modeTranslated otherModeTranslated
      (List.append_cancel_left (List.append_cancel_left behind)) with ⟨sameMode, rests⟩
    refine ⟨?_, List.append_cancel_left (List.append_cancel_left rests)⟩
    rw [Element.kept, Element.kept, sameMode, sameItems]

/-! ## Types -/

/-- The function type of an entry of the type section. Other kinds have none. -/
def SubType.funcType (ty : SubType) : Option FuncType :=
  match ty.compositeType.inner with
  | .func ft => some ft
  | _ => none

/-- What is kept of a group: its function types. -/
def RecGroup.kept (recGroup : RecGroup) : List FuncType :=
  recGroup.types.filterMap SubType.funcType

def translateFuncType (ft : FuncType) : Outcome String := do
  let paramsStr ← translateValueTypes ft.params
  let resultsStr ← translateValueTypes ft.results
  return "Tf (" ++ (paramsStr ++ "nil") ++ ") (" ++ (resultsStr ++ "nil") ++ ")"

theorem valueTypes_each (valTypes : List ValType) :
    translateValueTypes valTypes = translateEach (enclosed "" " :: " translateValueType) valTypes := by
  induction valTypes with
  | nil => rfl
  | cons valType rest induction =>
      rw [translateValueTypes, translateEach, induction, enclosed]
      cases translateValueType valType with
      | error failure => rfl
      | ok text =>
          simp only [ok_bind, pure, Except.pure, String.empty_append, String.append_assoc]

theorem valueTypes_same {first second : List ValType}
    (translated : translateValueTypes first = .ok text)
    (otherTranslated : translateValueTypes second = .ok other) (same : first = second) :
    text = other := by
  rw [same, otherTranslated] at translated
  exact (Except.ok.inj translated).symm

/-- A list of value types ends where it is sealed. -/
theorem valueTypes_cancel {first second : List ValType}
    (translated : translateValueTypes first = .ok text)
    (otherTranslated : translateValueTypes second = .ok other)
    (equal : text.toList ++ ("nil".toList ++ rest) = other.toList ++ ("nil".toList ++ otherRest)) :
    first = second ∧ rest = otherRest := by
  have closed : ∀ (rest : List Char) (valType : ValType) (text : String) (behind : List Char),
      Always valType → enclosed "" " :: " translateValueType valType = .ok text →
        text.toList ++ behind ≠ "nil".toList ++ rest := by
    intro rest valType text behind _ here
    rcases enclosed_starts here with ⟨word, wordTranslated, spelled⟩
    have nothing : "".toList = [] := rfl
    rw [spelled, nothing, List.nil_append, List.append_assoc]
    cases valType with
    | ref refType =>
        rcases bind_ok wordTranslated with ⟨refText, _, assembled⟩
        cases assembled
        rw [String.toList_append, List.append_assoc]
        exact words_ne (by decide) _ _
    | i32 | i64 | f32 | f64 | v128 =>
        cases wordTranslated
        exact words_ne (by decide) _ _
  rw [valueTypes_each] at translated otherTranslated
  rcases translateEach_cancel (valueType_keeps.enclose "" " :: ") (fun _ _ => trivial)
    (fun _ _ => trivial) (closed rest) (closed otherRest) translated otherTranslated equal with
    ⟨same, rests⟩
  rw [List.map_id, List.map_id] at same
  exact ⟨same, List.append_cancel_left rests⟩

theorem funcType_keeps : Keeps Always translateFuncType id := by
  constructor
  · intro first second text other translated otherTranslated same
    rw [id, id] at same
    rw [same, otherTranslated] at translated
    exact (Except.ok.inj translated).symm
  · intro first second text other rest otherRest _ _ translated otherTranslated equal
    rcases bind_ok translated with ⟨params, paramsTranslated, remaining⟩
    rcases bind_ok remaining with ⟨results, resultsTranslated, assembled⟩
    rcases bind_ok otherTranslated with ⟨otherParams, otherParamsTranslated, otherRemaining⟩
    rcases bind_ok otherRemaining with ⟨otherResults, otherResultsTranslated, otherAssembled⟩
    cases assembled
    cases otherAssembled
    simp only [String.toList_append, List.append_assoc] at equal
    rcases valueTypes_cancel paramsTranslated otherParamsTranslated
      (List.append_cancel_left equal) with ⟨sameParams, behind⟩
    rcases valueTypes_cancel resultsTranslated otherResultsTranslated
      (List.append_cancel_left behind) with ⟨sameResults, rests⟩
    refine ⟨?_, List.append_cancel_left rests⟩
    cases first
    cases second
    cases sameParams
    cases sameResults
    rfl

theorem functionType_each (recGroup : RecGroup) :
    translateFunctionType recGroup = translateEach translateFuncType recGroup.kept := by
  rw [translateFunctionType, RecGroup.kept]
  induction recGroup.types with
  | nil => rfl
  | cons ty rest induction =>
      rw [translateSubTypes, induction, List.filterMap_cons, SubType.funcType, translateSubType]
      cases ty.compositeType.inner with
      | func ft => rfl
      | array _ | struct _ | cont _ =>
          simp only [ok_bind]
          cases translateEach translateFuncType (rest.filterMap SubType.funcType) with
          | error failure => rfl
          | ok text => simp [ok_bind, pure, Except.pure]

/-- The types of a group run together, up to the end of their line. -/
theorem functionTypeLine_keeps :
    Keeps Always (enclosed "    " listExt translateFunctionType) RecGroup.kept := by
  constructor
  · intro first second text other translated otherTranslated same
    rw [enclosed, functionType_each] at translated otherTranslated
    rw [same, otherTranslated] at translated
    exact (Except.ok.inj translated).symm
  · intro first second text other rest otherRest _ _ translated otherTranslated equal
    have closed : ∀ (rest : List Char) (ft : FuncType) (text : String) (behind : List Char),
        Always ft → translateFuncType ft = .ok text →
          text.toList ++ behind ≠ listExt.toList ++ rest := by
      intro rest ft text behind _ here
      rcases bind_ok here with ⟨params, _, remaining⟩
      rcases bind_ok remaining with ⟨results, _, assembled⟩
      cases assembled
      simp only [String.toList_append, List.append_assoc]
      exact words_ne (by decide) _ _
    rcases enclosed_starts translated with ⟨here, hereTranslated, spelled⟩
    rcases enclosed_starts otherTranslated with ⟨otherHere, otherHereTranslated, otherSpelled⟩
    rw [functionType_each] at hereTranslated otherHereTranslated
    rw [spelled, otherSpelled] at equal
    simp only [List.append_assoc] at equal
    rcases translateEach_cancel funcType_keeps (fun _ _ => trivial) (fun _ _ => trivial)
      (closed rest) (closed otherRest) hereTranslated otherHereTranslated
      (List.append_cancel_left equal) with ⟨same, rests⟩
    rw [List.map_id, List.map_id] at same
    exact ⟨same, List.append_cancel_left rests⟩

/-! ## Functions -/

/-- The types of the declared locals, one for each local. -/
def FunctionBody.declaredLocals (body : FunctionBody) : Option (List ValType) :=
  match body.locals with
  | .ok declared =>
      some ((readable declared).flatMap fun (reps, valType) => List.replicate reps valType)
  | .error _ => none

theorem valueTypes_replicate {valType : ValType}
    (translated : translateValueType valType = .ok text) {rest : List ValType} {restText : String}
    (restTranslated : translateValueTypes rest = .ok restText) (reps : Nat) :
    translateValueTypes (List.replicate reps valType ++ rest) =
      .ok (String.join (List.replicate reps (text ++ " :: ")) ++ restText) := by
  induction reps with
  | zero => simp [restTranslated, String.join]
  | succ reps induction =>
      rw [List.replicate_succ, List.cons_append, translateValueTypes, translated, ok_bind, induction,
        ok_bind, List.replicate_succ, String.join_cons]
      simp only [pure, Except.pure, String.append_assoc]

theorem localGroups_valueTypes {declared : List (Except BinaryReaderError (Nat × ValType))}
    (translated : translateLocalGroups declared = .ok text) :
    translateValueTypes
      ((readable declared).flatMap fun (reps, valType) => List.replicate reps valType) = .ok text := by
  induction declared generalizing text with
  | nil => exact translated
  | cons item rest induction =>
      rcases bind_ok translated with ⟨⟨reps, valType⟩, read, remaining⟩
      rcases bind_ok remaining with ⟨typeText, typeTranslated, later⟩
      rcases bind_ok later with ⟨restText, restTranslated, assembled⟩
      cases assembled
      cases item with
      | error error => cases read
      | ok group =>
          cases read
          rw [readable_ok, List.flatMap_cons]
          exact valueTypes_replicate typeTranslated (induction restTranslated) reps

/-- Locals that cannot be read are printed like none. -/
theorem locals_valueTypes {body : FunctionBody} (translated : translateLocals body = .ok text) :
    ∃ here, translateValueTypes (body.declaredLocals.getD []) = .ok here ∧ text = here ++ "nil" := by
  rw [translateLocals] at translated
  cases locals : body.locals with
  | error error =>
      rw [locals] at translated
      cases translated
      exact ⟨"", by rw [FunctionBody.declaredLocals, locals]; rfl, rfl⟩
  | ok declared =>
      rw [locals] at translated
      rcases bind_ok translated with ⟨here, groupsTranslated, assembled⟩
      cases assembled
      refine ⟨here, ?_, rfl⟩
      rw [FunctionBody.declaredLocals, locals]
      exact localGroups_valueTypes groupsTranslated

/-- A function with the name and the type index it is emitted with. -/
structure FunctionEntry where
  name : String
  typeIndex : Nat
  body : FunctionBody

/-- The definition of a function without local names. -/
def FunctionEntry.translate (entry : FunctionEntry) : Outcome String := do
  let modfuncLocals ← translateLocals entry.body
  let operatorsReader ← Outcome.ofItem entry.body.operators
  let modfuncBody ← translateExpr operatorsReader none
  return "Definition " ++ entry.name ++ " : module_func := " ++ lcb ++
    "  modfunc_type := " ++ toString entry.typeIndex ++ "%N;\n" ++
    "  modfunc_locals := " ++ modfuncLocals ++ ";\n" ++
    "  modfunc_body :=\n" ++ modfuncBody ++ ";\n" ++ rcbDot ++ "\n"

/-- What is kept of a function besides its name. -/
structure KeptFunction where
  typeIndex : Nat
  locals : List ValType
  body : Rendition
  deriving DecidableEq, Repr

def FunctionEntry.kept (entry : FunctionEntry) : String × KeptFunction :=
  (entry.name,
    { typeIndex := entry.typeIndex
      locals := entry.body.declaredLocals.getD []
      body := (bodyRendition entry.body).canonical })

/-- A name ends where the translator puts a blank behind it. -/
def FunctionEntry.Legible (entry : FunctionEntry) : Prop :=
  Lacks ' ' entry.name

theorem FunctionEntry.translate_ok {entry : FunctionEntry}
    (translated : entry.translate = .ok text) :
    ∃ locals items body, translateValueTypes entry.kept.2.locals = .ok locals ∧
      translateExpr items none = .ok body ∧ entry.kept.2.body = keptExpression items ∧
      text = "Definition " ++ entry.name ++ " : module_func := " ++ lcb ++
        "  modfunc_type := " ++ toString entry.typeIndex ++ "%N;\n" ++
        "  modfunc_locals := " ++ (locals ++ "nil") ++ ";\n" ++
        "  modfunc_body :=\n" ++ body ++ ";\n" ++ rcbDot ++ "\n" := by
  rcases bind_ok translated with ⟨locals, localsTranslated, remaining⟩
  rcases bind_ok remaining with ⟨items, read, later⟩
  rcases bind_ok later with ⟨body, bodyTranslated, assembled⟩
  cases assembled
  rcases locals_valueTypes localsTranslated with ⟨here, hereTranslated, rfl⟩
  refine ⟨here, items, body, hereTranslated, bodyTranslated, ?_, rfl⟩
  rw [FunctionEntry.kept, bodyRendition]
  cases operators : entry.body.operators with
  | error error =>
      rw [operators] at read
      cases read
  | ok list =>
      rw [operators] at read
      cases read
      rfl

theorem function_keeps :
    Keeps FunctionEntry.Legible FunctionEntry.translate FunctionEntry.kept := by
  constructor
  · intro first second text other translated otherTranslated same
    rcases FunctionEntry.translate_ok translated with
      ⟨locals, items, body, localsTranslated, bodyTranslated, bodyKept, rfl⟩
    rcases FunctionEntry.translate_ok otherTranslated with
      ⟨otherLocals, others, otherBody, otherLocalsTranslated, otherBodyTranslated, otherBodyKept, rfl⟩
    have sameName := congrArg Prod.fst same
    have sameType := congrArg (fun kept => kept.2.typeIndex) same
    have sameLocals := congrArg (fun kept => kept.2.locals) same
    have sameBody := congrArg (fun kept => kept.2.body) same
    rw [bodyKept, otherBodyKept] at sameBody
    rw [valueTypes_same localsTranslated otherLocalsTranslated sameLocals,
      expression_keeps.same bodyTranslated otherBodyTranslated sameBody]
    simp only [FunctionEntry.kept] at sameName sameType
    rw [sameName, sameType]
  · intro first second text other rest otherRest legible otherLegible translated otherTranslated
      equal
    rcases FunctionEntry.translate_ok translated with
      ⟨locals, items, body, localsTranslated, bodyTranslated, bodyKept, rfl⟩
    rcases FunctionEntry.translate_ok otherTranslated with
      ⟨otherLocals, others, otherBody, otherLocalsTranslated, otherBodyTranslated, otherBodyKept, rfl⟩
    simp only [String.toList_append, List.append_assoc] at equal
    rcases name_cancel legible otherLegible (List.append_cancel_left equal) with
      ⟨sameName, behindName⟩
    rcases numeral_cancel (endsNumeral_word rfl)
      (List.append_cancel_left (List.append_cancel_left (List.append_cancel_left behindName))) with
      ⟨sameType, behindType⟩
    rcases valueTypes_cancel localsTranslated otherLocalsTranslated
      (List.append_cancel_left behindType) with ⟨sameLocals, behindLocals⟩
    rcases expression_keeps.cancel trivial trivial bodyTranslated otherBodyTranslated
      (List.append_cancel_left (List.append_cancel_left behindLocals)) with ⟨sameBody, rests⟩
    rw [← bodyKept, ← otherBodyKept] at sameBody
    refine ⟨?_, List.append_cancel_left (List.append_cancel_left (List.append_cancel_left rests))⟩
    simp only [FunctionEntry.kept] at sameLocals sameBody ⊢
    rw [sameName, sameType, sameLocals, sameBody]

end Inference.WasmToV

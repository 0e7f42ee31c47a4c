import Mathlib.Data.Char
import Inference.Foundation.Decimal
import Inference.WasmToV.Support

/-! # Emitted terms

The Rocq term behind an operator's text: a head and the immediates that are
printed. Two terms with the same text are equal, so two operators share a text
exactly when they agree on everything the translator prints.
-/

namespace Inference.WasmToV

open Foundation

/-! ## Heads -/

inductive FixedOpcode where
  | brTableEmpty | memorySize | memoryGrow | memoryCopy | memoryFill
  deriving DecidableEq, Repr

inductive OpenerOpcode where
  | block | loop | if_ | forall_ | exists_ | assume | unique
  deriving DecidableEq, Repr

/-- Operators with one natural number. -/
inductive NumberOpcode where
  | br | brIf | call | localGet | localSet | localTee | globalGet | globalSet
  | f32Const | f64Const | memoryInit | dataDrop | refFunc | tableFill | tableGet
  | tableSet | tableGrow | tableSize
  deriving DecidableEq, Repr

/-- Operators with one integer. -/
inductive IntegerOpcode where
  | i32Const | i64Const | v128Const
  deriving DecidableEq, Repr

/-- What a text says before its immediates. -/
inductive Head where
  | plain (opcode : PlainOpcode)
  | fixed (opcode : FixedOpcode)
  | opener (opcode : OpenerOpcode)
  | number (opcode : NumberOpcode)
  | integer (opcode : IntegerOpcode)
  | callIndirect
  | brTable
  | memory (opcode : MemoryOpcode)
  | storeLane (opcode : MemoryLaneOpcode)
  | lane (opcode : LaneOpcode)
  deriving DecidableEq, Repr

def FixedOpcode.text : FixedOpcode → String
  | .brTableEmpty => "BI_br_table"
  | .memorySize => "BI_memory_size"
  | .memoryGrow => "BI_memory_grow"
  | .memoryCopy => "BI_memory_copy"
  | .memoryFill => "BI_memory_fill"

def OpenerOpcode.text : OpenerOpcode → String
  | .block => "BI_block ("
  | .loop => "BI_loop ("
  | .if_ => "BI_if ("
  | .forall_ => "BI_forall ("
  | .exists_ => "BI_exists ("
  | .assume => "BI_assume ("
  | .unique => "BI_unique ("

def NumberOpcode.text : NumberOpcode → String
  | .br => "BI_br "
  | .brIf => "BI_br_if "
  | .call => "BI_call "
  | .localGet => "BI_local_get "
  | .localSet => "BI_local_set "
  | .localTee => "BI_local_tee "
  | .globalGet => "BI_global_get "
  | .globalSet => "BI_global_set "
  | .f32Const => "BI_const_num (VAL_float32 "
  | .f64Const => "BI_const_num (VAL_float64 "
  | .memoryInit => "BI_memory_init "
  | .dataDrop => "BI_data_drop "
  | .refFunc => "BI_ref_func "
  | .tableFill => "BI_table_fill "
  | .tableGet => "BI_table_get "
  | .tableSet => "BI_table_set "
  | .tableGrow => "BI_table_grow "
  | .tableSize => "BI_table_size "

def IntegerOpcode.text : IntegerOpcode → String
  | .i32Const => "BI_const_num (Vi32 "
  | .i64Const => "BI_const_num (Vi64 "
  | .v128Const => "BI_const_vec "

def Head.text : Head → String
  | .plain opcode => plainText opcode
  | .fixed opcode => opcode.text
  | .opener opcode => opcode.text
  | .number opcode => opcode.text
  | .integer opcode => opcode.text
  | .callIndirect => "BI_call_indirect "
  | .brTable => "BI_br_table ("
  | .memory opcode => memoryHead opcode
  | .storeLane opcode => memoryLaneHead opcode
  | .lane opcode => laneHead opcode

/-- Texts without immediates are told apart only together with the start of the
list separator behind them. -/
def Head.ending : Head → List Char
  | .plain _ | .fixed _ => [' ', ':']
  | _ => []

def Head.word (head : Head) : List Char :=
  head.text.toList ++ head.ending

/-- The heads in the order of their words. A head is missing here when another
one has the same word. -/
def sortedHeads : List Head :=
  [.opener .assume, .plain .f32Add, .plain .f32Copysign, .plain .f32Div,
    .plain .f32Max, .plain .f32Min, .plain .f32Mul, .plain .f32Sub, .plain .f64Add,
    .plain .f64Copysign, .plain .f64Div, .plain .f64Max, .plain .f64Min,
    .plain .f64Mul, .plain .f64Sub, .plain .i32DivS, .plain .i32DivU, .plain .i32RemS,
    .plain .i32RemU, .plain .i32ShrS, .plain .i32ShrU, .plain .i32Add, .plain .i32And,
    .plain .i32Mul, .plain .i32Or, .plain .i32Rotl, .plain .i32Rotr, .plain .i32Shl,
    .plain .i32Sub, .plain .i32Xor, .plain .i64DivS, .plain .i64DivU, .plain .i64RemS,
    .plain .i64RemU, .plain .i64ShrS, .plain .i64ShrU, .plain .i64Add, .plain .i64And,
    .plain .i64Mul, .plain .i64Or, .plain .i64Rotl, .plain .i64Rotr, .plain .i64Shl,
    .plain .i64Sub, .plain .i64Xor, .opener .block, .number .br, .number .brIf,
    .brTable, .fixed .brTableEmpty, .number .call, .callIndirect, .number .f32Const,
    .number .f64Const, .integer .i32Const, .integer .i64Const, .integer .v128Const,
    .plain .f32ConvertI32S, .plain .f32ConvertI32U, .plain .f32ConvertI64S,
    .plain .f32ConvertI64U, .plain .f32DemoteF64, .plain .f32ReinterpretI32,
    .plain .f64ConvertI32S, .plain .f64ConvertI32U, .plain .f64ConvertI64S,
    .plain .f64ConvertI64U, .plain .f64PromoteF32, .plain .f64ReinterpretI64,
    .plain .i32ReinterpretF32, .plain .i32TruncF32S, .plain .i32TruncF32U,
    .plain .i32TruncF64S, .plain .i32TruncF64U, .plain .i32WrapI64,
    .plain .i64ExtendI32S, .plain .i64ExtendI32U, .plain .i64ReinterpretF64,
    .plain .i64TruncF32S, .plain .i64TruncF32U, .plain .i64TruncF64S,
    .plain .i64TruncF64U, .number .dataDrop, .plain .drop, .opener .exists_,
    .lane .f32x4ExtractLane, .lane .f64x2ExtractLane, .lane .i16x8ExtractLaneS,
    .lane .i16x8ExtractLaneU, .lane .i32x4ExtractLane, .lane .i64x2ExtractLane,
    .lane .i8x16ExtractLaneS, .lane .i8x16ExtractLaneU, .opener .forall_,
    .number .globalGet, .number .globalSet, .opener .if_, .memory .f32Load,
    .memory .f64Load, .memory .i32Load16S, .memory .i32Load16U, .memory .i32Load8S,
    .memory .i32Load8U, .memory .i32Load, .memory .i64Load16S, .memory .i64Load16U,
    .memory .i64Load32S, .memory .i64Load32U, .memory .i64Load8S, .memory .i64Load8U,
    .memory .i64Load, .memory .v128Load16x4S, .memory .v128Load16x4U,
    .memory .v128Load32x2S, .memory .v128Load32x2U, .memory .v128Load8x8S,
    .memory .v128Load8x8U, .memory .v128Load16Splat, .plain .i16x8Splat,
    .memory .v128Load32Splat, .plain .i32x4Splat, .memory .v128Load64Splat,
    .plain .i64x2Splat, .memory .v128Load8Splat, .plain .i8x16Splat,
    .memory .v128Load32Zero, .memory .v128Load64Zero, .number .localGet,
    .number .localSet, .number .localTee, .opener .loop, .fixed .memoryCopy,
    .fixed .memoryFill, .fixed .memoryGrow, .number .memoryInit, .fixed .memorySize,
    .plain .nop, .number .refFunc, .plain .refIsNull, .plain .f32Eq, .plain .f32Ge,
    .plain .f32Gt, .plain .f32Le, .plain .f32Lt, .plain .f32Ne, .plain .f64Eq,
    .plain .f64Ge, .plain .f64Gt, .plain .f64Le, .plain .f64Lt, .plain .f64Ne,
    .plain .i32GeS, .plain .i32GeU, .plain .i32GtS, .plain .i32GtU, .plain .i32LeS,
    .plain .i32LeU, .plain .i32LtS, .plain .i32LtU, .plain .i32Eq, .plain .i32Ne,
    .plain .i64GeS, .plain .i64GeU, .plain .i64GtS, .plain .i64GtU, .plain .i64LeS,
    .plain .i64LeU, .plain .i64LtS, .plain .i64LtU, .plain .i64Eq, .plain .i64Ne,
    .lane .f32x4ReplaceLane, .lane .f64x2ReplaceLane, .lane .i16x8ReplaceLane,
    .lane .i32x4ReplaceLane, .lane .i64x2ReplaceLane, .lane .i8x16ReplaceLane,
    .plain .return_, .plain .select, .memory .f32Store, .memory .f64Store,
    .memory .i32Store16, .memory .i32Store8, .memory .i32Store, .memory .i64Store16,
    .memory .i64Store32, .memory .i64Store8, .memory .i64Store,
    .storeLane .v128Store16Lane, .storeLane .v128Store32Lane,
    .storeLane .v128Store64Lane, .storeLane .v128Store8Lane, .number .tableFill,
    .number .tableGet, .number .tableGrow, .number .tableSet, .number .tableSize,
    .plain .i32Eqz, .plain .i64Eqz, .opener .unique, .plain .f32Abs, .plain .f32Ceil,
    .plain .f32Floor, .plain .f32Nearest, .plain .f32Neg, .plain .f32Sqrt,
    .plain .f32Trunc, .plain .f64Abs, .plain .f64Ceil, .plain .f64Floor,
    .plain .f64Nearest, .plain .f64Neg, .plain .f64Sqrt, .plain .f64Trunc,
    .plain .i32Clz, .plain .i32Ctz, .plain .i32Popcnt, .plain .i64Clz, .plain .i64Ctz,
    .plain .i64Popcnt, .plain .unreachable, .plain .i32Uzumaki, .plain .i64Uzumaki]

private theorem diverges_literals {first second firstEnding secondEnding : List Char}
    (checked : DivergesBelow.check (first ++ firstEnding) (second ++ secondEnding) = true) :
    DivergesBelow ((String.ofList first).toList ++ firstEnding)
      ((String.ofList second).toList ++ secondEnding) := by
  rw [String.toList_ofList, String.toList_ofList]
  exact .of_check checked

theorem sortedHeads_diverge :
    sortedHeads.IsChain fun first second => DivergesBelow first.word second.word := by
  unfold sortedHeads
  repeat' first
    | refine .cons_cons (diverges_literals (by decide +kernel)) ?_
    | exact List.isChain_singleton _

/-! ## Block types -/

/-- The block types that have a text, apart from the index of a function type. -/
inductive BlockHead where
  | empty | funcType | i32 | i64 | f32 | f64 | v128 | funcref | externref
  deriving DecidableEq, Repr

namespace BlockHead

def text : BlockHead → String
  | .empty => "BT_valtype None"
  | .funcType => "BT_id "
  | .i32 => "BT_valtype (Some (T_num T_i32))"
  | .i64 => "BT_valtype (Some (T_num T_i64))"
  | .f32 => "BT_valtype (Some (T_num T_f32))"
  | .f64 => "BT_valtype (Some (T_num T_f64))"
  | .v128 => "BT_valtype (Some (T_vec T_v128))"
  | .funcref => "BT_valtype (Some (T_ref T_funcref))"
  | .externref => "BT_valtype (Some (T_ref T_externref))"

def word (head : BlockHead) : List Char :=
  head.text.toList ++ []

def sorted : List BlockHead :=
  [.funcType, .f32, .f64, .i32, .i64, .externref, .funcref, .v128, .empty]

theorem sorted_diverge :
    sorted.IsChain fun first second => DivergesBelow first.word second.word := by
  unfold sorted
  repeat' first
    | refine .cons_cons (diverges_literals (by decide +kernel)) ?_
    | exact List.isChain_singleton _

@[reducible] def Immediates : BlockHead → Type
  | .funcType => Nat
  | _ => Unit

/-- The text behind the word, with the parenthesis that closes it. -/
def immediatesText : (head : BlockHead) → head.Immediates → List Char
  | .funcType, index => (toString index).toList ++ ['%', 'N', ')']
  | .empty, _ | .i32, _ | .i64, _ | .f32, _ | .f64, _ | .v128, _ | .funcref, _
  | .externref, _ => [')']

theorem immediatesText_code (head : BlockHead) : PrefixCode head.immediatesText := by
  cases head with
  | funcType => exact PrefixCode.natural (.of_cons rfl)
  | _ => exact PrefixCode.constant _

end BlockHead

abbrev BlockTerm := (head : BlockHead) × head.Immediates

def BlockTerm.text (term : BlockTerm) : List Char :=
  term.1.word ++ term.1.immediatesText term.2

theorem blockTerm_code : PrefixCode BlockTerm.text := by
  intro first second firstRest secondRest equal
  refine PrefixCode.keyed_cancel BlockHead.immediatesText_code (fun different => ?_)
    (by simpa only [BlockTerm.text, List.append_assoc] using equal)
  exact diverges_of_sorted BlockHead.sorted_diverge
    (by cases first.1 <;> decide) (by cases second.1 <;> decide) different

/-! ## Immediates -/

/-- Offset and alignment, the printed part of a memory argument. -/
structure Access where
  offset : Nat
  align : Nat
  deriving DecidableEq, Repr

def Access.text (access : Access) : List Char :=
  ['M', 'a', ' '] ++ (((toString access.offset).toList ++ ['%', 'N', ' ']) ++
    ((toString access.align).toList ++ ['%', 'N', ')', ' ']))

theorem access_code : PrefixCode Access.text := by
  have offsetEnds : EndsNumeral ['%', 'N', ' '] := .of_cons rfl
  have alignEnds : EndsNumeral ['%', 'N', ')', ' '] := .of_cons rfl
  have fields := PrefixCode.prepend ['M', 'a', ' ']
    ((PrefixCode.natural offsetEnds).pair (PrefixCode.natural alignEnds))
  intro first second firstRest secondRest equal
  obtain ⟨same, rest⟩ := fields (first.offset, first.align) (second.offset, second.align)
    firstRest secondRest equal
  cases first
  cases second
  cases same
  exact ⟨rfl, rest⟩

@[reducible] def Head.Immediates : Head → Type
  | .plain _ | .fixed _ => Unit
  | .opener _ => BlockTerm
  | .number _ | .lane _ => Nat
  | .integer _ => Int
  | .callIndirect => Nat × Nat
  | .brTable => List Nat
  | .memory _ => Access
  | .storeLane _ => Access × Nat

/-- The text between a number and the end of its line. A local is followed by its
name or by the rest of the separator, which is not part of the term. -/
def NumberOpcode.suffix : NumberOpcode → List Char
  | .br | .call | .memoryInit | .dataDrop => [' ', ':', ':', '\n']
  | .localGet | .localSet | .localTee => ['%', 'N', ' ']
  | .f32Const | .f64Const => [')', ' ', ':', ':', '\n']
  | .brIf | .globalGet | .globalSet | .refFunc | .tableFill | .tableGet | .tableSet
  | .tableGrow | .tableSize => ['%', 'N', ' ', ':', ':', '\n']

def IntegerOpcode.suffix : IntegerOpcode → List Char
  | .i32Const | .i64Const => [')', ' ', ':', ':', '\n']
  | .v128Const => [' ', ':', ':', '\n']

/-- The text behind the word of a head: up to the end of the line, but not beyond
the text of an opener. -/
def Head.immediatesText : (head : Head) → head.Immediates → List Char
  | .plain _, _ | .fixed _, _ => [':', '\n']
  | .opener _, block => block.text
  | .number opcode, value => (toString value).toList ++ opcode.suffix
  | .lane _, index => (toString index).toList ++ [' ', ':', ':', '\n']
  | .integer opcode, value => (toString value).toList ++ opcode.suffix
  | .callIndirect, (typeIndex, tableIndex) =>
      ((toString typeIndex).toList ++ [' ']) ++
        ((toString tableIndex).toList ++ [' ', ':', ':', '\n'])
  | .brTable, targets =>
      targets.flatMap (fun target => (toString target).toList ++ [' ', ':', ':', ' ']) ++
        ['n', 'i', 'l', ')', ' ', ':', ':', '\n']
  | .memory _, access => access.text ++ [':', ':', '\n']
  | .storeLane _, (access, index) =>
      access.text ++ ((toString index).toList ++ [' ', ':', ':', '\n'])

theorem numberSuffix_ends (opcode : NumberOpcode) : EndsNumeral opcode.suffix := by
  cases opcode <;> exact .of_cons rfl

theorem integerSuffix_ends (opcode : IntegerOpcode) : EndsNumeral opcode.suffix := by
  cases opcode <;> exact .of_cons rfl

/-- A label list is closed by a word that does not start with a digit. -/
theorem targets_code : PrefixCode (fun targets : List Nat =>
    targets.flatMap (fun target => (toString target).toList ++ [' ', ':', ':', ' ']) ++
      ['n', 'i', 'l', ')', ' ', ':', ':', '\n']) := by
  refine PrefixCode.list (PrefixCode.natural (.of_cons rfl)) fun target firstRest secondRest => ?_
  intro equal
  rw [List.append_assoc] at equal
  have first : 'n' ∈ (toString target).toList := by
    cases digits : (toString target).toList with
    | nil =>
        rw [Nat.toString_eq_repr, Nat.toList_repr] at digits
        exact absurd digits Nat.toDigits_ne_nil
    | cons digit digitsRest =>
        rw [digits] at equal
        rw [(List.cons.inj equal).1]
        exact List.mem_cons_self
  exact absurd (toList_toString_nat_isDigit target 'n' first) (by decide)

theorem immediatesText_code (head : Head) : PrefixCode head.immediatesText := by
  have spaceEnds : EndsNumeral [' '] := .of_cons rfl
  have separatorEnds : EndsNumeral [' ', ':', ':', '\n'] := .of_cons rfl
  cases head with
  | plain _ | fixed _ => exact PrefixCode.constant _
  | opener _ => exact blockTerm_code
  | number opcode => exact PrefixCode.natural (numberSuffix_ends opcode)
  | lane _ => exact PrefixCode.natural separatorEnds
  | integer opcode => exact PrefixCode.integer (integerSuffix_ends opcode)
  | callIndirect =>
      have indices := (PrefixCode.natural spaceEnds).pair (PrefixCode.natural separatorEnds)
      exact indices
  | brTable => exact targets_code
  | memory _ => exact access_code.append _
  | storeLane _ =>
      have accessAndLane := access_code.pair (PrefixCode.natural separatorEnds)
      exact accessAndLane

/-! ## Terms -/

abbrev Term := (head : Head) × head.Immediates

namespace Term

def text (term : Term) : List Char :=
  term.1.word ++ term.1.immediatesText term.2

/-- The line of a term with a head of its own determines the term and what
follows the line. -/
theorem cancel {first second : Term} (firstMember : first.1 ∈ sortedHeads)
    (secondMember : second.1 ∈ sortedHeads) {firstRest secondRest : List Char}
    (equal : first.text ++ firstRest = second.text ++ secondRest) :
    first = second ∧ firstRest = secondRest := by
  refine PrefixCode.keyed_cancel immediatesText_code (fun different => ?_)
    (by simpa only [text, List.append_assoc] using equal)
  exact diverges_of_sorted sortedHeads_diverge firstMember secondMember different

end Term

end Inference.WasmToV

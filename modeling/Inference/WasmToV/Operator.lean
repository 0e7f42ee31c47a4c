import Mathlib.Control.Monad.Basic
import Inference.WasmToV.Wasm

/-! # Operators

The operators of the binary reader, grouped by the immediates they carry. Each
opcode keeps its own constructor.
-/

namespace Inference.WasmToV

/-! ## Opcodes -/

/-- Operators without immediates that the translator supports. The value immediate
of the two uzumaki operators is fixed by the binary reader. -/
inductive PlainOpcode where
  | unreachable | nop | return_ | drop | select | i32Uzumaki | i64Uzumaki | i32Eqz
  | i32Eq | i32Ne | i32LtS | i32LtU | i32GtS | i32GtU | i32LeS | i32LeU | i32GeS
  | i32GeU | i64Eqz | i64Eq | i64Ne | i64LtS | i64LtU | i64GtS | i64GtU | i64LeS
  | i64LeU | i64GeS | i64GeU | f32Eq | f32Ne | f32Lt | f32Gt | f32Le | f32Ge | f64Eq
  | f64Ne | f64Lt | f64Gt | f64Le | f64Ge | i32Clz | i32Ctz | i32Popcnt | i32Add
  | i32Sub | i32Mul | i32DivS | i32DivU | i32RemS | i32RemU | i32And | i32Or | i32Xor
  | i32Shl | i32ShrS | i32ShrU | i32Rotl | i32Rotr | i64Clz | i64Ctz | i64Popcnt
  | i64Add | i64Sub | i64Mul | i64DivS | i64DivU | i64RemS | i64RemU | i64And | i64Or
  | i64Xor | i64Shl | i64ShrS | i64ShrU | i64Rotl | i64Rotr | f32Abs | f32Neg | f32Ceil
  | f32Floor | f32Trunc | f32Nearest | f32Sqrt | f32Add | f32Sub | f32Mul | f32Div
  | f32Min | f32Max | f32Copysign | f64Abs | f64Neg | f64Ceil | f64Floor | f64Trunc
  | f64Nearest | f64Sqrt | f64Add | f64Sub | f64Mul | f64Div | f64Min | f64Max
  | f64Copysign | i32WrapI64 | i32TruncF32S | i32TruncF32U | i32TruncF64S
  | i32TruncF64U | i64ExtendI32S | i64ExtendI32U | i64TruncF32S | i64TruncF32U
  | i64TruncF64S | i64TruncF64U | f32ConvertI32S | f32ConvertI32U | f32ConvertI64S
  | f32ConvertI64U | f32DemoteF64 | f64ConvertI32S | f64ConvertI32U | f64ConvertI64S
  | f64ConvertI64U | f64PromoteF32 | i32ReinterpretF32 | i64ReinterpretF64
  | f32ReinterpretI32 | f64ReinterpretI64 | refIsNull | i8x16Splat | i16x8Splat
  | i32x4Splat | i64x2Splat | f32x4Splat | f64x2Splat
  deriving DecidableEq, Repr

/-- Loads and stores of numbers and vectors. -/
inductive MemoryOpcode where
  | i32Load | i64Load | f32Load | f64Load | i32Load8S | i32Load8U | i32Load16S
  | i32Load16U | i64Load8S | i64Load8U | i64Load16S | i64Load16U | i64Load32S
  | i64Load32U | i32Store | i64Store | f32Store | f64Store | i32Store8 | i32Store16
  | i64Store8 | i64Store16 | i64Store32 | v128Load | v128Load8x8S | v128Load8x8U
  | v128Load16x4S | v128Load16x4U | v128Load32x2S | v128Load32x2U | v128Load8Splat
  | v128Load16Splat | v128Load32Splat | v128Load64Splat | v128Load32Zero
  | v128Load64Zero | v128Store
  deriving DecidableEq, Repr

/-- Vector loads and stores of one lane. -/
inductive MemoryLaneOpcode where
  | v128Load8Lane | v128Load16Lane | v128Load32Lane | v128Load64Lane | v128Store8Lane
  | v128Store16Lane | v128Store32Lane | v128Store64Lane
  deriving DecidableEq, Repr

/-- Lane accesses of a vector. -/
inductive LaneOpcode where
  | i8x16ExtractLaneS | i8x16ExtractLaneU | i8x16ReplaceLane | i16x8ExtractLaneS
  | i16x8ExtractLaneU | i16x8ReplaceLane | i32x4ExtractLane | i32x4ReplaceLane
  | i64x2ExtractLane | i64x2ReplaceLane | f32x4ExtractLane | f32x4ReplaceLane
  | f64x2ExtractLane | f64x2ReplaceLane
  deriving DecidableEq, Repr

/-- Atomic memory operators. -/
inductive AtomicMemoryOpcode where
  | memoryAtomicNotify | memoryAtomicWait32 | memoryAtomicWait64 | i32AtomicLoad
  | i64AtomicLoad | i32AtomicLoad8U | i32AtomicLoad16U | i64AtomicLoad8U
  | i64AtomicLoad16U | i64AtomicLoad32U | i32AtomicStore | i64AtomicStore
  | i32AtomicStore8 | i32AtomicStore16 | i64AtomicStore8 | i64AtomicStore16
  | i64AtomicStore32 | i32AtomicRmwAdd | i64AtomicRmwAdd | i32AtomicRmw8AddU
  | i32AtomicRmw16AddU | i64AtomicRmw8AddU | i64AtomicRmw16AddU | i64AtomicRmw32AddU
  | i32AtomicRmwSub | i64AtomicRmwSub | i32AtomicRmw8SubU | i32AtomicRmw16SubU
  | i64AtomicRmw8SubU | i64AtomicRmw16SubU | i64AtomicRmw32SubU | i32AtomicRmwAnd
  | i64AtomicRmwAnd | i32AtomicRmw8AndU | i32AtomicRmw16AndU | i64AtomicRmw8AndU
  | i64AtomicRmw16AndU | i64AtomicRmw32AndU | i32AtomicRmwOr | i64AtomicRmwOr
  | i32AtomicRmw8OrU | i32AtomicRmw16OrU | i64AtomicRmw8OrU | i64AtomicRmw16OrU
  | i64AtomicRmw32OrU | i32AtomicRmwXor | i64AtomicRmwXor | i32AtomicRmw8XorU
  | i32AtomicRmw16XorU | i64AtomicRmw8XorU | i64AtomicRmw16XorU | i64AtomicRmw32XorU
  | i32AtomicRmwXchg | i64AtomicRmwXchg | i32AtomicRmw8XchgU | i32AtomicRmw16XchgU
  | i64AtomicRmw8XchgU | i64AtomicRmw16XchgU | i64AtomicRmw32XchgU
  | i32AtomicRmwCmpxchg | i64AtomicRmwCmpxchg | i32AtomicRmw8CmpxchgU
  | i32AtomicRmw16CmpxchgU | i64AtomicRmw8CmpxchgU | i64AtomicRmw16CmpxchgU
  | i64AtomicRmw32CmpxchgU
  deriving DecidableEq, Repr

/-- Atomic operators on a global, a table or an array type. -/
inductive AtomicIndexOpcode where
  | globalAtomicGet | globalAtomicSet | globalAtomicRmwAdd | globalAtomicRmwSub
  | globalAtomicRmwAnd | globalAtomicRmwOr | globalAtomicRmwXor | globalAtomicRmwXchg
  | globalAtomicRmwCmpxchg | tableAtomicGet | tableAtomicSet | tableAtomicRmwXchg
  | tableAtomicRmwCmpxchg | arrayAtomicGet | arrayAtomicGetS | arrayAtomicGetU
  | arrayAtomicSet | arrayAtomicRmwAdd | arrayAtomicRmwSub | arrayAtomicRmwAnd
  | arrayAtomicRmwOr | arrayAtomicRmwXor | arrayAtomicRmwXchg | arrayAtomicRmwCmpxchg
  deriving DecidableEq, Repr

/-- Atomic operators on a struct field. -/
inductive AtomicFieldOpcode where
  | structAtomicGet | structAtomicGetS | structAtomicGetU | structAtomicSet
  | structAtomicRmwAdd | structAtomicRmwSub | structAtomicRmwAnd | structAtomicRmwOr
  | structAtomicRmwXor | structAtomicRmwXchg | structAtomicRmwCmpxchg
  deriving DecidableEq, Repr

/-- Operators whose translation is still `todo!()`. -/
inductive UnimplementedOpcode where
  | i32Extend8S | i32Extend16S | i64Extend8S | i64Extend16S | i64Extend32S | refEq
  | structNew | structNewDefault | structGet | structGetS | structGetU | structSet
  | arrayNew | arrayNewDefault | arrayNewFixed | arrayNewData | arrayNewElem | arrayGet
  | arrayGetS | arrayGetU | arraySet | arrayLen | arrayFill | arrayCopy | arrayInitData
  | arrayInitElem | refTestNonNull | refTestNullable | refCastNonNull | refCastNullable
  | brOnCast | brOnCastFail | anyConvertExtern | externConvertAny | refI31 | i31GetS
  | i31GetU | i32TruncSatF32S | i32TruncSatF32U | i32TruncSatF64S | i32TruncSatF64U
  | i64TruncSatF32S | i64TruncSatF32U | i64TruncSatF64S | i64TruncSatF64U | tableInit
  | elemDrop | tableCopy | typedSelect | refNull | returnCall | returnCallIndirect
  | memoryDiscard | i8x16Shuffle | i8x16Swizzle | i8x16Eq | i8x16Ne | i8x16LtS
  | i8x16LtU | i8x16GtS | i8x16GtU | i8x16LeS | i8x16LeU | i8x16GeS | i8x16GeU
  | i16x8Eq | i16x8Ne | i16x8LtS | i16x8LtU | i16x8GtS | i16x8GtU | i16x8LeS | i16x8LeU
  | i16x8GeS | i16x8GeU | i32x4Eq | i32x4Ne | i32x4LtS | i32x4LtU | i32x4GtS | i32x4GtU
  | i32x4LeS | i32x4LeU | i32x4GeS | i32x4GeU | i64x2Eq | i64x2Ne | i64x2LtS | i64x2GtS
  | i64x2LeS | i64x2GeS | f32x4Eq | f32x4Ne | f32x4Lt | f32x4Gt | f32x4Le | f32x4Ge
  | f64x2Eq | f64x2Ne | f64x2Lt | f64x2Gt | f64x2Le | f64x2Ge | v128Not | v128And
  | v128AndNot | v128Or | v128Xor | v128Bitselect | v128AnyTrue | i8x16Abs | i8x16Neg
  | i8x16Popcnt | i8x16AllTrue | i8x16Bitmask | i8x16NarrowI16x8S | i8x16NarrowI16x8U
  | i8x16Shl | i8x16ShrS | i8x16ShrU | i8x16Add | i8x16AddSatS | i8x16AddSatU
  | i8x16Sub | i8x16SubSatS | i8x16SubSatU | i8x16MinS | i8x16MinU | i8x16MaxS
  | i8x16MaxU | i8x16AvgrU | i16x8ExtAddPairwiseI8x16S | i16x8ExtAddPairwiseI8x16U
  | i16x8Abs | i16x8Neg | i16x8Q15MulrSatS | i16x8AllTrue | i16x8Bitmask
  | i16x8NarrowI32x4S | i16x8NarrowI32x4U | i16x8ExtendLowI8x16S
  | i16x8ExtendHighI8x16S | i16x8ExtendLowI8x16U | i16x8ExtendHighI8x16U | i16x8Shl
  | i16x8ShrS | i16x8ShrU | i16x8Add | i16x8AddSatS | i16x8AddSatU | i16x8Sub
  | i16x8SubSatS | i16x8SubSatU | i16x8Mul | i16x8MinS | i16x8MinU | i16x8MaxS
  | i16x8MaxU | i16x8AvgrU | i16x8ExtMulLowI8x16S | i16x8ExtMulHighI8x16S
  | i16x8ExtMulLowI8x16U | i16x8ExtMulHighI8x16U | i32x4ExtAddPairwiseI16x8S
  | i32x4ExtAddPairwiseI16x8U | i32x4Abs | i32x4Neg | i32x4AllTrue | i32x4Bitmask
  | i32x4ExtendLowI16x8S | i32x4ExtendHighI16x8S | i32x4ExtendLowI16x8U
  | i32x4ExtendHighI16x8U | i32x4Shl | i32x4ShrS | i32x4ShrU | i32x4Add | i32x4Sub
  | i32x4Mul | i32x4MinS | i32x4MinU | i32x4MaxS | i32x4MaxU | i32x4DotI16x8S
  | i32x4ExtMulLowI16x8S | i32x4ExtMulHighI16x8S | i32x4ExtMulLowI16x8U
  | i32x4ExtMulHighI16x8U | i64x2Abs | i64x2Neg | i64x2AllTrue | i64x2Bitmask
  | i64x2ExtendLowI32x4S | i64x2ExtendHighI32x4S | i64x2ExtendLowI32x4U
  | i64x2ExtendHighI32x4U | i64x2Shl | i64x2ShrS | i64x2ShrU | i64x2Add | i64x2Sub
  | i64x2Mul | i64x2ExtMulLowI32x4S | i64x2ExtMulHighI32x4S | i64x2ExtMulLowI32x4U
  | i64x2ExtMulHighI32x4U | f32x4Ceil | f32x4Floor | f32x4Trunc | f32x4Nearest
  | f32x4Abs | f32x4Neg | f32x4Sqrt | f32x4Add | f32x4Sub | f32x4Mul | f32x4Div
  | f32x4Min | f32x4Max | f32x4PMin | f32x4PMax | f64x2Ceil | f64x2Floor | f64x2Trunc
  | f64x2Nearest | f64x2Abs | f64x2Neg | f64x2Sqrt | f64x2Add | f64x2Sub | f64x2Mul
  | f64x2Div | f64x2Min | f64x2Max | f64x2PMin | f64x2PMax | i32x4TruncSatF32x4S
  | i32x4TruncSatF32x4U | f32x4ConvertI32x4S | f32x4ConvertI32x4U
  | i32x4TruncSatF64x2SZero | i32x4TruncSatF64x2UZero | f64x2ConvertLowI32x4S
  | f64x2ConvertLowI32x4U | f32x4DemoteF64x2Zero | f64x2PromoteLowF32x4
  | i8x16RelaxedSwizzle | i32x4RelaxedTruncF32x4S | i32x4RelaxedTruncF32x4U
  | i32x4RelaxedTruncF64x2SZero | i32x4RelaxedTruncF64x2UZero | f32x4RelaxedMadd
  | f32x4RelaxedNmadd | f64x2RelaxedMadd | f64x2RelaxedNmadd | i8x16RelaxedLaneselect
  | i16x8RelaxedLaneselect | i32x4RelaxedLaneselect | i64x2RelaxedLaneselect
  | f32x4RelaxedMin | f32x4RelaxedMax | f64x2RelaxedMin | f64x2RelaxedMax
  | i16x8RelaxedQ15mulrS | i16x8RelaxedDotI8x16I7x16S | i32x4RelaxedDotI8x16I7x16AddS
  | tryTable | throw | throwRef | try_ | catch_ | rethrow | delegate | catchAll
  | refI31Shared | callRef | returnCallRef | refAsNonNull | brOnNull | brOnNonNull
  | contNew | contBind | suspend | resume | resumeThrow | switch | i64Add128
  | i64Sub128 | i64MulWideS | i64MulWideU
  deriving DecidableEq, Repr

inductive Ordering where
  | acqRel
  | seqCst
  deriving DecidableEq, Repr

/-! ## Operators -/

/-- Error of the binary reader. -/
structure BinaryReaderError where
  message : String
  offset : Nat
  deriving DecidableEq, Repr

/-- Immediate of a memory access. The maximal alignment is fixed by the opcode. -/
structure MemArg where
  align : Nat
  offset : Nat
  memory : Nat
  deriving DecidableEq, Repr

/-- Label list and default label of a `br_table`. The labels are what their own
reader yields. -/
structure BrTable where
  targets : List (Except BinaryReaderError Nat)
  default : Nat
  deriving DecidableEq, Repr

inductive Operator where
  | plain (opcode : PlainOpcode)
  | block (blockty : BlockType)
  | loop (blockty : BlockType)
  | if_ (blockty : BlockType)
  | forall_ (blockty : BlockType)
  | exists_ (blockty : BlockType)
  | assume (blockty : BlockType)
  | unique (blockty : BlockType)
  | else_
  | end_
  | br (relativeDepth : Nat)
  | brIf (relativeDepth : Nat)
  | brTable (targets : BrTable)
  | call (functionIndex : Nat)
  | callIndirect (typeIndex tableIndex : Nat)
  | localGet (localIndex : Nat)
  | localSet (localIndex : Nat)
  | localTee (localIndex : Nat)
  | globalGet (globalIndex : Nat)
  | globalSet (globalIndex : Nat)
  | memory (opcode : MemoryOpcode) (memarg : MemArg)
  | memoryLane (opcode : MemoryLaneOpcode) (memarg : MemArg) (lane : Nat)
  | lane (opcode : LaneOpcode) (lane : Nat)
  | memorySize (mem : Nat)
  | memoryGrow (mem : Nat)
  | i32Const (value : Int)
  | i64Const (value : Int)
  | f32Const (bits : Nat)
  | f64Const (bits : Nat)
  | v128Const (value : Int)
  | memoryInit (dataIndex mem : Nat)
  | dataDrop (dataIndex : Nat)
  | memoryCopy (dstMem srcMem : Nat)
  | memoryFill (mem : Nat)
  | refFunc (functionIndex : Nat)
  | tableFill (table : Nat)
  | tableGet (table : Nat)
  | tableSet (table : Nat)
  | tableGrow (table : Nat)
  | tableSize (table : Nat)
  | atomicFence
  | atomicMemory (opcode : AtomicMemoryOpcode) (memarg : MemArg)
  | atomicIndex (opcode : AtomicIndexOpcode) (ordering : Ordering) (index : Nat)
  | atomicField (opcode : AtomicFieldOpcode) (ordering : Ordering)
      (structTypeIndex fieldIndex : Nat)
  -- The immediates as the numbers of the binary format, in order.
  | unimplemented (opcode : UnimplementedOpcode) (immediates : List Nat)
  deriving DecidableEq, Repr

/-! ## Reading operators -/

/-- What the operator iterator yields at each step. -/
abbrev OperatorItem := Except BinaryReaderError Operator

/-- A constant expression, as the operators its reader yields. -/
structure ConstExpr where
  operators : List OperatorItem
  deriving Repr

/-- A function body: the local declarations with their repetition counts and
the operators. Each of the two readers may already fail when it is created. -/
structure FunctionBody where
  locals : Except BinaryReaderError (List (Except BinaryReaderError (Nat × ValType)))
  operators : Except BinaryReaderError (List OperatorItem)
  deriving Repr

/-! ## Sections that hold expressions -/

inductive TableInit where
  | refNull
  | expr (expression : ConstExpr)
  deriving Repr

structure Table where
  ty : TableType
  init : TableInit
  deriving Repr

structure Global where
  ty : GlobalType
  initExpr : ConstExpr
  deriving Repr

inductive DataKind where
  | passive
  | active (memoryIndex : Nat) (offsetExpr : ConstExpr)
  deriving Repr

structure Data where
  kind : DataKind
  data : List UInt8
  deriving Repr

inductive ElementKind where
  | passive
  | active (tableIndex : Option Nat) (offsetExpr : ConstExpr)
  | declared
  deriving Repr

inductive ElementItems where
  | functions (items : List (Except BinaryReaderError Nat))
  | expressions (refType : RefType) (items : List (Except BinaryReaderError ConstExpr))
  deriving Repr

structure Element where
  kind : ElementKind
  items : ElementItems
  deriving Repr

end Inference.WasmToV

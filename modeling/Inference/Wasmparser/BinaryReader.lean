import Inference.Foundation.ByteNumbers
import Inference.Foundation.Reading
import Inference.WasmToV.Operator

/-! # The binary reader

How operators are read from bytes. The rows of the opcode table that the extensions of the language,
control, branch, local and constant operators need are those of the source, as is the whole page behind
the prefix of the extensions. The other rows are given to the reader.
-/

namespace Inference.Wasmparser

open ByteNumbers Reading
open WasmToV

/-! ## Errors -/

inductive BinaryReaderErrorKind
  | custom
  | invalid
  deriving DecidableEq, Repr

structure BinaryReaderErrorInner extends BinaryReaderError where
  kind : BinaryReaderErrorKind
  neededHint : Option Nat
  deriving DecidableEq, Repr

namespace BinaryReaderErrorInner

def new (message : String) (offset : Nat) : BinaryReaderErrorInner :=
  ⟨⟨message, offset⟩, .custom, none⟩

def invalid (message : String) (offset : Nat) : BinaryReaderErrorInner :=
  ⟨⟨message, offset⟩, .invalid, none⟩

def eof (offset neededHint : Nat) : BinaryReaderErrorInner :=
  ⟨⟨"unexpected end-of-file", offset⟩, .custom, some neededHint⟩

/-- Errors about what the bytes mean are told in the words of what was being read. -/
def reclassify (message : String) (error : BinaryReaderErrorInner) : BinaryReaderErrorInner :=
  match error.kind with
  | .invalid => { error with message := message }
  | .custom => error

end BinaryReaderErrorInner

abbrev BinaryReader := Cursor UInt8

abbrev Read (α : Type) := Reader UInt8 BinaryReaderErrorInner α

/-- An error at the byte that was read last. -/
def failBehind {α : Type} (message : String) : Read α := do
  let position ← originalPosition
  throw (.new message (position - 1))

/-! ## Bytes and numbers -/

def readU8 : Read UInt8 :=
  next fun position => .eof position 1

def peekU8 : Read UInt8 :=
  peek fun position => .eof position 1

def readBytes (size : Nat) : Read (List UInt8) :=
  take size .eof

def readU32 : Read Nat := do
  let bytes ← readBytes 4
  return ofLeBytes bytes

def readU64 : Read Nat := do
  let bytes ← readBytes 8
  return ofLeBytes bytes

/-- Only the fifth byte reaches the limit, and a fifth byte behind which another one follows is too
large as well. -/
theorem continues_below {shift : Nat} {byte : UInt8}
    (accepted : ¬ (25 ≤ shift ∧ byte.toNat >>> (32 - shift) ≠ 0))
    (continues : ¬ byte &&& 0x80 = 0) : 32 - (shift + 7) < 32 - shift := by
  by_cases below : 25 ≤ shift
  · have high : byte.toNat ≥ 128 := by
      by_contra small
      have zero := last_continues (Nat.lt_of_not_le small)
      rw [last, UInt8.ofNat_toNat] at zero
      exact continues zero
    have zero : byte.toNat >>> (32 - shift) = 0 := by
      by_contra nonzero
      exact accepted ⟨below, nonzero⟩
    rw [Nat.shiftRight_eq_div_pow, Nat.div_eq_zero_iff_lt (Nat.two_pow_pos _)] at zero
    have bound : 2 ^ (32 - shift) ≤ 2 ^ 7 := Nat.pow_le_pow_right (by decide) (by omega)
    omega
  · omega

def readVarU32Loop (result shift : Nat) : Read Nat := do
  let byte ← readU8
  let result := result ||| (((byte &&& 0x7F).toNat <<< shift) % 2 ^ 32)
  if 25 ≤ shift ∧ byte.toNat >>> (32 - shift) ≠ 0 then
    failBehind <|
      if byte &&& 0x80 ≠ 0 then "invalid var_u32: integer representation too long"
      else "invalid var_u32: integer too large"
  else if byte &&& 0x80 = 0 then
    return result
  else
    readVarU32Loop result (shift + 7)
termination_by 32 - shift
decreasing_by exact continues_below ‹_› ‹_›

def readVarU32Big (byte : UInt8) : Read Nat :=
  readVarU32Loop (byte &&& 0x7F).toNat 7

def readVarU32 : Read Nat := do
  let byte ← readU8
  if byte &&& 0x80 = 0 then return byte.toNat else readVarU32Big byte

/-- The signed numbers are read by one loop. `word` is the width of the type that holds the number and
`bits` the width of the number. From the shift `limit` on, a byte has to be the last one. -/
structure SignedFormat where
  word : Nat
  bits : Nat
  limit : Nat
  tooLong : String
  tooLarge : String

def SignedFormat.i32 : SignedFormat :=
  ⟨32, 32, 25, "invalid var_i32: integer representation too long", "invalid var_i32: integer too large"⟩

def SignedFormat.s33 : SignedFormat :=
  ⟨64, 33, 25, "invalid var_s33: integer representation too long",
    "invalid var_s33: integer representation too long"⟩

def SignedFormat.i64 : SignedFormat :=
  ⟨64, 64, 57, "invalid var_i64: integer representation too long", "invalid var_i64: integer too large"⟩

theorem limit_nears {limit shift : Nat} (below : ¬ limit ≤ shift) :
    limit - (shift + 7) < limit - shift := by
  omega

def readSignedLoop (format : SignedFormat) (result : BitVec format.word) (shift : Nat) :
    Read (BitVec format.word) := do
  let byte ← readU8
  let result := result ||| ((byte &&& 0x7F).toBitVec.setWidth format.word <<< shift)
  if format.limit ≤ shift then
    let signAndUnusedBit := (byte.toBitVec <<< 1).sshiftRight (format.bits - shift)
    if byte &&& 0x80 ≠ 0 ∨ (signAndUnusedBit ≠ 0 ∧ signAndUnusedBit ≠ -1) then
      failBehind <| if byte &&& 0x80 ≠ 0 then format.tooLong else format.tooLarge
    else
      return result
  else if byte &&& 0x80 = 0 then
    let ashift := format.word - (shift + 7)
    return (result <<< ashift).sshiftRight ashift
  else
    readSignedLoop format result (shift + 7)
termination_by format.limit - shift
decreasing_by exact limit_nears ‹_›

def readVarI32Big (byte : UInt8) : Read Int := do
  let value ← readSignedLoop .i32 ((byte &&& 0x7F).toBitVec.setWidth 32) 7
  return value.toInt

def readVarI32 : Read Int := do
  let byte ← readU8
  if byte &&& 0x80 = 0 then
    return ((byte.toBitVec.setWidth 32 <<< 25).sshiftRight 25).toInt
  else
    readVarI32Big byte

def readVarS33 : Read Int := do
  let byte ← readU8
  if byte &&& 0x80 = 0 then
    return (((byte.toBitVec <<< 1).signExtend 64).sshiftRight 1).toInt
  else
    let value ← readSignedLoop .s33 ((byte &&& 0x7F).toBitVec.setWidth 64) 7
    return value.toInt

def readVarI64 : Read Int := do
  let value ← readSignedLoop .i64 0 0
  return value.toInt

def readF32 : Read Nat :=
  readU32

def readF64 : Read Nat :=
  readU64

/-- The signed number of 128 bits that a vector's bytes are. -/
def readV128 : Read Int := do
  let bytes ← readBytes 16
  return (BitVec.ofNat 128 (ofLeBytes bytes)).toInt

/-! ## Types -/

def readAbstractHeapType : Read AbstractHeapType := do
  match (← readU8).toNat with
  | 0x70 => return .func
  | 0x6F => return .external
  | 0x6E => return .any
  | 0x71 => return .none
  | 0x72 => return .noExternal
  | 0x73 => return .noFunc
  | 0x6D => return .eq
  | 0x6B => return .struct
  | 0x6A => return .array
  | 0x6C => return .i31
  | 0x69 => return .exn
  | 0x74 => return .noExn
  | 0x68 => return .cont
  | 0x75 => return .noCont
  | _ => do
      let position ← originalPosition
      throw (.invalid "invalid abstract heap type" (position - 1))

/-- Type indices are packed into 20 bits. -/
def canRepresentIndex (index : Nat) : Bool :=
  index &&& 1048575 = index

/-- A concrete heap type behind its index. -/
def concreteHeapType (index : Nat) : Read HeapType :=
  if canRepresentIndex index then
    return .concrete (.module index)
  else do
    let position ← originalPosition
    throw (.new "type index greater than implementation limits" position)

/-- A number of 33 bits that is not negative is a type index. The bytes of any other number are read
again as those of an abstract heap type. -/
def readHeapType : Read HeapType := do
  let s33 ← scan readVarS33
  if 0 ≤ s33.1 ∧ s33.1 < 4294967296 then
    set s33.2
    concreteHeapType s33.1.toNat
  else
    let byte ← peekU8
    if byte = 0x65 then
      let _ ← readU8
      let ty ← readAbstractHeapType
      return .abstract true ty
    else
      let ty ← mapError (.reclassify "invalid heap type") readAbstractHeapType
      return .abstract false ty

def packs : UnpackedIndex → Bool
  | .module index | .recGroup index => canRepresentIndex index

/-- A reference type is packed into 24 bits. -/
def RefType.new (nullable : Bool) (heapType : HeapType) : Option RefType :=
  match heapType with
  | .concrete index => if packs index then some ⟨nullable, .concrete index⟩ else none
  | .abstract shared ty => some ⟨nullable, .abstract shared ty⟩

def newRefType (nullable : Bool) (heapType : HeapType) (position : Nat) : Read RefType :=
  match RefType.new nullable heapType with
  | some refType => return refType
  | none => throw (.new "type index too large" position)

def readRefType : Read RefType := do
  let position ← originalPosition
  let byte ← peekU8
  if byte = 0x63 ∨ byte = 0x64 then
    let prefixByte ← readU8
    let heapType ← readHeapType
    newRefType (prefixByte = 0x63) heapType position
  else
    let heapType ← mapError (.reclassify "malformed reference type") readHeapType
    newRefType true heapType position

def readValType : Read ValType := do
  match (← peekU8).toNat with
  | 0x7F => let _ ← readU8; return .i32
  | 0x7E => let _ ← readU8; return .i64
  | 0x7D => let _ ← readU8; return .f32
  | 0x7C => let _ ← readU8; return .f64
  | 0x7B => let _ ← readU8; return .v128
  | _ => do
      let refType ← mapError (.reclassify "invalid value type") readRefType
      return .ref refType

/-- A byte with the sign bit of a single group begins a value type or is the empty type. -/
def readBlockType : Read BlockType := do
  let byte ← peekU8
  if byte &&& 0x80 = 0 ∧ byte &&& 0x40 ≠ 0 then
    if byte = 0x40 then
      let _ ← readU8
      return .empty
    else
      let valType ← readValType
      return .type valType
  else
    let index ← readVarS33
    if 0 ≤ index ∧ index < 4294967296 then
      return .funcType index.toNat
    else
      let position ← originalPosition
      throw (.new "invalid function type" position)

/-! ## Branch tables -/

def maxWasmBrTableSize : Nat := 131072

def readSize (limit : Nat) (desc : String) : Read Nat := do
  let position ← originalPosition
  let size ← readVarU32
  if limit < size then
    throw (.new (desc ++ " size is out of bounds") position)
  else
    return size

/-- The labels as the table's own reader yields them. A reader that is not at its end behind the last
label yields an error, and nothing is read behind an error. -/
def targets : Nat → BinaryReader → List (Except BinaryReaderError Nat)
  | 0, reader =>
      if reader.eof then []
      else [.error ⟨"trailing data in br_table", reader.originalPosition⟩]
  | remaining + 1, reader =>
      match readVarU32 reader with
      | .ok (label, reader) => .ok label :: targets remaining reader
      | .error error => [.error error.toBinaryReaderError]

def readBrTable : Read BrTable := do
  let count ← readSize maxWasmBrTableSize "br_table"
  let reader ← skip (times count readVarU32)
  let default ← readVarU32
  return ⟨targets count reader, default⟩

/-! ## Operators -/

/-- The rows of the opcode table and of the vector page that are not modelled here. They are told where
the operator begins. -/
structure OtherRows where
  operator : UInt8 → Nat → Read Operator
  vector : Nat → Nat → Read Operator

def unknownSubopcode (page : String) (code position : Nat) : Read Operator :=
  throw (.new ("unknown " ++ page ++ " subopcode: 0x" ++ String.ofList (Nat.toDigits 16 code)) position)

/-- An operator with one index. -/
def withIndex (operator : Nat → Operator) : Read Operator := do
  let index ← readVarU32
  return operator index

/-- An operator with two indices. -/
def withIndices (operator : Nat → Nat → Operator) : Read Operator := do
  let first ← readVarU32
  let second ← readVarU32
  return operator first second

def withBlockType (operator : BlockType → Operator) : Read Operator := do
  let blockType ← readBlockType
  return operator blockType

/-- The rows of the page behind the prefix of the extensions. -/
def row0xfc (code position : Nat) : Read Operator :=
  match code with
  | 0x00 => return .unimplemented .i32TruncSatF32S []
  | 0x01 => return .unimplemented .i32TruncSatF32U []
  | 0x02 => return .unimplemented .i32TruncSatF64S []
  | 0x03 => return .unimplemented .i32TruncSatF64U []
  | 0x04 => return .unimplemented .i64TruncSatF32S []
  | 0x05 => return .unimplemented .i64TruncSatF32U []
  | 0x06 => return .unimplemented .i64TruncSatF64S []
  | 0x07 => return .unimplemented .i64TruncSatF64U []
  | 0x08 => withIndices .memoryInit
  | 0x09 => withIndex .dataDrop
  | 0x0a => withIndices .memoryCopy
  | 0x0b => withIndex .memoryFill
  | 0x0c => withIndices fun segment table => .unimplemented .tableInit [segment, table]
  | 0x0d => withIndex fun segment => .unimplemented .elemDrop [segment]
  | 0x0e => withIndices fun dst src => .unimplemented .tableCopy [dst, src]
  | 0x0f => withIndex .tableGrow
  | 0x10 => withIndex .tableSize
  | 0x11 => withIndex .tableFill
  | 0x12 => withIndex fun mem => .unimplemented .memoryDiscard [mem]
  | 0x3a => withBlockType .forall_
  | 0x3b => withBlockType .exists_
  | 0x3c => withBlockType .assume
  | 0x3d => withBlockType .unique
  -- The values of these two are fixed, and the operators of the translator do not carry them.
  | 0x31 => return .plain .i32Uzumaki
  | 0x32 => return .plain .i64Uzumaki
  | 0x13 => return .unimplemented .i64Add128 []
  | 0x14 => return .unimplemented .i64Sub128 []
  | 0x15 => return .unimplemented .i64MulWideS []
  | 0x16 => return .unimplemented .i64MulWideU []
  | code => unknownSubopcode "0xfc" code position

def visit0xfcOperator (position : Nat) : Read Operator := do
  let code ← readVarU32
  row0xfc code position

/-- The rows of the page of the vector operators. -/
def row0xfd (others : OtherRows) (code position : Nat) : Read Operator :=
  match code with
  | 0x0c => do
      let value ← readV128
      return .v128Const value
  | code => others.vector code position

def visit0xfdOperator (others : OtherRows) (position : Nat) : Read Operator := do
  let code ← readVarU32
  row0xfd others code position

/-- The rows of the opcode table. -/
def row (others : OtherRows) (code : UInt8) (position : Nat) : Read Operator :=
  match code.toNat with
  | 0x02 => withBlockType .block
  | 0x03 => withBlockType .loop
  | 0x04 => withBlockType .if_
  | 0x05 => return .else_
  | 0x0b => return .end_
  | 0x0c => withIndex .br
  | 0x0d => withIndex .brIf
  | 0x0e => do
      let table ← readBrTable
      return .brTable table
  | 0x20 => withIndex .localGet
  | 0x21 => withIndex .localSet
  | 0x22 => withIndex .localTee
  | 0x41 => do
      let value ← readVarI32
      return .i32Const value
  | 0x42 => do
      let value ← readVarI64
      return .i64Const value
  | 0x43 => do
      let bits ← readF32
      return .f32Const bits
  | 0x44 => do
      let bits ← readF64
      return .f64Const bits
  | 0xfc => visit0xfcOperator position
  | 0xfd => visit0xfdOperator others position
  | _ => others.operator code position

def visitOperator (others : OtherRows) : Read Operator := do
  let position ← originalPosition
  let code ← readU8
  row others code position

/-- The operators up to the end of the buffer, or up to the first error, with the reader behind them. -/
def collectWithin (others : OtherRows) : Nat → BinaryReader → List OperatorItem × BinaryReader
  | 0, reader => ([], reader)
  | rounds + 1, reader =>
      if reader.eof then ([], reader)
      else
        match visitOperator others reader with
        | .ok (operator, behind) =>
            (.ok operator :: (collectWithin others rounds behind).1,
              (collectWithin others rounds behind).2)
        | .error error => ([.error error.toBinaryReaderError], reader)

/-- Every operator has at least one byte, so no more rounds are needed than there are bytes. -/
def collect (others : OtherRows) (reader : BinaryReader) : List OperatorItem × BinaryReader :=
  collectWithin others (reader.buffer.length - reader.position) reader

end Inference.Wasmparser

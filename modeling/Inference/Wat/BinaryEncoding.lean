import Inference.Foundation.ByteNumbers
import Inference.WasmToV.Wasm
import Inference.Wat.LabelResolution

/-! # Encoding of instructions

The bytes of a flat instruction: its opcode and then its immediates. Control, branch, local and constant
instructions and the extensions of the language are those of the model. The writer of LEB128 numbers and
the encoder of value types come from other packages and are given to it.
-/

namespace Inference.Wat.Binary

open ByteNumbers
open WasmToV (AbstractHeapType)

/-! ## Instructions -/

/-- An index of 32 bits or a name that is still to be resolved. -/
inductive Index
  | num (index : UInt32)
  | id (id : Id)
  deriving DecidableEq

/-- Concrete types are named by an index, or by its number once it is resolved. -/
inductive HeapType (TypeIndex : Type)
  | abstract (shared : Bool) (ty : AbstractHeapType)
  | concrete (index : TypeIndex)
  deriving DecidableEq

structure RefType (TypeIndex : Type) where
  nullable : Bool
  heap : HeapType TypeIndex
  deriving DecidableEq

inductive ValType (TypeIndex : Type)
  | i32
  | i64
  | f32
  | f64
  | v128
  | ref (refType : RefType TypeIndex)
  deriving DecidableEq

structure FunctionType where
  params : List (ValType Index)
  results : List (ValType Index)
  deriving DecidableEq

/-- The type of a block is an index, the inline type of its function, or both. -/
structure BlockType where
  label : Option Id
  index : Option Index
  inline : Option FunctionType
  deriving DecidableEq

structure BrTableIndices where
  labels : List Index
  default : Index
  deriving DecidableEq

structure F32 where
  bits : UInt32
  deriving DecidableEq

structure F64 where
  bits : UInt64
  deriving DecidableEq

inductive V128Const
  | i8x16 (lanes : Vector UInt8 16)
  | i16x8 (lanes : Vector UInt16 8)
  | i32x4 (lanes : Vector UInt32 4)
  | i64x2 (lanes : Vector UInt64 2)
  | f32x4 (lanes : Vector F32 4)
  | f64x2 (lanes : Vector F64 2)
  deriving DecidableEq

inductive Instruction
  | block (blockType : BlockType)
  | if_ (blockType : BlockType)
  | else_ (label : Option Id)
  | loop (blockType : BlockType)
  | end_ (label : Option Id)
  | forall_ (blockType : BlockType)
  | exists_ (blockType : BlockType)
  | assume (blockType : BlockType)
  | unique (blockType : BlockType)
  | br (label : Index)
  | brIf (label : Index)
  | brTable (indices : BrTableIndices)
  | localGet (index : Index)
  | localSet (index : Index)
  | localTee (index : Index)
  | i32Const (value : Int32)
  | i64Const (value : Int64)
  | f32Const (value : F32)
  | f64Const (value : F64)
  | i32Uzumaki
  | i64Uzumaki
  | v128Const (value : V128Const)
  deriving DecidableEq

/-! ## Encoding -/

/-- What the encoder uses of other packages. -/
structure Externals where
  writeUnsigned : UInt64 → List UInt8
  writeSigned : Int64 → List UInt8
  encodeValType : ValType UInt32 → List UInt8

/-- Encoding panics at a name, and at a block type that resolution leaves without an index it needs. -/
abbrev Bytes := Option (List UInt8)

def Index.unwrapU32 : Index → Option UInt32
  | .num index => some index
  | .id _ => none

def HeapType.resolved : HeapType Index → Option (HeapType UInt32)
  | .abstract shared ty => some (.abstract shared ty)
  | .concrete index => do
      let index ← index.unwrapU32
      return .concrete index

def RefType.resolved (refType : RefType Index) : Option (RefType UInt32) := do
  let heap ← refType.heap.resolved
  return ⟨refType.nullable, heap⟩

/-- The value type in the words of the package that encodes it. -/
def ValType.resolved : ValType Index → Option (ValType UInt32)
  | .i32 => some .i32
  | .i64 => some .i64
  | .f32 => some .f32
  | .f64 => some .f64
  | .v128 => some .v128
  | .ref refType => do
      let refType ← refType.resolved
      return .ref refType

section
variable (externals : Externals)

def encodeU32 (value : UInt32) : List UInt8 :=
  externals.writeUnsigned value.toUInt64

/-- A length that has more than 32 bits panics. -/
def encodeUsize (value : Nat) : Bytes :=
  if value ≤ 4294967295 then some (encodeU32 externals (UInt32.ofNat value)) else none

def encodeI32 (value : Int32) : List UInt8 :=
  externals.writeSigned value.toInt64

def encodeI64 (value : Int64) : List UInt8 :=
  externals.writeSigned value

def Index.encode (index : Index) : Bytes := do
  let index ← index.unwrapU32
  return encodeU32 externals index

/-- Identifiers of labels leave no bytes. -/
def encodeId (_ : Option Id) : List UInt8 :=
  []

def ValType.encode (valType : ValType Index) : Bytes := do
  let valType ← valType.resolved
  return externals.encodeValType valType

def BlockType.encode (blockType : BlockType) : Bytes :=
  match blockType.index with
  -- An index is written as a signed number.
  | some (.num index) => some (encodeI64 externals (Int64.ofNat index.toNat))
  | _ =>
      match blockType.inline with
      | none => none
      | some ty =>
          match ty.params, ty.results with
          | [], [] => some [0x40]
          | [], [result] => result.encode externals
          | _, _ => none

def encodeIndices : List Index → Bytes
  | [] => some []
  | index :: rest => do
      let first ← index.encode externals
      let others ← encodeIndices rest
      return first ++ others

def BrTableIndices.encode (indices : BrTableIndices) : Bytes := do
  let length ← encodeUsize externals indices.labels.length
  let labels ← encodeIndices externals indices.labels
  let default ← indices.default.encode externals
  return length ++ labels ++ default

def F32.encode (value : F32) : List UInt8 :=
  toLeBytes 4 value.bits.toNat

def F64.encode (value : F64) : List UInt8 :=
  toLeBytes 8 value.bits.toNat

def V128Const.toLeBytes : V128Const → List UInt8
  | .i8x16 lanes => lanes.toList
  | .i16x8 lanes => lanes.toList.flatMap fun lane => ByteNumbers.toLeBytes 2 lane.toNat
  | .i32x4 lanes => lanes.toList.flatMap fun lane => ByteNumbers.toLeBytes 4 lane.toNat
  | .i64x2 lanes => lanes.toList.flatMap fun lane => ByteNumbers.toLeBytes 8 lane.toNat
  | .f32x4 lanes => lanes.toList.flatMap F32.encode
  | .f64x2 lanes => lanes.toList.flatMap F64.encode

/-- The bytes of the opcode. Behind the prefix of the vector instructions it is a number. -/
def Instruction.opcode : Instruction → List UInt8
  | .block _ => [0x02]
  | .if_ _ => [0x04]
  | .else_ _ => [0x05]
  | .loop _ => [0x03]
  | .end_ _ => [0x0b]
  | .forall_ _ => [0xfc, 0x3a]
  | .exists_ _ => [0xfc, 0x3b]
  | .assume _ => [0xfc, 0x3c]
  | .unique _ => [0xfc, 0x3d]
  | .br _ => [0x0c]
  | .brIf _ => [0x0d]
  | .brTable _ => [0x0e]
  | .localGet _ => [0x20]
  | .localSet _ => [0x21]
  | .localTee _ => [0x22]
  | .i32Const _ => [0x41]
  | .i64Const _ => [0x42]
  | .f32Const _ => [0x43]
  | .f64Const _ => [0x44]
  | .i32Uzumaki => [0xfc, 0x31]
  | .i64Uzumaki => [0xfc, 0x32]
  | .v128Const _ => 0xfd :: encodeU32 externals 12

def Instruction.immediate : Instruction → Bytes
  | .block blockType | .if_ blockType | .loop blockType => blockType.encode externals
  | .forall_ blockType | .exists_ blockType => blockType.encode externals
  | .assume blockType | .unique blockType => blockType.encode externals
  | .else_ label | .end_ label => some (encodeId label)
  | .br label | .brIf label => label.encode externals
  | .brTable indices => indices.encode externals
  | .localGet index | .localSet index | .localTee index => index.encode externals
  | .i32Const value => some (encodeI32 externals value)
  | .i64Const value => some (encodeI64 externals value)
  | .f32Const value => some value.encode
  | .f64Const value => some value.encode
  | .i32Uzumaki | .i64Uzumaki => some []
  | .v128Const value => some value.toLeBytes

def Instruction.encode (instruction : Instruction) : Bytes := do
  let immediate ← instruction.immediate externals
  return instruction.opcode externals ++ immediate

/-- The instructions of an expression, one after another. -/
def encodeInstructions : List Instruction → Bytes
  | [] => some []
  | instruction :: rest => do
      let first ← instruction.encode externals
      let others ← encodeInstructions rest
      return first ++ others

end

/-! ## What the other packages document -/

/-- The byte of an abstract heap type in the binary format. -/
def abstractByte : AbstractHeapType → UInt8
  | .func => 0x70
  | .external => 0x6F
  | .any => 0x6E
  | .none => 0x71
  | .noExternal => 0x72
  | .noFunc => 0x73
  | .eq => 0x6D
  | .struct => 0x6B
  | .array => 0x6A
  | .i31 => 0x6C
  | .exn => 0x69
  | .noExn => 0x74
  | .cont => 0x68
  | .noCont => 0x75

/-- The bytes of a heap type in the binary format. -/
def HeapType.form : HeapType UInt32 → List UInt8
  | .abstract false ty => [abstractByte ty]
  | .abstract true ty => [0x65, abstractByte ty]
  | .concrete index => signed index.toNat

/-- The bytes a value type may have in the binary format. A nullable reference to an abstract heap type
also has the bytes of the heap type alone. -/
inductive ValType.Form : ValType UInt32 → List UInt8 → Prop
  | i32 : Form .i32 [0x7F]
  | i64 : Form .i64 [0x7E]
  | f32 : Form .f32 [0x7D]
  | f64 : Form .f64 [0x7C]
  | v128 : Form .v128 [0x7B]
  | nullable (heap : HeapType UInt32) : Form (.ref ⟨true, heap⟩) (0x63 :: heap.form)
  | nonNull (heap : HeapType UInt32) : Form (.ref ⟨false, heap⟩) (0x64 :: heap.form)
  | short (shared : Bool) (ty : AbstractHeapType) :
      Form (.ref ⟨true, .abstract shared ty⟩) (HeapType.abstract shared ty).form

structure Externals.Documented (externals : Externals) : Prop where
  writesUnsigned : ∀ value, externals.writeUnsigned value = unsigned value.toNat
  writesSigned : ∀ value, externals.writeSigned value = signed value.toInt
  encodesValTypes : ∀ valType, ValType.Form valType (externals.encodeValType valType)

end Inference.Wat.Binary

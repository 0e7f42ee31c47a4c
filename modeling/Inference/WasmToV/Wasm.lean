/-! # WebAssembly types

The part of the binary reader's data model that the translator reads. Indices,
sizes and counts are natural numbers.
-/

namespace Inference.WasmToV

/-! ## Value types -/

inductive AbstractHeapType where
  | func
  | external
  | any
  | none
  | noExternal
  | noFunc
  | eq
  | struct
  | array
  | i31
  | exn
  | noExn
  | cont
  | noCont
  deriving DecidableEq, Repr

inductive UnpackedIndex where
  | module (index : Nat)
  | recGroup (index : Nat)
  deriving DecidableEq, Repr

inductive HeapType where
  | abstract (shared : Bool) (ty : AbstractHeapType)
  | concrete (index : UnpackedIndex)
  deriving DecidableEq, Repr

structure RefType where
  nullable : Bool
  heapType : HeapType
  deriving DecidableEq, Repr

namespace RefType

def funcref : RefType := ⟨true, .abstract false .func⟩

def externref : RefType := ⟨true, .abstract false .external⟩

end RefType

inductive ValType where
  | i32
  | i64
  | f32
  | f64
  | v128
  | ref (refType : RefType)
  deriving DecidableEq, Repr

inductive BlockType where
  | empty
  | type (valType : ValType)
  | funcType (index : Nat)
  deriving DecidableEq, Repr

/-! ## Entity types -/

structure TableType where
  elementType : RefType
  table64 : Bool
  initial : Nat
  maximum : Option Nat
  shared : Bool
  deriving DecidableEq, Repr

structure MemoryType where
  memory64 : Bool
  shared : Bool
  initial : Nat
  maximum : Option Nat
  pageSizeLog2 : Option Nat
  deriving DecidableEq, Repr

structure GlobalType where
  contentType : ValType
  mutable : Bool
  shared : Bool
  deriving DecidableEq, Repr

/-! ## Types of the type section -/

structure FuncType where
  params : List ValType
  results : List ValType
  deriving DecidableEq, Repr

inductive StorageType where
  | i8
  | i16
  | val (valType : ValType)
  deriving DecidableEq, Repr

structure FieldType where
  elementType : StorageType
  mutable : Bool
  deriving DecidableEq, Repr

inductive CompositeInnerType where
  | func (funcType : FuncType)
  | array (fieldType : FieldType)
  | struct (fields : List FieldType)
  | cont (typeIndex : UnpackedIndex)
  deriving DecidableEq, Repr

structure CompositeType where
  inner : CompositeInnerType
  shared : Bool
  deriving DecidableEq, Repr

structure SubType where
  isFinal : Bool
  supertypeIdx : Option UnpackedIndex
  compositeType : CompositeType
  deriving DecidableEq, Repr

/-- The types of a recursion group, in index order. -/
structure RecGroup where
  types : List SubType
  deriving DecidableEq, Repr

/-! ## Imports and exports -/

inductive TypeRef where
  | func (typeIndex : Nat)
  | table (tableType : TableType)
  | memory (memoryType : MemoryType)
  | global (globalType : GlobalType)
  | tag (funcTypeIdx : Nat)
  deriving DecidableEq, Repr

structure Import where
  module : String
  name : String
  ty : TypeRef
  deriving DecidableEq, Repr

inductive ExternalKind where
  | func
  | table
  | memory
  | global
  | tag
  deriving DecidableEq, Repr

structure Export where
  name : String
  kind : ExternalKind
  index : Nat
  deriving DecidableEq, Repr

end Inference.WasmToV

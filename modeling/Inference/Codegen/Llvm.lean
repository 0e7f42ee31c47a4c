import Inference.Ast.Nodes

/-! # LLVM code

What the builder makes of a function. An instruction is identified by its place: the
function of the module and the position in the entry block. Names are only hints
to LLVM, which makes them unique.
-/

namespace Inference.Codegen

open Inference.Ast

inductive IntType where
  | i1
  | i8
  | i16
  | i32
  | i64
deriving DecidableEq, Repr

def IntType.bits : IntType → Nat
  | .i1 => 1
  | .i8 => 8
  | .i16 => 16
  | .i32 => 32
  | .i64 => 64

inductive Intrinsic where
  | uzumakiI32
  | uzumakiI64
  | forallStart
  | forallEnd
  | existsStart
  | existsEnd
  | assumeStart
  | assumeEnd
  | uniqueStart
  | uniqueEnd
deriving DecidableEq, Repr

def Intrinsic.name : Intrinsic → String
  | .uzumakiI32 => "llvm.wasm.uzumaki.i32"
  | .uzumakiI64 => "llvm.wasm.uzumaki.i64"
  | .forallStart => "llvm.wasm.forall.start"
  | .forallEnd => "llvm.wasm.forall.end"
  | .existsStart => "llvm.wasm.exists.start"
  | .existsEnd => "llvm.wasm.exists.end"
  | .assumeStart => "llvm.wasm.assume.start"
  | .assumeEnd => "llvm.wasm.assume.end"
  | .uniqueStart => "llvm.wasm.unique.start"
  | .uniqueEnd => "llvm.wasm.unique.end"

/-- A place in the module: the pointer or the value an instruction makes. -/
structure Place where
  function : Nat
  index : Nat
deriving DecidableEq, Repr

inductive IntValue where
  | const (type : IntType) (value : Nat)
  | made (type : IntType) (place : Place)
deriving DecidableEq, Repr

def IntValue.type : IntValue → IntType
  | .const type _ | .made type _ => type

/-- A constant keeps the bits that fit. -/
def IntType.constInt (type : IntType) (value : Nat) : IntValue :=
  .const type (value % 2 ^ type.bits)

inductive Instruction where
  | call (intrinsic : Intrinsic) (name : String)
  | alloca (type : IntType) (name : String)
  | store (pointer : Place) (value : IntValue)
  | load (type : IntType) (pointer : Place) (name : String)
  | ret (value : Option IntValue)
deriving DecidableEq, Repr

def Instruction.isTerminator : Instruction → Bool
  | .ret _ => true
  | .call _ _ | .alloca _ _ | .store _ _ | .load _ _ _ => false

structure BasicBlock where
  name : String
  instructions : List Instruction
deriving DecidableEq, Repr

inductive Attribute where
  | optnone
  | noinline
  | wasmExportName (name : String)
deriving DecidableEq, Repr

structure FunctionValue where
  name : String
  returnType : Option IntType
  attributes : List Attribute
  blocks : List BasicBlock
deriving DecidableEq, Repr

end Inference.Codegen

import Mathlib.Logic.Function.Basic
import Inference.Codegen.LexicalLowering
import Inference.Foundation.Agreement

/-! # Meaning of functions and of their code

What is seen of a run: the non-deterministic blocks that are entered and left, and the values that
are drawn. A function of the source has its meaning by lexical scoping, its code by the registers
and the memory of LLVM.
-/

namespace Inference.Codegen

open Effects
open Inference.Ast Inference.TypeChecker

inductive Effect where
  | enter (kind : BlockKind)
  | leave (kind : BlockKind)
  | draw (type : IntType)
deriving DecidableEq, Repr

def Effect.Answer : Effect → Type
  | .draw type => BitVec type.bits
  | .enter _ | .leave _ => Unit

/-- What runs at most until it exits. -/
abbrev Run (Exit α : Type) : Type :=
  Program.Fallible Effect Effect.Answer Exit α

variable {Exit : Type}

def request (effect : Effect) : Run Exit effect.Answer :=
  liftM (Program.request effect : Program Effect Effect.Answer effect.Answer)

/-! ## The source -/

inductive Value where
  | bool (value : Bool)
  | number (type : IntType) (value : BitVec type.bits)
deriving DecidableEq, Repr

/-- The bindings in scope, the innermost first. A name may have no known value. -/
abbrev Bindings :=
  List (String × Option Value)

inductive FunctionExit where
  | returned (value : Option Value)
  /-- No meaning is given to what no code is made for. -/
  | unknown

abbrev Meaning (α : Type) : Type :=
  Run FunctionExit α

/-- The digits of a number that an i32 holds. No value is given to other numbers. -/
def i32Value (text : String) : Option (BitVec 32) :=
  if text.toList ≠ [] ∧ text.toList.all Char.isDigit ∧
      Nat.ofDigitChars 10 text.toList 0 < 2 ^ 31 then
    some (BitVec.ofNat 32 (Nat.ofDigitChars 10 text.toList 0))
  else
    none

def literalValue : Literal → Option Value
  | .bool _ value => some (.bool value)
  | .number _ text => (i32Value text).map (.number .i32)
  | .array _ _ | .string _ _ | .unit _ => none

def drawn (type : IntType) : Meaning (Option Value) := do
  let bits ← request (.draw type)
  return some (.number type bits)

/-- An uzumaki draws from the type that the checker has found for it. -/
def uzumakiMeaning (context : TypedContext) (node : Node) : Meaning (Option Value) :=
  if isNodeI32 context node.id then drawn .i32
  else if isNodeI64 context node.id then drawn .i64
  else throw .unknown

/-- The expression draws nothing and calls nothing. -/
def isSilent : Expression → Bool
  | .literal _ | .identifier _ => true
  | .binary _ left _ right => isSilent left && isSilent right
  | .prefixUnary _ expression _ | .parenthesized _ expression => isSilent expression
  | _ => false

/-- The values of operations are left open: they are only seen where code is made for them. -/
def expressionMeaning (context : TypedContext) (bindings : Bindings) :
    Expression → Meaning (Option Value)
  | .literal literal => return literalValue literal
  | .identifier identifier => return (bindings.lookup identifier.name).join
  | .uzumaki node => uzumakiMeaning context node
  | expression => if isSilent expression then return none else throw .unknown

def initialMeaning (context : TypedContext) (bindings : Bindings) :
    Option Expression → Meaning (Option Value)
  | some expression => expressionMeaning context bindings expression
  | none => return none

def enter : BlockKind → Meaning Unit
  | .block => return ()
  | kind => request (.enter kind)

def leave : BlockKind → Meaning Unit
  | .block => return ()
  | kind => request (.leave kind)

mutual

/-- The bindings behind a statement. Those of a block are gone behind it. -/
def statementMeaning (context : TypedContext) (bindings : Bindings) :
    Statement → Meaning Bindings
  | .block (.mk kind _ statements) => do
      enter kind
      let _ ← statementListMeaning context bindings statements
      leave kind
      return bindings
  | .expression expression => do
      let _ ← expressionMeaning context bindings expression
      return bindings
  | .return_ _ expression => do
      let value ← expressionMeaning context bindings expression
      throw (.returned value)
  | .variableDefinition _ name _ initial => do
      let value ← initialMeaning context bindings initial
      return (name.name, value) :: bindings
  | .constantDefinition definition =>
      return (definition.name.name, literalValue definition.value) :: bindings
  | .assign _ _ _ | .loop _ _ _ | .break_ _ | .if_ _ _ _ _ => throw .unknown
  | .typeDefinition _ _ _ | .assert _ _ => throw .unknown

def statementListMeaning (context : TypedContext) (bindings : Bindings) :
    List Statement → Meaning Bindings
  | [] => return bindings
  | head :: tail => do
      let bindings ← statementMeaning context bindings head
      statementListMeaning context bindings tail

end

/-- A function is called with a value for each of its parameters. -/
def functionMeaning (context : TypedContext) (definition : FunctionDefinition)
    (arguments : String → Option Value) : Meaning Bindings :=
  statementMeaning context
    ((Lexical.parameterNames definition).map fun name => (name, arguments name))
    (.block definition.body)

/-! ## The code -/

structure Word where
  type : IntType
  bits : BitVec type.bits
deriving DecidableEq, Repr

/-- The registers and the memory of a function. What is not there yet is not defined. -/
structure Machine where
  registers : Place → Option Word := fun _ => none
  memory : Place → Option Word := fun _ => none

namespace Machine

def operand (machine : Machine) : IntValue → Option Word
  | .const type value => some ⟨type, BitVec.ofNat type.bits value⟩
  | .made _ place => machine.registers place

def setRegister (machine : Machine) (place : Place) (word : Option Word) : Machine :=
  { machine with registers := Function.update machine.registers place word }

def setMemory (machine : Machine) (place : Place) (word : Option Word) : Machine :=
  { machine with memory := Function.update machine.memory place word }

/-- What was drawn is in the register of the call. -/
def answered (machine : Machine) (place : Place) : (effect : Effect) → effect.Answer → Machine
  | .draw type, bits => machine.setRegister place (some ⟨type, bits⟩)
  | .enter _, _ | .leave _, _ => machine

end Machine

def Intrinsic.effect : Intrinsic → Effect
  | .uzumakiI32 => .draw .i32
  | .uzumakiI64 => .draw .i64
  | .forallStart => .enter .forall_
  | .forallEnd => .leave .forall_
  | .existsStart => .enter .exists_
  | .existsEnd => .leave .exists_
  | .assumeStart => .enter .assume_
  | .assumeEnd => .leave .assume_
  | .uniqueStart => .enter .unique
  | .uniqueEnd => .leave .unique

/-- Code exits with the value it returns, if it does not return without one. -/
abbrev Execution (α : Type) : Type :=
  Run (Option (Option Word)) α

def executeInstruction (place : Place) (machine : Machine) : Instruction → Execution Machine
  | .call intrinsic _ => do
      let answer ← request intrinsic.effect
      return machine.answered place intrinsic.effect answer
  | .alloca _ _ => return machine.setMemory place none
  | .store pointer value => return machine.setMemory pointer (machine.operand value)
  | .load _ pointer _ => return machine.setRegister place (machine.memory pointer)
  | .ret value => throw (value.map machine.operand)

/-- Executes instructions from an index on. What stands behind a return is not reached. -/
def execute (function : Nat) : List Instruction → Nat → Machine → Execution Machine
  | [], _, machine => return machine
  | head :: tail, index, machine => do
      let machine ← executeInstruction ⟨function, index⟩ machine head
      execute function tail (index + 1) machine

/-- Runs the entry block of the function at this position of the module. -/
def FunctionValue.run (function : FunctionValue) (position : Nat) : Execution Machine :=
  match function.blocks with
  | block :: _ => execute position block.instructions 0 {}
  | [] => return {}

end Inference.Codegen

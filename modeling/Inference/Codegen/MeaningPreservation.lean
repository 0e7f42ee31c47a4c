import Mathlib.Data.List.Forall2
import Inference.Codegen.Meaning
import Inference.Codegen.VariableResolution

/-! # Code has the meaning of its source

Where the last definition compiled under a name is the innermost one, numbers fit an i32, no
variable is defined by a draw and what is returned has the type of the function, the code of a
function asks what the function asks and returns what it returns.
-/

namespace Inference.Codegen

open Effects
open Inference.Ast Inference.TypeChecker

/-! ## Values and words -/

def Value.word : Value → Word
  | .bool value => ⟨.i32, BitVec.ofNat 32 value.toNat⟩
  | .number type value => ⟨type, value⟩

/-- The value is known, and the word is its word, of this type. -/
def Holds (type : IntType) (value : Option Value) (word : Option Word) : Prop :=
  ∃ known, value = some known ∧ word = some known.word ∧ known.word.type = type

/-- The exit of the code is the exit of the function, with a word of the type that it returns. -/
def Returns (returns : Option IntType) : FunctionExit → Option (Option Word) → Prop
  | .returned value, some word => ∃ type, returns = some type ∧ Holds type value word
  | .returned _, none | .unknown, _ => False

theorem parseU64_i32Value {text : String} {value : BitVec 32} (holds : i32Value text = some value) :
    ∃ number, parseU64 text = some number ∧ number < 2 ^ 31 ∧ value = BitVec.ofNat 32 number := by
  rw [i32Value] at holds
  split at holds
  next fits =>
    cases holds
    rcases fits with ⟨notEmpty, digits, small⟩
    refine ⟨Nat.ofDigitChars 10 text.toList 0, ?_, small, rfl⟩
    have noSign : ∀ rest, text.toList ≠ '+' :: rest := by
      intro rest signed
      rw [signed] at digits
      cases digits
    rw [parseU64]
    split
    next rest signed => exact absurd signed (noSign rest)
    next =>
      rw [if_pos ⟨notEmpty, digits⟩]
      exact if_pos (by omega)
  next => cases holds

variable {node : Node}

theorem holds_number {text : String}
    (fits : (literalValue (.number node text)).isSome = true) (machine : Machine) :
    Holds .i32 (literalValue (.number node text))
      (machine.operand (IntType.i32.constInt ((parseU64 text).getD 0))) := by
  rcases Option.isSome_iff_exists.mp fits with ⟨known, isKnown⟩
  refine ⟨known, isKnown, ?_⟩
  rcases Option.map_eq_some_iff.mp isKnown with ⟨value, isValue, rfl⟩
  rcases parseU64_i32Value isValue with ⟨number, parsed, small, rfl⟩
  have whole : number % 2 ^ IntType.i32.bits = number :=
    Nat.mod_eq_of_lt (Nat.lt_trans small (by decide))
  rw [parsed, Option.getD_some, IntType.constInt, whole]
  exact ⟨rfl, rfl⟩

theorem holds_bool (value : Bool) (machine : Machine) :
    Holds .i32 (some (.bool value)) (machine.operand (IntType.i32.constInt value.toNat)) := by
  cases value <;> exact ⟨_, rfl, rfl, rfl⟩

/-! ## Functions that are plain -/

/-- A number that is lowered fits an i32. -/
def fits : Expression → Bool
  | .literal literal => (literalValue literal).isSome
  | _ => true

/-- The type of the word that is made of an expression. -/
def loweredType (context : TypedContext) : Expression → IntType
  | .uzumaki node => if isNodeI32 context node.id then .i32 else .i64
  | _ => .i32

mutual

/-- Numbers fit, no variable is defined by a draw or by a call, and what is returned has the type
that is returned. -/
def isPlain (context : TypedContext) (returns : Option IntType) : Statement → Bool
  | .variableDefinition _ _ _ initial => initial.all isSilent
  | .constantDefinition definition => (literalValue definition.value).isSome
  | .expression expression => fits expression
  | .return_ _ expression => fits expression && returns == some (loweredType context expression)
  | .block (.mk _ _ statements) => arePlain context returns statements
  | .assign _ _ _ | .loop _ _ _ | .break_ _ | .if_ _ _ _ _ => true
  | .typeDefinition _ _ _ | .assert _ _ => true

def arePlain (context : TypedContext) (returns : Option IntType) : List Statement → Bool
  | [] => true
  | head :: tail => isPlain context returns head && arePlain context returns tail

end

/-- The body is plain for the type of the function. -/
def isPlainFunction (context : TypedContext) (definition : FunctionDefinition) : Bool :=
  (functionType definition).any fun returns => isPlain context returns (.block definition.body)

/-! ## Bindings and slots -/

/-- A slot is at a place of the function that has been made, and holds the value of the binding. -/
structure Entry (function bound : Nat) (memory : Place → Option Word)
    (slot : String × Option Slot) (binding : String × Option Value) : Prop where
  name : slot.1 = binding.1
  stored : ∀ found : Slot, slot.2 = some found → found.1.function = function ∧
    found.1.index < bound ∧ Holds .i32 binding.2 (memory found.1)

def Represents (builder : Builder Scope) (bindings : Bindings) (memory : Place → Option Word) :
    Prop :=
  List.Forall₂ (Entry builder.function builder.instructions.length memory) builder.variables_
    bindings

variable {name : String}

namespace Represents

variable {builder after : Builder Scope} {bindings : Bindings}
  {memory memory' : Place → Option Word}

/-- Only places that have not been made yet change. -/
theorem later (represents : Represents builder bindings memory)
    (function : after.function = builder.function)
    (variables_ : after.variables_ = builder.variables_)
    (grows : builder.instructions.length ≤ after.instructions.length)
    (kept : ∀ place : Place, place.index < builder.instructions.length →
      memory' place = memory place) : Represents after bindings memory' := by
  rw [Represents, function, variables_]
  refine List.Forall₂.imp ?_ represents
  intro slot binding entry
  refine ⟨entry.name, fun found isFound => ?_⟩
  rcases entry.stored found isFound with ⟨inFunction, below, holds⟩
  refine ⟨inFunction, Nat.lt_of_lt_of_le below grows, ?_⟩
  rw [kept found.1 below]
  exact holds

theorem lookup {name : String} {found : Slot} (represents : Represents builder bindings memory)
    (isFound : (builder.variables_.lookup name).join = some found) :
    Holds .i32 (bindings.lookup name).join (memory found.1) := by
  rw [Represents] at represents
  generalize builder.variables_ = scope at represents isFound
  induction represents with
  | nil => cases isFound
  | @cons slot binding slots rest entry tail induction =>
      rw [List.lookup_cons] at isFound ⊢
      rw [← entry.name]
      cases same : name == slot.1 with
      | true =>
          rw [same] at isFound
          exact (entry.stored found isFound).2.2
      | false =>
          rw [same] at isFound
          exact induction isFound

theorem declare {slot : Option Slot} {value : Option Value}
    (represents : Represents builder bindings memory)
    (stored : ∀ found : Slot, slot = some found → found.1.function = builder.function ∧
      found.1.index < builder.instructions.length ∧ Holds .i32 value (memory found.1)) :
    Represents { builder with variables_ := (name, slot) :: builder.variables_ }
      ((name, value) :: bindings) memory :=
  .cons ⟨rfl, stored⟩ represents

end Represents

/-! ## Code that has been added -/

theorem execute_append (function : Nat) (first second : List Instruction) (index : Nat)
    (machine : Machine) :
    execute function (first ++ second) index machine =
      execute function first index machine >>= fun machine =>
        execute function second (index + first.length) machine := by
  induction first generalizing index machine with
  | nil => rfl
  | cons head tail induction =>
      rw [List.cons_append, execute, execute, bind_assoc_fallible]
      refine congrArg _ (funext fun machine => ?_)
      rw [induction, List.length_cons, Nat.add_right_comm, Nat.add_assoc]

/-- Memory only changes at places that have not been made before. -/
def Keeps (builder : Builder Scope) (machine machine' : Machine) : Prop :=
  ∀ place : Place, place.index < builder.instructions.length →
    machine'.memory place = machine.memory place

/-- The instructions that have been added do what is meant, from every machine that the precondition
allows, and the postcondition holds behind them. -/
def Realizes {γ α : Type} (returns : Option IntType) (builder after : Builder Scope)
    (pre : γ → Machine → Prop) (meaning : γ → Meaning α) (post : γ → α → Machine → Prop) : Prop :=
  after.function = builder.function ∧ ∃ added,
    after.instructions = builder.instructions ++ added ∧
      ∀ ghost machine, pre ghost machine →
        Agree (Ending (fun value machine' => post ghost value machine' ∧
            Keeps builder machine machine') (Returns returns))
          (meaning ghost).run
          (execute builder.function added builder.instructions.length machine).run

namespace Realizes

variable {returns : Option IntType} {γ α β : Type} {builder middle after : Builder Scope}
  {pre : γ → Machine → Prop} {first : γ → Meaning α} {between : γ → α → Machine → Prop}
  {second : γ → α → Meaning β}
  {post : γ → β → Machine → Prop}

theorem bind (realizes : Realizes returns builder middle pre first between)
    (later : Realizes returns middle after (fun ghost : γ × α => between ghost.1 ghost.2)
      (fun ghost => second ghost.1 ghost.2) fun ghost => post ghost.1) :
    Realizes returns builder after pre (fun ghost => first ghost >>= second ghost) post := by
  rcases realizes with ⟨function, added, grown, agree⟩
  rcases later with ⟨functionLater, addedLater, grownLater, agreeLater⟩
  refine ⟨functionLater.trans function, added ++ addedLater, ?_, ?_⟩
  · rw [grownLater, grown, List.append_assoc]
  · intro ghost machine holds
    rw [execute_append]
    refine (agree ghost machine holds).bind_fallible fun value machine' ended => ?_
    have continues := agreeLater (ghost, value) machine' ended.1
    rw [function, grown, List.length_append] at continues
    refine continues.weaken_values fun result last ending => ⟨ending.1, fun place below => ?_⟩
    rw [ending.2 place (by rw [grown, List.length_append]; omega), ended.2 place below]

/-- What is realized for all of the ghosts is realized for those that are chosen. -/
theorem choose {γ' : Type} (choice : γ' → γ)
    (realizes : Realizes returns builder after pre first between) :
    Realizes returns builder after (fun ghost => pre (choice ghost))
      (fun ghost => first (choice ghost)) fun ghost => between (choice ghost) := by
  rcases realizes with ⟨function, added, grown, agree⟩
  exact ⟨function, added, grown, fun ghost => agree (choice ghost)⟩

/-- No code is made. -/
theorem pure {value : γ → α}
    (holds : ∀ ghost machine, pre ghost machine → between ghost (value ghost) machine)
    (function : after.function = builder.function)
    (instructions : after.instructions = builder.instructions) :
    Realizes returns builder after pre (fun ghost => Pure.pure (value ghost)) between := by
  refine ⟨function, [], by rw [instructions, List.append_nil], fun ghost machine initially => ?_⟩
  exact agree_pure ⟨holds ghost machine initially, fun _ _ => rfl⟩

/-- One instruction is made. -/
theorem build {instruction : Instruction}
    (executes : ∀ ghost machine, pre ghost machine →
      Agree (Ending (fun value machine' => between ghost value machine' ∧
          Keeps builder machine machine') (Returns returns))
        (first ghost).run
        (executeInstruction ⟨builder.function, builder.instructions.length⟩ machine
          instruction).run)
    (function : after.function = builder.function)
    (instructions : after.instructions = builder.instructions ++ [instruction]) :
    Realizes returns builder after pre first between := by
  refine ⟨function, [instruction], instructions, fun ghost machine initially => ?_⟩
  have single : execute builder.function [instruction] builder.instructions.length machine =
      executeInstruction ⟨builder.function, builder.instructions.length⟩ machine
        instruction := by
    exact bind_pure_fallible _
  rw [single]
  exact executes ghost machine initially

end Realizes

/-! ## Expressions -/

/-- What holds where an expression has been lowered. -/
def Evaluated (after : Builder Scope) (type : IntType) (result : IntValue) (bindings : Bindings)
    (value : Option Value) (machine : Machine) : Prop :=
  Represents after bindings machine.memory ∧ Holds type value (machine.operand result)

variable {context : TypedContext} {returns : Option IntType} {builder after : Builder Scope}
  {result : IntValue}

theorem lowerLiteral_realizes (returns : Option IntType) {literal : Literal}
    (fits : (literalValue literal).isSome = true)
    (run : (lowerLiteral literal : Lowering Scope IntValue) builder = some (result, after)) :
    after = builder ∧ Realizes returns builder after
      (fun bindings machine => Represents builder bindings machine.memory)
      (fun _ => Pure.pure (literalValue literal)) (Evaluated after .i32 result) := by
  cases literal with
  | bool node value =>
      rcases Lowering.pure_eq_some.mp run with ⟨rfl, rfl⟩
      exact ⟨rfl, Realizes.pure (fun _ machine represents =>
        ⟨represents, holds_bool value machine⟩) rfl rfl⟩
  | number node text =>
      rcases Lowering.pure_eq_some.mp run with ⟨rfl, rfl⟩
      exact ⟨rfl, Realizes.pure (fun _ machine represents =>
        ⟨represents, holds_number fits machine⟩) rfl rfl⟩
  | _ => cases run

theorem drawn_realizes {intrinsic : Intrinsic} {type : IntType} {place : Place}
    (draws : intrinsic.effect = .draw type)
    (run : (build (.call intrinsic name) : Lowering Scope Place) builder = some (place, after)) :
    after.variables_ = builder.variables_ ∧ Realizes returns builder after
      (fun bindings machine => Represents builder bindings machine.memory)
      (fun _ => drawn type) (Evaluated after type (.made type place)) := by
  rcases build_eq_some.mp run with ⟨rfl, rfl⟩
  refine ⟨rfl, Realizes.build (fun bindings machine represents => ?_) rfl rfl⟩
  rw [executeInstruction, draws]
  refine Agree.ask fun bits => Agree.done ⟨⟨?_, ?_⟩, fun _ _ => rfl⟩
  · exact represents.later rfl rfl (by simp) fun _ _ => rfl
  · exact ⟨_, rfl, Function.update_self _ _ _, rfl⟩

theorem lowerUzumaki_realizes
    (run : (lowerUzumaki context node : Lowering Scope IntValue) builder = some (result, after)) :
    after.variables_ = builder.variables_ ∧ Realizes returns builder after
      (fun bindings machine => Represents builder bindings machine.memory)
      (fun _ => uzumakiMeaning context node)
      (Evaluated after (loweredType context (.uzumaki node)) result) := by
  rw [lowerUzumaki] at run
  rw [uzumakiMeaning, loweredType]
  split at run
  next isI32 =>
    rw [if_pos isI32, if_pos isI32]
    rcases Lowering.bind_eq_some.mp run with ⟨place, last, built, returns⟩
    rcases Lowering.pure_eq_some.mp returns with ⟨rfl, rfl⟩
    exact drawn_realizes rfl built
  next notI32 =>
    rw [if_neg notI32, if_neg notI32]
    split at run
    next isI64 =>
      rw [if_pos isI64]
      rcases Lowering.bind_eq_some.mp run with ⟨place, last, built, returns⟩
      rcases Lowering.pure_eq_some.mp returns with ⟨rfl, rfl⟩
      exact drawn_realizes rfl built
    next => cases run

variable {expression : Expression}

theorem lowerExpression_realizes (plain : fits expression = true)
    (run : Lexical.lowerExpression context expression builder = some (result, after)) :
    after.variables_ = builder.variables_ ∧ Realizes returns builder after
      (fun bindings machine => Represents builder bindings machine.memory)
      (fun bindings => expressionMeaning context bindings expression)
      (Evaluated after (loweredType context expression) result) := by
  cases expression with
  | literal literal =>
      rcases lowerLiteral_realizes returns plain run with ⟨rfl, realizes⟩
      exact ⟨rfl, realizes⟩
  | identifier identifier =>
      rcases Lowering.bind_eq_some.mp run with ⟨found, middle, isFound, loads⟩
      rcases Option.map_eq_some_iff.mp isFound with ⟨slot, inScope, equal⟩
      cases equal
      rcases Lowering.bind_eq_some.mp loads with ⟨place, last, built, returns⟩
      rcases build_eq_some.mp built with ⟨rfl, rfl⟩
      rcases Lowering.pure_eq_some.mp returns with ⟨rfl, rfl⟩
      refine ⟨rfl, Realizes.build (fun bindings machine represents => ?_) rfl rfl⟩
      refine agree_pure ⟨⟨?_, ?_⟩, fun _ _ => rfl⟩
      · exact represents.later rfl rfl (by simp) fun _ _ => rfl
      · rcases represents.lookup inScope with ⟨known, isKnown, held, type⟩
        exact ⟨known, isKnown, (Function.update_self _ _ _).trans held, type⟩
  | uzumaki node => exact lowerUzumaki_realizes run
  | _ => cases run

/-! ## Statements -/

/-- What holds where statements have been lowered. -/
def Bound {γ : Type} (after : Builder Scope) (_ghost : γ) (bindings : Bindings)
    (machine : Machine) : Prop :=
  Represents after bindings machine.memory

/-- A value is stored at a new place. -/
def Machine.stored (machine : Machine) (place : Place) (value : IntValue) : Machine :=
  (machine.setMemory place none).setMemory place (machine.operand value)

theorem Machine.stored_at (machine : Machine) (place : Place) (value : IntValue) :
    (machine.stored place value).memory place = machine.operand value :=
  Function.update_self _ _ _

theorem stored_keeps (machine : Machine) (place : Place) (value : IntValue)
    (fresh : builder.instructions.length ≤ place.index) :
    Keeps builder machine (machine.stored place value) := by
  intro other below
  have different : other ≠ place := by
    intro equal
    rw [equal] at below
    omega
  exact (Function.update_of_ne different _ _).trans (Function.update_of_ne different _ _)

theorem execute_stored (function index : Nat) (machine : Machine) (type : IntType) (name : String)
    (value : IntValue) :
    execute function [.alloca type name, .store ⟨function, index⟩ value] index machine =
      Pure.pure (machine.stored ⟨function, index⟩ value) := by
  cases value with
  | const type value => rfl
  | made type place => rfl

/-- What is stored for a name or for a temporary. -/
theorem store_realizes {γ α : Type} {pre : γ → Machine → Prop} {post : γ → α → Machine → Prop}
    {type : IntType} {value : IntValue} {meaning : γ → α}
    (function : after.function = builder.function)
    (instructions : after.instructions = builder.instructions ++ [.alloca type name,
      .store ⟨builder.function, builder.instructions.length⟩ value])
    (stores : ∀ ghost machine, pre ghost machine → post ghost (meaning ghost)
      (machine.stored ⟨builder.function, builder.instructions.length⟩ value)) :
    Realizes returns builder after pre (fun ghost => Pure.pure (meaning ghost)) post := by
  refine ⟨function, _, instructions, fun ghost machine holds => ?_⟩
  rw [execute_stored]
  exact agree_pure ⟨stores ghost machine holds, stored_keeps machine _ value (Nat.le_refl _)⟩

variable {parents : List BlockType}

theorem keepTemporary_realizes {value : IntValue}
    (run : (keepTemporary parents value : Lowering Scope Unit) builder = some ((), after)) :
    after.variables_ = builder.variables_ ∧ Realizes returns builder after
      (fun bindings machine => Represents builder bindings machine.memory)
      (fun bindings => Pure.pure bindings) (Bound after) := by
  rw [keepTemporary] at run
  cases head : parents.head? with
  | none =>
    rw [head] at run
    cases run
  | some first =>
    rw [head] at run
    dsimp only at run
    split at run
    next =>
      rcases Lowering.bind_eq_some.mp run with ⟨pointer, middle, allocated, stores⟩
      rcases build_eq_some.mp allocated with ⟨rfl, rfl⟩
      rcases Lowering.bind_eq_some.mp stores with ⟨place, last, stored, returns⟩
      rcases build_eq_some.mp stored with ⟨rfl, rfl⟩
      rcases Lowering.pure_eq_some.mp returns with ⟨_, rfl⟩
      refine ⟨rfl, store_realizes rfl (List.append_assoc _ _ _) ?_⟩
      intro bindings machine represents
      exact represents.later rfl rfl (by simp)
        (stored_keeps machine _ value (Nat.le_refl _))
    next =>
      rcases Lowering.pure_eq_some.mp run with ⟨_, rfl⟩
      exact ⟨rfl, Realizes.pure (fun _ _ represents => represents) rfl rfl⟩

/-- Code is made for the digits of a number only. -/
theorem lexicalConstant_cases (context : TypedContext) (definition : ConstantDefinition) :
    Lexical.lowerConstant context definition = todo ∨
      ∃ node text, definition.value = .number node text ∧
        Lexical.lowerConstant context definition = (do
          let pointer ← build (.alloca .i32 definition.name.name)
          let _ ← build (.store pointer (IntType.i32.constInt ((parseU64 text).getD 0)))
          Lexical.declare definition.name.name (some (pointer, .i32))) := by
  rw [Lexical.lowerConstant]
  split
  next =>
    split
    next node text isNumber => exact .inr ⟨node, text, isNumber, rfl⟩
    next => exact .inl rfl
  next => exact .inl rfl

theorem lowerConstant_realizes {definition : ConstantDefinition}
    (fits : (literalValue definition.value).isSome = true)
    (run : Lexical.lowerConstant context definition builder = some ((), after)) :
    Realizes returns builder after
      (fun bindings machine => Represents builder bindings machine.memory)
      (fun bindings => Pure.pure
        ((definition.name.name, literalValue definition.value) :: bindings)) (Bound after) := by
  rcases lexicalConstant_cases context definition with stuck | ⟨node, text, isNumber, equal⟩
  · rw [stuck] at run
    cases run
  · rw [isNumber] at fits ⊢
    rw [equal, storeConstant_run] at run
    cases run
    refine store_realizes rfl rfl fun bindings machine represents => ?_
    have kept (code : List Instruction) :
        Represents { builder with instructions := builder.instructions ++ code } bindings
          (machine.stored ⟨builder.function, builder.instructions.length⟩
            (IntType.i32.constInt ((parseU64 text).getD 0))).memory :=
      represents.later rfl rfl (by simp) (stored_keeps machine _ _ (Nat.le_refl _))
    refine (kept _).declare fun found isFound => ?_
    cases isFound
    refine ⟨rfl, by simp, ?_⟩
    rw [Machine.stored_at]
    exact holds_number fits machine

/-! ## Blocks -/

/-- A marker asks for its effect and changes nothing. -/
theorem marker_realizes {intrinsic : Intrinsic} {effect : Effect}
    (asks : intrinsic.effect = effect)
    (unchanged : ∀ (machine : Machine) place answer, machine.answered place effect answer = machine)
    (run : (buildCall (some intrinsic) : Lowering Scope Unit) builder = some ((), after)) :
    after.variables_ = builder.variables_ ∧ Realizes returns builder after
      (fun bindings machine => Represents builder bindings machine.memory)
      (fun _ => request effect)
      (fun bindings _ machine => Represents after bindings machine.memory) := by
  rcases Lowering.bind_eq_some.mp run with ⟨place, last, built, returns⟩
  rcases build_eq_some.mp built with ⟨rfl, rfl⟩
  rcases Lowering.pure_eq_some.mp returns with ⟨_, rfl⟩
  refine ⟨rfl, Realizes.build (fun bindings machine represents => ?_) rfl rfl⟩
  rw [executeInstruction, asks]
  refine Agree.ask fun answer => Agree.done ⟨?_, ?_⟩
  · rw [unchanged]
    exact represents.later rfl rfl (by simp) fun _ _ => rfl
  · rw [unchanged]
    exact fun _ _ => rfl

theorem enter_realizes {kind : BlockKind}
    (run : (buildCall (startIntrinsic kind) : Lowering Scope Unit) builder = some ((), after)) :
    after.variables_ = builder.variables_ ∧ Realizes returns builder after
      (fun bindings machine => Represents builder bindings machine.memory)
      (fun _ => enter kind)
      (fun bindings _ machine => Represents after bindings machine.memory) := by
  cases kind with
  | block =>
      rcases Lowering.pure_eq_some.mp run with ⟨_, rfl⟩
      exact ⟨rfl, Realizes.pure (fun _ _ represents => represents) rfl rfl⟩
  | _ => exact marker_realizes rfl (fun _ _ _ => rfl) run

theorem leave_realizes (returns : Option IntType) {kind : BlockKind}
    (run : (buildCall (endIntrinsic kind) : Lowering Scope Unit) builder = some ((), after)) :
    after.variables_ = builder.variables_ ∧ Realizes returns builder after
      (fun bindings machine => Represents builder bindings machine.memory)
      (fun _ => leave kind)
      (fun bindings _ machine => Represents after bindings machine.memory) := by
  cases kind with
  | block =>
      rcases Lowering.pure_eq_some.mp run with ⟨_, rfl⟩
      exact ⟨rfl, Realizes.pure (fun _ _ represents => represents) rfl rfl⟩
  | _ => exact marker_realizes rfl (fun _ _ _ => rfl) run

/-- Behind a block the slots in front of it hold what they held. -/
theorem Realizes.inScope {inner : Builder Scope} {meaning : Bindings → Meaning Bindings}
    (realizes : Realizes returns builder inner
      (fun bindings machine => Represents builder bindings machine.memory) meaning (Bound inner)) :
    Realizes returns builder { inner with variables_ := builder.variables_ }
      (fun bindings machine => Represents builder bindings machine.memory) meaning
      (fun bindings _ machine =>
        Represents { inner with variables_ := builder.variables_ } bindings machine.memory) := by
  rcases realizes with ⟨function, added, grown, agree⟩
  refine ⟨function, added, grown, fun bindings machine represents => ?_⟩
  refine (agree bindings machine represents).weaken_values fun _ machine' ended => ?_
  refine ⟨represents.later function rfl ?_ ended.2, ended.2⟩
  change builder.instructions.length ≤ inner.instructions.length
  rw [grown, List.length_append]
  omega

/-- A silent expression has a meaning, if not a known value. -/
theorem expressionMeaning_silent (silent : isSilent expression = true) (bindings : Bindings) :
    ∃ value, expressionMeaning context bindings expression = Pure.pure value := by
  cases expression with
  | literal literal => exact ⟨_, rfl⟩
  | identifier identifier => exact ⟨_, rfl⟩
  | uzumaki node => cases silent
  | _ => exact ⟨none, if_pos silent⟩

theorem initialMeaning_silent {initial : Option Expression} (silent : initial.all isSilent = true)
    (bindings : Bindings) :
    ∃ value, initialMeaning context bindings initial = Pure.pure value := by
  cases initial with
  | none => exact ⟨none, rfl⟩
  | some expression => exact expressionMeaning_silent silent bindings

/-- A variable has a binding, and no slot. -/
theorem variableDefinition_realizes {initial : Option Expression}
    (silent : initial.all isSilent = true)
    (run : Lexical.declare name none builder = some ((), after)) :
    Realizes returns builder after
      (fun bindings machine => Represents builder bindings machine.memory)
      (fun bindings => do
        let value ← initialMeaning context bindings initial
        return (name, value) :: bindings) (Bound after) := by
  cases run
  refine ⟨rfl, [], (List.append_nil _).symm, fun bindings machine represents => ?_⟩
  rcases initialMeaning_silent silent bindings with ⟨value, isPure⟩
  dsimp only
  rw [isPure]
  refine agree_pure ⟨represents.declare fun found isFound => ?_, fun _ _ => rfl⟩
  cases isFound

theorem expressionStatement_realizes (plain : fits expression = true)
    (run : Lexical.lowerStatement context parents (.expression expression) builder =
      some ((), after)) :
    Realizes returns builder after
      (fun bindings machine => Represents builder bindings machine.memory)
      (fun bindings => statementMeaning context bindings (.expression expression))
      (Bound after) := by
  rw [Lexical.lowerStatement] at run
  rcases Lowering.bind_eq_some.mp run with ⟨value, middle, lowered, kept⟩
  simp only [statementMeaning]
  refine (lowerExpression_realizes plain lowered).2.bind ?_
  rcases (keepTemporary_realizes kept).2 with ⟨function, added, grown, agree⟩
  exact ⟨function, added, grown, fun ghost machine evaluated =>
    agree ghost.1 machine evaluated.1⟩

theorem return_realizes (plain : isPlain context returns (.return_ node expression) = true)
    (run : Lexical.lowerStatement context parents (.return_ node expression) builder =
      some ((), after)) :
    Realizes returns builder after
      (fun bindings machine => Represents builder bindings machine.memory)
      (fun bindings => statementMeaning context bindings (.return_ node expression))
      (Bound after) := by
  rw [isPlain, Bool.and_eq_true] at plain
  rcases plain with ⟨fits, typed⟩
  rw [Lexical.lowerStatement] at run
  rcases Lowering.bind_eq_some.mp run with ⟨value, middle, lowered, ends⟩
  rcases Lowering.bind_eq_some.mp ends with ⟨place, last, built, done⟩
  rcases build_eq_some.mp built with ⟨rfl, rfl⟩
  rcases Lowering.pure_eq_some.mp done with ⟨_, rfl⟩
  simp only [statementMeaning]
  refine (lowerExpression_realizes fits lowered).2.bind (Realizes.build ?_ rfl rfl)
  intro ghost machine evaluated
  exact Agree.done ⟨_, eq_of_beq typed, evaluated.2⟩

mutual

theorem lowerStatement_realizes {parents : List BlockType} {builder after : Builder Scope} :
    ∀ {statement : Statement}, isPlain context returns statement = true →
      Lexical.lowerStatement context parents statement builder = some ((), after) →
        Realizes returns builder after
          (fun bindings machine => Represents builder bindings machine.memory)
          (fun bindings => statementMeaning context bindings statement) (Bound after)
  | .block (.mk kind node statements), plain, run => by
      rw [Lexical.lowerStatement] at run
      rcases Lowering.bind_eq_some.mp run with ⟨_, entered, enters, rest⟩
      rcases Lowering.bind_eq_some.mp rest with ⟨_, left, within, leaves⟩
      rcases Option.map_eq_some_iff.mp within with ⟨⟨_, inner⟩, lowered, equal⟩
      cases equal
      rcases enter_realizes enters with ⟨_, entering⟩
      have body := (lowerStatements_realizes plain lowered).inScope
      rcases leave_realizes returns leaves with ⟨_, leaving⟩
      simp only [statementMeaning]
      have behind := leaving.choose fun ghost : (Bindings × Unit) × Bindings => ghost.1.1
      refine entering.bind ((body.choose Prod.fst).bind (behind.bind ?_))
      exact Realizes.pure (fun _ _ represents => represents) rfl rfl
  | .expression expression, plain, run => expressionStatement_realizes plain run
  | .return_ node expression, plain, run => return_realizes plain run
  | .variableDefinition _ name _ initial, silent, run => by
      simp only [statementMeaning]
      exact variableDefinition_realizes silent run
  | .constantDefinition definition, fits, run => by
      simp only [statementMeaning]
      exact lowerConstant_realizes fits run
  | .assign _ _ _, _, run | .loop _ _ _, _, run | .break_ _, _, run | .if_ _ _ _ _, _, run
  | .typeDefinition _ _ _, _, run | .assert _ _, _, run => by
      rw [Lexical.lowerStatement] at run
      cases run

theorem lowerStatements_realizes {parents : List BlockType} {builder after : Builder Scope} :
    ∀ {statements : List Statement}, arePlain context returns statements = true →
      Lexical.lowerStatements context parents statements builder = some ((), after) →
        Realizes returns builder after
          (fun bindings machine => Represents builder bindings machine.memory)
          (fun bindings => statementListMeaning context bindings statements) (Bound after)
  | [], _, run => by
      rcases Lowering.pure_eq_some.mp run with ⟨_, rfl⟩
      simp only [statementListMeaning]
      exact Realizes.pure (fun _ _ represents => represents) rfl rfl
  | head :: tail, plain, run => by
      rw [Lexical.lowerStatements] at run
      rcases Lowering.bind_eq_some.mp run with ⟨_, middle, lowersHead, lowersTail⟩
      rcases (Bool.and_eq_true _ _).mp plain with ⟨headPlain, tailPlain⟩
      simp only [statementListMeaning]
      refine (lowerStatement_realizes headPlain lowersHead).bind ?_
      exact (lowerStatements_realizes tailPlain lowersTail).choose Prod.snd

end

/-! ## Functions -/

/-- The code ends as the function does. Behind a function without a result it returns nothing. -/
def Finishes (definition : FunctionDefinition) (returns : Option IntType) :
    Except FunctionExit Bindings → Except (Option (Option Word)) Machine → Prop
  | .error exit, .error returned => Returns returns exit returned
  | .ok _, .error returned => definition.isVoid = true ∧ returned = none
  | .ok _, .ok _ => definition.isVoid = false
  | .error _, .ok _ => False

/-- Whatever the arguments and the draws are, the code does what the function means, and what it
returns has its type. -/
structure Implements (context : TypedContext) (position : Nat) (definition : FunctionDefinition)
    (function : FunctionValue) : Prop where
  name : function.name = definition.name.name
  returns : functionType definition = some function.returnType
  agree : ∀ arguments, Agree (Finishes definition function.returnType)
    (functionMeaning context definition arguments).run (function.run position).run

/-- Where the function returns, it returns a known value, and the code returns its word. -/
theorem Implements.returned {position : Nat} {definition : FunctionDefinition}
    {function : FunctionValue} {State : Type}
    (implements : Implements context position definition function)
    {answers : Semantics Effect Effect.Answer State} {state state' : State}
    {arguments : String → Option Value} {value : Option Value}
    (steps : Steps answers (functionMeaning context definition arguments).run state
      (.done (.error (.returned value))) state') :
    ∃ known, value = some known ∧ function.returnType = some known.word.type ∧
      Steps answers (function.run position).run state (.done (.error (some (some known.word))))
        state' := by
  rcases (implements.agree arguments).steps steps with ⟨result, finishes, steps'⟩
  cases result with
  | ok machine => exact finishes.elim
  | error returned =>
      cases returned with
      | none => exact finishes.elim
      | some word =>
          rcases finishes with ⟨_, isType, known, isKnown, rfl, rfl⟩
          exact ⟨known, isKnown, isType, steps'⟩

theorem represents_parameters (names : List String) (arguments : String → Option Value)
    (function bound : Nat) (memory : Place → Option Word) :
    List.Forall₂ (Entry function bound memory) (names.map fun name => (name, none))
      (names.map fun name => (name, arguments name)) := by
  induction names with
  | nil => exact .nil
  | cons name names induction =>
      refine .cons ⟨rfl, fun found isFound => ?_⟩ induction
      cases isFound

theorem lowerBody_implements {definition : FunctionDefinition} {position : Nat}
    {after : Builder Scope} (plain : isPlain context returns (.block definition.body) = true)
    (run : Lexical.lowerBody context definition
      { function := position,
        variables_ := (Lexical.parameterNames definition).map fun name => (name, none) } =
      some ((), after))
    (arguments : String → Option Value) :
    Agree (Finishes definition returns) (functionMeaning context definition arguments).run
      (execute position after.instructions 0 {}).run := by
  rcases Lowering.bind_eq_some.mp run with ⟨_, body, lowered, ends⟩
  rcases lowerStatement_realizes plain lowered with ⟨_, added, grown, agree⟩
  have inBody := agree _ {} (represents_parameters (Lexical.parameterNames definition) arguments
    position 0 fun _ => none)
  rw [buildVoidReturn] at ends
  split at ends
  next isVoid =>
    rcases Lowering.bind_eq_some.mp ends with ⟨place, last, built, returns⟩
    rcases build_eq_some.mp built with ⟨rfl, rfl⟩
    rcases Lowering.pure_eq_some.mp returns with ⟨_, rfl⟩
    change Agree _ _ (execute position (body.instructions ++ [.ret none]) 0 {}).run
    rw [grown, List.nil_append, execute_append]
    refine Agree.bind_right inBody fun result result' ending => ?_
    cases result with
    | ok bindings =>
        cases result' with
        | ok machine => exact Agree.done ⟨isVoid, rfl⟩
        | error returned => exact ending.elim
    | error exit =>
        cases result' with
        | ok machine => exact ending.elim
        | error returned => exact Agree.done ending
  next notVoid =>
    rcases Lowering.pure_eq_some.mp ends with ⟨_, rfl⟩
    rw [grown, List.nil_append]
    refine inBody.weaken fun result result' ending => ?_
    cases result with
    | ok bindings =>
        cases result' with
        | ok machine => exact eq_false_of_ne_true notVoid
        | error returned => exact ending.elim
    | error exit =>
        cases result' with
        | ok machine => exact ending.elim
        | error returned => exact ending

theorem visitFunctionDefinition_implements {definition : FunctionDefinition}
    {functions after : List FunctionValue} (plain : isPlainFunction context definition = true)
    (run : Lexical.visitFunctionDefinition context definition functions = some after) :
    ∃ function, after = functions ++ [function] ∧
      Implements context functions.length definition function := by
  simp only [Lexical.visitFunctionDefinition, Option.bind_eq_bind, Option.bind_eq_some_iff,
    Option.pure_def, Option.some.injEq] at run
  rcases run with ⟨returnType, isType, ⟨⟨⟩, builder⟩, lowered, rfl⟩
  rw [isPlainFunction, isType, Option.any_some] at plain
  exact ⟨_, rfl, rfl, isType, lowerBody_implements plain lowered⟩

/-- Function for function, the code does what the definitions mean. -/
def AllImplemented (context : TypedContext) (position : Nat) (definitions : List FunctionDefinition)
    (functions : List FunctionValue) : Prop :=
  functions.length = definitions.length ∧ ∀ index definition function,
    definitions[index]? = some definition → functions[index]? = some function →
      Implements context (position + index) definition function

theorem visitFunctionDefinitions_implement {definitions : List FunctionDefinition}
    {functions after : List FunctionValue}
    (plain : ∀ definition ∈ definitions, isPlainFunction context definition = true)
    (run : Lexical.visitFunctionDefinitions context definitions functions = some after) :
    ∃ added, after = functions ++ added ∧
      AllImplemented context functions.length definitions added := by
  induction definitions generalizing functions with
  | nil =>
      cases run
      refine ⟨[], (List.append_nil _).symm, rfl, ?_⟩
      intro index definition function isDefinition
      cases isDefinition
  | cons head tail induction =>
      rcases Option.bind_eq_some_iff.mp run with ⟨middle, visits, later⟩
      rcases visitFunctionDefinition_implements (plain head List.mem_cons_self) visits with
        ⟨function, rfl, implements⟩
      rcases induction (fun definition member => plain definition (List.mem_cons_of_mem _ member))
        later with ⟨added, rfl, sameLength, implemented⟩
      refine ⟨function :: added, by rw [List.append_assoc, List.singleton_append], ?_, ?_⟩
      · rw [List.length_cons, List.length_cons, sameLength]
      · intro index definition compiled isDefinition isCompiled
        cases index with
        | zero =>
            cases isDefinition
            cases isCompiled
            exact implements
        | succ index =>
            have later := implemented index definition compiled isDefinition isCompiled
            rw [List.length_append, List.length_singleton, Nat.add_assoc, Nat.add_comm 1] at later
            exact later

/-- Where every use means the last definition compiled under its name and the functions are plain,
each function of the module asks and returns what its definition means. -/
theorem codegen_preserves (context : TypedContext) (file : SourceFile) (compiler : Compiler)
    (program : context.program = [file]) (compiled : codegen context = some compiler)
    (innermost : LatestIsInnermost (SourceFile.functionDefinitions file))
    (plain : ∀ definition ∈ SourceFile.functionDefinitions file,
      isPlainFunction context definition = true) :
    AllImplemented context 0 (SourceFile.functionDefinitions file) compiler.functions := by
  rw [codegen, program] at compiled
  have lexical := (visits_side_by_side Compiled.initial compiled).mpr innermost
  rcases visitFunctionDefinitions_implement plain lexical with ⟨added, equal, implemented⟩
  rw [equal]
  exact implemented

/-- `fn f() -> i32 { const x: i32 = 1; forall { @; } return x; }` -/
def drawsInForall : FunctionDefinition where
  id := 1
  name := { id := 2, name := "f" }
  returns := some (.simple .i32)
  body := .mk .block { id := 3 }
    [.constantDefinition
      { id := 4, name := { id := 5, name := "x" }, ty := .simple .i32,
        value := .number { id := 6 } "1" },
    .block (.mk .forall_ { id := 7 } [.expression (.uzumaki { id := 8 })]),
    .return_ { id := 9 } (.identifier { id := 10, name := "x" })]

def drawsInForallContext : TypedContext :=
  { contextOfI32 with program := [{ definitions := [.function drawsInForall] }] }

theorem drawsInForall_implemented :
    ∃ compiler, codegen drawsInForallContext = some compiler ∧
      AllImplemented drawsInForallContext 0 [drawsInForall] compiler.functions := by
  have compiles : ∃ compiler, codegen drawsInForallContext = some compiler := ⟨_, rfl⟩
  rcases compiles with ⟨compiler, compiled⟩
  refine ⟨compiler, compiled, codegen_preserves drawsInForallContext
    { definitions := [.function drawsInForall] } compiler rfl compiled ?_ (by decide)⟩
  intro use member
  cases List.mem_singleton.mp member
  rfl

end Inference.Codegen

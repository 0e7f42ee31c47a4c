import Inference.Codegen.OptimizationBarriers

/-! # Structure of the emitted code

The terminators of the basic blocks and the nesting of the intrinsics that start and
end non-deterministic blocks.
-/

namespace Inference.Codegen

open Inference.Ast Inference.TypeChecker

/-! ## Lists that end in their only mark -/

section

variable {α : Type} {mark : α} {first second : List α}

def EndsOnce (mark : α) (entries : List α) : Prop :=
  ∃ before, entries = before ++ [mark] ∧ mark ∉ before

theorem EndsOnce.singleton : EndsOnce mark [mark] :=
  ⟨[], rfl, by simp⟩

theorem EndsOnce.mem (ends : EndsOnce mark first) : mark ∈ first := by
  rcases ends with ⟨before, rfl, -⟩
  simp

theorem not_endsOnce_of_last {other : α} (different : other ≠ mark) :
    ¬EndsOnce mark (first ++ [other]) := by
  rintro ⟨before, equal, -⟩
  rw [List.append_inj_right' equal rfl |> List.cons.inj |>.1] at different
  exact different rfl

theorem endsOnce_append_iff :
    EndsOnce mark (first ++ second) ↔
      (EndsOnce mark first ∧ second = []) ∨ (mark ∉ first ∧ EndsOnce mark second) := by
  constructor
  · rintro ⟨before, equal, fresh⟩
    cases ending : second.eq_nil_or_concat with
    | inl empty =>
        subst empty
        rw [List.append_nil] at equal
        exact .inl ⟨⟨before, equal, fresh⟩, rfl⟩
    | inr concat =>
        rcases concat with ⟨init, last, rfl⟩
        rw [List.concat_eq_append, ← List.append_assoc] at equal
        have parts := List.append_inj' equal rfl
        have lastEqual : last = mark := (List.cons.inj parts.2).1
        rw [← parts.1, List.mem_append, not_or] at fresh
        exact .inr ⟨fresh.1, init, by rw [List.concat_eq_append, lastEqual], fresh.2⟩
  · rintro (⟨ends, rfl⟩ | ⟨fresh, before, rfl, freshBefore⟩)
    · rwa [List.append_nil]
    · exact ⟨first ++ before, by rw [List.append_assoc], by simp [fresh, freshBefore]⟩

end

/-! ## Balanced markers -/

/-- The intrinsics of blocks, each start closed by the end of the same kind of block. -/
inductive Balanced : List Intrinsic → Prop
  | nil : Balanced []
  | block (kind : BlockKind) {start finish : Intrinsic} {inner rest : List Intrinsic}
      (opens : startIntrinsic kind = some start) (closes : endIntrinsic kind = some finish)
      (balancedInner : Balanced inner) (balancedRest : Balanced rest) :
      Balanced (start :: (inner ++ finish :: rest))

theorem Balanced.append {first second : List Intrinsic} (balancedFirst : Balanced first)
    (balancedSecond : Balanced second) : Balanced (first ++ second) := by
  induction balancedFirst with
  | nil => exact balancedSecond
  | block kind opens closes balancedInner _ _ induction =>
      rw [List.cons_append, List.append_assoc, List.cons_append]
      exact .block kind opens closes balancedInner induction

mutual

/-- The markers of the non-deterministic blocks of a statement, as they are nested. -/
def blockMarkers : Statement → List Intrinsic
  | .block (.mk kind _ statements) =>
      (startIntrinsic kind).toList ++ statementListMarkers statements ++
        (endIntrinsic kind).toList
  | .expression _ | .assign _ _ _ | .return_ _ _ | .loop _ _ _ | .break_ _ => []
  | .if_ _ _ _ _ | .variableDefinition _ _ _ _ | .typeDefinition _ _ _ | .assert _ _ => []
  | .constantDefinition _ => []

def statementListMarkers : List Statement → List Intrinsic
  | [] => []
  | head :: tail => blockMarkers head ++ statementListMarkers tail

end

mutual

theorem balanced_blockMarkers : ∀ statement : Statement, Balanced (blockMarkers statement)
  | .block (.mk kind _ statements) => by
      have inner := balanced_statementListMarkers statements
      rw [blockMarkers]
      cases kind with
      | block => simpa [startIntrinsic, endIntrinsic] using inner
      | assume_ => exact .block .assume_ rfl rfl inner .nil
      | forall_ => exact .block .forall_ rfl rfl inner .nil
      | exists_ => exact .block .exists_ rfl rfl inner .nil
      | unique => exact .block .unique rfl rfl inner .nil
  | .expression _ => .nil
  | .assign _ _ _ => .nil
  | .return_ _ _ => .nil
  | .loop _ _ _ => .nil
  | .break_ _ => .nil
  | .if_ _ _ _ _ => .nil
  | .variableDefinition _ _ _ _ => .nil
  | .typeDefinition _ _ _ => .nil
  | .assert _ _ => .nil
  | .constantDefinition _ => .nil

theorem balanced_statementListMarkers : ∀ statements : List Statement,
    Balanced (statementListMarkers statements)
  | [] => .nil
  | head :: tail => (balanced_blockMarkers head).append (balanced_statementListMarkers tail)

end

/-! ## Well-formed code -/

/-- The instructions that are executed: those up to the first terminator. -/
def path : List Instruction → List Instruction
  | [] => []
  | instruction :: rest =>
      if instruction.isTerminator then [instruction] else instruction :: path rest

def Intrinsic.marker? : Intrinsic → Option Intrinsic
  | .uzumakiI32 | .uzumakiI64 => none
  | intrinsic => some intrinsic

/-- The start or end of a block that an instruction marks. -/
def Instruction.marker? : Instruction → Option Intrinsic
  | .call intrinsic _ => intrinsic.marker?
  | .alloca _ _ | .store _ _ | .load _ _ _ | .ret _ => none

/-- The path through the block has the markers of the source, and the last instruction
is the only terminator. -/
structure BasicBlock.WellFormed (block : BasicBlock) (source : Statement) : Prop where
  nested : (path block.instructions).filterMap Instruction.marker? = blockMarkers source
  balanced : Balanced ((path block.instructions).filterMap Instruction.marker?)
  terminated : ∃ before last, block.instructions = before ++ [last] ∧
    last.isTerminator = true ∧ ∀ instruction ∈ before, instruction.isTerminator = false

def FunctionValue.WellFormed (function : FunctionValue) (definition : FunctionDefinition) :
    Prop :=
  ∀ block ∈ function.blocks, block.WellFormed (.block definition.body)

/-! ## Where a body returns -/

mutual

/-- There is a return in the statement or in its blocks. -/
def returns : Statement → Bool
  | .return_ _ _ => true
  | .block (.mk _ _ statements) => statementListReturns statements
  | .expression _ | .assign _ _ _ | .loop _ _ _ | .break_ _ | .if_ _ _ _ _ => false
  | .variableDefinition _ _ _ _ | .typeDefinition _ _ _ | .assert _ _ => false
  | .constantDefinition _ => false

def statementListReturns : List Statement → Bool
  | [] => false
  | head :: tail => returns head || statementListReturns tail

end

def isLiteral : Expression → Bool
  | .literal _ => true
  | _ => false

mutual

/-- Nothing is emitted for the statement: it is a literal that is not kept, a variable
definition, or a plain block of such. -/
def emitsNothing (temporary : Bool) : Statement → Bool
  | .block (.mk .block _ statements) => statementListEmitsNothing temporary statements
  | .block (.mk _ _ _) => false
  | .expression expression => isLiteral expression && !temporary
  | .variableDefinition _ _ _ _ => true
  | .assign _ _ _ | .return_ _ _ | .loop _ _ _ | .break_ _ | .if_ _ _ _ _ => false
  | .typeDefinition _ _ _ | .assert _ _ | .constantDefinition _ => false

def statementListEmitsNothing (temporary : Bool) : List Statement → Bool
  | [] => true
  | head :: tail => emitsNothing temporary head && statementListEmitsNothing temporary tail

end

mutual

/-- The statement is a return, or a plain block whose only return is outside of
non-deterministic blocks and has only statements behind it that emit nothing. -/
def endsInReturn (temporary : Bool) : Statement → Bool
  | .return_ _ _ => true
  | .block (.mk .block _ statements) => statementListEndsInReturn temporary statements
  | .block (.mk _ _ _) => false
  | .expression _ | .assign _ _ _ | .loop _ _ _ | .break_ _ | .if_ _ _ _ _ => false
  | .variableDefinition _ _ _ _ | .typeDefinition _ _ _ | .assert _ _ => false
  | .constantDefinition _ => false

def statementListEndsInReturn (temporary : Bool) : List Statement → Bool
  | [] => false
  | head :: tail =>
      (endsInReturn temporary head && statementListEmitsNothing temporary tail) ||
        (!returns head && statementListEndsInReturn temporary tail)

end

/-- A void function has no return; any other one has a single return at its end. -/
def ReturnsAtEnd (definition : FunctionDefinition) : Prop :=
  if definition.isVoid then returns (.block definition.body) = false
  else endsInReturn (keepsTemporary definition.body) (.block definition.body) = true

instance (definition : FunctionDefinition) : Decidable (ReturnsAtEnd definition) :=
  inferInstanceAs (Decidable
    (if definition.isVoid then returns (.block definition.body) = false
    else endsInReturn (keepsTemporary definition.body) (.block definition.body) = true))

/-! ## Shapes of statements that return -/

theorem expressionShapes_fresh (expression : Expression) :
    Shape.return_ ∉ expressionShapes expression := by
  cases expression <;> simp [expressionShapes]

theorem temporaryShapes_fresh (temporary : Bool) :
    Shape.return_ ∉ temporaryShapes temporary := by
  cases temporary <;> simp [temporaryShapes]

theorem markerShapes_fresh (intrinsic : Option Intrinsic) :
    Shape.return_ ∉ markerShapes intrinsic := by
  cases intrinsic <;> simp [markerShapes]

theorem expressionShapes_eq_nil {expression : Expression}
    (lowers : lowersExpression expression = true) :
    expressionShapes expression = [] ↔ isLiteral expression = true := by
  cases expression <;> simp [expressionShapes, isLiteral, lowersExpression] at *

mutual

theorem returns_iff (temporary : Bool) : ∀ statement : Statement,
    Shape.return_ ∈ statementShapes temporary statement ↔ returns statement = true
  | .block (.mk kind _ statements) => by
      rw [statementShapes, returns, ← statementListReturns_iff temporary statements]
      simp [markerShapes_fresh]
  | .expression expression => by
      simp [statementShapes, returns, expressionShapes_fresh, temporaryShapes_fresh]
  | .return_ _ _ => by simp [statementShapes, returns]
  | .assign _ _ _ => by simp [statementShapes, returns]
  | .loop _ _ _ => by simp [statementShapes, returns]
  | .break_ _ => by simp [statementShapes, returns]
  | .if_ _ _ _ _ => by simp [statementShapes, returns]
  | .variableDefinition _ _ _ _ => by simp [statementShapes, returns]
  | .typeDefinition _ _ _ => by simp [statementShapes, returns]
  | .assert _ _ => by simp [statementShapes, returns]
  | .constantDefinition _ => by simp [statementShapes, returns]

theorem statementListReturns_iff (temporary : Bool) : ∀ statements : List Statement,
    Shape.return_ ∈ statementListShapes temporary statements ↔
      statementListReturns statements = true
  | [] => by simp [statementListShapes, statementListReturns]
  | head :: tail => by
      rw [statementListShapes, List.mem_append, returns_iff temporary head,
        statementListReturns_iff temporary tail, statementListReturns, Bool.or_eq_true]

end

mutual

theorem emitsNothing_iff (temporary : Bool) : ∀ statement : Statement,
    lowersStatement statement = true →
      (statementShapes temporary statement = [] ↔ emitsNothing temporary statement = true)
  | .block (.mk kind _ statements), lowers => by
      rw [lowersStatement] at lowers
      have inner := statementListEmitsNothing_iff temporary statements lowers
      cases kind <;>
        simp [statementShapes, emitsNothing, markerShapes, startIntrinsic, endIntrinsic, inner]
  | .expression expression, lowers => by
      rw [lowersStatement] at lowers
      rw [statementShapes, emitsNothing, List.append_eq_nil_iff,
        expressionShapes_eq_nil lowers]
      cases temporary <;> simp [temporaryShapes]
  | .variableDefinition _ _ _ _, _ => by simp [statementShapes, emitsNothing]
  | .return_ _ _, _ => by simp [statementShapes, emitsNothing]
  | .constantDefinition _, _ => by simp [statementShapes, emitsNothing]
  | .assign _ _ _, lowers => absurd lowers (by simp [lowersStatement])
  | .loop _ _ _, lowers => absurd lowers (by simp [lowersStatement])
  | .break_ _, lowers => absurd lowers (by simp [lowersStatement])
  | .if_ _ _ _ _, lowers => absurd lowers (by simp [lowersStatement])
  | .typeDefinition _ _ _, lowers => absurd lowers (by simp [lowersStatement])
  | .assert _ _, lowers => absurd lowers (by simp [lowersStatement])

theorem statementListEmitsNothing_iff (temporary : Bool) : ∀ statements : List Statement,
    lowersStatements statements = true →
      (statementListShapes temporary statements = [] ↔
        statementListEmitsNothing temporary statements = true)
  | [], _ => by simp [statementListShapes, statementListEmitsNothing]
  | head :: tail, lowers => by
      rw [lowersStatements, Bool.and_eq_true] at lowers
      rw [statementListShapes, statementListEmitsNothing, List.append_eq_nil_iff,
        emitsNothing_iff temporary head lowers.1,
        statementListEmitsNothing_iff temporary tail lowers.2, Bool.and_eq_true]

end

mutual

theorem endsInReturn_iff (temporary : Bool) : ∀ statement : Statement,
    lowersStatement statement = true →
      (EndsOnce Shape.return_ (statementShapes temporary statement) ↔
        endsInReturn temporary statement = true)
  | .block (.mk kind _ statements), lowers => by
      rw [lowersStatement] at lowers
      have inner := statementListEndsInReturn_iff temporary statements lowers
      cases kind with
      | block =>
          simpa [statementShapes, endsInReturn, markerShapes, startIntrinsic, endIntrinsic]
            using inner
      | assume_ | forall_ | exists_ | unique =>
          simp only [statementShapes, endsInReturn, endIntrinsic, markerShapes,
            Option.toList_some, List.map_singleton, Bool.false_eq_true, iff_false]
          exact not_endsOnce_of_last (by simp)
  | .return_ _ expression, _ => by
      rw [statementShapes, endsInReturn, endsOnce_append_iff]
      simp [expressionShapes_fresh, EndsOnce.singleton]
  | .expression expression, _ => by
      rw [endsInReturn]
      simp only [Bool.false_eq_true, iff_false]
      intro ends
      have member := (returns_iff temporary (.expression expression)).mp ends.mem
      simp [returns] at member
  | .variableDefinition node name ty value, _ => by
      rw [endsInReturn]
      simp only [Bool.false_eq_true, iff_false]
      intro ends
      have member := (returns_iff temporary (.variableDefinition node name ty value)).mp ends.mem
      simp [returns] at member
  | .constantDefinition definition, _ => by
      rw [endsInReturn]
      simp only [Bool.false_eq_true, iff_false]
      intro ends
      have member := (returns_iff temporary (.constantDefinition definition)).mp ends.mem
      simp [returns] at member
  | .assign _ _ _, lowers => absurd lowers (by simp [lowersStatement])
  | .loop _ _ _, lowers => absurd lowers (by simp [lowersStatement])
  | .break_ _, lowers => absurd lowers (by simp [lowersStatement])
  | .if_ _ _ _ _, lowers => absurd lowers (by simp [lowersStatement])
  | .typeDefinition _ _ _, lowers => absurd lowers (by simp [lowersStatement])
  | .assert _ _, lowers => absurd lowers (by simp [lowersStatement])

theorem statementListEndsInReturn_iff (temporary : Bool) : ∀ statements : List Statement,
    lowersStatements statements = true →
      (EndsOnce Shape.return_ (statementListShapes temporary statements) ↔
        statementListEndsInReturn temporary statements = true)
  | [], _ => by
      rw [statementListShapes, statementListEndsInReturn]
      simp [EndsOnce]
  | head :: tail, lowers => by
      rw [lowersStatements, Bool.and_eq_true] at lowers
      rw [statementListShapes, endsOnce_append_iff,
        endsInReturn_iff temporary head lowers.1,
        statementListEmitsNothing_iff temporary tail lowers.2,
        returns_iff temporary head,
        statementListEndsInReturn_iff temporary tail lowers.2]
      simp [statementListEndsInReturn]

end

theorem functionShapes_endsOnce_iff {definition : FunctionDefinition}
    (lowers : lowersStatement (.block definition.body) = true) :
    EndsOnce Shape.return_ (functionShapes definition) ↔ ReturnsAtEnd definition := by
  rw [functionShapes, voidReturnShapes, ReturnsAtEnd, endsOnce_append_iff]
  split
  · simp [returns_iff, EndsOnce.singleton]
  · have never : ¬EndsOnce Shape.return_ [] := fun ends => by simpa using ends.mem
    simp [never, endsInReturn_iff _ _ lowers]

/-! ## Markers of the shapes -/

def Shape.marker? : Shape → Option Intrinsic
  | .marker intrinsic => some intrinsic
  | .uzumaki | .return_ | .other => none

theorem Instruction.marker?_shape (instruction : Instruction) :
    instruction.shape.marker? = instruction.marker? := by
  cases instruction with
  | call intrinsic name => cases intrinsic <;> rfl
  | _ => rfl

theorem markerShapes_markers (intrinsic : Option Intrinsic) :
    (markerShapes intrinsic).filterMap Shape.marker? = intrinsic.toList := by
  cases intrinsic <;> rfl

theorem expressionShapes_markers (expression : Expression) :
    (expressionShapes expression).filterMap Shape.marker? = [] := by
  cases expression <;> rfl

theorem temporaryShapes_markers (temporary : Bool) :
    (temporaryShapes temporary).filterMap Shape.marker? = [] := by
  cases temporary <;> rfl

mutual

theorem statementShapes_markers (temporary : Bool) : ∀ statement : Statement,
    (statementShapes temporary statement).filterMap Shape.marker? = blockMarkers statement
  | .block (.mk kind _ statements) => by
      rw [statementShapes, blockMarkers, List.filterMap_append, List.filterMap_append,
        markerShapes_markers, markerShapes_markers,
        statementListShapes_markers temporary statements]
  | .expression expression => by
      rw [statementShapes, blockMarkers, List.filterMap_append, expressionShapes_markers,
        temporaryShapes_markers, List.append_nil]
  | .return_ _ expression => by
      rw [statementShapes, blockMarkers, List.filterMap_append, expressionShapes_markers]
      rfl
  | .constantDefinition _ => rfl
  | .variableDefinition _ _ _ _ => rfl
  | .assign _ _ _ => rfl
  | .loop _ _ _ => rfl
  | .break_ _ => rfl
  | .if_ _ _ _ _ => rfl
  | .typeDefinition _ _ _ => rfl
  | .assert _ _ => rfl

theorem statementListShapes_markers (temporary : Bool) : ∀ statements : List Statement,
    (statementListShapes temporary statements).filterMap Shape.marker? =
      statementListMarkers statements
  | [] => rfl
  | head :: tail => by
      rw [statementListShapes, statementListMarkers, List.filterMap_append,
        statementShapes_markers temporary head, statementListShapes_markers temporary tail]

end

theorem functionShapes_markers (definition : FunctionDefinition) :
    (functionShapes definition).filterMap Shape.marker? =
      blockMarkers (.block definition.body) := by
  rw [functionShapes, voidReturnShapes, List.filterMap_append, statementShapes_markers]
  split <;> simp [Shape.marker?]

/-! ## Instructions of well-formed code -/

theorem isTerminator_iff (instruction : Instruction) :
    instruction.isTerminator = true ↔ instruction.shape = .return_ := by
  cases instruction with
  | call intrinsic name => cases intrinsic <;> simp [Instruction.isTerminator, Instruction.shape]
  | _ => simp [Instruction.isTerminator, Instruction.shape]

theorem terminated_iff (instructions : List Instruction) :
    (∃ before last, instructions = before ++ [last] ∧ last.isTerminator = true ∧
        ∀ instruction ∈ before, instruction.isTerminator = false) ↔
      EndsOnce Shape.return_ (instructions.map Instruction.shape) := by
  constructor
  · rintro ⟨before, last, rfl, terminator, others⟩
    refine ⟨before.map Instruction.shape, ?_, ?_⟩
    · rw [List.map_append, List.map_singleton, (isTerminator_iff last).mp terminator]
    · intro member
      rcases List.mem_map.mp member with ⟨instruction, inside, shape⟩
      have other := others instruction inside
      rw [(isTerminator_iff instruction).mpr shape] at other
      cases other
  · rintro ⟨before, equal, fresh⟩
    rcases List.map_eq_append_iff.mp equal with ⟨init, ending, rfl, rfl, last⟩
    rcases List.map_eq_singleton_iff.mp last with ⟨final, rfl, shape⟩
    refine ⟨init, final, rfl, (isTerminator_iff final).mpr shape, ?_⟩
    intro instruction member
    rw [Bool.eq_false_iff]
    intro terminator
    apply fresh
    rw [← (isTerminator_iff instruction).mp terminator]
    exact List.mem_map_of_mem member

theorem path_eq {before : List Instruction} {last : Instruction}
    (terminator : last.isTerminator = true)
    (others : ∀ instruction ∈ before, instruction.isTerminator = false) :
    path (before ++ [last]) = before ++ [last] := by
  induction before with
  | nil => simp [path, terminator]
  | cons head tail induction =>
      have headOther := others head List.mem_cons_self
      have tailPath := induction fun instruction member =>
        others instruction (List.mem_cons_of_mem _ member)
      simp [path, headOther, tailPath]

theorem filterMap_marker? (instructions : List Instruction) :
    instructions.filterMap Instruction.marker? =
      (instructions.map Instruction.shape).filterMap Shape.marker? := by
  rw [List.filterMap_map]
  congr
  funext instruction
  exact (Instruction.marker?_shape instruction).symm

/-- Code that ends in its only terminator has the nesting of the source. -/
theorem BasicBlock.endsOnce_iff {definition : FunctionDefinition} {block : BasicBlock}
    (shapes : block.instructions.map Instruction.shape = functionShapes definition) :
    block.WellFormed (.block definition.body) ↔
      EndsOnce Shape.return_ (functionShapes definition) := by
  rw [← shapes, ← terminated_iff]
  refine ⟨fun wellFormed => wellFormed.terminated, ?_⟩
  intro terminated
  rcases terminated with ⟨before, last, equal, terminator, others⟩
  have whole : path block.instructions = block.instructions := by
    rw [equal]
    exact path_eq terminator others
  have markers : (path block.instructions).filterMap Instruction.marker? =
      blockMarkers (.block definition.body) := by
    rw [whole, filterMap_marker?, shapes, functionShapes_markers]
  refine ⟨markers, ?_, before, last, equal, terminator, others⟩
  rw [markers]
  exact balanced_blockMarkers _

/-- A visited function has well-formed code exactly when its body returns at its end. -/
theorem visitedFunction_wellFormed_iff {context : TypedContext} {definition : FunctionDefinition}
    {compiler after : Compiler}
    (run : visitFunctionDefinition context definition compiler = some after) :
    ∃ function, after.functions = compiler.functions ++ [function] ∧
      (function.WellFormed definition ↔ ReturnsAtEnd definition) := by
  rcases visitFunctionDefinition_ok run with ⟨function, -, added, -⟩
  rcases visitFunctionDefinition_shapes run added with ⟨instructions, blocks, shapes⟩
  have lowers := visit_lowersFunction run
  rw [lowersFunction, Bool.and_eq_true, ← lowersStatement_block] at lowers
  refine ⟨function, added, ?_⟩
  rw [← functionShapes_endsOnce_iff lowers.2, FunctionValue.WellFormed, blocks]
  simp only [List.mem_singleton, forall_eq]
  exact BasicBlock.endsOnce_iff shapes

/-- `fn f() -> i32 { forall { } return 1; }` -/
def returnAfterForall : FunctionDefinition where
  id := 1
  name := { id := 2, name := "f" }
  returns := some (.simple .i32)
  body := .mk .block { id := 3 }
    [.block (.mk .forall_ { id := 4 } []),
      .return_ { id := 5 } (.literal (.number { id := 6 } "1"))]

theorem returnAfterForall_wellFormed :
    ∃ after, visitFunctionDefinition contextOfI32 returnAfterForall {} = some after ∧
      ∃ function, after.functions = [function] ∧ function.WellFormed returnAfterForall := by
  have run : ∃ after, visitFunctionDefinition contextOfI32 returnAfterForall {} = some after :=
    ⟨_, rfl⟩
  rcases run with ⟨after, run⟩
  rcases visitedFunction_wellFormed_iff run with ⟨function, added, iff⟩
  exact ⟨after, run, function, added, iff.mpr (by decide)⟩

/-- `fn f() -> i32 { forall { return 1; } }` -/
def returnInForall : FunctionDefinition where
  id := 1
  name := { id := 2, name := "f" }
  returns := some (.simple .i32)
  body := .mk .block { id := 3 }
    [.block (.mk .forall_ { id := 4 }
      [.return_ { id := 5 } (.literal (.number { id := 6 } "1"))])]

/-- Behind the return the end of the forall block is emitted. -/
theorem returnInForall_notWellFormed :
    ∃ after, visitFunctionDefinition contextOfI32 returnInForall {} = some after ∧
      ∃ function, after.functions = [function] ∧ ¬function.WellFormed returnInForall := by
  refine ⟨_, rfl, _, rfl, ?_⟩
  intro wellFormed
  have ends := (BasicBlock.endsOnce_iff rfl).mp (wellFormed _ List.mem_cons_self)
  rw [functionShapes_endsOnce_iff (by decide)] at ends
  exact absurd ends (by decide)

end Inference.Codegen

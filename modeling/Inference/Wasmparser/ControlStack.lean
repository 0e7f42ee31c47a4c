import Inference.Foundation.Brackets
import Inference.WasmToV.ExpressionTranslation

/-! # The control frames of the validator

The operator validator keeps a stack of control frames, one for the function and one for each block
it is in. Everything it checks besides is left to `Checks`, so that what follows holds whatever
those checks accept.
-/

namespace Inference.Wasmparser

open Brackets WasmToV

inductive FrameKind
  | block | if_ | else_ | loop | forall_ | exists_ | assume | unique
  | tryTable | legacyTry | legacyCatch | legacyCatchAll
  deriving DecidableEq, Repr

structure Frame where
  kind : FrameKind
  blockType : BlockType
  deriving DecidableEq, Repr

/-- What the validator checks besides the frames. Blocks of exception handling have their type among
the immediates of their operator. -/
structure Checks (Operands : Type) where
  checkBlockType : BlockType → Option BlockType
  exceptionBlockType : List Nat → Option BlockType
  visitOperands : Operands → List Frame → Operator → Option Operands

/-- The frames are listed from the innermost. -/
structure State (Operands : Type) where
  control : List Frame
  operands : Operands

variable {Operands : Type}

/-- A validator at the start of a function body. -/
def State.start (functionType : BlockType) (operands : Operands) : State Operands :=
  ⟨[⟨.block, functionType⟩], operands⟩

def pushCtrl (kind : FrameKind) (control : List Frame) (blockType : BlockType) : List Frame :=
  ⟨kind, blockType⟩ :: control

def popCtrl : List Frame → Option (Frame × List Frame)
  | [] => none
  | frame :: control => some (frame, control)

def jump (control : List Frame) (depth : Nat) : Option Frame :=
  control[depth]?

/-- The relative depths an operator can jump to. -/
def branchDepths : Operator → List Nat
  | .br relativeDepth | .brIf relativeDepth => [relativeDepth]
  | .brTable table => table.targets.filterMap Except.toOption ++ [table.default]
  | .unimplemented .brOnNull (relativeDepth :: _) => [relativeDepth]
  | .unimplemented .brOnNonNull (relativeDepth :: _) => [relativeDepth]
  | .unimplemented .brOnCast (_ :: relativeDepth :: _) => [relativeDepth]
  | .unimplemented .brOnCastFail (_ :: relativeDepth :: _) => [relativeDepth]
  | _ => []

def visitElse (control : List Frame) : Option (List Frame) := do
  let (frame, control) ← popCtrl control
  if frame.kind = .if_ then some (pushCtrl .else_ control frame.blockType) else none

/-- An `if` without an `else` gets an empty one first. -/
def visitEnd (control : List Frame) : Option (List Frame) := do
  let (frame, control) ← popCtrl control
  if frame.kind = .if_ then
    let (_, control) ← popCtrl (pushCtrl .else_ control frame.blockType)
    return control
  else
    return control

/-- A clause of an exception block follows one of the given kinds. -/
def visitCatch (kind : FrameKind) (follows : List FrameKind) (control : List Frame) :
    Option (List Frame) := do
  let (frame, control) ← popCtrl control
  if frame.kind ∈ follows then some (pushCtrl kind control frame.blockType) else none

def visitDelegate (control : List Frame) : Option (List Frame) := do
  let (frame, control) ← popCtrl control
  if frame.kind = .legacyTry then some control else none

/-- What an operator does to the control frames. -/
def visitControl (checks : Checks Operands) (control : List Frame) :
    Operator → Option (List Frame)
  | .block ty => (checks.checkBlockType ty).map (pushCtrl .block control)
  | .loop ty => (checks.checkBlockType ty).map (pushCtrl .loop control)
  | .forall_ ty => (checks.checkBlockType ty).map (pushCtrl .forall_ control)
  | .exists_ ty => (checks.checkBlockType ty).map (pushCtrl .exists_ control)
  | .assume ty => (checks.checkBlockType ty).map (pushCtrl .assume control)
  | .unique ty => (checks.checkBlockType ty).map (pushCtrl .unique control)
  | .if_ ty => (checks.checkBlockType ty).map (pushCtrl .if_ control)
  | .else_ => visitElse control
  | .end_ => visitEnd control
  | .unimplemented .tryTable immediates =>
      (checks.exceptionBlockType immediates).map (pushCtrl .tryTable control)
  | .unimplemented .try_ immediates =>
      (checks.exceptionBlockType immediates).map (pushCtrl .legacyTry control)
  | .unimplemented .catch_ _ => visitCatch .legacyCatch [.legacyTry, .legacyCatch] control
  | .unimplemented .catchAll _ => visitCatch .legacyCatchAll [.legacyTry, .legacyCatch] control
  | .unimplemented .delegate _ => visitDelegate control
  | op => if (branchDepths op).all fun depth => (jump control depth).isSome then some control
      else none

def visit (checks : Checks Operands) (state : State Operands) (op : Operator) :
    Option (State Operands) := do
  let operands ← checks.visitOperands state.operands state.control op
  let control ← visitControl checks state.control op
  return ⟨control, operands⟩

/-- The validator behind a list of operators, when it accepts them. -/
def visitAll (checks : Checks Operands) (state : State Operands) (ops : List Operator) :
    Option (State Operands) :=
  ops.foldlM (visit checks) state

/-! ## Frames and open blocks -/

def operatorBracket (op : Operator) : Bracket :=
  match op.role with
  | .opensBlock | .opensCondition => .opens
  | .closes => if op = .end_ then .closes else .neither
  | .ordinary => .neither

/-- The operators that open, part or close a block of exception handling. -/
def partsException : Operator → Bool
  | .unimplemented .tryTable _ | .unimplemented .try_ _ | .unimplemented .catch_ _
  | .unimplemented .catchAll _ | .unimplemented .delegate _ => true
  | _ => false

/-- The frame of a block, or what an `else` has made of it. -/
def Continues (opened frame : Frame) : Prop :=
  frame = opened ∨ opened.kind = .if_ ∧ frame = ⟨.else_, opened.blockType⟩

/-- Every frame of the stack belongs to the block at its place: it stands on what was there when the
block was opened. Under the blocks there is at most the function. -/
inductive Carries (visited : Nat → Option (State Operands)) : List Nat → List Frame → Prop
  | function (single : base.length ≤ 1) (isFunction : ∀ frame ∈ base, frame.kind = .block) :
      Carries visited [] base
  | opened (before : visited (position + 1) = some ⟨frame :: rest, operands⟩)
      (continues : Continues frame frame') (below : Carries visited positions rest) :
      Carries visited (position :: positions) (frame' :: rest)

variable {checks : Checks Operands} {control control' : List Frame} {op : Operator}

theorem visitControl_opens
    (opens : operatorBracket op = .opens)
    (visited : visitControl checks control op = some control') :
    ∃ frame, control' = frame :: control := by
  have pushed : ∀ (kind : FrameKind) (ty : BlockType),
      (checks.checkBlockType ty).map (pushCtrl kind control) = some control' →
        ∃ frame, control' = frame :: control := by
    intro kind ty accepted
    rcases Option.map_eq_some_iff.mp accepted with ⟨checked, _, rfl⟩
    exact ⟨_, rfl⟩
  cases op with
  | block ty => exact pushed _ ty visited
  | loop ty => exact pushed _ ty visited
  | if_ ty => exact pushed _ ty visited
  | forall_ ty => exact pushed _ ty visited
  | exists_ ty => exact pushed _ ty visited
  | assume ty => exact pushed _ ty visited
  | unique ty => exact pushed _ ty visited
  | _ => cases opens

theorem visitElse_some (visited : visitElse control = some control') :
    ∃ frame rest, control = frame :: rest ∧ frame.kind = .if_ ∧
      control' = ⟨.else_, frame.blockType⟩ :: rest := by
  cases control with
  | nil => cases visited
  | cons frame rest =>
      change (if frame.kind = .if_ then some (pushCtrl .else_ rest frame.blockType) else none) =
        some control' at visited
      split at visited
      next isIf =>
        cases visited
        exact ⟨frame, rest, rfl, isIf, rfl⟩
      next => cases visited

theorem visitEnd_some (visited : visitEnd control = some control') :
    ∃ frame, control = frame :: control' := by
  cases control with
  | nil => cases visited
  | cons frame rest =>
      change (if frame.kind = .if_ then some rest else some rest) = some control' at visited
      rw [ite_self] at visited
      cases visited
      exact ⟨frame, rfl⟩

/-- Any other operator of the core language leaves the frames alone. -/
theorem visitControl_ordinary
    (ordinary : op.role = .ordinary) (noException : partsException op = false)
    (visited : visitControl checks control op = some control') : control' = control := by
  have guarded : ∀ condition : Bool,
      (if condition = true then some control else none) = some control' → control' = control := by
    intro condition kept
    split at kept
    · exact (Option.some.inj kept).symm
    · cases kept
  unfold visitControl at visited
  split at visited
  case h_15 => exact guarded _ visited
  case h_10 => cases noException
  case h_11 => cases noException
  case h_12 => cases noException
  case h_13 => cases noException
  case h_14 => cases noException
  all_goals cases ordinary

variable {state state' : State Operands}

theorem visit_some (visited : visit checks state op = some state') :
    visitControl checks state.control op = some state'.control := by
  rw [visit] at visited
  rcases Option.bind_eq_some_iff.mp visited with ⟨operands, _, rest⟩
  rcases Option.bind_eq_some_iff.mp rest with ⟨control, isControl, done⟩
  cases done
  exact isControl

/-- What one operator adds to the number of frames. -/
theorem visit_length
    (noException : partsException op = false) (visited : visit checks state op = some state') :
    state'.control.length + count operatorBracket .closes [op] =
      state.control.length + count operatorBracket .opens [op] := by
  have control := visit_some visited
  rw [count_singleton, count_singleton]
  cases kind : operatorBracket op with
  | opens =>
      rcases visitControl_opens kind control with ⟨frame, pushed⟩
      rw [pushed]
      rfl
  | closes =>
      cases op with
      | end_ =>
          rcases visitEnd_some control with ⟨frame, isTop⟩
          rw [isTop]
          rfl
      | unimplemented opcode immediates => cases kind
      | _ => cases kind
  | neither =>
      cases role : op.role with
      | opensBlock =>
          rw [operatorBracket, role] at kind
          cases kind
      | opensCondition =>
          rw [operatorBracket, role] at kind
          cases kind
      | ordinary =>
          rw [visitControl_ordinary role noException control]
          rfl
      | closes =>
          cases op with
          | else_ =>
              rcases visitElse_some control with ⟨frame, rest, isTop, _, isElse⟩
              rw [isTop, isElse]
              rfl
          | end_ => cases kind
          | _ => cases role

variable {ops : List Operator}

theorem visitAll_append_singleton
    :
    visitAll checks state (ops ++ [op]) = some state' ↔
      ∃ between, visitAll checks state ops = some between ∧ visit checks between op = some state' := by
  rw [visitAll, List.foldlM_append]
  constructor
  · intro visited
    rcases Option.bind_eq_some_iff.mp visited with ⟨between, first, last⟩
    rcases Option.bind_eq_some_iff.mp last with ⟨final, isFinal, done⟩
    cases done
    exact ⟨between, first, isFinal⟩
  · rintro ⟨between, first, last⟩
    apply Option.bind_eq_some_iff.mpr
    refine ⟨between, first, ?_⟩
    apply Option.bind_eq_some_iff.mpr
    exact ⟨state', last, rfl⟩

theorem Carries.mono {visited visited' : Nat → Option (State Operands)} {positions : List Nat}
    (carries : Carries visited positions control)
    (agrees : ∀ position ∈ positions, visited' (position + 1) = visited (position + 1)) :
    Carries visited' positions control := by
  induction carries with
  | function single isFunction => exact .function single isFunction
  | opened before continues _ induction =>
      rw [← agrees _ List.mem_cons_self] at before
      refine .opened before continues (induction ?_)
      intro position member
      exact agrees position (List.mem_cons_of_mem _ member)

/-- The operators, read up to a position. -/
def visitedUpTo (checks : Checks Operands) (start : State Operands) (ops : List Operator)
    (position : Nat) : Option (State Operands) :=
  visitAll checks start (ops.take position)

theorem Carries.push {start : State Operands}
    {positions : List Nat}
    (carries : Carries (visitedUpTo checks start (ops ++ [op])) positions control)
    (reached : visitAll checks start (ops ++ [op]) = some state')
    (pushes : ∃ frame, state'.control = frame :: control) :
    Carries (visitedUpTo checks start (ops ++ [op])) (ops.length :: positions) state'.control := by
  rcases pushes with ⟨frame, pushed⟩
  have here : visitedUpTo checks start (ops ++ [op]) (ops.length + 1) =
      some ⟨frame :: control, state'.operands⟩ := by
    rw [visitedUpTo, List.take_of_length_le (by simp), reached, ← pushed]
  rw [pushed]
  exact .opened here (.inl rfl) carries

/-- One operator keeps frames and open blocks together. -/
theorem Carries.step {start : State Operands}
    (noException : partsException op = false)
    (reached : visitAll checks start (ops ++ [op]) = some state')
    (visited : visit checks state op = some state')
    (carries : Carries (visitedUpTo checks start (ops ++ [op]))
      (enclosing operatorBracket ops) state.control) :
    Carries (visitedUpTo checks start (ops ++ [op]))
      (enclosing operatorBracket (ops ++ [op])) state'.control := by
  have control := visit_some visited
  rw [enclosing_append_singleton]
  cases role : op.role with
  | opensBlock =>
      have opens : operatorBracket op = .opens := by
        rw [operatorBracket, role]
      rw [advance, opens]
      exact carries.push reached (visitControl_opens opens control)
  | opensCondition =>
      have opens : operatorBracket op = .opens := by
        rw [operatorBracket, role]
      rw [advance, opens]
      exact carries.push reached (visitControl_opens opens control)
  | closes =>
      cases op with
      | else_ =>
          rcases visitElse_some control with ⟨frame, rest, isTop, isIf, isElse⟩
          have neither : advance operatorBracket ops.length (enclosing operatorBracket ops) .else_ =
              enclosing operatorBracket ops := rfl
          rw [neither]
          rw [isTop] at carries
          rw [isElse]
          generalize enclosing operatorBracket ops = positions at carries
          cases carries with
          | function single isFunction =>
              have isBlock := isFunction frame List.mem_cons_self
              rw [isIf] at isBlock
              cases isBlock
          | opened before continues below =>
              refine .opened before ?_ below
              rcases continues with rfl | ⟨_, rfl⟩
              · exact .inr ⟨isIf, rfl⟩
              · cases isIf
      | end_ =>
          rcases visitEnd_some control with ⟨frame, isTop⟩
          have closed : advance operatorBracket ops.length (enclosing operatorBracket ops) .end_ =
              (enclosing operatorBracket ops).tail := rfl
          rw [closed]
          rw [isTop] at carries
          generalize enclosing operatorBracket ops = positions at carries
          cases carries with
          | function single isFunction =>
              refine .function ?_ ?_
              · rw [List.length_cons] at single
                omega
              · intro other member
                exact isFunction other (List.mem_cons_of_mem _ member)
          | opened before continues below => exact below
      | unimplemented opcode immediates => cases role
      | _ => cases role
  | ordinary =>
      have neither : advance operatorBracket ops.length (enclosing operatorBracket ops) op =
          enclosing operatorBracket ops := by
        rw [advance, operatorBracket, role]
      rw [neither, visitControl_ordinary role noException control]
      exact carries

/-- Behind operators that the validator accepts, its frames are those of the open blocks. -/
theorem carries_visitAll {functionType : BlockType} {operands : Operands}
    (noException : ∀ op ∈ ops, partsException op = false)
    (reached : visitAll checks (.start functionType operands) ops = some state) :
    Carries (visitedUpTo checks (.start functionType operands) ops)
      (enclosing operatorBracket ops) state.control := by
  induction ops using List.reverseRecOn generalizing state with
  | nil =>
      cases reached
      refine .function (Nat.le_refl _) ?_
      intro frame member
      cases List.mem_singleton.mp member
      rfl
  | append_singleton ops op induction =>
      rcases visitAll_append_singleton.mp reached with ⟨between, first, last⟩
      have before := induction
        (fun other member => noException other (List.mem_append_left _ member)) first
      refine Carries.step (noException op (List.mem_append_right _ List.mem_cons_self)) reached last
        (before.mono ?_)
      intro position member
      have inOps := List.mem_iff_getElem?.mp member
      rcases inOps with ⟨place, found⟩
      rcases enclosing_getElem operatorBracket found with ⟨front, item, after, rfl, rfl, _⟩
      rw [visitedUpTo, visitedUpTo, List.take_append_of_le_length (by simp)]

end Inference.Wasmparser

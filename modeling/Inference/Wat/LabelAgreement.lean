import Inference.Wat.LabelResolution
import Inference.Wasmparser.ControlStack
import Inference.WasmToV.NestingDepth

/-! # Labels across the tool chain

The resolver of the text format, the validator and the translator to Rocq each follow the blocks of
a body in their own way. Here the number the resolver gives to a label is compared with the frames
of the validator and with the nesting of the translated tree.
-/

namespace Inference.Wat

open Brackets Wasmparser WasmToV

variable {TypeUse RefType Plain : Type}

def BlockKind.operator : BlockKind → WasmToV.BlockType → Operator
  | .block => .block
  | .loop => .loop
  | .if_ => .if_
  | .forall_ => .forall_
  | .exists_ => .exists_
  | .assume => .assume
  | .unique => .unique

/-- The binary form of what the resolver leaves to others. No plain instruction has to do with
blocks, be they those of exception handling. -/
structure Assembler (TypeUse RefType Plain : Type) where
  blockType : TypeUse → WasmToV.BlockType
  castFlags : RefType → RefType → Nat
  heapType : RefType → Nat
  plain : Plain → Operator
  plain_ordinary : ∀ instruction, (plain instruction).role = .ordinary
  plain_noException : ∀ instruction, partsException (plain instruction) = false

def BranchKind.operator (assembler : Assembler TypeUse RefType Plain) (depth : Nat) :
    BranchKind RefType → Operator
  | .br => .br depth
  | .brIf => .brIf depth
  | .brOnNull => .unimplemented .brOnNull [depth]
  | .brOnNonNull => .unimplemented .brOnNonNull [depth]
  | .brOnCast toType fromType =>
      .unimplemented .brOnCast [assembler.castFlags toType fromType, depth,
        assembler.heapType fromType, assembler.heapType toType]
  | .brOnCastFail toType fromType =>
      .unimplemented .brOnCastFail [assembler.castFlags toType fromType, depth,
        assembler.heapType fromType, assembler.heapType toType]

def Index.number : Index → Option Nat
  | .num index => some index
  | .id _ => none

def assembleLabels : List Index → Option (List Nat)
  | [] => some []
  | label :: rest => do
      let label ← label.number
      let rest ← assembleLabels rest
      return label :: rest

/-- The operator that the readers of the binary format see. A name that is left has no binary
form. -/
def assemble (assembler : Assembler TypeUse RefType Plain) :
    Instruction TypeUse RefType Plain → Option Operator
  | .opens kind _ blockType => some (kind.operator (assembler.blockType blockType))
  | .else_ _ => some .else_
  | .end_ _ => some .end_
  | .branch kind label => do
      let depth ← label.number
      return kind.operator assembler depth
  | .brTable labels default => do
      let labels ← assembleLabels labels
      let default ← default.number
      return .brTable ⟨labels.map .ok, default⟩
  | .plain instruction => some (assembler.plain instruction)

def assembleAll (assembler : Assembler TypeUse RefType Plain) :
    List (Instruction TypeUse RefType Plain) → Option (List Operator)
  | [] => some []
  | instr :: rest => do
      let op ← assemble assembler instr
      let rest ← assembleAll assembler rest
      return op :: rest

/-- The encoder asserts that the size of a body is a 32-bit number of bytes, and every operator takes
at least one. -/
def assembleBody (assembler : Assembler TypeUse RefType Plain)
    (body : List (Instruction TypeUse RefType Plain)) : Option (List Operator) :=
  if body.length < 2 ^ 32 then assembleAll assembler body else none

/-- The positions of the blocks around a position of a body, innermost first. -/
def openBlocks (body : List (Instruction TypeUse RefType Plain)) (position : Nat) : List Nat :=
  enclosing Instruction.bracket (body.take position)

/-- The frame at the given depth is the one that stood on top when the operator at `block` had been
visited, in its else arm perhaps, and the frames under it are the same as then. -/
def FrameOf {Operands : Type} (checks : Checks Operands) (start : State Operands)
    (ops : List Operator) (block : Nat) (control : List Wasmparser.Frame) (depth : Nat) : Prop :=
  ∃ opened frame frame' rest, visitAll checks start (ops.take (block + 1)) = some opened ∧
    opened.control = frame :: rest ∧ control.drop depth = frame' :: rest ∧
      jump control depth = some frame' ∧ Continues frame frame'

/-- A label that a branch names is the number of blocks between the branch and the innermost block
of that name, and the frame the validator finds there is the frame of that block. -/
def BranchesAgree (body : List (Instruction TypeUse RefType Plain)) (ops : List Operator) : Prop :=
  ∀ (position place : Nat) (instr : Instruction TypeUse RefType Plain) (id : Id),
    body[position]? = some instr → instr.targets[place]? = some (.id id) →
      ∃ op depth block, ops[position]? = some op ∧ (branchDepths op)[place]? = some depth ∧
        (openBlocks body position)[depth]? = some block ∧ labelAt body block = some id ∧
          (∀ inner < depth, ∀ other, (openBlocks body position)[inner]? = some other →
            labelAt body other ≠ some id) ∧
            ∀ {Operands : Type} (checks : Checks Operands) functionType operands state,
              visitAll checks (.start functionType operands) (ops.take position) = some state →
                FrameOf checks (.start functionType operands) ops block state.control depth

/-- At every position the resolver, the validator and the translator are inside the same number of
blocks. -/
def HeightsAgree (body : List (Instruction TypeUse RefType Plain)) (ops : List Operator) : Prop :=
  ∃ expression, translateExpression ((ops ++ [Operator.end_]).map .ok) = .ok (expression, []) ∧
    ∀ position ≤ body.length,
      ((body.take position).foldl blocksBehind []).length = (openBlocks body position).length ∧
        (∀ {Operands : Type} (checks : Checks Operands) functionType operands state,
          visitAll checks (.start functionType operands) (ops.take position) = some state →
            state.control.length = (openBlocks body position).length + 1) ∧
          ∃ op, (expression.depths 0)[position]? = some (op, (openBlocks body position).length) ∧
            (ops ++ [Operator.end_])[position]? = some op

/-! ## Resolved and assembled bodies -/

variable {blocks : List ExprBlock} {instr : Instruction TypeUse RefType Plain}

theorem resolveInstr_bracket {resolver : Resolver TypeUse RefType Plain}
    {blocks' : List ExprBlock} {instr' : Instruction TypeUse RefType Plain}
    (resolved : resolveInstr resolver blocks instr = .ok (instr', blocks')) :
    instr'.bracket = instr.bracket := by
  cases instr with
  | opens kind label blockType =>
      rcases except_bind_ok resolved with ⟨_, _, done⟩
      cases done
      rfl
  | else_ label =>
      rcases except_bind_ok resolved with ⟨_, _, done⟩
      cases done
      rfl
  | end_ label =>
      rcases except_bind_ok resolved with ⟨_, _, done⟩
      cases done
      rfl
  | branch kind label =>
      rcases except_bind_ok resolved with ⟨_, _, rest⟩
      rcases except_bind_ok rest with ⟨_, _, done⟩
      cases done
      rfl
  | brTable labels default =>
      rcases except_bind_ok resolved with ⟨_, _, rest⟩
      rcases except_bind_ok rest with ⟨_, _, done⟩
      cases done
      rfl
  | plain instruction =>
      rcases except_bind_ok resolved with ⟨_, _, done⟩
      cases done
      rfl

theorem resolveFrom_brackets {resolver : Resolver TypeUse RefType Plain}
    {body resolved : List (Instruction TypeUse RefType Plain)}
    (succeeds : resolveFrom resolver blocks body = .ok resolved) :
    resolved.map Instruction.bracket = body.map Instruction.bracket := by
  induction body generalizing blocks resolved with
  | nil =>
      cases succeeds
      rfl
  | cons instr rest induction =>
      rcases except_bind_ok succeeds with ⟨⟨instr', behind⟩, first, next⟩
      rcases except_bind_ok next with ⟨rest', restResolved, done⟩
      cases done
      change instr'.bracket :: rest'.map _ = instr.bracket :: rest.map _
      rw [resolveInstr_bracket first, induction restResolved]

variable {op : Operator}

theorem assemble_bracket {assembler : Assembler TypeUse RefType Plain}
    (assembled : assemble assembler instr = some op) : operatorBracket op = instr.bracket := by
  cases instr with
  | opens kind label blockType =>
      cases assembled
      cases kind <;> rfl
  | else_ label =>
      cases assembled
      rfl
  | end_ label =>
      cases assembled
      rfl
  | branch kind label =>
      rcases Option.bind_eq_some_iff.mp assembled with ⟨depth, _, done⟩
      cases done
      cases kind <;> rfl
  | brTable labels default =>
      rcases Option.bind_eq_some_iff.mp assembled with ⟨_, _, rest⟩
      rcases Option.bind_eq_some_iff.mp rest with ⟨_, _, done⟩
      cases done
      rfl
  | plain instruction =>
      cases assembled
      rw [operatorBracket, assembler.plain_ordinary]
      rfl

theorem assemble_noException {assembler : Assembler TypeUse RefType Plain}
    (assembled : assemble assembler instr = some op) : partsException op = false := by
  cases instr with
  | opens kind label blockType =>
      cases assembled
      cases kind <;> rfl
  | else_ label =>
      cases assembled
      rfl
  | end_ label =>
      cases assembled
      rfl
  | branch kind label =>
      rcases Option.bind_eq_some_iff.mp assembled with ⟨depth, _, done⟩
      cases done
      cases kind <;> rfl
  | brTable labels default =>
      rcases Option.bind_eq_some_iff.mp assembled with ⟨_, _, rest⟩
      rcases Option.bind_eq_some_iff.mp rest with ⟨_, _, done⟩
      cases done
      rfl
  | plain instruction =>
      cases assembled
      exact assembler.plain_noException instruction

variable {labels : List Index} {place depth : Nat}

theorem assembleLabels_getElem {depths : List Nat} (assembled : assembleLabels labels = some depths)
    (found : labels[place]? = some (.num depth)) : depths[place]? = some depth := by
  induction labels generalizing depths place with
  | nil => cases found
  | cons label rest induction =>
      rcases Option.bind_eq_some_iff.mp assembled with ⟨first, isFirst, next⟩
      rcases Option.bind_eq_some_iff.mp next with ⟨later, isLater, done⟩
      cases done
      cases place with
      | zero =>
          cases found
          cases isFirst
          rfl
      | succ place =>
          have inRest := induction isLater found
          exact inRest

theorem assembleLabels_length {depths : List Nat}
    (assembled : assembleLabels labels = some depths) : depths.length = labels.length := by
  induction labels generalizing depths with
  | nil =>
      cases assembled
      rfl
  | cons label rest induction =>
      rcases Option.bind_eq_some_iff.mp assembled with ⟨first, isFirst, next⟩
      rcases Option.bind_eq_some_iff.mp next with ⟨later, isLater, done⟩
      cases done
      exact congrArg (· + 1) (induction isLater)

/-- The operator jumps to the numbers that its instruction was resolved to. -/
theorem assemble_branchDepths {assembler : Assembler TypeUse RefType Plain}
    (assembled : assemble assembler instr = some op)
    (found : instr.targets[place]? = some (.num depth)) :
    (branchDepths op)[place]? = some depth := by
  cases instr with
  | opens kind label blockType => cases found
  | else_ label => cases found
  | end_ label => cases found
  | plain instruction => cases found
  | branch kind label =>
      rcases Option.bind_eq_some_iff.mp assembled with ⟨number, isNumber, done⟩
      cases done
      cases place with
      | zero =>
          cases found
          cases isNumber
          cases kind <;> rfl
      | succ place => cases found
  | brTable labels default =>
      rcases Option.bind_eq_some_iff.mp assembled with ⟨depths, areDepths, rest⟩
      rcases Option.bind_eq_some_iff.mp rest with ⟨last, isLast, done⟩
      cases done
      have sameLength := assembleLabels_length areDepths
      have read : (depths.map Except.ok).filterMap (fun label : Except BinaryReaderError Nat =>
          label.toOption) = depths := by
        rw [List.filterMap_map]
        exact List.filterMap_some
      change (labels ++ [default])[place]? = some (.num depth) at found
      change ((depths.map Except.ok).filterMap (fun label => label.toOption) ++ [last])[place]? =
        some depth
      rw [read]
      by_cases inLabels : place < labels.length
      · rw [List.getElem?_append_left inLabels] at found
        rw [List.getElem?_append_left (by omega)]
        exact assembleLabels_getElem areDepths found
      · rw [List.getElem?_append_right (by omega)] at found
        have isDefault : place = labels.length := by
          by_contra other
          rw [List.getElem?_eq_none (by simp; omega)] at found
          cases found
        subst isDefault
        rw [Nat.sub_self] at found
        cases found
        cases isLast
        rw [← sameLength, List.getElem?_append_right (Nat.le_refl _), Nat.sub_self]
        rfl

theorem assembleAll_getElem {assembler : Assembler TypeUse RefType Plain}
    {body : List (Instruction TypeUse RefType Plain)} {ops : List Operator}
    (assembled : assembleAll assembler body = some ops) {position : Nat}
    (found : body[position]? = some instr) :
    ∃ op, ops[position]? = some op ∧ assemble assembler instr = some op := by
  induction body generalizing ops position with
  | nil => cases found
  | cons head rest induction =>
      rcases Option.bind_eq_some_iff.mp assembled with ⟨first, isFirst, next⟩
      rcases Option.bind_eq_some_iff.mp next with ⟨later, isLater, done⟩
      cases done
      cases position with
      | zero =>
          cases found
          exact ⟨first, rfl, isFirst⟩
      | succ position => exact induction isLater found

theorem assembleAll_brackets {assembler : Assembler TypeUse RefType Plain}
    {body : List (Instruction TypeUse RefType Plain)} {ops : List Operator}
    (assembled : assembleAll assembler body = some ops) :
    ops.map operatorBracket = body.map Instruction.bracket := by
  induction body generalizing ops with
  | nil =>
      cases assembled
      rfl
  | cons head rest induction =>
      rcases Option.bind_eq_some_iff.mp assembled with ⟨first, isFirst, next⟩
      rcases Option.bind_eq_some_iff.mp next with ⟨later, isLater, done⟩
      cases done
      change operatorBracket first :: later.map _ = head.bracket :: rest.map _
      rw [assemble_bracket isFirst, induction isLater]

theorem assembleAll_noException {assembler : Assembler TypeUse RefType Plain}
    {body : List (Instruction TypeUse RefType Plain)} {ops : List Operator}
    (assembled : assembleAll assembler body = some ops) :
    ∀ op ∈ ops, partsException op = false := by
  induction body generalizing ops with
  | nil =>
      cases assembled
      intro op member
      cases member
  | cons head rest induction =>
      rcases Option.bind_eq_some_iff.mp assembled with ⟨first, isFirst, next⟩
      rcases Option.bind_eq_some_iff.mp next with ⟨later, isLater, done⟩
      cases done
      intro op member
      rcases List.mem_cons.mp member with rfl | inLater
      · exact assemble_noException isFirst
      · exact induction isLater op inLater

theorem assembleBody_some {assembler : Assembler TypeUse RefType Plain}
    {body : List (Instruction TypeUse RefType Plain)} {ops : List Operator}
    (assembled : assembleBody assembler body = some ops) :
    body.length < 2 ^ 32 ∧ assembleAll assembler body = some ops := by
  rw [assembleBody] at assembled
  split at assembled
  next fits => exact ⟨fits, assembled⟩
  next => cases assembled

/-! ## Open blocks -/

theorem openBlocks_eq {body : List (Instruction TypeUse RefType Plain)} {ops : List Operator}
    (same : ops.map operatorBracket = body.map Instruction.bracket) (position : Nat) :
    openBlocks body position = enclosing operatorBracket (ops.take position) := by
  apply enclosing_congr
  rw [List.map_take, List.map_take, same]

theorem openBlocks_length_le (body : List (Instruction TypeUse RefType Plain)) (position : Nat) :
    (openBlocks body position).length ≤ body.length := by
  have onStack : (openBlocks body position).length ≤ (body.take position).length :=
    enclosing_length_le Instruction.bracket (body.take position)
  have front := List.length_take_le' position body
  omega

theorem operatorBracket_ordinary (role : op.role = .ordinary) :
    operatorBracket op = .neither := by
  rw [operatorBracket, role]

theorem operatorBracket_block (role : op.role = .opensBlock) :
    operatorBracket op = .opens := by
  rw [operatorBracket, role]

theorem operatorBracket_condition (role : op.role = .opensCondition) :
    operatorBracket op = .opens := by
  rw [operatorBracket, role]

theorem neverBelow_operator (kind : operatorBracket op = .neither) :
    NeverBelow operatorBracket [op] := by
  apply neverBelow_singleton
  rw [kind]
  decide

/-- In a well-nested body every `end` has a block to close. -/
theorem neverBelow_wellNested {ops : List Operator} (nested : WellNested ops) :
    NeverBelow operatorBracket ops := by
  have ends : operatorBracket .end_ = .closes := rfl
  have elses : operatorBracket .else_ = .neither := rfl
  induction nested with
  | nil => exact neverBelow_nil operatorBracket
  | ordinary role _ restInduction =>
      exact (neverBelow_operator (operatorBracket_ordinary role)).append restInduction
  | block role _ _ bodyInduction restInduction =>
      have closed := (bodyInduction.enclose (operatorBracket_block role) ends).append restInduction
      simpa using closed
  | ifThen role _ _ thenInduction restInduction =>
      have closed :=
        (thenInduction.enclose (operatorBracket_condition role) ends).append restInduction
      simpa using closed
  | ifElse role _ _ _ thenInduction elseInduction restInduction =>
      have arms := thenInduction.append ((neverBelow_operator elses).append elseInduction)
      have closed := (arms.enclose (operatorBracket_condition role) ends).append restInduction
      simpa using closed

/-- Counting depth over flat operators counts the open blocks. -/
theorem foldl_depthBehind_length (ops : List Operator) :
    ops.foldl depthBehind 0 = (enclosing operatorBracket ops).length := by
  induction ops using List.reverseRecOn with
  | nil => rfl
  | append_singleton ops op induction =>
      rw [List.foldl_append, List.foldl_cons, List.foldl_nil, induction,
        enclosing_append_singleton, advance, operatorBracket, depthBehind]
      cases op.role with
      | opensBlock => rfl
      | opensCondition => rfl
      | ordinary => rfl
      | closes =>
          dsimp only
          split
          · rw [List.length_tail]
          · rfl

/-- The validator has one frame more than blocks have been opened and not closed. -/
theorem visitAll_length {Operands : Type} {checks : Checks Operands}
    {functionType : WasmToV.BlockType} {operands : Operands} {ops : List Operator}
    {state : State Operands} (noException : ∀ op ∈ ops, partsException op = false)
    (reached : visitAll checks (.start functionType operands) ops = some state) :
    state.control.length + count operatorBracket .closes ops =
      1 + count operatorBracket .opens ops := by
  induction ops using List.reverseRecOn generalizing state with
  | nil =>
      cases reached
      rfl
  | append_singleton ops op induction =>
      rcases visitAll_append_singleton.mp reached with ⟨between, first, last⟩
      have before := induction
        (fun other member => noException other (List.mem_append_left _ member)) first
      have step := visit_length (noException op (List.mem_append_right _ List.mem_cons_self)) last
      rw [count_append, count_append]
      omega

/-! ## Agreement -/

theorem Carries.getElem {Operands : Type} {checks : Checks Operands} {start : State Operands}
    {ops : List Operator} {positions : List Nat} {control : List Wasmparser.Frame}
    {block : Nat} (carries : Carries (visitedUpTo checks start ops) positions control)
    (found : positions[depth]? = some block) : FrameOf checks start ops block control depth := by
  induction carries generalizing depth with
  | function single isFunction => cases found
  | opened before continues _ induction =>
      cases depth with
      | zero =>
          cases found
          exact ⟨_, _, _, _, before, rfl, rfl, rfl, continues⟩
      | succ depth => exact induction found

theorem FrameOf.of_take {Operands : Type} {checks : Checks Operands} {start : State Operands}
    {ops : List Operator} {position block : Nat} {control : List Wasmparser.Frame}
    (inside : block < position)
    (frameOf : FrameOf checks start (ops.take position) block control depth) :
    FrameOf checks start ops block control depth := by
  rcases frameOf with ⟨opened, frame, frame', rest, reached, top, others⟩
  rw [List.take_take, Nat.min_eq_left (by omega)] at reached
  exact ⟨opened, frame, frame', rest, reached, top, others⟩

/-- The label of a block is what the resolver has on its stack. -/
theorem innermost_openBlocks {body : List (Instruction TypeUse RefType Plain)} {position : Nat}
    {id : Id} (innermost : InnermostAt
      (((body.take position).foldl blocksBehind []).map ExprBlock.label) id place) :
    ∃ block, (openBlocks body position)[place]? = some block ∧ labelAt body block = some id ∧
      ∀ inner < place, ∀ other, (openBlocks body position)[inner]? = some other →
        labelAt body other ≠ some id := by
  have inBody : ∀ inner other : Nat, (openBlocks body position)[inner]? = some other →
      labelAt (body.take position) other = labelAt body other := by
    intro inner other found
    have bound := enclosing_lt (List.mem_of_getElem? found)
    conv_rhs => rw [← List.take_append_drop position body]
    rw [labelAt_append bound]
  have labels : ((body.take position).foldl blocksBehind []).map ExprBlock.label =
      (openBlocks body position).map (labelAt (body.take position)) := by
    rw [blocksBehind_enclosing, List.map_map]
    rfl
  rw [labels] at innermost
  rcases innermost with ⟨here, above⟩
  rw [List.getElem?_map] at here
  rcases Option.map_eq_some_iff.mp here with ⟨block, found, labelled⟩
  refine ⟨block, found, ?_, ?_⟩
  · rw [← inBody place block found]
    exact labelled
  · intro inner isInner other otherFound same
    apply above inner isInner
    rw [List.getElem?_map, otherFound, Option.map_some, inBody inner other otherFound, same]

theorem branchesAgree {resolver : Resolver TypeUse RefType Plain}
    {assembler : Assembler TypeUse RefType Plain}
    {body resolved : List (Instruction TypeUse RefType Plain)} {ops : List Operator}
    (isResolved : resolve resolver body = .ok resolved)
    (isAssembled : assembleBody assembler resolved = some ops) : BranchesAgree body ops := by
  rcases assembleBody_some isAssembled with ⟨fits, assembled⟩
  have brackets : ops.map operatorBracket = body.map Instruction.bracket := by
    rw [assembleAll_brackets assembled, resolveFrom_brackets isResolved]
  have sameLength : resolved.length = body.length := by
    have lengths := congrArg List.length (resolveFrom_brackets isResolved)
    rw [List.length_map, List.length_map] at lengths
    exact lengths
  intro position place instr id found target
  have bound := (List.getElem?_eq_some_iff.mp found).1
  have split : body = body.take position ++ instr :: body.drop (position + 1) := by
    rw [← (List.getElem?_eq_some_iff.mp found).2, ← List.drop_eq_getElem_cons bound,
      List.take_append_drop]
  rw [split] at isResolved
  rcases resolveFrom_append isResolved with
    ⟨front', instr', rest', blocks', rfl, frontLength, here⟩
  rw [List.length_take, Nat.min_eq_left (Nat.le_of_lt bound)] at frontLength
  rcases resolveInstr_targets here target with ⟨label', isLabel, target'⟩
  rcases resolveLabel_innermost isLabel with ⟨depth, rfl, innermost⟩
  rcases innermost_openBlocks innermost with ⟨block, isBlock, labelled, above⟩
  have isInstr : (front' ++ instr' :: rest')[position]? = some instr' := by
    rw [← frontLength, List.getElem?_append_right (Nat.le_refl _), Nat.sub_self]
    rfl
  rcases assembleAll_getElem assembled isInstr with ⟨op, isOp, assembledOp⟩
  have inside : block < position := by
    have bounded := enclosing_lt (List.mem_of_getElem? isBlock)
    rw [List.length_take] at bounded
    omega
  have small : depth < 2 ^ 32 := by
    have onStack := (List.getElem?_eq_some_iff.mp isBlock).1
    have stackLength := openBlocks_length_le body position
    omega
  have jumps := assemble_branchDepths assembledOp target'
  rw [Nat.mod_eq_of_lt small] at jumps
  refine ⟨op, depth, block, isOp, jumps, isBlock, labelled, above, ?_⟩
  intro Operands checks functionType operands state reached
  have noException : ∀ op ∈ ops.take position, partsException op = false :=
    fun op member => assembleAll_noException assembled op (List.mem_of_mem_take member)
  have carries := carries_visitAll noException reached
  rw [← openBlocks_eq brackets] at carries
  exact (Carries.getElem carries isBlock).of_take inside

theorem heightsAgree {resolver : Resolver TypeUse RefType Plain}
    {assembler : Assembler TypeUse RefType Plain}
    {body resolved : List (Instruction TypeUse RefType Plain)} {ops : List Operator}
    (isResolved : resolve resolver body = .ok resolved)
    (isAssembled : assembleBody assembler resolved = some ops) (nested : WellNested ops) :
    HeightsAgree body ops := by
  rcases assembleBody_some isAssembled with ⟨_, assembled⟩
  have brackets : ops.map operatorBracket = body.map Instruction.bracket := by
    rw [assembleAll_brackets assembled, resolveFrom_brackets isResolved]
  have sameLength : ops.length = body.length := by
    have lengths := congrArg List.length brackets
    rw [List.length_map, List.length_map] at lengths
    exact lengths
  rcases nested.translateExpression_depths with ⟨expression, translated, depths⟩
  refine ⟨expression, translated, ?_⟩
  intro position bound
  refine ⟨?_, ?_, ?_⟩
  · rw [blocksBehind_enclosing, List.length_map]
    rfl
  · intro Operands checks functionType operands state reached
    have noException : ∀ op ∈ ops.take position, partsException op = false :=
      fun op member => assembleAll_noException assembled op (List.mem_of_mem_take member)
    have frames := visitAll_length noException reached
    have blocks := enclosing_length operatorBracket ((neverBelow_wellNested nested).take position)
    rw [openBlocks_eq brackets]
    omega
  · have inOps : position < (ops ++ [Operator.end_]).length := by
      rw [List.length_append, List.length_singleton]
      omega
    refine ⟨(ops ++ [Operator.end_])[position], ?_, List.getElem?_eq_getElem inOps⟩
    rw [depths, flatDepths_getElem (List.getElem?_eq_getElem inOps),
      List.take_append_of_le_length (by omega), foldl_depthBehind_length, openBlocks_eq brackets]

/-! ## Bodies that are resolved and assembled -/

/-- Flat instructions in which every block is closed by its own `end`. -/
inductive NestedBody : List (Instruction TypeUse RefType Plain) → Prop
  | nil : NestedBody []
  | branch {kind : BranchKind RefType} {label : Index}
      {following : List (Instruction TypeUse RefType Plain)} (rest : NestedBody following) :
      NestedBody (.branch kind label :: following)
  | brTable {labels : List Index} {default : Index}
      {following : List (Instruction TypeUse RefType Plain)} (rest : NestedBody following) :
      NestedBody (.brTable labels default :: following)
  | plain {instruction : Plain} {following : List (Instruction TypeUse RefType Plain)}
      (rest : NestedBody following) : NestedBody (.plain instruction :: following)
  | block {kind : BlockKind} {label closing : Option Id} {blockType : TypeUse}
      {enclosed following : List (Instruction TypeUse RefType Plain)}
      (noCondition : kind ≠ .if_) (body : NestedBody enclosed) (rest : NestedBody following) :
      NestedBody (.opens kind label blockType :: (enclosed ++ .end_ closing :: following))
  | ifThen {label closing : Option Id} {blockType : TypeUse}
      {thenInner following : List (Instruction TypeUse RefType Plain)}
      (thenArm : NestedBody thenInner) (rest : NestedBody following) :
      NestedBody (.opens .if_ label blockType :: (thenInner ++ .end_ closing :: following))
  | ifElse {label between closing : Option Id} {blockType : TypeUse}
      {thenInner elseInner following : List (Instruction TypeUse RefType Plain)}
      (thenArm : NestedBody thenInner) (elseArm : NestedBody elseInner)
      (rest : NestedBody following) :
      NestedBody (.opens .if_ label blockType ::
        (thenInner ++ .else_ between :: (elseInner ++ .end_ closing :: following)))

/-- The names of a body mean something: those that are left to others are resolved there, an `else`
or `end` repeats the label of its block, and every named target has an enclosing block of that
name. -/
structure Resolvable (resolver : Resolver TypeUse RefType Plain)
    (body : List (Instruction TypeUse RefType Plain)) : Prop where
  blockTypes : ∀ kind label blockType, .opens kind label blockType ∈ body →
    ∃ resolved, resolver.resolveBlockType blockType = .ok resolved
  branchKinds : ∀ kind label, .branch kind label ∈ body →
    ∃ resolved, resolveBranchKind resolver kind = .ok resolved
  plain : ∀ instruction, .plain instruction ∈ body →
    ∃ resolved, resolver.resolvePlain instruction = .ok resolved
  closings : ∀ (position : Nat) instr label block, body[position]? = some instr →
    instr.closingLabel = some label → (openBlocks body position).head? = some block →
      labelAt body block = some label
  targets : ∀ (position : Nat) instr id, body[position]? = some instr → .id id ∈ instr.targets →
    ∃ block ∈ openBlocks body position, labelAt body block = some id

/-- The operator has the part in the nesting that the instruction has. -/
def Matches (instr : Instruction TypeUse RefType Plain) (op : Operator) : Prop :=
  match instr with
  | .opens .if_ _ _ => op.role = .opensCondition
  | .opens _ _ _ => op.role = .opensBlock
  | .else_ _ => op = .else_
  | .end_ _ => op = .end_
  | .branch _ _ | .brTable _ _ | .plain _ => op.role = .ordinary

section Resolving

variable {resolver : Resolver TypeUse RefType Plain}
  (assembler : Assembler TypeUse RefType Plain)

/-- What the resolver makes of an instruction has a binary form. -/
def Resolves (resolver : Resolver TypeUse RefType Plain)
    (assembler : Assembler TypeUse RefType Plain) (blocks : List ExprBlock)
    (instr : Instruction TypeUse RefType Plain) : Prop :=
  ∃ instr' op, resolveInstr resolver blocks instr = .ok (instr', blocksBehind blocks instr) ∧
    assemble assembler instr' = some op ∧ Matches instr op

theorem assembleLabels_numbers (indices : List Nat) :
    assembleLabels (indices.map .num) = some indices := by
  induction indices with
  | nil => rfl
  | cons index rest induction =>
      rw [List.map_cons, assembleLabels, induction]
      rfl

theorem resolves_branch {kind kind' : BranchKind RefType} {label : Index}
    (resolved : resolveBranchKind resolver kind = .ok kind') (bound : Bound blocks [label]) :
    Resolves resolver assembler blocks (.branch kind label) := by
  rcases resolveLabel_number bound with ⟨index, isIndex⟩
  refine ⟨.branch kind' (.num index), kind'.operator assembler index, ?_, rfl, ?_⟩
  · rw [resolveInstr, isIndex, resolved]
    rfl
  · cases kind' <;> rfl

theorem resolves_brTable {default : Index} (bound : Bound blocks (labels ++ [default])) :
    Resolves resolver assembler blocks (.brTable labels default) := by
  have isDefault : Bound blocks [default] :=
    fun id member => bound id (List.mem_append_right _ member)
  rcases resolveLabels_numbers fun id member => bound id (List.mem_append_left _ member) with
    ⟨indices, areIndices⟩
  rcases resolveLabel_number isDefault with ⟨last, isLast⟩
  refine ⟨.brTable (indices.map .num) (.num last), .brTable ⟨indices.map .ok, last⟩, ?_, ?_, rfl⟩
  · rw [resolveInstr, areIndices, isLast]
    rfl
  · rw [assemble, assembleLabels_numbers]
    rfl

/-- An instruction whose names mean something is resolved and assembled. -/
theorem resolves_instr {front rest : List (Instruction TypeUse RefType Plain)}
    (resolvable : Resolvable resolver (front ++ instr :: rest)) :
    Resolves resolver assembler (front.foldl blocksBehind []) instr := by
  have member : instr ∈ front ++ instr :: rest := List.mem_append_right _ List.mem_cons_self
  have here : (front ++ instr :: rest)[front.length]? = some instr := by
    rw [List.getElem?_append_right (Nat.le_refl _), Nat.sub_self]
    rfl
  have blocks : openBlocks (front ++ instr :: rest) front.length =
      enclosing Instruction.bracket front := by
    rw [openBlocks, List.take_left]
  have labels (position : Nat) (isOpen : position ∈ enclosing Instruction.bracket front) :
      labelAt (front ++ instr :: rest) position = labelAt front position :=
    labelAt_append (enclosing_lt isOpen)
  have bound : Bound (front.foldl blocksBehind []) instr.targets := by
    intro id target
    rcases resolvable.targets _ _ id here target with ⟨position, isOpen, labelled⟩
    rw [blocks] at isOpen
    rw [labels position isOpen] at labelled
    rw [blocksBehind_enclosing]
    exact ⟨_, List.mem_map_of_mem isOpen, labelled⟩
  have closing (label : Option Id) (isLabel : instr.closingLabel = label) :
      checkLabel (front.foldl blocksBehind []).head? label = .ok () := by
    refine checkLabel_ok fun name block named isHead => ?_
    rw [blocksBehind_enclosing, List.head?_map] at isHead
    rcases Option.map_eq_some_iff.mp isHead with ⟨position, first, rfl⟩
    rw [← labels position (List.mem_of_mem_head? first)]
    refine resolvable.closings _ _ name position here (isLabel.trans named) ?_
    rw [blocks]
    exact first
  cases instr with
  | opens kind label blockType =>
      rcases resolvable.blockTypes kind label blockType member with ⟨blockType', resolved⟩
      refine ⟨.opens kind label blockType', kind.operator (assembler.blockType blockType'), ?_, rfl,
        ?_⟩
      · rw [resolveInstr, resolved]
        rfl
      · cases kind <;> rfl
  | else_ label =>
      refine ⟨.else_ label, .else_, ?_, rfl, rfl⟩
      rw [resolveInstr, closing label rfl]
      rfl
  | end_ label =>
      refine ⟨.end_ label, .end_, ?_, rfl, rfl⟩
      rw [resolveInstr, closing label rfl]
      rfl
  | branch kind label =>
      rcases resolvable.branchKinds kind label member with ⟨kind', resolved⟩
      exact resolves_branch assembler resolved bound
  | brTable labels default => exact resolves_brTable assembler bound
  | plain instruction =>
      rcases resolvable.plain instruction member with ⟨instruction', resolved⟩
      refine ⟨.plain instruction', assembler.plain instruction', ?_, rfl,
        assembler.plain_ordinary instruction'⟩
      rw [resolveInstr, resolved]
      rfl

theorem resolves_from {front rest : List (Instruction TypeUse RefType Plain)}
    (resolvable : Resolvable resolver (front ++ rest)) :
    ∃ resolved ops, resolveFrom resolver (front.foldl blocksBehind []) rest = .ok resolved ∧
      assembleAll assembler resolved = some ops ∧ List.Forall₂ Matches rest ops := by
  induction rest generalizing front with
  | nil => exact ⟨[], [], rfl, rfl, .nil⟩
  | cons instr rest induction =>
      rcases resolves_instr assembler resolvable with ⟨instr', op, first, assembled, isMatch⟩
      have behind : Resolvable resolver ((front ++ [instr]) ++ rest) := by
        rw [List.append_assoc]
        exact resolvable
      rcases induction behind with ⟨later, ops, laterResolved, laterAssembled, matches_⟩
      rw [List.foldl_append] at laterResolved
      refine ⟨instr' :: later, op :: ops, ?_, ?_, .cons isMatch matches_⟩
      · rw [resolveFrom, first]
        change (do
          let rest ← resolveFrom resolver (blocksBehind (front.foldl blocksBehind []) instr) rest
          return instr' :: rest) = _
        rw [show resolveFrom resolver (blocksBehind (front.foldl blocksBehind []) instr) rest =
          .ok later from laterResolved]
        rfl
      · rw [assembleAll, assembled, laterAssembled]
        rfl

end Resolving

theorem matches_append {first second : List (Instruction TypeUse RefType Plain)}
    {ops : List Operator} (matches_ : List.Forall₂ Matches (first ++ second) ops) :
    ∃ front back, ops = front ++ back ∧ List.Forall₂ Matches first front ∧
      List.Forall₂ Matches second back := by
  induction first generalizing ops with
  | nil => exact ⟨[], ops, rfl, .nil, matches_⟩
  | cons instr first induction =>
      cases matches_ with
      | cons here later =>
          rcases induction later with ⟨front, back, rfl, isFront, isBack⟩
          exact ⟨_ :: front, back, rfl, .cons here isFront, isBack⟩

/-- What is assembled of a nested body is nested. -/
theorem NestedBody.wellNested {body : List (Instruction TypeUse RefType Plain)}
    {ops : List Operator} (nested : NestedBody body) (matches_ : List.Forall₂ Matches body ops) :
    WellNested ops := by
  induction nested generalizing ops with
  | nil =>
      cases matches_
      exact .nil
  | branch _ induction | brTable _ induction | plain _ induction =>
      cases matches_ with
      | cons here later => exact .ordinary here (induction later)
  | @block kind label closing blockType enclosed following noCondition _ _ bodyInduction
      restInduction =>
      cases matches_ with
      | cons here later =>
          rcases matches_append later with ⟨front, back, rfl, isFront, isBack⟩
          cases isBack with
          | cons closes behind =>
              cases closes
              refine .block ?_ (bodyInduction isFront) (restInduction behind)
              cases kind with
              | if_ => exact absurd rfl noCondition
              | _ => exact here
  | ifThen _ _ thenInduction restInduction =>
      cases matches_ with
      | cons here later =>
          rcases matches_append later with ⟨front, back, rfl, isFront, isBack⟩
          cases isBack with
          | cons closes behind =>
              cases closes
              exact .ifThen here (thenInduction isFront) (restInduction behind)
  | ifElse _ _ _ thenInduction elseInduction restInduction =>
      cases matches_ with
      | cons here later =>
          rcases matches_append later with ⟨front, back, rfl, isFront, isBack⟩
          cases isBack with
          | cons isElse arm =>
              cases isElse
              rcases matches_append arm with ⟨middle, last, rfl, isMiddle, isLast⟩
              cases isLast with
              | cons closes behind =>
                  cases closes
                  exact .ifElse here (thenInduction isFront) (elseInduction isMiddle)
                    (restInduction behind)

/-- A body whose blocks are nested and closed and whose names mean something is resolved, with a
number for every target, and assembled; resolver, validator and translator agree about every label
and about the blocks around every position. -/
theorem labels_agree {resolver : Resolver TypeUse RefType Plain}
    (assembler : Assembler TypeUse RefType Plain)
    {body : List (Instruction TypeUse RefType Plain)} (nested : NestedBody body)
    (fits : body.length < 2 ^ 32) (resolvable : Resolvable resolver body) :
    ∃ resolved ops, resolve resolver body = .ok resolved ∧
      assembleBody assembler resolved = some ops ∧ BranchesAgree body ops ∧
        HeightsAgree body ops := by
  have whole : Resolvable resolver ([] ++ body) := resolvable
  rcases resolves_from assembler whole with ⟨resolved, ops, isResolved, assembled, matches_⟩
  have sameLength : resolved.length = body.length := by
    have lengths := congrArg List.length (resolveFrom_brackets isResolved)
    rw [List.length_map, List.length_map] at lengths
    exact lengths
  have isAssembled : assembleBody assembler resolved = some ops := by
    rw [assembleBody, sameLength, if_pos fits]
    exact assembled
  exact ⟨resolved, ops, isResolved, isAssembled, branchesAgree isResolved isAssembled,
    heightsAgree isResolved isAssembled (nested.wellNested matches_)⟩

/-- Blocks of the same name in each other, with branches to the inner and to the outer name. -/
def shadowedBody : List (Instruction BlockType Unit Unit) :=
  [.opens .forall_ (some ⟨"a", 0⟩) .empty, .opens .assume (some ⟨"b", 0⟩) .empty,
    .opens .exists_ (some ⟨"a", 0⟩) .empty, .branch .br (.id ⟨"a", 0⟩),
    .branch .brIf (.id ⟨"b", 0⟩), .end_ none, .end_ (some ⟨"b", 0⟩), .end_ none]

def plainResolver : Resolver BlockType Unit Unit := ⟨.ok, .ok, .ok⟩

def plainAssembler : Assembler BlockType Unit Unit where
  blockType := id
  castFlags _ _ := 0
  heapType _ := 0
  plain _ := .plain .nop
  plain_ordinary _ := rfl
  plain_noException _ := rfl

theorem shadowedBody_nested : NestedBody shadowedBody := by
  have branches : NestedBody ([.branch .br (.id ⟨"a", 0⟩), .branch .brIf (.id ⟨"b", 0⟩)] :
      List (Instruction BlockType Unit Unit)) := .branch (.branch .nil)
  have innermost : NestedBody (.opens .exists_ (some ⟨"a", 0⟩) .empty ::
      ([.branch .br (.id ⟨"a", 0⟩), .branch .brIf (.id ⟨"b", 0⟩)] ++ .end_ none :: []) :
      List (Instruction BlockType Unit Unit)) := .block (by decide) branches .nil
  have middle : NestedBody (.opens .assume (some ⟨"b", 0⟩) .empty ::
      ([.opens .exists_ (some ⟨"a", 0⟩) .empty, .branch .br (.id ⟨"a", 0⟩),
        .branch .brIf (.id ⟨"b", 0⟩), .end_ none] ++ .end_ (some ⟨"b", 0⟩) :: []) :
      List (Instruction BlockType Unit Unit)) := .block (by decide) innermost .nil
  exact .block (by decide) middle .nil

theorem shadowedBody_resolvable : Resolvable plainResolver shadowedBody where
  blockTypes _ _ blockType _ := ⟨blockType, rfl⟩
  branchKinds kind _ member := by
    simp only [shadowedBody, List.mem_cons, List.not_mem_nil, reduceCtorEq, or_false, false_or,
      Instruction.branch.injEq] at member
    rcases member with ⟨rfl, -⟩ | ⟨rfl, -⟩
    · exact ⟨_, rfl⟩
    · exact ⟨_, rfl⟩
  plain instruction _ := ⟨instruction, rfl⟩
  closings position instr label block isInstr closes isBlock := by
    rcases position with _ | _ | _ | _ | _ | _ | _ | _ | position
    all_goals cases isInstr
    all_goals cases closes
    cases isBlock
    rfl
  targets position instr id isInstr target := by
    rcases position with _ | _ | _ | _ | _ | _ | _ | _ | position
    all_goals cases isInstr
    all_goals cases target
    · exact ⟨2, by decide, rfl⟩
    · contradiction
    · exact ⟨1, by decide, rfl⟩
    · contradiction

theorem labels_agree_shadowed :
    ∃ resolved ops, resolve plainResolver shadowedBody = .ok resolved ∧
      assembleBody plainAssembler resolved = some ops ∧ BranchesAgree shadowedBody ops ∧
        HeightsAgree shadowedBody ops :=
  labels_agree plainAssembler shadowedBody_nested (by decide) shadowedBody_resolvable

end Inference.Wat

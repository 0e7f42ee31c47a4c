import Mathlib.Algebra.Ring.Nat
import Inference.Foundation.Brackets

/-! # Resolution of labels

The expression resolver walks over the flat instructions of a body with a stack of the blocks it is
in. A branch to a name becomes a branch to the number of blocks between it and the innermost block
of that name. Names other than labels are left to the surrounding resolver.
-/

namespace Inference.Wat

open Brackets

/-- Two identifiers are the same when name and generation are. -/
structure Id where
  name : String
  generation : Nat
  deriving DecidableEq, Repr

def Id.isGensym (id : Id) : Bool :=
  id.generation ≠ 0

inductive Index
  | num (index : Nat)
  | id (id : Id)
  deriving DecidableEq, Repr

inductive BlockKind
  | block | loop | if_ | forall_ | exists_ | assume | unique
  deriving DecidableEq, Repr

/-- The instructions with one label. A cast also names the types it casts between. -/
inductive BranchKind (RefType : Type)
  | br | brIf | brOnNull | brOnNonNull
  | brOnCast (toType fromType : RefType)
  | brOnCastFail (toType fromType : RefType)
  deriving DecidableEq, Repr

/-- A flat instruction. The block types, the reference types and the instructions without a label
are those of the surrounding development. -/
inductive Instruction (BlockType RefType Plain : Type)
  | opens (kind : BlockKind) (label : Option Id) (blockType : BlockType)
  | else_ (label : Option Id)
  | end_ (label : Option Id)
  | branch (kind : BranchKind RefType) (label : Index)
  | brTable (labels : List Index) (default : Index)
  | plain (instruction : Plain)
  deriving DecidableEq, Repr

inductive ResolveFailure
  | error (message : String)
  | panicked
  deriving DecidableEq, Repr

/-- What the surrounding resolver does to the other names of an instruction. -/
structure Resolver (BlockType RefType Plain : Type) where
  resolveBlockType : BlockType → Except ResolveFailure BlockType
  resolveReftype : RefType → Except ResolveFailure RefType
  resolvePlain : Plain → Except ResolveFailure Plain

structure ExprBlock where
  label : Option Id
  deriving DecidableEq, Repr

variable {BlockType RefType Plain : Type}

def resolveError (id : Id) (ns : String) : ResolveFailure :=
  if id.isGensym then .panicked
  else .error ("unknown " ++ ns ++ ": failed to find name `$" ++ id.name ++ "`")

/-- The blocks are listed from the innermost. -/
def resolveLabel (blocks : List ExprBlock) : Index → Except ResolveFailure Index
  | .num index => .ok (.num index)
  | .id id =>
      let labels := blocks.zipIdx.filterMap fun (block, index) => block.label.map (index, ·)
      match labels.find? fun (_, label) => label = id with
      | some (index, _) => .ok (.num (index % 2 ^ 32))
      | none => .error (resolveError id "label")

/-- An `else` or `end` with a label has the label of the block it belongs to. -/
def checkLabel (matchingBlock : Option ExprBlock) (label : Option Id) :
    Except ResolveFailure Unit :=
  match matchingBlock, label with
  | some block, some label =>
      if some label = block.label then .ok ()
      else .error (.error "mismatching labels between end and block")
  | _, _ => .ok ()

def resolveBranchKind (resolver : Resolver BlockType RefType Plain) :
    BranchKind RefType → Except ResolveFailure (BranchKind RefType)
  | .brOnCast toType fromType => do
      let toType ← resolver.resolveReftype toType
      let fromType ← resolver.resolveReftype fromType
      return .brOnCast toType fromType
  | .brOnCastFail toType fromType => do
      let toType ← resolver.resolveReftype toType
      let fromType ← resolver.resolveReftype fromType
      return .brOnCastFail toType fromType
  | kind => .ok kind

def resolveLabels (blocks : List ExprBlock) : List Index → Except ResolveFailure (List Index)
  | [] => .ok []
  | label :: rest => do
      let label ← resolveLabel blocks label
      let rest ← resolveLabels blocks rest
      return label :: rest

/-- The resolved instruction, and the blocks behind it. -/
def resolveInstr (resolver : Resolver BlockType RefType Plain) (blocks : List ExprBlock) :
    Instruction BlockType RefType Plain →
      Except ResolveFailure (Instruction BlockType RefType Plain × List ExprBlock)
  | .opens kind label blockType => do
      let blockType ← resolver.resolveBlockType blockType
      return (.opens kind label blockType, ⟨label⟩ :: blocks)
  | .else_ label => do
      checkLabel blocks.head? label
      return (.else_ label, blocks)
  | .end_ label => do
      checkLabel blocks.head? label
      return (.end_ label, blocks.tail)
  | .branch kind label => do
      let label ← resolveLabel blocks label
      let kind ← resolveBranchKind resolver kind
      return (.branch kind label, blocks)
  | .brTable labels default => do
      let labels ← resolveLabels blocks labels
      let default ← resolveLabel blocks default
      return (.brTable labels default, blocks)
  | .plain instruction => do
      let instruction ← resolver.resolvePlain instruction
      return (.plain instruction, blocks)

def resolveFrom (resolver : Resolver BlockType RefType Plain) :
    List ExprBlock → List (Instruction BlockType RefType Plain) →
      Except ResolveFailure (List (Instruction BlockType RefType Plain))
  | _, [] => .ok []
  | blocks, instr :: rest => do
      let (instr, blocks) ← resolveInstr resolver blocks instr
      let rest ← resolveFrom resolver blocks rest
      return instr :: rest

def resolve (resolver : Resolver BlockType RefType Plain)
    (body : List (Instruction BlockType RefType Plain)) :
    Except ResolveFailure (List (Instruction BlockType RefType Plain)) :=
  resolveFrom resolver [] body

namespace Instruction

def bracket : Instruction BlockType RefType Plain → Bracket
  | .opens _ _ _ => .opens
  | .end_ _ => .closes
  | _ => .neither

/-- The label a block carries. -/
def blockLabel : Instruction BlockType RefType Plain → Option Id
  | .opens _ label _ => label
  | _ => none

/-- The label an instruction repeats of the block it belongs to. -/
def closingLabel : Instruction BlockType RefType Plain → Option Id
  | .else_ label | .end_ label => label
  | _ => none

/-- The labels an instruction can branch to. -/
def targets : Instruction BlockType RefType Plain → List Index
  | .branch _ label => [label]
  | .brTable labels default => labels ++ [default]
  | _ => []

end Instruction

/-! ## The stack of blocks -/

/-- The blocks behind an instruction. -/
def blocksBehind (blocks : List ExprBlock) :
    Instruction BlockType RefType Plain → List ExprBlock
  | .opens _ label _ => ⟨label⟩ :: blocks
  | .end_ _ => blocks.tail
  | _ => blocks

theorem except_bind_ok {ε α β : Type} {first : Except ε α} {next : α → Except ε β} {result : β}
    (succeeds : first >>= next = .ok result) :
    ∃ value, first = .ok value ∧ next value = .ok result := by
  cases first with
  | error _ => cases succeeds
  | ok value => exact ⟨value, rfl, succeeds⟩

variable {resolver : Resolver BlockType RefType Plain} {blocks : List ExprBlock}
  {instr : Instruction BlockType RefType Plain}

theorem resolveInstr_blocks
    {blocks' : List ExprBlock} {instr' : Instruction BlockType RefType Plain}
    (resolved : resolveInstr resolver blocks instr = .ok (instr', blocks')) :
    blocks' = blocksBehind blocks instr := by
  cases instr with
  | opens kind label blockType =>
      rcases except_bind_ok resolved with ⟨_, _, done⟩
      cases done
      rfl
  | else_ label =>
      rcases except_bind_ok resolved with ⟨_, _, done⟩
      cases done
      rfl
  | end_ label =>
      rcases except_bind_ok resolved with ⟨_, _, done⟩
      cases done
      rfl
  | branch kind label =>
      rcases except_bind_ok resolved with ⟨_, _, rest⟩
      rcases except_bind_ok rest with ⟨_, _, done⟩
      cases done
      rfl
  | brTable labels default =>
      rcases except_bind_ok resolved with ⟨_, _, rest⟩
      rcases except_bind_ok rest with ⟨_, _, done⟩
      cases done
      rfl
  | plain instruction =>
      rcases except_bind_ok resolved with ⟨_, _, done⟩
      cases done
      rfl

/-- A resolved body, taken apart at one of its instructions. -/
theorem resolveFrom_append
    {front rest : List (Instruction BlockType RefType Plain)}
    {resolved : List (Instruction BlockType RefType Plain)}
    (succeeds : resolveFrom resolver blocks (front ++ instr :: rest) = .ok resolved) :
    ∃ front' instr' rest' blocks', resolved = front' ++ instr' :: rest' ∧
      front'.length = front.length ∧
        resolveInstr resolver (front.foldl blocksBehind blocks) instr = .ok (instr', blocks') := by
  induction front generalizing blocks resolved with
  | nil =>
      rcases except_bind_ok succeeds with ⟨⟨instr', blocks'⟩, first, next⟩
      rcases except_bind_ok next with ⟨rest', _, done⟩
      cases done
      exact ⟨[], instr', rest', blocks', rfl, rfl, first⟩
  | cons head front induction =>
      rcases except_bind_ok succeeds with ⟨⟨head', behind⟩, first, next⟩
      rcases except_bind_ok next with ⟨tail', tailResolved, done⟩
      cases done
      rw [resolveInstr_blocks first] at tailResolved
      rcases induction tailResolved with ⟨front', instr', rest', blocks', rfl, sameLength, here⟩
      exact ⟨head' :: front', instr', rest', blocks', rfl, congrArg (· + 1) sameLength, here⟩

/-- The label of the block opened at a position. -/
def labelAt (body : List (Instruction BlockType RefType Plain)) (position : Nat) : Option Id :=
  (body[position]?).bind Instruction.blockLabel

theorem labelAt_append {front rest : List (Instruction BlockType RefType Plain)} {position : Nat}
    (inFront : position < front.length) :
    labelAt (front ++ rest) position = labelAt front position := by
  rw [labelAt, labelAt, List.getElem?_append_left inFront]

theorem enclosing_lt {Item : Type} {bracket : Item → Bracket} {items : List Item} {position : Nat}
    (member : position ∈ enclosing bracket items) : position < items.length := by
  rcases List.mem_iff_getElem?.mp member with ⟨place, found⟩
  rcases enclosing_getElem bracket found with ⟨before, item, after, rfl, rfl, _⟩
  simp

/-- The stack of the resolver holds the labels of the open blocks. -/
theorem blocksBehind_enclosing (front : List (Instruction BlockType RefType Plain)) :
    front.foldl blocksBehind [] =
      (enclosing Instruction.bracket front).map fun position => ⟨labelAt front position⟩ := by
  induction front using List.reverseRecOn with
  | nil => rfl
  | append_singleton front instr induction =>
      have keeps : ∀ positions : List Nat,
          (∀ position ∈ positions, position < front.length) →
            positions.map (fun position => ExprBlock.mk (labelAt (front ++ [instr]) position)) =
              positions.map fun position => ⟨labelAt front position⟩ := by
        intro positions inFront
        apply List.map_congr_left
        intro position member
        rw [labelAt_append (inFront position member)]
      have bounded : ∀ position ∈ enclosing Instruction.bracket front, position < front.length :=
        fun position member => enclosing_lt member
      rw [List.foldl_append, induction, enclosing_append_singleton]
      cases instr with
      | opens kind label blockType =>
          have here : labelAt (front ++ [.opens kind label blockType]) front.length = label := by
            rw [labelAt, List.getElem?_append_right (Nat.le_refl _), Nat.sub_self]
            rfl
          rw [show advance Instruction.bracket front.length (enclosing Instruction.bracket front)
            (.opens kind label blockType) =
              front.length :: enclosing Instruction.bracket front from rfl, List.map_cons,
            keeps _ bounded, here]
          rfl
      | end_ label =>
          have tailBounded : ∀ position ∈ (enclosing Instruction.bracket front).tail,
              position < front.length :=
            fun position member => bounded position (List.mem_of_mem_tail member)
          rw [show advance Instruction.bracket front.length (enclosing Instruction.bracket front)
            (.end_ label) = (enclosing Instruction.bracket front).tail from rfl,
            keeps _ tailBounded, List.map_tail]
          rfl
      | else_ label => exact (keeps _ bounded).symm
      | branch kind label => exact (keeps _ bounded).symm
      | brTable labels default => exact (keeps _ bounded).symm
      | plain instruction => exact (keeps _ bounded).symm

/-! ## Resolved labels -/

/-- The block at the place is the innermost one with the label. -/
def InnermostAt (labels : List (Option Id)) (id : Id) (place : Nat) : Prop :=
  labels[place]? = some (some id) ∧ ∀ inner < place, labels[inner]? ≠ some (some id)

theorem find_label {id : Id} {start index : Nat} {label : Id}
    (found : ((blocks.zipIdx start).filterMap fun (block, index) => block.label.map (index, ·)).find?
      (fun (_, label) => label = id) = some (index, label)) :
    ∃ place, index = start + place ∧ InnermostAt (blocks.map ExprBlock.label) id place := by
  induction blocks generalizing start with
  | nil => cases found
  | cons block rest induction =>
      rw [List.zipIdx_cons, List.filterMap_cons] at found
      dsimp only at found
      by_cases here : block.label = some id
      · rw [here] at found
        simp only [Option.map_some, List.find?_cons, decide_true] at found
        cases found
        refine ⟨0, rfl, ?_, ?_⟩
        · rw [List.map_cons, here]
          rfl
        · intro inner impossible
          exact absurd impossible (Nat.not_lt_zero inner)
      · have later : ((rest.zipIdx (start + 1)).filterMap fun (block, index) =>
            block.label.map (index, ·)).find? (fun (_, label) => label = id) =
              some (index, label) := by
          cases labelled : block.label with
          | none =>
              rw [labelled] at found
              exact found
          | some other =>
              have different : other ≠ id := by
                intro same
                exact here (by rw [labelled, same])
              rw [labelled] at found
              simp only [Option.map_some, List.find?_cons, different, decide_false] at found
              exact found
        rcases induction later with ⟨place, rfl, holds, above⟩
        refine ⟨place + 1, by omega, holds, ?_⟩
        intro inner isInner same
        cases inner with
        | zero =>
            have isLabel := Option.some.inj same
            exact here isLabel
        | succ inner => exact above inner (by omega) same

theorem resolveLabel_innermost {id : Id} {index : Index}
    (resolved : resolveLabel blocks (.id id) = .ok index) :
    ∃ place, index = .num (place % 2 ^ 32) ∧
      InnermostAt (blocks.map ExprBlock.label) id place := by
  rw [resolveLabel] at resolved
  dsimp only at resolved
  split at resolved
  next place label found =>
    cases resolved
    rcases find_label found with ⟨offset, rfl, innermost⟩
    exact ⟨offset, by rw [Nat.zero_add], innermost⟩
  next => cases resolved

variable {labels : List Index} {label : Index}

theorem resolveLabels_getElem {labels' : List Index} {place : Nat}
    (resolved : resolveLabels blocks labels = .ok labels') (found : labels[place]? = some label) :
    ∃ label', resolveLabel blocks label = .ok label' ∧ labels'[place]? = some label' := by
  induction labels generalizing labels' place with
  | nil => cases found
  | cons head rest induction =>
      rcases except_bind_ok resolved with ⟨head', first, next⟩
      rcases except_bind_ok next with ⟨rest', restResolved, done⟩
      cases done
      cases place with
      | zero =>
          cases found
          exact ⟨head', first, rfl⟩
      | succ place =>
          rcases induction restResolved found with ⟨label', isLabel, there⟩
          exact ⟨label', isLabel, there⟩

theorem resolveLabels_length {labels' : List Index}
    (resolved : resolveLabels blocks labels = .ok labels') : labels'.length = labels.length := by
  induction labels generalizing labels' with
  | nil =>
      cases resolved
      rfl
  | cons head rest induction =>
      rcases except_bind_ok resolved with ⟨head', _, next⟩
      rcases except_bind_ok next with ⟨rest', restResolved, done⟩
      cases done
      exact congrArg (· + 1) (induction restResolved)

/-- Every label of an instruction is resolved against the blocks the instruction stands in. -/
theorem resolveInstr_targets
    {blocks' : List ExprBlock} {instr' : Instruction BlockType RefType Plain}
    (resolved : resolveInstr resolver blocks instr = .ok (instr', blocks')) {place : Nat}
    (found : instr.targets[place]? = some label) :
    ∃ label', resolveLabel blocks label = .ok label' ∧ instr'.targets[place]? = some label' := by
  cases instr with
  | opens kind label blockType => cases found
  | else_ label => cases found
  | end_ label => cases found
  | plain instruction => cases found
  | branch kind target =>
      rcases except_bind_ok resolved with ⟨target', isTarget, rest⟩
      rcases except_bind_ok rest with ⟨kind', _, done⟩
      cases done
      cases place with
      | zero =>
          cases found
          exact ⟨target', isTarget, rfl⟩
      | succ place => cases found
  | brTable labels default =>
      rcases except_bind_ok resolved with ⟨labels', areLabels, rest⟩
      rcases except_bind_ok rest with ⟨default', isDefault, done⟩
      cases done
      have sameLength := resolveLabels_length areLabels
      change (labels ++ [default])[place]? = some label at found
      by_cases inLabels : place < labels.length
      · rw [List.getElem?_append_left inLabels] at found
        rcases resolveLabels_getElem areLabels found with ⟨label', isLabel, there⟩
        refine ⟨label', isLabel, ?_⟩
        change (labels' ++ [default'])[place]? = some label'
        rw [List.getElem?_append_left (by omega), there]
      · rw [List.getElem?_append_right (by omega)] at found
        have last : place = labels.length := by
          by_contra other
          rw [List.getElem?_eq_none (by simp; omega)] at found
          cases found
        subst last
        rw [Nat.sub_self] at found
        cases found
        refine ⟨default', isDefault, ?_⟩
        change (labels' ++ [default'])[labels.length]? = some default'
        rw [← sameLength, List.getElem?_append_right (Nat.le_refl _), Nat.sub_self]
        rfl

/-! ## Labels that can be resolved -/

/-- Every name in the list is the label of a block. -/
def Bound (blocks : List ExprBlock) (labels : List Index) : Prop :=
  ∀ id, .id id ∈ labels → ∃ block ∈ blocks, block.label = some id

theorem Bound.tail {blocks : List ExprBlock} {label : Index} {labels : List Index}
    (bound : Bound blocks (label :: labels)) : Bound blocks labels :=
  fun id member => bound id (List.mem_cons_of_mem _ member)

theorem resolveLabel_number
    (bound : Bound blocks [label]) : ∃ index, resolveLabel blocks label = .ok (.num index) := by
  cases label with
  | num index => exact ⟨index, rfl⟩
  | id id =>
      rw [resolveLabel]
      dsimp only
      split
      next index _ _ => exact ⟨index % 2 ^ 32, rfl⟩
      next none =>
        rcases bound id List.mem_cons_self with ⟨block, member, labelled⟩
        rcases List.mem_iff_getElem.mp member with ⟨place, inside, isBlock⟩
        have listed : (place, id) ∈ blocks.zipIdx.filterMap fun (block, index) =>
            block.label.map (index, ·) := by
          refine List.mem_filterMap.mpr ⟨(block, place), ?_, ?_⟩
          · rw [← isBlock]
            exact List.mk_mem_zipIdx_iff_getElem?.mpr (List.getElem?_eq_getElem inside)
          · dsimp only
            rw [labelled]
            rfl
        have different := List.find?_eq_none.mp none _ listed
        simp at different

theorem resolveLabels_numbers (bound : Bound blocks labels) :
    ∃ indices : List Nat, resolveLabels blocks labels = .ok (indices.map .num) := by
  induction labels with
  | nil => exact ⟨[], rfl⟩
  | cons label rest induction =>
      have first : Bound blocks [label] := by
        intro id member
        exact bound id (List.mem_singleton.mp member ▸ List.mem_cons_self)
      rcases resolveLabel_number first with ⟨index, isIndex⟩
      rcases induction bound.tail with ⟨indices, areIndices⟩
      refine ⟨index :: indices, ?_⟩
      rw [resolveLabels, isIndex, areIndices]
      rfl

theorem checkLabel_ok {matchingBlock : Option ExprBlock} {label : Option Id}
    (repeats : ∀ name block, label = some name → matchingBlock = some block →
      block.label = some name) : checkLabel matchingBlock label = .ok () := by
  cases matchingBlock with
  | none => rfl
  | some block =>
      cases label with
      | none => rfl
      | some name => rw [checkLabel, if_pos (repeats name block rfl rfl).symm]

end Inference.Wat

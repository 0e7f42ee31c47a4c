import Inference.WasmToV.OperatorTerm
import Inference.WasmToV.Appearance

/-! # Canonical operators

What the translator keeps of an operator. Operators with one canonical form have
one text, and operators with different canonical forms have different ones.
-/

namespace Inference.WasmToV

/-! ## Canonical forms -/

def PlainOpcode.canonical : PlainOpcode → PlainOpcode
  | .f32x4Splat => .i32x4Splat
  | .f64x2Splat => .i64x2Splat
  | opcode => opcode

def MemoryLaneOpcode.canonical : MemoryLaneOpcode → MemoryLaneOpcode
  | .v128Load8Lane => .v128Store8Lane
  | .v128Load16Lane => .v128Store16Lane
  | .v128Load32Lane => .v128Store32Lane
  | .v128Load64Lane => .v128Store64Lane
  | opcode => opcode

def MemArg.canonical (memarg : MemArg) : MemArg :=
  { memarg with memory := 0 }

/-- The operator with everything that its text leaves out set to a fixed value:
the default label of a `br_table`, the memory of an access, and the opcode where
two of them are written alike. -/
def Operator.canonical : Operator → Operator
  | .plain opcode => .plain opcode.canonical
  | .end_ => .else_
  | .brTable targets => .brTable { targets with default := 0 }
  | .memory .v128Store memarg => .memoryLane .v128Store64Lane memarg.canonical 0
  | .memory .v128Load memarg => .memory .v128Load16x4U memarg.canonical
  | .memory opcode memarg => .memory opcode memarg.canonical
  | .memoryLane opcode memarg index => .memoryLane opcode.canonical memarg.canonical index
  | .memoryInit dataIndex _ => .memoryInit dataIndex 0
  | .memoryCopy _ _ => .memoryCopy 0 0
  | .memoryFill _ => .memoryFill 0
  | op => op

/-! ## Terms of operators -/

def MemArg.access (memarg : MemArg) : Access :=
  ⟨memarg.offset, memarg.align⟩

def BlockType.term : BlockType → Option BlockTerm
  | .empty => some ⟨.empty, ()⟩
  | .funcType index => some ⟨.funcType, index⟩
  | .type .i32 => some ⟨.i32, ()⟩
  | .type .i64 => some ⟨.i64, ()⟩
  | .type .f32 => some ⟨.f32, ()⟩
  | .type .f64 => some ⟨.f64, ()⟩
  | .type .v128 => some ⟨.v128, ()⟩
  | .type (.ref refType) =>
      if refType = .funcref then some ⟨.funcref, ()⟩
      else if refType = .externref then some ⟨.externref, ()⟩
      else none

def openerTerm (opcode : OpenerOpcode) (blockty : BlockType) : Option Term :=
  blockty.term.map fun block => ⟨.opener opcode, block⟩

def memoryTerm (opcode : MemoryOpcode) (memarg : MemArg) : Term :=
  match opcode with
  | .v128Store => ⟨.storeLane .v128Store64Lane, (memarg.access, 0)⟩
  | .v128Load => ⟨.memory .v128Load16x4U, memarg.access⟩
  | opcode => ⟨.memory opcode, memarg.access⟩

/-- The labels of a `br_table`, when all of them can be read. -/
def readTargets : List (Except BinaryReaderError Nat) → Option (List Nat)
  | [] => some []
  | .ok target :: rest => (readTargets rest).map (target :: ·)
  | .error _ :: _ => none

def brTableTerm (targets : List Nat) : Term :=
  if targets.isEmpty then ⟨.fixed .brTableEmpty, ()⟩ else ⟨.brTable, targets⟩

/-- The term of an operator. Rejected operators and the ones that only shape the
body have none. -/
def Operator.term : Operator → Option Term
  | .plain opcode => some ⟨.plain opcode.canonical, ()⟩
  | .block blockty => openerTerm .block blockty
  | .loop blockty => openerTerm .loop blockty
  | .if_ blockty => openerTerm .if_ blockty
  | .forall_ blockty => openerTerm .forall_ blockty
  | .exists_ blockty => openerTerm .exists_ blockty
  | .assume blockty => openerTerm .assume blockty
  | .unique blockty => openerTerm .unique blockty
  | .br relativeDepth => some ⟨.number .br, relativeDepth⟩
  | .brIf relativeDepth => some ⟨.number .brIf, relativeDepth⟩
  | .brTable targets => (readTargets targets.targets).map brTableTerm
  | .call functionIndex => some ⟨.number .call, functionIndex⟩
  | .callIndirect typeIndex tableIndex => some ⟨.callIndirect, (typeIndex, tableIndex)⟩
  | .localGet localIndex => some ⟨.number .localGet, localIndex⟩
  | .localSet localIndex => some ⟨.number .localSet, localIndex⟩
  | .localTee localIndex => some ⟨.number .localTee, localIndex⟩
  | .globalGet globalIndex => some ⟨.number .globalGet, globalIndex⟩
  | .globalSet globalIndex => some ⟨.number .globalSet, globalIndex⟩
  | .memory opcode memarg => some (memoryTerm opcode memarg)
  | .memoryLane opcode memarg index => some ⟨.storeLane opcode.canonical, (memarg.access, index)⟩
  | .lane opcode index => some ⟨.lane opcode, index⟩
  | .memorySize mem => if mem = 0 then some ⟨.fixed .memorySize, ()⟩ else none
  | .memoryGrow mem => if mem = 0 then some ⟨.fixed .memoryGrow, ()⟩ else none
  | .i32Const value => some ⟨.integer .i32Const, value⟩
  | .i64Const value => some ⟨.integer .i64Const, value⟩
  | .f32Const bits => some ⟨.number .f32Const, bits⟩
  | .f64Const bits => some ⟨.number .f64Const, bits⟩
  | .v128Const value => some ⟨.integer .v128Const, value⟩
  | .memoryInit dataIndex _ => some ⟨.number .memoryInit, dataIndex⟩
  | .dataDrop dataIndex => some ⟨.number .dataDrop, dataIndex⟩
  | .memoryCopy _ _ => some ⟨.fixed .memoryCopy, ()⟩
  | .memoryFill _ => some ⟨.fixed .memoryFill, ()⟩
  | .refFunc functionIndex => some ⟨.number .refFunc, functionIndex⟩
  | .tableFill table => some ⟨.number .tableFill, table⟩
  | .tableGet table => some ⟨.number .tableGet, table⟩
  | .tableSet table => some ⟨.number .tableSet, table⟩
  | .tableGrow table => some ⟨.number .tableGrow, table⟩
  | .tableSize table => some ⟨.number .tableSize, table⟩
  | .else_ | .end_ | .atomicFence | .atomicMemory _ _ | .atomicIndex _ _ _
  | .atomicField _ _ _ _ | .unimplemented _ _ => none

/-! ## Reading a term back -/

def BlockTerm.blockType : BlockTerm → BlockType
  | ⟨.empty, _⟩ => .empty
  | ⟨.funcType, index⟩ => .funcType index
  | ⟨.i32, _⟩ => .type .i32
  | ⟨.i64, _⟩ => .type .i64
  | ⟨.f32, _⟩ => .type .f32
  | ⟨.f64, _⟩ => .type .f64
  | ⟨.v128, _⟩ => .type .v128
  | ⟨.funcref, _⟩ => .type (.ref .funcref)
  | ⟨.externref, _⟩ => .type (.ref .externref)

def OpenerOpcode.operator : OpenerOpcode → BlockType → Operator
  | .block => .block
  | .loop => .loop
  | .if_ => .if_
  | .forall_ => .forall_
  | .exists_ => .exists_
  | .assume => .assume
  | .unique => .unique

def FixedOpcode.operator : FixedOpcode → Operator
  | .brTableEmpty => .brTable ⟨[], 0⟩
  | .memorySize => .memorySize 0
  | .memoryGrow => .memoryGrow 0
  | .memoryCopy => .memoryCopy 0 0
  | .memoryFill => .memoryFill 0

def NumberOpcode.operator : NumberOpcode → Nat → Operator
  | .br => .br
  | .brIf => .brIf
  | .call => .call
  | .localGet => .localGet
  | .localSet => .localSet
  | .localTee => .localTee
  | .globalGet => .globalGet
  | .globalSet => .globalSet
  | .f32Const => .f32Const
  | .f64Const => .f64Const
  | .memoryInit => fun dataIndex => .memoryInit dataIndex 0
  | .dataDrop => .dataDrop
  | .refFunc => .refFunc
  | .tableFill => .tableFill
  | .tableGet => .tableGet
  | .tableSet => .tableSet
  | .tableGrow => .tableGrow
  | .tableSize => .tableSize

def IntegerOpcode.operator : IntegerOpcode → Int → Operator
  | .i32Const => .i32Const
  | .i64Const => .i64Const
  | .v128Const => .v128Const

def Access.memArg (access : Access) : MemArg :=
  { align := access.align, offset := access.offset, memory := 0 }

/-- The canonical operator behind a term. -/
def Term.operator : Term → Operator
  | ⟨.plain opcode, _⟩ => .plain opcode
  | ⟨.fixed opcode, _⟩ => opcode.operator
  | ⟨.opener opcode, block⟩ => opcode.operator block.blockType
  | ⟨.number opcode, value⟩ => opcode.operator value
  | ⟨.integer opcode, value⟩ => opcode.operator value
  | ⟨.callIndirect, (typeIndex, tableIndex)⟩ => .callIndirect typeIndex tableIndex
  | ⟨.brTable, targets⟩ => .brTable ⟨targets.map .ok, 0⟩
  | ⟨.memory opcode, access⟩ => .memory opcode access.memArg
  | ⟨.storeLane opcode, (access, index)⟩ => .memoryLane opcode access.memArg index
  | ⟨.lane opcode, index⟩ => .lane opcode index

variable {blockty : BlockType}

theorem blockType_term {block : BlockTerm}
    (hasTerm : blockty.term = some block) : block.blockType = blockty := by
  unfold BlockType.term at hasTerm
  split at hasTerm
  case h_8 refType =>
      split at hasTerm
      · cases hasTerm
        simp_all [BlockTerm.blockType]
      · split at hasTerm
        · cases hasTerm
          simp_all [BlockTerm.blockType]
        · cases hasTerm
  all_goals
    cases hasTerm
    rfl

variable {term : Term}

private theorem openerTerm_operator {opcode : OpenerOpcode}
    (hasTerm : openerTerm opcode blockty = some term) :
    term.operator = opcode.operator blockty := by
  obtain ⟨block, blockTerm, rfl⟩ := Option.map_eq_some_iff.mp hasTerm
  exact congrArg opcode.operator (blockType_term blockTerm)

private theorem memoryTerm_operator (opcode : MemoryOpcode) (memarg : MemArg) :
    (memoryTerm opcode memarg).operator = (Operator.memory opcode memarg).canonical := by
  cases opcode <;> rfl

theorem readTargets_some {items : List (Except BinaryReaderError Nat)} {targets : List Nat}
    (read : readTargets items = some targets) : items = targets.map .ok := by
  induction items generalizing targets with
  | nil =>
      cases read
      rfl
  | cons item rest induction =>
      cases item with
      | error error => cases read
      | ok target =>
          obtain ⟨others, restRead, rfl⟩ := Option.map_eq_some_iff.mp read
          rw [induction restRead]
          rfl

theorem readTargets_of_read {items : List (Except BinaryReaderError Nat)}
    (read : items.all Item.isRead = true) : ∃ targets, readTargets items = some targets := by
  induction items with
  | nil => exact ⟨[], rfl⟩
  | cons item rest induction =>
      cases item with
      | error error => cases read
      | ok target =>
          obtain ⟨targets, restRead⟩ := induction (by simpa [Item.isRead] using read)
          exact ⟨target :: targets, by rw [readTargets, restRead]; rfl⟩

private theorem brTableTerm_operator {targets : BrTable}
    (hasTerm : (readTargets targets.targets).map brTableTerm = some term) :
    term.operator = (Operator.brTable targets).canonical := by
  obtain ⟨values, read, rfl⟩ := Option.map_eq_some_iff.mp hasTerm
  rw [Operator.canonical, readTargets_some read]
  cases values <;> rfl

private theorem memoryIndexTerm_operator {mem : Nat} {opcode : FixedOpcode}
    (hasTerm : (if mem = 0 then some ⟨.fixed opcode, ()⟩ else none) = some term) :
    mem = 0 ∧ term.operator = opcode.operator := by
  split at hasTerm
  case isTrue zero =>
      cases hasTerm
      exact ⟨zero, rfl⟩
  case isFalse => cases hasTerm

variable {op : Operator}

theorem term_operator (hasTerm : op.term = some term) :
    term.operator = op.canonical := by
  cases op with
  | block _ | loop _ | if_ _ | forall_ _ | exists_ _ | assume _ | unique _ =>
      exact openerTerm_operator hasTerm
  | memory opcode memarg =>
      cases hasTerm
      exact memoryTerm_operator opcode memarg
  | brTable targets => exact brTableTerm_operator hasTerm
  | memorySize mem | memoryGrow mem =>
      obtain ⟨rfl, same⟩ := memoryIndexTerm_operator hasTerm
      exact same
  | else_ | end_ | atomicFence | atomicMemory _ _ | atomicIndex _ _ _ | atomicField _ _ _ _
  | unimplemented _ _ => cases hasTerm
  | _ =>
      cases hasTerm
      rfl

theorem canonical_term (op : Operator) : op.canonical.term = op.term := by
  cases op with
  | plain opcode => cases opcode <;> rfl
  | memory opcode memarg => cases opcode <;> rfl
  | memoryLane opcode memarg lane => cases opcode <;> rfl
  | _ => rfl

variable {first second : Operator}

/-- Operators have the same term exactly when they agree in what the translator keeps. -/
theorem term_eq_iff {firstTerm secondTerm : Term}
    (firstHas : first.term = some firstTerm) (secondHas : second.term = some secondTerm) :
    firstTerm = secondTerm ↔ first.canonical = second.canonical := by
  constructor
  · intro same
    rw [← term_operator firstHas, ← term_operator secondHas, same]
  · intro same
    rw [← canonical_term, same, canonical_term, secondHas] at firstHas
    exact (Option.some.inj firstHas).symm

/-! ## Terms in texts -/

/-- Exactly the supported operators that are printed have a term. -/
theorem term_exists (supported : op.support = .supported)
    (printed : op.role ≠ .closes) : ∃ term, op.term = some term := by
  have ofBlock : ∀ {opcode : OpenerOpcode} {blockty : BlockType},
      Support.ofBool blockty.supported = .supported → ∃ term, openerTerm opcode blockty = some term := by
    intro opcode blockty blockSupported
    cases blockty with
    | empty | funcType index => exact ⟨_, rfl⟩
    | type valType =>
        cases valType with
        | ref refType =>
            by_cases isFuncref : refType = .funcref
            · exact ⟨_, by simp [openerTerm, BlockType.term, isFuncref]; rfl⟩
            · by_cases isExternref : refType = .externref
              · exact ⟨_, by
                  rw [openerTerm, BlockType.term, if_neg isFuncref, if_pos isExternref]
                  rfl⟩
              · simp [Support.ofBool, BlockType.supported, ValType.supported, RefType.supported,
                  isFuncref, isExternref] at blockSupported
        | i32 | i64 | f32 | f64 | v128 => exact ⟨_, rfl⟩
  cases op with
  | block _ | loop _ | if_ _ | forall_ _ | exists_ _ | assume _ | unique _ => exact ofBlock supported
  | else_ | end_ => exact absurd rfl printed
  | memorySize mem | memoryGrow mem =>
      cases mem with
      | zero => exact ⟨_, rfl⟩
      | succ mem => cases supported
  | atomicFence | atomicMemory _ _ | atomicIndex _ _ _ | atomicField _ _ _ _
  | unimplemented _ _ => cases supported
  | brTable targets =>
      rw [Operator.support] at supported
      split at supported
      case isTrue read =>
          obtain ⟨values, valuesRead⟩ := readTargets_of_read read
          exact ⟨_, by rw [Operator.term, valuesRead]; rfl⟩
      case isFalse => cases supported
  | _ => exact ⟨_, rfl⟩

/-- The local that an operator accesses. -/
def Operator.localIndex : Operator → Option Nat
  | .localGet localIndex | .localSet localIndex | .localTee localIndex => some localIndex
  | _ => none

/-- The name printed with an operator. -/
def Operator.comment (op : Operator) (names : Option NameMap) : Option String :=
  op.localIndex.bind fun localIndex => names.bind (·.lookup localIndex)

def commentTail : Option String → List Char
  | some name => ['(', '*'] ++ (name.toList ++ ['*', ')', ' ', ':', ':', '\n'])
  | none => [':', ':', '\n']

/-- The symbols between the term of an operator and the end of its line. -/
def Operator.lineTail (op : Operator) (names : Option NameMap) : List Char :=
  match op.role with
  | .opensBlock | .opensCondition => [' ', ':', ':', '\n']
  | _ =>
      match op.localIndex with
      | some _ => commentTail (op.comment names)
      | none => []

theorem plainText_canonical (opcode : PlainOpcode) :
    plainText opcode.canonical = plainText opcode := by
  cases opcode <;> rfl

theorem memoryLaneHead_canonical (opcode : MemoryLaneOpcode) :
    memoryLaneHead opcode.canonical = memoryLaneHead opcode := by
  cases opcode <;> rfl

variable {whole : List Char} {text : String}

section Texts

private theorem spelled_space : " ".toList = [' '] := String.toList_ofList
private theorem spelled_closing : ")".toList = [')'] := String.toList_ofList
private theorem spelled_natural : "%N".toList = ['%', 'N'] := String.toList_ofList
private theorem spelled_naturalSpace : "%N ".toList = ['%', 'N', ' '] := String.toList_ofList
private theorem spelled_memarg : "Ma ".toList = ['M', 'a', ' '] := String.toList_ofList
private theorem spelled_closingSpace : ") ".toList = [')', ' '] := String.toList_ofList

private theorem joined_literals {first second : List Char} (joined : first ++ second = whole) :
    (String.ofList first ++ String.ofList second).toList = (String.ofList whole).toList := by
  rw [String.toList_append, String.toList_ofList, String.toList_ofList, String.toList_ofList,
    joined]

/-- The text of a block type that is a value type. -/
private theorem valueBlock_text (head : BlockHead) {valType : ValType} {valueText : String}
    {value : List Char} (valueTranslated : translateValueType valType = .ok valueText)
    (spelled : valueText.toList = value) (headSpelled : head.text.toList = whole)
    (joined : "BT_valtype (Some (".toList ++ (value ++ [')', ')']) = whole)
    (translated : translateBlockType (.type valType) = .ok text) :
    text.toList ++ [')'] = head.word ++ [')'] := by
  have closing : "))".toList = [')', ')'] := String.toList_ofList
  rw [translateBlockType, valueTranslated] at translated
  cases translated
  rw [BlockHead.word, headSpelled, ← joined, String.toList_append, String.toList_append, spelled,
    closing]
  simp only [List.append_assoc, List.append_nil]

private theorem refType_text {refType : List Char}
    (joined : ['T', '_', 'r', 'e', 'f', ' '] ++ refType = whole) :
    ("T_ref " ++ String.ofList refType).toList = whole := by
  rw [String.toList_append, String.toList_ofList, String.toList_ofList, joined]

private theorem joined_blockType {value : List Char}
    (joined : ['B', 'T', '_', 'v', 'a', 'l', 't', 'y', 'p', 'e', ' ', '(', 'S', 'o', 'm', 'e', ' ',
      '('] ++ (value ++ [')', ')']) = whole) :
    "BT_valtype (Some (".toList ++ (value ++ [')', ')']) = whole := by
  rw [← joined, String.toList_ofList]

/-- The text of a block type with the parenthesis behind it. -/
theorem blockType_text {block : BlockTerm}
    (hasTerm : blockty.term = some block) (translated : translateBlockType blockty = .ok text) :
    text.toList ++ [')'] = block.text := by
  cases blockty with
  | empty =>
      cases hasTerm
      cases translated
      simp only [BlockTerm.text, BlockHead.word, BlockHead.text, BlockHead.immediatesText,
        List.append_nil]
  | funcType index =>
      cases hasTerm
      cases translated
      simp only [BlockTerm.text, BlockHead.word, BlockHead.text, BlockHead.immediatesText,
        String.toList_append, spelled_natural, List.append_nil, List.append_assoc,
        List.cons_append, List.nil_append]
  | type valType =>
      cases valType with
      | i32 =>
          cases hasTerm
          exact valueBlock_text .i32 rfl String.toList_ofList String.toList_ofList
            (joined_blockType rfl) translated
      | i64 =>
          cases hasTerm
          exact valueBlock_text .i64 rfl String.toList_ofList String.toList_ofList
            (joined_blockType rfl) translated
      | f32 =>
          cases hasTerm
          exact valueBlock_text .f32 rfl String.toList_ofList String.toList_ofList
            (joined_blockType rfl) translated
      | f64 =>
          cases hasTerm
          exact valueBlock_text .f64 rfl String.toList_ofList String.toList_ofList
            (joined_blockType rfl) translated
      | v128 =>
          cases hasTerm
          exact valueBlock_text .v128 rfl String.toList_ofList String.toList_ofList
            (joined_blockType rfl) translated
      | ref refType =>
          rw [BlockType.term] at hasTerm
          split at hasTerm
          case isTrue isFuncref =>
              subst isFuncref
              cases hasTerm
              exact valueBlock_text .funcref rfl (refType_text rfl) String.toList_ofList
                (joined_blockType rfl) translated
          case isFalse notFuncref =>
              split at hasTerm
              case isTrue isExternref =>
                  subst isExternref
                  cases hasTerm
                  exact valueBlock_text .externref rfl (refType_text rfl) String.toList_ofList
                    (joined_blockType rfl) translated
              case isFalse => cases hasTerm

private theorem translateOpener_text (opcode : OpenerOpcode) (instruction : String)
    (spelled : (instruction ++ " (").toList = opcode.text.toList)
    (hasTerm : openerTerm opcode blockty = some term)
    (translated : translateOpener instruction blockty = .ok text) : text.toList = term.text := by
  obtain ⟨block, blockTerm, rfl⟩ := Option.map_eq_some_iff.mp hasTerm
  obtain ⟨blockText, blockTranslated, assembled⟩ := bind_ok translated
  cases assembled
  rw [String.toList_append, String.toList_append, spelled, spelled_closing, List.append_assoc,
    blockType_text blockTerm blockTranslated]
  simp only [Term.text, Head.word, Head.text, Head.ending, Head.immediatesText, List.append_nil]

/-- The text of an opener is its term. -/
theorem opener_text {names : Option NameMap}
    (opens : op.role = .opensBlock ∨ op.role = .opensCondition) (hasTerm : op.term = some term)
    (translated : translateBasicOperator op names = .ok text) : text.toList = term.text := by
  cases op with
  | block blockty =>
      exact translateOpener_text .block "BI_block" (joined_literals rfl) hasTerm translated
  | loop blockty =>
      exact translateOpener_text .loop "BI_loop" (joined_literals rfl) hasTerm translated
  | if_ blockty =>
      exact translateOpener_text .if_ "BI_if" (joined_literals rfl) hasTerm translated
  | forall_ blockty =>
      exact translateOpener_text .forall_ "BI_forall" (joined_literals rfl) hasTerm translated
  | exists_ blockty =>
      exact translateOpener_text .exists_ "BI_exists" (joined_literals rfl) hasTerm translated
  | assume blockty =>
      exact translateOpener_text .assume "BI_assume" (joined_literals rfl) hasTerm translated
  | unique blockty =>
      exact translateOpener_text .unique "BI_unique" (joined_literals rfl) hasTerm translated
  | _ => simp [Operator.role] at opens

private theorem memory_text (opcode : MemoryOpcode) (memarg : MemArg) :
    (memoryHead opcode ++ translateMemarg memarg ++ memoryTail opcode).toList ++
      [' ', ':', ':', '\n'] = (memoryTerm opcode memarg).text := by
  have laneZero : ") 0".toList = [')', ' ', '0'] := String.toList_ofList
  have zero : (toString 0).toList = ['0'] := String.toList_ofList
  cases opcode <;>
    simp only [memoryTerm, Term.text, Head.word, Head.text, Head.ending, Head.immediatesText,
      memoryHead, memoryTail, memoryLaneHead, translateMemarg, Access.text, MemArg.access,
      spelled_memarg, spelled_natural, spelled_naturalSpace, spelled_closing, laneZero, zero,
      String.toList_append, List.append_assoc, List.append_nil, List.nil_append, List.cons_append]

private theorem targets_text {targets : List Nat}
    (translated : translateTargets (targets.map .ok) = .ok text) :
    text.toList =
      targets.flatMap fun target => (toString target).toList ++ [' ', ':', ':', ' '] := by
  induction targets generalizing text with
  | nil =>
      cases translated
      rfl
  | cons target rest induction =>
      have separator : " :: ".toList = [' ', ':', ':', ' '] := String.toList_ofList
      obtain ⟨id, read, remaining⟩ := bind_ok translated
      obtain ⟨later, laterTranslated, assembled⟩ := bind_ok remaining
      cases read
      cases assembled
      rw [String.toList_append, String.toList_append, separator, induction laterTranslated,
        List.flatMap_cons]

private theorem brTableTerm_cons (target : Nat) (rest : List Nat) :
    brTableTerm (target :: rest) = ⟨.brTable, target :: rest⟩ :=
  rfl

private theorem brTable_text {targets : BrTable}
    (hasTerm : (readTargets targets.targets).map brTableTerm = some term)
    (translated : translateBrTable targets = .ok text) :
    text.toList ++ [' ', ':', ':', '\n'] = term.text := by
  obtain ⟨values, read, rfl⟩ := Option.map_eq_some_iff.mp hasTerm
  rw [translateBrTable, readTargets_some read] at translated
  cases values with
  | nil =>
      cases translated
      exact (List.append_assoc "BI_br_table".toList [' ', ':'] [':', '\n']).symm
  | cons target rest =>
      have closing : "nil".toList = ['n', 'i', 'l'] := String.toList_ofList
      rw [List.map_cons, List.isEmpty_cons, if_neg Bool.false_ne_true, ← List.map_cons] at translated
      obtain ⟨labelidx, targetsTranslated, assembled⟩ := bind_ok translated
      cases assembled
      rw [brTableTerm_cons]
      simp only [Term.text, Head.word, Head.text, Head.ending, Head.immediatesText,
        String.toList_append, targets_text targetsTranslated, closing, spelled_closing,
        List.append_assoc, List.append_nil, List.cons_append, List.nil_append]

private theorem local_text (instruction : String) (opcode : NumberOpcode)
    (spelled : (instruction ++ " ").toList = opcode.text.toList)
    (suffixed : opcode.suffix = ['%', 'N', ' ']) (localIndex : Nat) (names : Option NameMap) :
    (translateLocal instruction localIndex names).toList ++ [' ', ':', ':', '\n'] =
      Term.text ⟨.number opcode, localIndex⟩ ++ commentTail (names.bind (·.lookup localIndex)) := by
  have opening : "%N (*".toList = ['%', 'N', ' ', '(', '*'] := String.toList_ofList
  have closing : "*)".toList = ['*', ')'] := String.toList_ofList
  unfold translateLocal
  cases names.bind (·.lookup localIndex) with
  | none =>
      simp only [Term.text, Head.word, Head.text, Head.ending, Head.immediatesText,
        String.toList_append, ← spelled, suffixed, spelled_natural, commentTail,
        List.append_assoc, List.append_nil, List.cons_append, List.nil_append]
  | some name =>
      simp only [Term.text, Head.word, Head.text, Head.ending, Head.immediatesText,
        String.toList_append, ← spelled, suffixed, opening, closing, commentTail,
        List.append_assoc, List.append_nil, List.cons_append, List.nil_append]

private theorem memoryIndex_text {mem : Nat} {opcode : FixedOpcode}
    (hasTerm : (if mem = 0 then some ⟨.fixed opcode, ()⟩ else none) = some term)
    (translated : (if mem > 0 then Outcome.fail .memoryIndexNotSupported else .ok opcode.text) =
      .ok text) :
    text.toList ++ [' ', ':', ':', '\n'] = term.text := by
  split at hasTerm
  case isTrue zero =>
      rw [if_neg (by omega)] at translated
      cases hasTerm
      cases translated
      simp only [Term.text, Head.word, Head.text, Head.ending, Head.immediatesText,
        List.append_assoc, List.cons_append, List.nil_append]
  case isFalse => cases hasTerm

/-- The line of an operator starts with its term. -/
theorem term_text {names : Option NameMap}
    (hasTerm : op.term = some term) (translated : translateBasicOperator op names = .ok text) :
    text.toList ++ [' ', ':', ':', '\n'] = term.text ++ op.lineTail names := by
  cases op with
  | block _ | loop _ | forall_ _ | exists_ _ | assume _ | unique _ =>
      rw [opener_text (.inl rfl) hasTerm translated]
      rfl
  | if_ _ =>
      rw [opener_text (.inr rfl) hasTerm translated]
      rfl
  | plain opcode =>
      cases hasTerm
      cases translated
      simp only [Term.text, Head.word, Head.text, Head.ending, Head.immediatesText,
        plainText_canonical, Operator.lineTail, Operator.role, Operator.localIndex,
        List.append_assoc, List.append_nil, List.cons_append, List.nil_append]
  | localGet localIndex =>
      cases hasTerm
      cases translated
      exact local_text "BI_local_get" .localGet (joined_literals rfl) rfl localIndex names
  | localSet localIndex =>
      cases hasTerm
      cases translated
      exact local_text "BI_local_set" .localSet (joined_literals rfl) rfl localIndex names
  | localTee localIndex =>
      cases hasTerm
      cases translated
      exact local_text "BI_local_tee" .localTee (joined_literals rfl) rfl localIndex names
  | memory opcode memarg =>
      cases hasTerm
      cases translated
      rw [memory_text]
      exact (List.append_nil _).symm
  | brTable targets =>
      rw [brTable_text hasTerm translated]
      exact (List.append_nil _).symm
  | memorySize mem | memoryGrow mem =>
      rw [memoryIndex_text hasTerm translated]
      exact (List.append_nil _).symm
  | else_ | end_ | atomicFence | atomicMemory _ _ | atomicIndex _ _ _ | atomicField _ _ _ _
  | unimplemented _ _ => cases hasTerm
  | memoryLane _ _ _ =>
      cases hasTerm
      cases translated
      simp only [Term.text, Head.word, Head.text, Head.ending, Head.immediatesText,
        memoryLaneHead_canonical, translateMemarg, Access.text, MemArg.access,
        Operator.lineTail, Operator.role, Operator.localIndex, spelled_memarg, spelled_natural,
        spelled_naturalSpace, spelled_closingSpace, String.toList_append, List.append_assoc,
        List.append_nil, List.nil_append, List.cons_append]
  | br _ | brIf _ | call _ | callIndirect _ _ | globalGet _ | globalSet _ | lane _ _
  | i32Const _ | i64Const _ | f32Const _ | f64Const _ | v128Const _ | memoryInit _ _
  | dataDrop _ | memoryCopy _ _ | memoryFill _ | refFunc _ | tableFill _ | tableGet _
  | tableSet _ | tableGrow _ | tableSize _ =>
      cases hasTerm
      cases translated
      simp only [Term.text, Head.word, Head.text, Head.ending, Head.immediatesText,
        NumberOpcode.text, NumberOpcode.suffix, IntegerOpcode.text, IntegerOpcode.suffix,
        FixedOpcode.text, Operator.lineTail, Operator.role, Operator.localIndex, spelled_space,
        spelled_natural, spelled_closing, String.toList_append, List.append_assoc,
        List.append_nil, List.nil_append, List.cons_append]

end Texts

theorem term_mem (hasTerm : op.term = some term) :
    term.1 ∈ sortedHeads := by
  have opener : ∀ {opcode : OpenerOpcode} {blockty : BlockType},
      openerTerm opcode blockty = some term → term.1 = .opener opcode := by
    intro opcode blockty openerHas
    obtain ⟨_, _, rfl⟩ := Option.map_eq_some_iff.mp openerHas
    rfl
  cases op with
  | plain opcode =>
      cases hasTerm
      dsimp only
      cases opcode <;> decide +kernel
  | memory opcode memarg =>
      cases hasTerm
      cases opcode <;>
        dsimp only [memoryTerm] <;>
        decide +kernel
  | memoryLane opcode memarg index =>
      cases hasTerm
      dsimp only
      cases opcode <;> decide +kernel
  | lane opcode index =>
      cases hasTerm
      dsimp only
      cases opcode <;> decide +kernel
  | block _ | loop _ | if_ _ | forall_ _ | exists_ _ | assume _ | unique _ =>
      rw [opener hasTerm]
      decide +kernel
  | brTable targets =>
      obtain ⟨values, _, rfl⟩ := Option.map_eq_some_iff.mp hasTerm
      unfold brTableTerm
      split <;>
        dsimp only <;>
        decide +kernel
  | memorySize mem | memoryGrow mem =>
      rw [Operator.term] at hasTerm
      split at hasTerm
      · cases hasTerm
        decide +kernel
      · cases hasTerm
  | else_ | end_ | atomicFence | atomicMemory _ _ | atomicIndex _ _ _ | atomicField _ _ _ _
  | unimplemented _ _ => cases hasTerm
  | _ =>
      cases hasTerm
      dsimp only
      decide +kernel

/-! ## What the canonical form keeps -/

theorem canonical_role (op : Operator) : op.canonical.role = op.role := by
  cases op with
  | memory opcode memarg => cases opcode <;> rfl
  | _ => rfl

theorem canonical_localIndex (op : Operator) : op.canonical.localIndex = op.localIndex := by
  cases op with
  | memory opcode memarg => cases opcode <;> rfl
  | _ => rfl

/-- Operators with names are told apart by their canonical forms alone. -/
theorem eq_of_canonical_local {localIndex : Nat}
    (accesses : first.localIndex = some localIndex) (same : first.canonical = second.canonical) :
    first = second := by
  have otherAccesses : second.localIndex = some localIndex := by
    rw [← canonical_localIndex, ← same, canonical_localIndex, accesses]
  cases first <;> cases accesses <;> cases second <;> cases otherAccesses <;> cases same <;> rfl

theorem commentTail_injective {first second : Option String}
    (same : commentTail first = commentTail second) : first = second := by
  cases first with
  | none =>
      cases second with
      | none => rfl
      | some name => simp [commentTail] at same
  | some name =>
      cases second with
      | none => simp [commentTail] at same
      | some other =>
          have spelled := List.append_cancel_right (List.append_cancel_left same)
          rw [String.toList_inj.mp spelled]

variable {firstNames secondNames : Option NameMap}

/-- The role, the local and the printed name settle what follows a term. -/
theorem lineTail_eq (same : first.canonical = second.canonical)
    (sameComment : first.comment firstNames = second.comment secondNames) :
    first.lineTail firstNames = second.lineTail secondNames := by
  have sameRole : first.role = second.role := by
    rw [← canonical_role, same, canonical_role]
  have sameLocal : first.localIndex = second.localIndex := by
    rw [← canonical_localIndex, same, canonical_localIndex]
  rw [Operator.lineTail, Operator.lineTail, sameRole, sameLocal, sameComment]

/-- Behind one term, only printed names make a difference. -/
theorem comment_eq (same : first.canonical = second.canonical)
    (sameTail : first.lineTail firstNames = second.lineTail secondNames) :
    first.comment firstNames = second.comment secondNames := by
  have sameLocal : first.localIndex = second.localIndex := by
    rw [← canonical_localIndex, same, canonical_localIndex]
  cases accesses : first.localIndex with
  | none =>
      rw [Operator.comment, Operator.comment, ← sameLocal, accesses]
      rfl
  | some localIndex =>
      obtain rfl := eq_of_canonical_local accesses same
      refine commentTail_injective ?_
      cases first <;> cases accesses <;> exact sameTail

theorem canonical_closes (closes : op.role = .closes) :
    op.canonical = .else_ ∧ ∀ names, op.comment names = none ∧
      translateBasicOperator op names = .ok "" := by
  rcases Operator.closes_cases closes with rfl | rfl <;> exact ⟨rfl, fun names => ⟨rfl, rfl⟩⟩

/-- Two texts are the same exactly when the canonical operators and the printed
names are. -/
theorem translated_eq_iff {firstText secondText : String}
    (firstTranslated : translateBasicOperator first firstNames = .ok firstText)
    (secondTranslated : translateBasicOperator second secondNames = .ok secondText) :
    firstText = secondText ↔ first.canonical = second.canonical ∧
      first.comment firstNames = second.comment secondNames := by
  by_cases firstCloses : first.role = .closes
  · obtain ⟨firstCanonical, firstEmpty⟩ := canonical_closes firstCloses
    obtain ⟨firstComment, firstTranslation⟩ := firstEmpty firstNames
    obtain rfl := Except.ok.inj (firstTranslation.symm.trans firstTranslated)
    by_cases secondCloses : second.role = .closes
    · obtain ⟨secondCanonical, secondEmpty⟩ := canonical_closes secondCloses
      obtain ⟨secondComment, secondTranslation⟩ := secondEmpty secondNames
      obtain rfl := Except.ok.inj (secondTranslation.symm.trans secondTranslated)
      simp [firstCanonical, secondCanonical, firstComment, secondComment]
    · obtain ⟨rest, spelled⟩ := startsTerm_translated secondCloses secondTranslated
      constructor
      · rintro rfl
        rw [String.toList_eq_nil_iff.mpr rfl] at spelled
        cases spelled
      · rintro ⟨same, _⟩
        rw [← canonical_role, ← same, canonical_role] at secondCloses
        exact absurd firstCloses secondCloses
  · obtain ⟨firstTerm, firstHas⟩ := term_exists (supported_of_translated firstTranslated) firstCloses
    have firstLine := term_text firstHas firstTranslated
    by_cases secondCloses : second.role = .closes
    · obtain ⟨_, secondEmpty⟩ := canonical_closes secondCloses
      obtain rfl := Except.ok.inj ((secondEmpty secondNames).2.symm.trans secondTranslated)
      obtain ⟨rest, spelled⟩ := startsTerm_translated firstCloses firstTranslated
      constructor
      · rintro rfl
        rw [String.toList_eq_nil_iff.mpr rfl] at spelled
        cases spelled
      · rintro ⟨same, _⟩
        rw [← canonical_role, same, canonical_role] at firstCloses
        exact absurd secondCloses firstCloses
    · obtain ⟨secondTerm, secondHas⟩ :=
        term_exists (supported_of_translated secondTranslated) secondCloses
      have secondLine := term_text secondHas secondTranslated
      constructor
      · rintro rfl
        obtain ⟨sameTerm, sameTail⟩ := Term.cancel (term_mem firstHas) (term_mem secondHas)
          (firstLine.symm.trans secondLine)
        have same := (term_eq_iff firstHas secondHas).mp sameTerm
        exact ⟨same, comment_eq same sameTail⟩
      · rintro ⟨same, sameComment⟩
        rw [(term_eq_iff firstHas secondHas).mpr same, lineTail_eq same sameComment,
          ← secondLine] at firstLine
        exact String.toList_inj.mp (List.append_cancel_right firstLine)

end Inference.WasmToV

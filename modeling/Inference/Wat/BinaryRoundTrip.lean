import Inference.Wat.TypeReading

/-! # Encoded instructions are read back

The operators that the binary reader makes of the bytes of a flat list of instructions are those of the
instructions, up to two limits of the reader: on the labels of a branch table and on the type indices of
reference types.
-/

namespace Inference.Wat.Binary

open ByteNumbers Reading Wasmparser
open WasmToV (Operator BrTable BinaryReaderError OperatorItem)

/-! ## The operators of instructions -/

/-- A block type has no meaning while a name is unresolved, or when it lacks the index of a function type
with parameters or several results. -/
def BlockType.operand (blockType : BlockType) : Option WasmToV.BlockType :=
  match blockType.index with
  | some (.num index) => some (.funcType index.toNat)
  | some (.id _) => none
  | none => do
      let ty ← blockType.inline
      match ty.params, ty.results with
      | [], [] => some .empty
      | [], [result] => do
          let result ← result.resolved
          return .type result.read
      | _, _ => none

def BrTableIndices.operand (indices : BrTableIndices) : Option BrTable := do
  let labels ← indices.labels.mapM Index.unwrapU32
  let default ← indices.default.unwrapU32
  return ⟨labels.map fun label => .ok label.toNat, default.toNat⟩

def V128Const.number : V128Const → Nat
  | .i8x16 lanes => joinLanes 8 (lanes.toList.map UInt8.toNat)
  | .i16x8 lanes => joinLanes 16 (lanes.toList.map UInt16.toNat)
  | .i32x4 lanes => joinLanes 32 (lanes.toList.map UInt32.toNat)
  | .i64x2 lanes => joinLanes 64 (lanes.toList.map UInt64.toNat)
  | .f32x4 lanes => joinLanes 32 (lanes.toList.map fun lane => lane.bits.toNat)
  | .f64x2 lanes => joinLanes 64 (lanes.toList.map fun lane => lane.bits.toNat)

def withOperand (operator : WasmToV.BlockType → Operator) (blockType : BlockType) :
    Option Operator := do
  let operand ← blockType.operand
  return operator operand

def withNumber (operator : Nat → Operator) (index : Index) : Option Operator := do
  let index ← index.unwrapU32
  return operator index.toNat

/-- The operator of an instruction without unresolved names. -/
def Instruction.operator : Instruction → Option Operator
  | .block blockType => withOperand .block blockType
  | .if_ blockType => withOperand .if_ blockType
  | .else_ _ => some .else_
  | .loop blockType => withOperand .loop blockType
  | .end_ _ => some .end_
  | .forall_ blockType => withOperand .forall_ blockType
  | .exists_ blockType => withOperand .exists_ blockType
  | .assume blockType => withOperand .assume blockType
  | .unique blockType => withOperand .unique blockType
  | .br label => withNumber .br label
  | .brIf label => withNumber .brIf label
  | .brTable indices => do
      let table ← indices.operand
      return .brTable table
  | .localGet index => withNumber .localGet index
  | .localSet index => withNumber .localSet index
  | .localTee index => withNumber .localTee index
  | .i32Const value => some (.i32Const value.toInt)
  | .i64Const value => some (.i64Const value.toInt)
  | .f32Const value => some (.f32Const value.bits.toNat)
  | .f64Const value => some (.f64Const value.bits.toNat)
  | .i32Uzumaki => some (.plain .i32Uzumaki)
  | .i64Uzumaki => some (.plain .i64Uzumaki)
  | .v128Const value => some (.v128Const (BitVec.ofNat 128 value.number).toInt)

/-- A branch table has at most as many labels as a function may have bytes, and a block type is within
its limits. -/
def InLimits : Operator → Prop
  | .block blockType | .loop blockType | .if_ blockType => BlockTypeInLimits blockType
  | .forall_ blockType | .exists_ blockType => BlockTypeInLimits blockType
  | .assume blockType | .unique blockType => BlockTypeInLimits blockType
  | .brTable table => table.targets.length ≤ maxWasmBrTableSize
  | _ => True

/-! ## What is recovered -/

/-- Within the limits there are bytes, which the program reads as the value. Beyond them the program
fails at the bytes, where there are any. -/
structure Recovers {α : Type} (encoded : Bytes) (program : Read α) (value : α) (inLimits : Prop) :
    Prop where
  within : inLimits → ∃ bytes, encoded = some bytes ∧ Reads program bytes value
  beyond : ¬ inLimits → ∀ bytes, encoded = some bytes → Fails program bytes

section
variable {α β : Type} {encoded : Bytes} {program : Read α} {value : α} {inLimits : Prop}

theorem Recovers.of_reads {bytes : List UInt8} (reads : Reads program bytes value) :
    Recovers (some bytes) program value True :=
  ⟨fun _ => ⟨bytes, rfl, reads⟩, fun beyond => absurd trivial beyond⟩

theorem Recovers.bind_pure (recovers : Recovers encoded program value inLimits) (change : α → β) :
    Recovers encoded (program >>= fun value => pure (change value)) (change value) inLimits := by
  constructor
  · intro inside
    rcases recovers.within inside with ⟨bytes, here, reads⟩
    exact ⟨bytes, here, reads.bind_pure change⟩
  · intro outside bytes here
    exact (recovers.beyond outside bytes here).bind _

/-- The opcode leads to a row of the table. -/
structure Opens (others : OtherRows) (opcode : List UInt8) (row : Read Operator) : Prop where
  reads : ∀ {bytes operator}, Reads row bytes operator →
    Reads (visitOperator others) (opcode ++ bytes) operator
  fails : ∀ {bytes}, Fails row bytes → Fails (visitOperator others) (opcode ++ bytes)

theorem opens_row {others : OtherRows} {code : UInt8} {body : Read Operator}
    (isRow : ∀ position, row others code position = body) : Opens others [code] body := by
  constructor
  · intro bytes operator reads
    refine Reads.originalPosition fun position => reads_byte ?_
    rwa [isRow]
  · intro bytes fails
    refine Fails.originalPosition fun position => (reads_next _ code).bind_fails ?_
    rwa [isRow]

/-- The opcode and a number lead to a row of a page. -/
theorem opens_page {others : OtherRows} {opcode : UInt8} {page : Nat → Nat → Read Operator} {code : Nat}
    {body : Read Operator}
    (isPage : ∀ position, row others opcode position = readVarU32 >>= fun code => page code position)
    (small : code < 128) (isRow : ∀ position, page code position = body) :
    Opens others [opcode, last code] body := by
  have number : Reads readVarU32 [last code] code := by
    have written := @reads_varU32 code (by omega)
    rwa [unsigned, if_pos small] at written
  constructor
  · intro bytes operator reads
    refine Reads.originalPosition fun position => reads_byte ?_
    rw [isPage]
    refine number.bind ?_
    rwa [isRow]
  · intro bytes fails
    refine Fails.originalPosition fun position => (reads_next _ opcode).bind_fails ?_
    rw [isPage]
    refine number.bind_fails ?_
    rwa [isRow]

theorem Opens.recovers {others : OtherRows} {opcode : List UInt8} {body : Read Operator}
    {operator : Operator} (opens : Opens others opcode body)
    (recovers : Recovers encoded body operator inLimits) :
    Recovers (do let immediate ← encoded; return opcode ++ immediate) (visitOperator others) operator
      inLimits := by
  constructor
  · intro inside
    rcases recovers.within inside with ⟨bytes, rfl, reads⟩
    exact ⟨opcode ++ bytes, rfl, opens.reads reads⟩
  · intro outside bytes here
    rcases Option.bind_eq_some_iff.mp here with ⟨immediate, immediate_eq, joined⟩
    cases joined
    exact opens.fails (recovers.beyond outside immediate immediate_eq)

end

/-! ## Immediates -/

section
variable {externals : Externals} (documented : externals.Documented)
include documented

theorem encodeU32_eq (value : UInt32) : encodeU32 externals value = unsigned value.toNat := by
  rw [encodeU32, documented.writesUnsigned, UInt32.toNat_toUInt64]

theorem Index.recovers {index : Index} {number : UInt32} (resolved : index.unwrapU32 = some number) :
    Recovers (index.encode externals) readVarU32 number.toNat True := by
  have encoded : index.encode externals = some (unsigned number.toNat) := by
    rw [Index.encode, resolved, ← encodeU32_eq documented]
    rfl
  rw [encoded]
  exact .of_reads (reads_varU32 number.toNat_lt)

theorem BlockType.recovers {blockType : BlockType} {operand : WasmToV.BlockType}
    (resolved : blockType.operand = some operand) :
    Recovers (blockType.encode externals) readBlockType operand (BlockTypeInLimits operand) := by
  rcases blockType with ⟨label, index, inline⟩
  cases index with
  | some index =>
      cases index with
      | id id => cases resolved
      | num index =>
          cases resolved
          have small := index.toNat_lt
          have number : (Int64.ofNat index.toNat).toInt = index.toNat :=
            Int64.toInt_ofNat_of_lt (by omega)
          have encoded : encodeI64 externals (Int64.ofNat index.toNat) = signed index.toNat := by
            rw [encodeI64, documented.writesSigned, number]
          change Recovers (some (encodeI64 externals _)) _ _ _
          rw [encoded]
          exact .of_reads (reads_blockType_index small)
  | none =>
      rcases Option.bind_eq_some_iff.mp resolved with ⟨⟨params, results⟩, rfl, meant⟩
      cases params with
      | cons param params => cases meant
      | nil =>
          cases results with
          | nil =>
              cases meant
              exact .of_reads (Reads.peek (reads_byte (reads_pure _)))
          | cons result others =>
              cases others with
              | cons other others => cases meant
              | nil =>
                  rcases Option.bind_eq_some_iff.mp meant with ⟨valType, valType_eq, meant⟩
                  cases meant
                  have form := documented.encodesValTypes valType
                  change Recovers (result.encode externals) _ _ _
                  rw [ValType.encode, valType_eq]
                  constructor
                  · intro inside
                    exact ⟨_, rfl, reads_blockType_type form inside⟩
                  · intro outside bytes here
                    cases here
                    exact fails_blockType form outside

/-! ## Branch tables -/

theorem encodeIndices_eq {labels : List Index} {numbers : List UInt32}
    (resolved : labels.mapM Index.unwrapU32 = some numbers) :
    encodeIndices externals labels = some (numbers.map fun number => unsigned number.toNat).flatten ∧
      labels.length = numbers.length := by
  induction labels generalizing numbers with
  | nil =>
      rw [List.mapM_nil] at resolved
      cases resolved
      exact ⟨rfl, rfl⟩
  | cons label labels induction =>
      rw [List.mapM_cons] at resolved
      rcases Option.bind_eq_some_iff.mp resolved with ⟨number, first, remaining⟩
      rcases Option.bind_eq_some_iff.mp remaining with ⟨others, rest, joined⟩
      cases joined
      have encoded : label.encode externals = some (unsigned number.toNat) := by
        rw [Index.encode, first, ← encodeU32_eq documented]
        rfl
      rw [encodeIndices, encoded, (induction rest).1, List.length_cons, (induction rest).2]
      exact ⟨rfl, rfl⟩

omit documented in
/-- The table's own reader yields the labels it was skipped over for. -/
theorem targets_eq (numbers : List UInt32) (before : List UInt8) (originalOffset : Nat) :
    targets numbers.length
        ⟨before ++ (numbers.map fun number => unsigned number.toNat).flatten, before.length,
          originalOffset⟩ =
      numbers.map fun number => .ok number.toNat := by
  induction numbers generalizing before with
  | nil =>
      have atEnd : (⟨before ++ [], before.length, originalOffset⟩ : BinaryReader).eof = true :=
        decide_eq_true (by simp)
      exact if_pos atEnd
  | cons number numbers induction =>
      have read := reads_varU32 number.toNat_lt before
        (numbers.map fun number => unsigned number.toNat).flatten originalOffset
      have rest := induction (before ++ unsigned number.toNat)
      rw [List.append_assoc, List.length_append] at rest
      simp only [List.length_cons, List.map_cons, List.flatten_cons, targets, read, rest]

omit documented in
theorem reads_size {size limit : Nat} (small : size < 2 ^ 32) (inside : size ≤ limit) (desc : String) :
    Reads (readSize limit desc) (unsigned size) size := by
  refine Reads.originalPosition fun position => ?_
  rw [← List.append_nil (unsigned size)]
  refine (reads_varU32 small).bind ?_
  rw [if_neg (Nat.not_lt_of_le inside)]
  exact reads_pure _

omit documented in
theorem fails_size {size limit : Nat} (small : size < 2 ^ 32) (outside : ¬ size ≤ limit)
    (desc : String) : Fails (readSize limit desc) (unsigned size) := by
  refine Fails.originalPosition fun position => ?_
  rw [← List.append_nil (unsigned size)]
  refine (reads_varU32 small).bind_fails ?_
  rw [if_pos (Nat.lt_of_not_le outside)]
  exact fails_throw _

omit documented in
theorem reads_brTable {numbers : List UInt32} (inside : numbers.length ≤ maxWasmBrTableSize)
    (default : UInt32) :
    Reads readBrTable (unsigned numbers.length ++
        ((numbers.map fun number => unsigned number.toNat).flatten ++ unsigned default.toNat))
      ⟨numbers.map fun number => .ok number.toNat, default.toNat⟩ := by
  have small : numbers.length < 2 ^ 32 := Nat.lt_of_le_of_lt inside (by decide)
  have labels : Reads (times numbers.length readVarU32)
      (numbers.map fun number => unsigned number.toNat).flatten () := by
    have each := @reads_times _ _ _ readVarU32 (numbers.map fun number => unsigned number.toNat)
      fun piece listed => by
        rcases List.mem_map.mp listed with ⟨number, _, rfl⟩
        exact ⟨_, reads_varU32 number.toNat_lt⟩
    rwa [List.length_map] at each
  refine (reads_size small inside "br_table").bind (labels.skip fun originalOffset => ?_)
  have table := targets_eq numbers [] originalOffset
  rw [List.nil_append, List.length_nil] at table
  rw [table]
  exact (reads_varU32 default.toNat_lt).bind_pure _

theorem BrTableIndices.recovers {indices : BrTableIndices} {table : BrTable}
    (resolved : indices.operand = some table) :
    Recovers (indices.encode externals) readBrTable table
      (table.targets.length ≤ maxWasmBrTableSize) := by
  rcases Option.bind_eq_some_iff.mp resolved with ⟨numbers, numbers_eq, remaining⟩
  rcases Option.bind_eq_some_iff.mp remaining with ⟨default, default_eq, built⟩
  cases built
  rcases encodeIndices_eq documented numbers_eq with ⟨labels, length_eq⟩
  have defaultBytes : indices.default.encode externals = some (unsigned default.toNat) := by
    rw [Index.encode, default_eq, ← encodeU32_eq documented]
    rfl
  rw [BrTableIndices.encode, labels, defaultBytes, length_eq, List.length_map]
  by_cases counted : numbers.length ≤ 4294967295
  · have length : encodeUsize externals numbers.length = some (unsigned numbers.length) := by
      rw [encodeUsize, if_pos counted, encodeU32_eq documented,
        UInt32.toNat_ofNat_of_lt' (Nat.lt_succ_of_le counted)]
    rw [length]
    constructor
    · intro inside
      exact ⟨_, rfl, by rw [List.append_assoc]; exact reads_brTable inside default⟩
    · intro outside bytes here
      cases here
      rw [List.append_assoc]
      have failed := fails_size (Nat.lt_succ_of_le counted) outside "br_table"
      exact (failed.bind _).append _
  · have length : encodeUsize externals numbers.length = none := if_neg counted
    rw [length]
    constructor
    · intro inside
      exact absurd (inside.trans (by decide)) counted
    · intro outside bytes here
      cases here

/-! ## Instructions -/

omit documented in
theorem V128Const.bytes (value : V128Const) :
    value.toLeBytes.length = 16 ∧ ofLeBytes value.toLeBytes = value.number := by
  cases value with
  | i8x16 lanes => exact ⟨lanes.length_toList, ofLeBytes_eq_joinLanes _⟩
  | i16x8 lanes =>
      exact ⟨(length_lanes 2 _ _).trans (congrArg _ lanes.length_toList),
        ofLeBytes_lanes UInt16.toNat_lt _⟩
  | i32x4 lanes =>
      exact ⟨(length_lanes 4 _ _).trans (congrArg _ lanes.length_toList),
        ofLeBytes_lanes UInt32.toNat_lt _⟩
  | i64x2 lanes =>
      exact ⟨(length_lanes 8 _ _).trans (congrArg _ lanes.length_toList),
        ofLeBytes_lanes UInt64.toNat_lt _⟩
  | f32x4 lanes =>
      exact ⟨(length_lanes 4 _ _).trans (congrArg _ lanes.length_toList),
        ofLeBytes_lanes (fun lane => lane.bits.toNat_lt) _⟩
  | f64x2 lanes =>
      exact ⟨(length_lanes 8 _ _).trans (congrArg _ lanes.length_toList),
        ofLeBytes_lanes (fun lane => lane.bits.toNat_lt) _⟩

omit documented in
theorem reads_v128 (value : V128Const) :
    Reads readV128 value.toLeBytes (BitVec.ofNat 128 value.number).toInt := by
  have read := (reads_bytes value.bytes.1).bind_pure
    fun bytes => (BitVec.ofNat 128 (ofLeBytes bytes)).toInt
  rwa [value.bytes.2] at read

theorem recovers_block {others : OtherRows} {opcode : List UInt8} {blockType : BlockType}
    {constructor_ : WasmToV.BlockType → Operator} {operator : Operator}
    (resolved : withOperand constructor_ blockType = some operator)
    (opens : Opens others opcode (withBlockType constructor_))
    (limits : ∀ operand, InLimits (constructor_ operand) = BlockTypeInLimits operand) :
    Recovers (do let immediate ← blockType.encode externals; return opcode ++ immediate)
      (visitOperator others) operator (InLimits operator) := by
  rcases Option.bind_eq_some_iff.mp resolved with ⟨operand, operand_eq, built⟩
  cases built
  rw [limits]
  exact opens.recovers ((BlockType.recovers documented operand_eq).bind_pure constructor_)

theorem recovers_index {others : OtherRows} {opcode : List UInt8} {index : Index}
    {constructor_ : Nat → Operator} {operator : Operator}
    (resolved : withNumber constructor_ index = some operator)
    (opens : Opens others opcode (withIndex constructor_))
    (limits : ∀ number, InLimits (constructor_ number) = True) :
    Recovers (do let immediate ← index.encode externals; return opcode ++ immediate)
      (visitOperator others) operator (InLimits operator) := by
  rcases Option.bind_eq_some_iff.mp resolved with ⟨number, number_eq, built⟩
  cases built
  rw [limits]
  exact opens.recovers ((Index.recovers documented number_eq).bind_pure constructor_)

theorem Instruction.recovers (others : OtherRows) {instruction : Instruction} {operator : Operator}
    (resolved : instruction.operator = some operator) :
    Recovers (instruction.encode externals) (visitOperator others) operator (InLimits operator) := by
  cases instruction with
  | block blockType =>
      exact recovers_block documented resolved (opens_row fun _ => rfl) fun _ => rfl
  | if_ blockType =>
      exact recovers_block documented resolved (opens_row fun _ => rfl) fun _ => rfl
  | loop blockType =>
      exact recovers_block documented resolved (opens_row fun _ => rfl) fun _ => rfl
  | forall_ blockType =>
      exact recovers_block documented resolved
        (@opens_page _ 0xfc row0xfc 0x3a _ (fun _ => rfl) (by decide) fun _ => rfl) fun _ => rfl
  | exists_ blockType =>
      exact recovers_block documented resolved
        (@opens_page _ 0xfc row0xfc 0x3b _ (fun _ => rfl) (by decide) fun _ => rfl) fun _ => rfl
  | assume blockType =>
      exact recovers_block documented resolved
        (@opens_page _ 0xfc row0xfc 0x3c _ (fun _ => rfl) (by decide) fun _ => rfl) fun _ => rfl
  | unique blockType =>
      exact recovers_block documented resolved
        (@opens_page _ 0xfc row0xfc 0x3d _ (fun _ => rfl) (by decide) fun _ => rfl) fun _ => rfl
  | else_ label =>
      cases resolved
      exact (opens_row fun _ => rfl).recovers (.of_reads (reads_pure _))
  | end_ label =>
      cases resolved
      exact (opens_row fun _ => rfl).recovers (.of_reads (reads_pure _))
  | br label => exact recovers_index documented resolved (opens_row fun _ => rfl) fun _ => rfl
  | brIf label => exact recovers_index documented resolved (opens_row fun _ => rfl) fun _ => rfl
  | localGet index =>
      exact recovers_index documented resolved (opens_row fun _ => rfl) fun _ => rfl
  | localSet index =>
      exact recovers_index documented resolved (opens_row fun _ => rfl) fun _ => rfl
  | localTee index =>
      exact recovers_index documented resolved (opens_row fun _ => rfl) fun _ => rfl
  | brTable indices =>
      rcases Option.bind_eq_some_iff.mp resolved with ⟨table, table_eq, built⟩
      cases built
      exact (opens_row fun _ => rfl).recovers
        ((BrTableIndices.recovers documented table_eq).bind_pure Operator.brTable)
  | i32Const value =>
      cases resolved
      have encoded : encodeI32 externals value = signed value.toInt := by
        rw [encodeI32, documented.writesSigned, Int32.toInt_toInt64]
      have read := reads_varI32 value.le_toInt value.toInt_lt
      refine (opens_row fun _ => rfl).recovers (.of_reads ?_)
      rw [encoded]
      exact read.bind_pure Operator.i32Const
  | i64Const value =>
      cases resolved
      have read := reads_varI64 value.le_toInt value.toInt_lt
      refine (opens_row fun _ => rfl).recovers (.of_reads ?_)
      rw [encodeI64, documented.writesSigned]
      exact read.bind_pure Operator.i64Const
  | f32Const value =>
      cases resolved
      exact (opens_row fun _ => rfl).recovers
        (.of_reads ((reads_f32 value.bits.toNat_lt).bind_pure Operator.f32Const))
  | f64Const value =>
      cases resolved
      exact (opens_row fun _ => rfl).recovers
        (.of_reads ((reads_f64 value.bits.toNat_lt).bind_pure Operator.f64Const))
  | i32Uzumaki =>
      cases resolved
      exact (@opens_page _ 0xfc row0xfc 0x31 _ (fun _ => rfl) (by decide) fun _ => rfl).recovers
        (.of_reads (reads_pure _))
  | i64Uzumaki =>
      cases resolved
      exact (@opens_page _ 0xfc row0xfc 0x32 _ (fun _ => rfl) (by decide) fun _ => rfl).recovers
        (.of_reads (reads_pure _))
  | v128Const value =>
      cases resolved
      have opcode : Instruction.opcode externals (.v128Const value) = [0xfd, last 12] := by
        rw [Instruction.opcode, encodeU32_eq documented]
        decide +kernel
      rw [Instruction.encode, opcode]
      exact (@opens_page _ 0xfd (row0xfd others) 12 _ (fun _ => rfl) (by decide) fun _ => rfl).recovers
        (.of_reads ((reads_v128 value).bind_pure Operator.v128Const))

/-! ## Lists of instructions -/

omit documented in
theorem Instruction.encode_ne_nil {instruction : Instruction} {bytes : List UInt8}
    (encoded : instruction.encode externals = some bytes) : bytes ≠ [] := by
  rcases Option.bind_eq_some_iff.mp encoded with ⟨immediate, _, joined⟩
  cases joined
  cases instruction
  all_goals exact List.append_ne_nil_of_left_ne_nil (List.cons_ne_nil _ _) _

omit documented in
theorem not_eof {before bytes rest : List UInt8} {originalOffset : Nat} (nonempty : bytes ≠ []) :
    ¬ (⟨before ++ (bytes ++ rest), before.length, originalOffset⟩ : BinaryReader).eof = true := by
  have positive := List.length_pos_iff.mpr nonempty
  simp only [Cursor.eof, decide_eq_true_iff, List.length_append]
  omega

omit documented in
/-- One round of the iterator over an operator that is read. -/
theorem collectWithin_reads {others : OtherRows} {bytes : List UInt8} {operator : Operator}
    (reads : Reads (visitOperator others) bytes operator) (nonempty : bytes ≠ [])
    (before rest : List UInt8) (originalOffset rounds : Nat) :
    collectWithin others (rounds + 1) ⟨before ++ (bytes ++ rest), before.length, originalOffset⟩ =
      (.ok operator :: (collectWithin others rounds
          ⟨(before ++ bytes) ++ rest, (before ++ bytes).length, originalOffset⟩).1,
        (collectWithin others rounds
          ⟨(before ++ bytes) ++ rest, (before ++ bytes).length, originalOffset⟩).2) := by
  rw [collectWithin, if_neg (not_eof nonempty), reads before rest originalOffset, List.append_assoc,
    List.length_append]

theorem collectWithin_within (others : OtherRows) {instructions : List Instruction}
    {operators : List Operator} (resolved : instructions.mapM Instruction.operator = some operators)
    (inside : ∀ operator ∈ operators, InLimits operator) :
    ∃ bytes, encodeInstructions externals instructions = some bytes ∧
      instructions.length ≤ bytes.length ∧
        ∀ before originalOffset rounds, instructions.length ≤ rounds →
          collectWithin others rounds ⟨before ++ bytes, before.length, originalOffset⟩ =
            (operators.map .ok, ⟨before ++ bytes, (before ++ bytes).length, originalOffset⟩) := by
  induction instructions generalizing operators with
  | nil =>
      rw [List.mapM_nil] at resolved
      cases resolved
      refine ⟨[], rfl, Nat.le_refl _, fun before originalOffset rounds _ => ?_⟩
      have atEnd : (⟨before ++ [], before.length, originalOffset⟩ : BinaryReader).eof = true :=
        decide_eq_true (by simp)
      rw [List.append_nil] at atEnd ⊢
      cases rounds with
      | zero => rfl
      | succ rounds => exact if_pos atEnd
  | cons instruction instructions induction =>
      rw [List.mapM_cons] at resolved
      rcases Option.bind_eq_some_iff.mp resolved with ⟨operator, first, remaining⟩
      rcases Option.bind_eq_some_iff.mp remaining with ⟨later, rest, joined⟩
      cases joined
      have recovers := Instruction.recovers documented others first
      rcases recovers.within (inside operator List.mem_cons_self) with ⟨bytes, encoded, reads⟩
      rcases induction rest fun other listed => inside other (List.mem_cons_of_mem _ listed) with
        ⟨behind, encodedRest, longer, collects⟩
      have nonempty := Instruction.encode_ne_nil encoded
      have positive := List.length_pos_iff.mpr nonempty
      refine ⟨bytes ++ behind, ?_, ?_, ?_⟩
      · rw [encodeInstructions, encoded, encodedRest]
        rfl
      · rw [List.length_cons, List.length_append]
        omega
      · intro before originalOffset rounds enough
        cases rounds with
        | zero => exact absurd enough (Nat.not_succ_le_zero _)
        | succ rounds =>
            rw [collectWithin_reads reads nonempty, collects _ _ _ (Nat.le_of_succ_le_succ enough),
              List.append_assoc]
            rfl

/-- The iterator stops with an error at the first instruction beyond the limits. -/
theorem collectWithin_beyond (others : OtherRows) {instructions : List Instruction}
    {operators : List Operator} (resolved : instructions.mapM Instruction.operator = some operators)
    (outside : ∃ operator ∈ operators, ¬ InLimits operator) {bytes : List UInt8}
    (encoded : encodeInstructions externals instructions = some bytes)
    (before : List UInt8) (originalOffset rounds : Nat) (enough : bytes.length ≤ rounds) :
    ∃ error, Except.error error ∈
      (collectWithin others rounds ⟨before ++ bytes, before.length, originalOffset⟩).1 := by
  induction instructions generalizing operators bytes before rounds with
  | nil =>
      rw [List.mapM_nil] at resolved
      cases resolved
      rcases outside with ⟨operator, listed, _⟩
      cases listed
  | cons instruction instructions induction =>
      rw [List.mapM_cons] at resolved
      rcases Option.bind_eq_some_iff.mp resolved with ⟨operator, first, remaining⟩
      rcases Option.bind_eq_some_iff.mp remaining with ⟨later, rest, joined⟩
      cases joined
      rcases Option.bind_eq_some_iff.mp encoded with ⟨bytes, encodedFirst, remaining⟩
      rcases Option.bind_eq_some_iff.mp remaining with ⟨behind, encodedRest, joined⟩
      cases joined
      have recovers := Instruction.recovers documented others first
      have nonempty := Instruction.encode_ne_nil encodedFirst
      have positive := List.length_pos_iff.mpr nonempty
      rw [List.length_append] at enough
      cases rounds with
      | zero => omega
      | succ rounds =>
          by_cases inside : InLimits operator
          · rcases recovers.within inside with ⟨bytes', here, reads⟩
            cases here.symm.trans encodedFirst
            have later : ∃ operator ∈ later, ¬ InLimits operator := by
              rcases outside with ⟨other, listed, beyond⟩
              rcases List.mem_cons.mp listed with rfl | listed
              · exact absurd inside beyond
              · exact ⟨other, listed, beyond⟩
            rcases induction rest later encodedRest (before ++ bytes) rounds (by omega) with
              ⟨error, listed⟩
            refine ⟨error, ?_⟩
            rw [collectWithin_reads reads nonempty]
            exact List.mem_cons_of_mem _ listed
          · rcases recovers.beyond inside bytes encodedFirst before behind originalOffset with
              ⟨error, failed⟩
            refine ⟨error.toBinaryReaderError, ?_⟩
            rw [collectWithin, if_neg (not_eof nonempty), failed]
            exact List.mem_cons_self

end

/-- Decoding the bytes of the instructions yields the operators and consumes all bytes. -/
def RoundTrips (externals : Externals) (others : OtherRows) (instructions : List Instruction)
    (operators : List Operator) : Prop :=
  ∃ bytes, encodeInstructions externals instructions = some bytes ∧
    ∀ originalOffset, collect others ⟨bytes, 0, originalOffset⟩ =
      (operators.map .ok, ⟨bytes, bytes.length, originalOffset⟩)

section
variable {externals : Externals} (documented : externals.Documented) (others : OtherRows)
  {instructions : List Instruction} {operators : List Operator}
  (resolved : instructions.mapM Instruction.operator = some operators)
include documented resolved

theorem roundTrips_of_inLimits (inside : ∀ operator ∈ operators, InLimits operator) :
    RoundTrips externals others instructions operators := by
  rcases collectWithin_within documented others resolved inside with ⟨bytes, encoded, longer, collects⟩
  refine ⟨bytes, encoded, fun originalOffset => ?_⟩
  exact collects [] originalOffset bytes.length longer

theorem inLimits_of_roundTrips (roundTrips : RoundTrips externals others instructions operators) :
    ∀ operator ∈ operators, InLimits operator := by
  by_contra outside
  simp only [not_forall, exists_prop] at outside
  rcases roundTrips with ⟨bytes, encoded, collects⟩
  have stops := collectWithin_beyond documented others resolved outside encoded [] 0 bytes.length
    (Nat.le_refl _)
  rcases stops with ⟨error, listed⟩
  change _ ∈ (collect others ⟨bytes, 0, 0⟩).1 at listed
  rw [collects 0] at listed
  rcases List.mem_map.mp listed with ⟨operator, _, same⟩
  cases same

/-- What the encoder writes for instructions without unresolved names is read back exactly if their
operators are within the limits of the reader. -/
theorem binaryRoundTrips_iff :
    RoundTrips externals others instructions operators ↔ ∀ operator ∈ operators, InLimits operator :=
  ⟨inLimits_of_roundTrips documented others resolved, roundTrips_of_inLimits documented others resolved⟩

end

/-! ## Examples -/

/-- The shortest form of each value type. -/
def shortestForm : ValType UInt32 → List UInt8
  | .i32 => [0x7F]
  | .i64 => [0x7E]
  | .f32 => [0x7D]
  | .f64 => [0x7C]
  | .v128 => [0x7B]
  | .ref ⟨true, .abstract shared ty⟩ => (HeapType.abstract shared ty).form
  | .ref ⟨true, .concrete index⟩ => 0x63 :: (HeapType.concrete index).form
  | .ref ⟨false, heap⟩ => 0x64 :: heap.form

def packages : Externals where
  writeUnsigned value := unsigned value.toNat
  writeSigned value := signed value.toInt
  encodeValType := shortestForm

theorem packages_documented : packages.Documented where
  writesUnsigned _ := rfl
  writesSigned _ := rfl
  encodesValTypes valType := by
    cases valType with
    | ref refType =>
        rcases refType with ⟨nullable, heap⟩
        cases nullable with
        | false => exact .nonNull heap
        | true =>
            cases heap with
            | abstract shared ty => exact .short shared ty
            | concrete index => exact .nullable (.concrete index)
    | _ => constructor

/-- A table without other rows. -/
def noOtherRows : OtherRows where
  operator _ position := throw (.new "illegal opcode" position)
  vector _ position := throw (.new "unknown 0xfd subopcode" position)

theorem binaryRoundTrips_iff_forall :
    RoundTrips packages noOtherRows
      [.forall_ ⟨none, none, some ⟨[], [.i64]⟩⟩, .i64Uzumaki, .brTable ⟨[.num 0], .num 300⟩, .end_ none]
      [.forall_ (.type .i64), .plain .i64Uzumaki, .brTable ⟨[.ok 0], 300⟩, .end_] :=
  (binaryRoundTrips_iff packages_documented noOtherRows rfl).mpr
    (List.forall_mem_cons.mpr ⟨trivial, List.forall_mem_cons.mpr ⟨trivial,
      List.forall_mem_cons.mpr ⟨(by decide : 1 ≤ 131072), List.forall_mem_singleton.mpr trivial⟩⟩⟩)

theorem mapM_unwrapU32 (numbers : List UInt32) :
    (numbers.map Index.num).mapM Index.unwrapU32 = some numbers := by
  induction numbers with
  | nil => rfl
  | cons number numbers induction => rw [List.map_cons, List.mapM_cons, induction]; rfl

/-- A branch table whose labels and default all leave the innermost block. -/
def table (count : Nat) : Instruction :=
  .brTable ⟨(List.replicate count 0).map .num, .num 0⟩

def tableOperator (count : Nat) : Operator :=
  .brTable ⟨(List.replicate count (0 : UInt32)).map fun label => .ok label.toNat, 0⟩

theorem table_operator (count : Nat) :
    [table count].mapM Instruction.operator = some [tableOperator count] := by
  rw [List.mapM_cons, List.mapM_nil, table, Instruction.operator, BrTableIndices.operand,
    mapM_unwrapU32]
  rfl

/-- A block whose result is a reference to a type. -/
def blockOf (index : UInt32) : Instruction :=
  .block ⟨none, none, some ⟨[], [.ref ⟨true, .concrete (.num index)⟩]⟩⟩

def blockOperator (index : UInt32) : Operator :=
  .block (.type (.ref ⟨true, .concrete (.module index.toNat)⟩))

theorem blockOf_operator (index : UInt32) :
    [blockOf index].mapM Instruction.operator = some [blockOperator index] :=
  rfl

/-- A branch table with more labels than a function may have bytes is not read back, and neither is a
block type that names the type 1048576. -/
theorem limits_stop :
    ([table 131073].mapM Instruction.operator = some [tableOperator 131073] ∧
      ¬ RoundTrips packages noOtherRows [table 131073] [tableOperator 131073]) ∧
    ([blockOf 1048576].mapM Instruction.operator = some [blockOperator 1048576] ∧
      ¬ RoundTrips packages noOtherRows [blockOf 1048576] [blockOperator 1048576]) := by
  refine ⟨⟨table_operator 131073, fun roundTrips => ?_⟩,
    ⟨blockOf_operator 1048576, fun roundTrips => ?_⟩⟩
  · have inside := inLimits_of_roundTrips packages_documented noOtherRows (table_operator 131073)
      roundTrips _ (List.mem_singleton_self _)
    rw [tableOperator, InLimits, List.length_map, List.length_replicate] at inside
    exact absurd inside (by decide)
  · have inside : (1048576 : UInt32).toNat < 1048576 :=
      inLimits_of_roundTrips packages_documented noOtherRows (blockOf_operator 1048576) roundTrips _
        (List.mem_singleton_self _)
    exact absurd inside (by decide)

end Inference.Wat.Binary

import Inference.Wasmparser.NumberReading
import Inference.Wat.BinaryEncoding

/-! # Encoded types are read back

The binary format has one or two forms for each value type, and the reader makes the type of every one
of them as long as the type indices fit into the words it packs them in.
-/

namespace Inference.Wat.Binary

open ByteNumbers Reading Wasmparser
open WasmToV (AbstractHeapType)

def HeapType.read : HeapType UInt32 → WasmToV.HeapType
  | .abstract shared ty => .abstract shared ty
  | .concrete index => .concrete (.module index.toNat)

def ValType.read : ValType UInt32 → WasmToV.ValType
  | .i32 => .i32
  | .i64 => .i64
  | .f32 => .f32
  | .f64 => .f64
  | .v128 => .v128
  | .ref refType => .ref ⟨refType.nullable, refType.heap.read⟩

/-! ## Limits -/

/-- The type index of a reference type fits into 20 bits. -/
def HeapTypeInLimits : WasmToV.HeapType → Prop
  | .concrete (.module index) => index < 1048576
  | _ => True

def ValTypeInLimits : WasmToV.ValType → Prop
  | .ref refType => HeapTypeInLimits refType.heapType
  | _ => True

def BlockTypeInLimits : WasmToV.BlockType → Prop
  | .type valType => ValTypeInLimits valType
  | _ => True

/-! ## Heap types and reference types -/

theorem canRepresentIndex_iff (index : Nat) : canRepresentIndex index = true ↔ index < 1048576 := by
  rw [canRepresentIndex, decide_eq_true_iff, show 1048575 = 2 ^ 20 - 1 from rfl,
    Nat.and_two_pow_sub_one_eq_mod]
  omega

theorem reads_abstractHeapType (ty : AbstractHeapType) :
    Reads readAbstractHeapType [abstractByte ty] ty := by
  cases ty
  all_goals exact reads_byte (reads_pure _)

/-- The byte of an abstract heap type is a single group with a sign. -/
theorem abstractByte_negative (ty : AbstractHeapType) :
    ∃ value : Int, IsGroup value ∧ value < 0 ∧ last (group value) = abstractByte ty := by
  refine ⟨(abstractByte ty).toNat - 128, ?_⟩
  cases ty
  all_goals decide

theorem reads_heapType {heap : HeapType UInt32} (inLimits : HeapTypeInLimits heap.read) :
    Reads readHeapType heap.form heap.read := by
  cases heap with
  | abstract shared ty =>
      cases shared with
      | false =>
          rcases abstractByte_negative ty with ⟨value, isGroup, negative, byte⟩
          have scans := reads_varS33_group isGroup
          rw [byte] at scans
          change Reads readHeapType ([abstractByte ty] ++ []) _
          refine scans.scan fun ahead => ?_
          rw [if_neg fun positive => absurd positive.1 (Int.not_le_of_gt negative)]
          refine Reads.peek ?_
          rw [if_neg (by cases ty <;> decide)]
          exact ((reads_abstractHeapType ty).mapError _).bind_pure _
      | true =>
          have isGroup : IsGroup (-27) := by decide
          have scans := reads_varS33_group isGroup
          rw [show last (group (-27)) = 0x65 by decide] at scans
          change Reads readHeapType ([0x65] ++ [abstractByte ty]) _
          refine scans.scan fun ahead => ?_
          have negative : ¬ (0 : Int) ≤ -27 := by decide
          rw [if_neg fun positive => negative positive.1]
          refine Reads.peek ?_
          rw [if_pos rfl]
          exact reads_byte ((reads_abstractHeapType ty).bind_pure _)
  | concrete index =>
      have small := index.toNat_lt
      have packs : Reads (concreteHeapType index.toNat) [] (.concrete (.module index.toNat)) := by
        rw [concreteHeapType, if_pos ((canRepresentIndex_iff _).mpr inLimits)]
        exact reads_pure _
      rw [HeapType.form, ← List.append_nil (signed _)]
      exact (reads_varS33 small).scan_set (fun ahead => if_pos ⟨Int.natCast_nonneg _, by omega⟩) packs

variable {heap : HeapType UInt32}

theorem fails_heapType (outside : ¬ HeapTypeInLimits heap.read) :
    Fails readHeapType heap.form := by
  cases heap with
  | abstract shared ty => exact absurd trivial outside
  | concrete index =>
      have small := index.toNat_lt
      have overflows : Fails (concreteHeapType index.toNat) [] := by
        rw [concreteHeapType, if_neg fun representable =>
          outside ((canRepresentIndex_iff _).mp representable)]
        exact Fails.originalPosition fun position => fails_throw _
      rw [HeapType.form, ← List.append_nil (signed _)]
      exact Fails.scan_set (reads_varS33 small)
        (fun ahead => if_pos ⟨Int.natCast_nonneg _, by omega⟩) overflows

/-- What has been read as a heap type fits into a reference type. -/
theorem reads_newRefType {program : Read WasmToV.HeapType} {bytes : List UInt8}
    {heap : HeapType UInt32} (reads : Reads program bytes heap.read)
    (inLimits : HeapTypeInLimits heap.read) (nullable : Bool) (position : Nat) :
    Reads (program >>= fun heapType => newRefType nullable heapType position) bytes
      ⟨nullable, heap.read⟩ := by
  have packs : RefType.new nullable heap.read = some ⟨nullable, heap.read⟩ := by
    cases heap with
    | abstract shared ty => rfl
    | concrete index => exact if_pos ((canRepresentIndex_iff _).mpr inLimits)
  rw [← List.append_nil bytes]
  refine reads.bind ?_
  rw [newRefType, packs]
  exact reads_pure _

theorem reads_refType (inLimits : HeapTypeInLimits heap.read) (nullable : Bool) :
    Reads readRefType ((if nullable then 0x63 else 0x64) :: heap.form) ⟨nullable, heap.read⟩ := by
  refine Reads.originalPosition fun position => Reads.peek ?_
  have read := reads_newRefType (reads_heapType inLimits) inLimits nullable position
  cases nullable with
  | false => exact reads_byte read
  | true => exact reads_byte read

theorem fails_refType (outside : ¬ HeapTypeInLimits heap.read)
    (nullable : Bool) : Fails readRefType ((if nullable then 0x63 else 0x64) :: heap.form) := by
  refine Fails.originalPosition fun position => Fails.peek ?_
  cases nullable with
  | false => exact (reads_next _ _).bind_fails ((fails_heapType outside).bind _)
  | true => exact (reads_next _ _).bind_fails ((fails_heapType outside).bind _)

/-- An abstract heap type alone is a nullable reference. -/
theorem reads_refType_short (shared : Bool) (ty : AbstractHeapType) :
    Reads readRefType (HeapType.form (.abstract shared ty)) ⟨true, .abstract shared ty⟩ := by
  have heap : Reads readHeapType (HeapType.form (.abstract shared ty)) (.abstract shared ty) :=
    @reads_heapType (.abstract shared ty) trivial
  have read position := @reads_newRefType _ _ (.abstract shared ty)
    (heap.mapError (.reclassify "malformed reference type")) trivial true position
  refine Reads.originalPosition fun position => ?_
  cases shared with
  | false => cases ty <;> exact Reads.peek (read position)
  | true => exact Reads.peek (read position)

/-! ## Value types and block types -/

/-- A reference type is read behind the numbers and the vector. -/
theorem reads_valType_ref {byte : UInt8} {rest : List UInt8} {refType : WasmToV.RefType}
    (isRef : byte.toNat < 0x7B) (reads : Reads readRefType (byte :: rest) refType) :
    Reads readValType (byte :: rest) (.ref refType) := by
  have read := (reads.mapError (.reclassify "invalid value type")).bind_pure WasmToV.ValType.ref
  refine Reads.peek ?_
  split
  case h_6 => exact read
  all_goals omega

variable {valType : ValType UInt32} {bytes : List UInt8}

theorem reads_valType (form : valType.Form bytes)
    (inLimits : ValTypeInLimits valType.read) : Reads readValType bytes valType.read := by
  cases form with
  | i32 => exact Reads.peek (reads_byte (reads_pure _))
  | i64 => exact Reads.peek (reads_byte (reads_pure _))
  | f32 => exact Reads.peek (reads_byte (reads_pure _))
  | f64 => exact Reads.peek (reads_byte (reads_pure _))
  | v128 => exact Reads.peek (reads_byte (reads_pure _))
  | nullable heap => exact reads_valType_ref (by decide) (reads_refType inLimits true)
  | nonNull heap => exact reads_valType_ref (by decide) (reads_refType inLimits false)
  | short shared ty =>
      have read := reads_refType_short shared ty
      cases shared with
      | false => exact reads_valType_ref (by cases ty <;> decide) read
      | true => exact reads_valType_ref (by decide) read

/-- The first byte of a type index is not that of a value type or of the empty type. -/
theorem reads_blockType_index {index : Nat} (small : index < 2 ^ 32) :
    Reads readBlockType (signed index) (.funcType index) := by
  have read : Reads (readVarS33 >>= fun number =>
      if 0 ≤ number ∧ number < 4294967296 then pure (WasmToV.BlockType.funcType number.toNat)
      else do
        let position ← originalPosition
        throw (.new "invalid function type" position)) (signed index) (.funcType index) := by
    rw [← List.append_nil (signed _)]
    refine (reads_varS33 small).bind ?_
    rw [if_pos ⟨Int.natCast_nonneg _, by omega⟩, Int.toNat_natCast]
    exact reads_pure _
  have groupSmall := group_lt index
  rw [signed] at read ⊢
  by_cases isLast : IsGroup index
  · have positive : ∀ number : Fin 64, last number &&& 0x40 = 0 := by decide
    have bit := positive ⟨group index, by unfold group; have := isLast.2; omega⟩
    rw [if_pos isLast] at read ⊢
    refine Reads.peek ?_
    rw [if_neg fun isType => isType.2 bit]
    exact read
  · rw [if_neg isLast] at read ⊢
    refine Reads.peek ?_
    rw [if_neg fun isType => continued_continues groupSmall isType.1]
    exact read

/-- A value type begins with a byte that is not that of a type index or of the empty type. -/
theorem ValType.Form.cons {valType : ValType UInt32} {bytes : List UInt8} (form : valType.Form bytes) :
    ∃ byte rest, bytes = byte :: rest ∧ (byte &&& 0x80 = 0 ∧ byte &&& 0x40 ≠ 0) ∧ byte ≠ 0x40 := by
  cases form with
  | short shared ty =>
      cases shared with
      | false => exact ⟨_, _, rfl, by cases ty <;> decide⟩
      | true => exact ⟨_, _, rfl, by decide⟩
  | _ => exact ⟨_, _, rfl, by decide⟩

theorem reads_blockType_type (form : valType.Form bytes) (inLimits : ValTypeInLimits valType.read) :
    Reads readBlockType bytes (.type valType.read) := by
  have read := reads_valType form inLimits
  rcases form.cons with ⟨byte, rest, rfl, isType, notEmpty⟩
  refine Reads.peek ?_
  rw [if_pos isType, if_neg notEmpty]
  exact read.bind_pure _

theorem fails_valType (form : valType.Form bytes)
    (outside : ¬ ValTypeInLimits valType.read) : Fails readValType bytes := by
  cases form with
  | nullable heap => exact Fails.peek (((fails_refType outside true).mapError _).bind _)
  | nonNull heap => exact Fails.peek (((fails_refType outside false).mapError _).bind _)
  | _ => exact absurd trivial outside

theorem fails_blockType (form : valType.Form bytes)
    (outside : ¬ ValTypeInLimits valType.read) : Fails readBlockType bytes := by
  have failed := fails_valType form outside
  rcases form.cons with ⟨byte, rest, rfl, isType, notEmpty⟩
  refine Fails.peek ?_
  rw [if_pos isType, if_neg notEmpty]
  exact failed.bind _

end Inference.Wat.Binary

import Inference.WasmToV.Operator

/-! # Translation of types and basic operators

Every translation yields a text, reports an error, or panics. The panics are the
`todo!()` arms and the unwrapped results of the source.
-/

namespace Inference.WasmToV

/-! ## Outcomes -/

inductive TranslationError where
  | unsupportedReferenceType (refType : RefType)
  | tagNotSupportedInImport
  | tagNotSupported
  | memoryIndexNotSupported
  | atomicInstructionNotSupported (operator : Operator)
  | reader (error : BinaryReaderError)
  deriving Repr

inductive Failure where
  | error (error : TranslationError)
  | panicked
  deriving Repr

abbrev Outcome := Except Failure

def Outcome.fail {α : Type} (error : TranslationError) : Outcome α :=
  .error (.error error)

def Outcome.panic {α : Type} : Outcome α :=
  .error .panicked

/-- An item of the binary reader under the `?` operator. -/
def Outcome.ofItem {α : Type} : Except BinaryReaderError α → Outcome α
  | .ok value => .ok value
  | .error error => Outcome.fail (.reader error)

/-- An item of the binary reader under `unwrap()`. -/
def Outcome.unwrap {α : Type} : Except BinaryReaderError α → Outcome α
  | .ok value => .ok value
  | .error _ => Outcome.panic

section Binds

variable {α β : Type}

theorem ok_bind (value : α) (next : α → Outcome β) :
    (do let result ← (.ok value : Outcome α); next result) = next value :=
  rfl

theorem error_bind (failure : Failure) (next : α → Outcome β) :
    (do let result ← (.error failure : Outcome α); next result) = .error failure :=
  rfl

/-- A bind that succeeds has a first half that succeeds. -/
theorem bind_ok {first : Outcome α} {next : α → Outcome β} {result : β}
    (success : (do let value ← first; next value) = .ok result) :
    ∃ value, first = .ok value ∧ next value = .ok result := by
  cases first with
  | error failure => cases success
  | ok value => exact ⟨value, rfl, success⟩

end Binds

/-! ## Name maps -/

/-- A map from indices to names, latest insertion first. -/
abbrev NameMap := List (Nat × String)

/-- The local names of every function, keyed as the name section keys them. -/
abbrev LocalsNameMap := List (Nat × NameMap)

/-! ## Types -/

def translateRefType (refType : RefType) : Outcome String :=
  if refType = .funcref then .ok "T_funcref"
  else if refType = .externref then .ok "T_externref"
  else Outcome.fail (.unsupportedReferenceType refType)

def translateValueType : ValType → Outcome String
  | .i32 => .ok "T_num T_i32"
  | .i64 => .ok "T_num T_i64"
  | .f32 => .ok "T_num T_f32"
  | .f64 => .ok "T_num T_f64"
  | .v128 => .ok "T_vec T_v128"
  | .ref refType => do
      let refTypeTranslated ← translateRefType refType
      return "T_ref " ++ refTypeTranslated

def translateBlockType : BlockType → Outcome String
  | .empty => .ok "BT_valtype None"
  | .funcType index => .ok ("BT_id " ++ toString index ++ "%N")
  | .type valType => do
      let valType ← translateValueType valType
      return "BT_valtype (Some (" ++ valType ++ "))"

def translateMemarg (memarg : MemArg) : String :=
  "Ma " ++ toString memarg.offset ++ "%N " ++ toString memarg.align ++ "%N"

/-! ## Operator texts -/

def plainText : PlainOpcode → String
  | .unreachable => "BI_unreachable"
  | .nop => "BI_nop"
  | .return_ => "BI_return"
  | .drop => "BI_drop"
  | .select => "BI_select None"
  | .i32Uzumaki => "BI_uzumaki_num T_i32"
  | .i64Uzumaki => "BI_uzumaki_num T_i64"
  | .i32Eqz => "BI_testop T_i32 TO_eqz"
  | .i32Eq => "BI_relop T_i32 (Relop_i ROI_eq)"
  | .i32Ne => "BI_relop T_i32 (Relop_i ROI_ne)"
  | .i32LtS => "BI_relop T_i32 (Relop_i (ROI_lt SX_S))"
  | .i32LtU => "BI_relop T_i32 (Relop_i (ROI_lt SX_U))"
  | .i32GtS => "BI_relop T_i32 (Relop_i (ROI_gt SX_S))"
  | .i32GtU => "BI_relop T_i32 (Relop_i (ROI_gt SX_U))"
  | .i32LeS => "BI_relop T_i32 (Relop_i (ROI_le SX_S))"
  | .i32LeU => "BI_relop T_i32 (Relop_i (ROI_le SX_U))"
  | .i32GeS => "BI_relop T_i32 (Relop_i (ROI_ge SX_S))"
  | .i32GeU => "BI_relop T_i32 (Relop_i (ROI_ge SX_U))"
  | .i64Eqz => "BI_testop T_i64 TO_eqz"
  | .i64Eq => "BI_relop T_i64 (Relop_i ROI_eq)"
  | .i64Ne => "BI_relop T_i64 (Relop_i ROI_ne)"
  | .i64LtS => "BI_relop T_i64 (Relop_i (ROI_lt SX_S))"
  | .i64LtU => "BI_relop T_i64 (Relop_i (ROI_lt SX_U))"
  | .i64GtS => "BI_relop T_i64 (Relop_i (ROI_gt SX_S))"
  | .i64GtU => "BI_relop T_i64 (Relop_i (ROI_gt SX_U))"
  | .i64LeS => "BI_relop T_i64 (Relop_i (ROI_le SX_S))"
  | .i64LeU => "BI_relop T_i64 (Relop_i (ROI_le SX_U))"
  | .i64GeS => "BI_relop T_i64 (Relop_i (ROI_ge SX_S))"
  | .i64GeU => "BI_relop T_i64 (Relop_i (ROI_ge SX_U))"
  | .f32Eq => "BI_relop T_f32 (Relop_f ROI_eq)"
  | .f32Ne => "BI_relop T_f32 (Relop_f ROI_ne)"
  | .f32Lt => "BI_relop T_f32 (Relop_f ROI_lt)"
  | .f32Gt => "BI_relop T_f32 (Relop_f ROI_gt)"
  | .f32Le => "BI_relop T_f32 (Relop_f ROI_le)"
  | .f32Ge => "BI_relop T_f32 (Relop_f ROI_ge)"
  | .f64Eq => "BI_relop T_f64 (Relop_f ROI_eq)"
  | .f64Ne => "BI_relop T_f64 (Relop_f ROI_ne)"
  | .f64Lt => "BI_relop T_f64 (Relop_f ROI_lt)"
  | .f64Gt => "BI_relop T_f64 (Relop_f ROI_gt)"
  | .f64Le => "BI_relop T_f64 (Relop_f ROI_le)"
  | .f64Ge => "BI_relop T_f64 (Relop_f ROI_ge)"
  | .i32Clz => "BI_unop T_i32 (Unop_i UOI_clz)"
  | .i32Ctz => "BI_unop T_i32 (Unop_i UOI_ctz)"
  | .i32Popcnt => "BI_unop T_i32 (Unop_i UOI_popcnt)"
  | .i32Add => "BI_binop T_i32 (Binop_i BOI_add)"
  | .i32Sub => "BI_binop T_i32 (Binop_i BOI_sub)"
  | .i32Mul => "BI_binop T_i32 (Binop_i BOI_mul)"
  | .i32DivS => "BI_binop T_i32 (Binop_i (BOI_div SX_S))"
  | .i32DivU => "BI_binop T_i32 (Binop_i (BOI_div SX_U))"
  | .i32RemS => "BI_binop T_i32 (Binop_i (BOI_rem SX_S))"
  | .i32RemU => "BI_binop T_i32 (Binop_i (BOI_rem SX_U))"
  | .i32And => "BI_binop T_i32 (Binop_i BOI_and)"
  | .i32Or => "BI_binop T_i32 (Binop_i BOI_or)"
  | .i32Xor => "BI_binop T_i32 (Binop_i BOI_xor)"
  | .i32Shl => "BI_binop T_i32 (Binop_i BOI_shl)"
  | .i32ShrS => "BI_binop T_i32 (Binop_i (BOI_shr SX_S))"
  | .i32ShrU => "BI_binop T_i32 (Binop_i (BOI_shr SX_U))"
  | .i32Rotl => "BI_binop T_i32 (Binop_i BOI_rotl)"
  | .i32Rotr => "BI_binop T_i32 (Binop_i BOI_rotr)"
  | .i64Clz => "BI_unop T_i64 (Unop_i UOI_clz)"
  | .i64Ctz => "BI_unop T_i64 (Unop_i UOI_ctz)"
  | .i64Popcnt => "BI_unop T_i64 (Unop_i UOI_popcnt)"
  | .i64Add => "BI_binop T_i64 (Binop_i BOI_add)"
  | .i64Sub => "BI_binop T_i64 (Binop_i BOI_sub)"
  | .i64Mul => "BI_binop T_i64 (Binop_i BOI_mul)"
  | .i64DivS => "BI_binop T_i64 (Binop_i (BOI_div SX_S))"
  | .i64DivU => "BI_binop T_i64 (Binop_i (BOI_div SX_U))"
  | .i64RemS => "BI_binop T_i64 (Binop_i (BOI_rem SX_S))"
  | .i64RemU => "BI_binop T_i64 (Binop_i (BOI_rem SX_U))"
  | .i64And => "BI_binop T_i64 (Binop_i BOI_and)"
  | .i64Or => "BI_binop T_i64 (Binop_i BOI_or)"
  | .i64Xor => "BI_binop T_i64 (Binop_i BOI_xor)"
  | .i64Shl => "BI_binop T_i64 (Binop_i BOI_shl)"
  | .i64ShrS => "BI_binop T_i64 (Binop_i (BOI_shr SX_S))"
  | .i64ShrU => "BI_binop T_i64 (Binop_i (BOI_shr SX_U))"
  | .i64Rotl => "BI_binop T_i64 (Binop_i BOI_rotl)"
  | .i64Rotr => "BI_binop T_i64 (Binop_i BOI_rotr)"
  | .f32Abs => "BI_unop T_f32 (Unop_f UOF_abs)"
  | .f32Neg => "BI_unop T_f32 (Unop_f UOF_neg)"
  | .f32Ceil => "BI_unop T_f32 (Unop_f UOF_ceil)"
  | .f32Floor => "BI_unop T_f32 (Unop_f UOF_floor)"
  | .f32Trunc => "BI_unop T_f32 (Unop_f UOF_trunc)"
  | .f32Nearest => "BI_unop T_f32 (Unop_f UOF_nearest)"
  | .f32Sqrt => "BI_unop T_f32 (Unop_f UOF_sqrt)"
  | .f32Add => "BI_binop T_f32 (Binop_f BOF_add)"
  | .f32Sub => "BI_binop T_f32 (Binop_f BOF_sub)"
  | .f32Mul => "BI_binop T_f32 (Binop_f BOF_mul)"
  | .f32Div => "BI_binop T_f32 (Binop_f BOF_div)"
  | .f32Min => "BI_binop T_f32 (Binop_f BOF_min)"
  | .f32Max => "BI_binop T_f32 (Binop_f BOF_max)"
  | .f32Copysign => "BI_binop T_f32 (Binop_f BOF_copysign)"
  | .f64Abs => "BI_unop T_f64 (Unop_f UOF_abs)"
  | .f64Neg => "BI_unop T_f64 (Unop_f UOF_neg)"
  | .f64Ceil => "BI_unop T_f64 (Unop_f UOF_ceil)"
  | .f64Floor => "BI_unop T_f64 (Unop_f UOF_floor)"
  | .f64Trunc => "BI_unop T_f64 (Unop_f UOF_trunc)"
  | .f64Nearest => "BI_unop T_f64 (Unop_f UOF_nearest)"
  | .f64Sqrt => "BI_unop T_f64 (Unop_f UOF_sqrt)"
  | .f64Add => "BI_binop T_f64 (Binop_f BOF_add)"
  | .f64Sub => "BI_binop T_f64 (Binop_f BOF_sub)"
  | .f64Mul => "BI_binop T_f64 (Binop_f BOF_mul)"
  | .f64Div => "BI_binop T_f64 (Binop_f BOF_div)"
  | .f64Min => "BI_binop T_f64 (Binop_f BOF_min)"
  | .f64Max => "BI_binop T_f64 (Binop_f BOF_max)"
  | .f64Copysign => "BI_binop T_f64 (Binop_f BOF_copysign)"
  | .i32WrapI64 => "BI_cvtop T_i32 (CVO_wrap T_i64 None)"
  | .i32TruncF32S => "BI_cvtop T_i32 (CVO_trunc T_f32 (Some SX_S))"
  | .i32TruncF32U => "BI_cvtop T_i32 (CVO_trunc T_f32 (Some SX_U))"
  | .i32TruncF64S => "BI_cvtop T_i32 (CVO_trunc T_f64 (Some SX_S))"
  | .i32TruncF64U => "BI_cvtop T_i32 (CVO_trunc T_f64 (Some SX_U))"
  | .i64ExtendI32S => "BI_cvtop T_i64 (CVO_extend T_i32 (Some SX_S))"
  | .i64ExtendI32U => "BI_cvtop T_i64 (CVO_extend T_i32 (Some SX_U))"
  | .i64TruncF32S => "BI_cvtop T_i64 (CVO_trunc T_f32 (Some SX_S))"
  | .i64TruncF32U => "BI_cvtop T_i64 (CVO_trunc T_f32 (Some SX_U))"
  | .i64TruncF64S => "BI_cvtop T_i64 (CVO_trunc T_f64 (Some SX_S))"
  | .i64TruncF64U => "BI_cvtop T_i64 (CVO_trunc T_f64 (Some SX_U))"
  | .f32ConvertI32S => "BI_cvtop T_f32 (CVO_convert T_i32 (Some SX_S))"
  | .f32ConvertI32U => "BI_cvtop T_f32 (CVO_convert T_i32 (Some SX_U))"
  | .f32ConvertI64S => "BI_cvtop T_f32 (CVO_convert T_i64 (Some SX_S))"
  | .f32ConvertI64U => "BI_cvtop T_f32 (CVO_convert T_i64 (Some SX_U))"
  | .f32DemoteF64 => "BI_cvtop T_f32 (CVO_demote T_f64 None)"
  | .f64ConvertI32S => "BI_cvtop T_f64 (CVO_convert T_i32 (Some SX_S))"
  | .f64ConvertI32U => "BI_cvtop T_f64 (CVO_convert T_i32 (Some SX_U))"
  | .f64ConvertI64S => "BI_cvtop T_f64 (CVO_convert T_i64 (Some SX_S))"
  | .f64ConvertI64U => "BI_cvtop T_f64 (CVO_convert T_i64 (Some SX_U))"
  | .f64PromoteF32 => "BI_cvtop T_f64 (CVO_promote T_f32 None)"
  | .i32ReinterpretF32 => "BI_cvtop T_i32 (CVO_reinterpret T_f32 None)"
  | .i64ReinterpretF64 => "BI_cvtop T_i64 (CVO_reinterpret T_f64 None)"
  | .f32ReinterpretI32 => "BI_cvtop T_f32 (CVO_reinterpret T_i32 None)"
  | .f64ReinterpretI64 => "BI_cvtop T_f64 (CVO_reinterpret T_i64 None)"
  | .refIsNull => "BI_ref_is_null"
  | .i8x16Splat => "BI_load_vec LVA_splat Twv_8"
  | .i16x8Splat => "BI_load_vec LVA_splat Twv_16"
  | .i32x4Splat => "BI_load_vec LVA_splat Twv_32"
  | .i64x2Splat => "BI_load_vec LVA_splat Twv_64"
  | .f32x4Splat => "BI_load_vec LVA_splat Twv_32"
  | .f64x2Splat => "BI_load_vec LVA_splat Twv_64"

/-- Text in front of the memory argument. -/
def memoryHead : MemoryOpcode → String
  | .i32Load => "BI_load T_i32 None ("
  | .i64Load => "BI_load T_i64 None ("
  | .f32Load => "BI_load T_f32 None ("
  | .f64Load => "BI_load T_f64 None ("
  | .i32Load8S => "BI_load T_i32 (Some (Tp_i8, SX_S)) ("
  | .i32Load8U => "BI_load T_i32 (Some (Tp_i8, SX_U)) ("
  | .i32Load16S => "BI_load T_i32 (Some (Tp_i16, SX_S)) ("
  | .i32Load16U => "BI_load T_i32 (Some (Tp_i16, SX_U)) ("
  | .i64Load8S => "BI_load T_i64 (Some (Tp_i8, SX_S)) ("
  | .i64Load8U => "BI_load T_i64 (Some (Tp_i8, SX_U)) ("
  | .i64Load16S => "BI_load T_i64 (Some (Tp_i16, SX_S)) ("
  | .i64Load16U => "BI_load T_i64 (Some (Tp_i16, SX_U)) ("
  | .i64Load32S => "BI_load T_i64 (Some (Tp_i32, SX_S)) ("
  | .i64Load32U => "BI_load T_i64 (Some (Tp_i32, SX_U)) ("
  | .i32Store => "BI_store T_i32 None ("
  | .i64Store => "BI_store T_i64 None ("
  | .f32Store => "BI_store T_f32 None ("
  | .f64Store => "BI_store T_f64 None ("
  | .i32Store8 => "BI_store T_i32 (Some Tp_i8) ("
  | .i32Store16 => "BI_store T_i32 (Some Tp_i16) ("
  | .i64Store8 => "BI_store T_i64 (Some Tp_i8) ("
  | .i64Store16 => "BI_store T_i64 (Some Tp_i16) ("
  | .i64Store32 => "BI_store T_i64 (Some Tp_i32) ("
  | .v128Load => "BI_load_vec LVA_packed T_i64 (Some (Tp_i16, SX_U)) ("
  | .v128Load8x8S => "BI_load_vec LVA_packed T_i64 (Some (Tp_i8, SX_S)) ("
  | .v128Load8x8U => "BI_load_vec LVA_packed T_i64 (Some (Tp_i8, SX_U)) ("
  | .v128Load16x4S => "BI_load_vec LVA_packed T_i64 (Some (Tp_i16, SX_S)) ("
  | .v128Load16x4U => "BI_load_vec LVA_packed T_i64 (Some (Tp_i16, SX_U)) ("
  | .v128Load32x2S => "BI_load_vec LVA_packed T_i64 (Some (Tp_i32, SX_S)) ("
  | .v128Load32x2U => "BI_load_vec LVA_packed T_i64 (Some (Tp_i32, SX_U)) ("
  | .v128Load8Splat => "BI_load_vec LVA_splat Twv_8 ("
  | .v128Load16Splat => "BI_load_vec LVA_splat Twv_16 ("
  | .v128Load32Splat => "BI_load_vec LVA_splat Twv_32 ("
  | .v128Load64Splat => "BI_load_vec LVA_splat Twv_64 ("
  | .v128Load32Zero => "BI_load_vec LVA_zero Tztv_32 ("
  | .v128Load64Zero => "BI_load_vec LVA_zero Tztv_64 ("
  | .v128Store => "BI_store_vec_lane Twv_64 ("

/-- Text behind the memory argument. -/
def memoryTail : MemoryOpcode → String
  | .v128Store => ") 0"
  | _ => ")"

/-- Text in front of the memory argument of a lane access. -/
def memoryLaneHead : MemoryLaneOpcode → String
  | .v128Load8Lane => "BI_store_vec_lane Twv_8 ("
  | .v128Load16Lane => "BI_store_vec_lane Twv_16 ("
  | .v128Load32Lane => "BI_store_vec_lane Twv_32 ("
  | .v128Load64Lane => "BI_store_vec_lane Twv_64 ("
  | .v128Store8Lane => "BI_store_vec_lane Twv_8 ("
  | .v128Store16Lane => "BI_store_vec_lane Twv_16 ("
  | .v128Store32Lane => "BI_store_vec_lane Twv_32 ("
  | .v128Store64Lane => "BI_store_vec_lane Twv_64 ("

/-- Text in front of the lane. -/
def laneHead : LaneOpcode → String
  | .i8x16ExtractLaneS => "BI_extract_vec (SV_ishape SVI_8_16) (Some SX_S) "
  | .i8x16ExtractLaneU => "BI_extract_vec (SV_ishape SVI_8_16) (Some SX_U) "
  | .i8x16ReplaceLane => "BI_replace_vec (SV_ishape SVI_8_16) "
  | .i16x8ExtractLaneS => "BI_extract_vec (SV_ishape SVI_16_8) (Some SX_S) "
  | .i16x8ExtractLaneU => "BI_extract_vec (SV_ishape SVI_16_8) (Some SX_U) "
  | .i16x8ReplaceLane => "BI_replace_vec (SV_ishape SVI_16_8) "
  | .i32x4ExtractLane => "BI_extract_vec (SV_ishape SVI_32_4) (Some SX_S) "
  | .i32x4ReplaceLane => "BI_replace_vec (SV_ishape SVI_32_4) "
  | .i64x2ExtractLane => "BI_extract_vec (SV_ishape SVI_64_2) (Some SX_S) "
  | .i64x2ReplaceLane => "BI_replace_vec (SV_ishape SVI_64_2) "
  | .f32x4ExtractLane => "BI_extract_vec (SV_fshape SVF_32_4) None "
  | .f32x4ReplaceLane => "BI_replace_vec (SV_fshape SVF_32_4) "
  | .f64x2ExtractLane => "BI_extract_vec (SV_fshape SVF_64_2) None "
  | .f64x2ReplaceLane => "BI_replace_vec (SV_fshape SVF_64_2) "

/-- Text of a block opener in front of its block type. -/
def translateOpener (instruction : String) (blockty : BlockType) : Outcome String := do
  let blockty ← translateBlockType blockty
  return instruction ++ " (" ++ blockty ++ ")"

/-- Text of a local access, with the local's name as a comment. -/
def translateLocal (instruction : String) (localIndex : Nat)
    (localNameMap : Option NameMap) : String :=
  match localNameMap.bind (·.lookup localIndex) with
  | some name => instruction ++ " " ++ toString localIndex ++ "%N (*" ++ name ++ "*)"
  | none => instruction ++ " " ++ toString localIndex ++ "%N"

/-- The labels of a `br_table`, each followed by a cons. -/
def translateTargets : List (Except BinaryReaderError Nat) → Outcome String
  | [] => .ok ""
  | target :: rest => do
      let id ← Outcome.unwrap target
      let labelidx ← translateTargets rest
      return toString id ++ " :: " ++ labelidx

/-- Text of a `br_table`. The default label is not part of it. -/
def translateBrTable (targets : BrTable) : Outcome String :=
  if targets.targets.isEmpty then .ok "BI_br_table"
  else do
    let labelidx ← translateTargets targets.targets
    return "BI_br_table (" ++ (labelidx ++ "nil") ++ ")"

def translateBasicOperator (operator : Operator) (localNameMap : Option NameMap) :
    Outcome String :=
  match operator with
  | .plain opcode => .ok (plainText opcode)
  | .block blockty => translateOpener "BI_block" blockty
  | .loop blockty => translateOpener "BI_loop" blockty
  | .if_ blockty => translateOpener "BI_if" blockty
  | .forall_ blockty => translateOpener "BI_forall" blockty
  | .exists_ blockty => translateOpener "BI_exists" blockty
  | .assume blockty => translateOpener "BI_assume" blockty
  | .unique blockty => translateOpener "BI_unique" blockty
  | .else_ => .ok ""
  | .end_ => .ok ""
  | .br relativeDepth => .ok ("BI_br " ++ toString relativeDepth)
  | .brIf relativeDepth => .ok ("BI_br_if " ++ toString relativeDepth ++ "%N")
  | .brTable targets => translateBrTable targets
  | .call functionIndex => .ok ("BI_call " ++ toString functionIndex)
  | .callIndirect typeIndex tableIndex =>
      .ok ("BI_call_indirect " ++ toString typeIndex ++ " " ++ toString tableIndex)
  | .localGet localIndex => .ok (translateLocal "BI_local_get" localIndex localNameMap)
  | .localSet localIndex => .ok (translateLocal "BI_local_set" localIndex localNameMap)
  | .localTee localIndex => .ok (translateLocal "BI_local_tee" localIndex localNameMap)
  | .globalGet globalIndex => .ok ("BI_global_get " ++ toString globalIndex ++ "%N")
  | .globalSet globalIndex => .ok ("BI_global_set " ++ toString globalIndex ++ "%N")
  | .memory opcode memarg =>
      .ok (memoryHead opcode ++ translateMemarg memarg ++ memoryTail opcode)
  | .memoryLane opcode memarg lane =>
      .ok (memoryLaneHead opcode ++ translateMemarg memarg ++ ") " ++ toString lane)
  | .lane opcode lane => .ok (laneHead opcode ++ toString lane)
  | .memorySize mem =>
      if mem > 0 then Outcome.fail .memoryIndexNotSupported else .ok "BI_memory_size"
  | .memoryGrow mem =>
      if mem > 0 then Outcome.fail .memoryIndexNotSupported else .ok "BI_memory_grow"
  | .i32Const value => .ok ("BI_const_num (Vi32 " ++ toString value ++ ")")
  | .i64Const value => .ok ("BI_const_num (Vi64 " ++ toString value ++ ")")
  | .f32Const bits => .ok ("BI_const_num (VAL_float32 " ++ toString bits ++ ")")
  | .f64Const bits => .ok ("BI_const_num (VAL_float64 " ++ toString bits ++ ")")
  | .v128Const value => .ok ("BI_const_vec " ++ toString value)
  | .memoryInit dataIndex _ => .ok ("BI_memory_init " ++ toString dataIndex)
  | .dataDrop dataIndex => .ok ("BI_data_drop " ++ toString dataIndex)
  | .memoryCopy _ _ => .ok "BI_memory_copy"
  | .memoryFill _ => .ok "BI_memory_fill"
  | .refFunc functionIndex => .ok ("BI_ref_func " ++ toString functionIndex ++ "%N")
  | .tableFill table => .ok ("BI_table_fill " ++ toString table ++ "%N")
  | .tableGet table => .ok ("BI_table_get " ++ toString table ++ "%N")
  | .tableSet table => .ok ("BI_table_set " ++ toString table ++ "%N")
  | .tableGrow table => .ok ("BI_table_grow " ++ toString table ++ "%N")
  | .tableSize table => .ok ("BI_table_size " ++ toString table ++ "%N")
  | .atomicFence => Outcome.fail (.atomicInstructionNotSupported operator)
  | .atomicMemory _ _ => Outcome.fail (.atomicInstructionNotSupported operator)
  | .atomicIndex _ _ _ => Outcome.fail (.atomicInstructionNotSupported operator)
  | .atomicField _ _ _ _ => Outcome.fail (.atomicInstructionNotSupported operator)
  | .unimplemented _ _ => Outcome.panic

end Inference.WasmToV

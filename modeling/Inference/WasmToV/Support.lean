import Inference.WasmToV.OperatorTranslation

/-! # Supported operators

Which types and operators the translator accepts, rejects with an error, or
leaves to do. The translation of a single operator depends on nothing else.
-/

namespace Inference.WasmToV

/-! ## Types -/

def RefType.supported (refType : RefType) : Bool :=
  refType = .funcref || refType = .externref

def ValType.supported : ValType → Bool
  | .ref refType => refType.supported
  | _ => true

def BlockType.supported : BlockType → Bool
  | .type valType => valType.supported
  | _ => true

theorem translateRefType_supported {refType : RefType} (supported : refType.supported = true) :
    ∃ text, translateRefType refType = .ok text := by
  unfold translateRefType
  split
  · exact ⟨_, rfl⟩
  · split
    · exact ⟨_, rfl⟩
    · simp_all [RefType.supported]

theorem translateRefType_unsupported {refType : RefType}
    (unsupported : refType.supported = false) :
    translateRefType refType = Outcome.fail (.unsupportedReferenceType refType) := by
  simp only [RefType.supported, Bool.or_eq_false_iff, decide_eq_false_iff_not] at unsupported
  rw [translateRefType, if_neg unsupported.1, if_neg unsupported.2]

theorem translateValueType_supported {valType : ValType} (supported : valType.supported = true) :
    ∃ text, translateValueType valType = .ok text := by
  cases valType with
  | ref refType =>
      obtain ⟨text, translated⟩ := translateRefType_supported supported
      exact ⟨"T_ref " ++ text, by rw [translateValueType, translated]; rfl⟩
  | i32 | i64 | f32 | f64 | v128 => exact ⟨_, rfl⟩

theorem translateValueType_unsupported {valType : ValType}
    (unsupported : valType.supported = false) :
    ∃ error, translateValueType valType = Outcome.fail error := by
  cases valType with
  | ref refType =>
      exact ⟨_, by rw [translateValueType, translateRefType_unsupported unsupported]; rfl⟩
  | i32 | i64 | f32 | f64 | v128 => cases unsupported

theorem translateBlockType_supported {blockty : BlockType} (supported : blockty.supported = true) :
    ∃ text, translateBlockType blockty = .ok text := by
  cases blockty with
  | type valType =>
      obtain ⟨text, translated⟩ := translateValueType_supported supported
      exact ⟨_, by rw [translateBlockType, translated]; rfl⟩
  | empty | funcType index => exact ⟨_, rfl⟩

theorem translateBlockType_unsupported {blockty : BlockType}
    (unsupported : blockty.supported = false) :
    ∃ error, translateBlockType blockty = Outcome.fail error := by
  cases blockty with
  | type valType =>
      obtain ⟨error, rejected⟩ := translateValueType_unsupported unsupported
      exact ⟨error, by rw [translateBlockType, rejected]; rfl⟩
  | empty | funcType index => cases unsupported

/-! ## Operators -/

/-- Operators are translated, rejected with an error, or left to do. An operator
whose own immediates cannot be read panics like one that is left to do. -/
inductive Support where
  | supported
  | rejected
  | unimplemented
  deriving DecidableEq, Repr

def Support.ofBool (supported : Bool) : Support :=
  if supported then .supported else .rejected

def Item.isRead {α : Type} : Except BinaryReaderError α → Bool
  | .ok _ => true
  | .error _ => false

def Operator.support : Operator → Support
  | .block blockty | .loop blockty | .if_ blockty | .forall_ blockty | .exists_ blockty
  | .assume blockty | .unique blockty => .ofBool blockty.supported
  | .memorySize mem | .memoryGrow mem => .ofBool (mem = 0)
  | .brTable targets => if targets.targets.all Item.isRead then .supported else .unimplemented
  | .atomicFence | .atomicMemory _ _ | .atomicIndex _ _ _ | .atomicField _ _ _ _ => .rejected
  | .unimplemented _ _ => .unimplemented
  | _ => .supported

/-- What the translation of an operator with a known support looks like. -/
def Support.Describes (support : Support) (outcome : Outcome String) : Prop :=
  match support with
  | .supported => ∃ text, outcome = .ok text
  | .rejected => ∃ error, outcome = Outcome.fail error
  | .unimplemented => outcome = Outcome.panic

private theorem describes_opener (instruction : String) (blockty : BlockType) :
    (Support.ofBool blockty.supported).Describes (translateOpener instruction blockty) := by
  cases supported : blockty.supported with
  | true =>
      obtain ⟨text, translated⟩ := translateBlockType_supported supported
      exact ⟨_, by rw [translateOpener, translated]; rfl⟩
  | false =>
      obtain ⟨error, rejected⟩ := translateBlockType_unsupported supported
      exact ⟨error, by rw [translateOpener, rejected]; rfl⟩

private theorem describes_memoryIndex (mem : Nat) (text : String) :
    (Support.ofBool (mem = 0)).Describes
      (if mem > 0 then Outcome.fail .memoryIndexNotSupported else .ok text) := by
  cases mem with
  | zero => exact ⟨text, rfl⟩
  | succ mem => exact ⟨_, if_pos (Nat.succ_pos mem)⟩

theorem translateTargets_describes (targets : List (Except BinaryReaderError Nat)) :
    if targets.all Item.isRead then ∃ text, translateTargets targets = .ok text
    else translateTargets targets = Outcome.panic := by
  induction targets with
  | nil => exact ⟨"", rfl⟩
  | cons target rest induction =>
      cases target with
      | error error => exact rfl
      | ok id =>
          simp only [List.all_cons, Item.isRead, Bool.true_and]
          split
          case isTrue read =>
              rw [if_pos read] at induction
              obtain ⟨text, translated⟩ := induction
              exact ⟨_, by rw [translateTargets, Outcome.unwrap, ok_bind, translated]; rfl⟩
          case isFalse unread =>
              rw [if_neg unread] at induction
              rw [translateTargets, Outcome.unwrap, ok_bind, induction]
              rfl

private theorem describes_brTable (targets : BrTable) :
    (if targets.targets.all Item.isRead then Support.supported else .unimplemented).Describes
      (translateBrTable targets) := by
  have described := translateTargets_describes targets.targets
  rw [translateBrTable]
  by_cases empty : targets.targets.isEmpty = true
  · rw [if_pos empty, List.isEmpty_iff.mp empty]
    exact ⟨_, rfl⟩
  · rw [if_neg empty]
    by_cases read : targets.targets.all Item.isRead = true
    · rw [if_pos read] at described ⊢
      obtain ⟨text, translated⟩ := described
      exact ⟨_, by rw [translated]; rfl⟩
    · rw [if_neg read] at described ⊢
      rw [described]
      exact rfl

theorem support_describes (op : Operator) (names : Option NameMap) :
    op.support.Describes (translateBasicOperator op names) := by
  cases op with
  | block blockty | loop blockty | if_ blockty | forall_ blockty | exists_ blockty
  | assume blockty | unique blockty => exact describes_opener _ blockty
  | memorySize mem | memoryGrow mem => exact describes_memoryIndex mem _
  | brTable targets => exact describes_brTable targets
  | atomicFence | atomicMemory _ _ | atomicIndex _ _ _ | atomicField _ _ _ _ => exact ⟨_, rfl⟩
  | unimplemented _ _ => rfl
  | _ => exact ⟨_, rfl⟩

theorem translateBasicOperator_ok {op : Operator} (supported : op.support = .supported)
    (names : Option NameMap) : ∃ text, translateBasicOperator op names = .ok text := by
  simpa [Support.Describes, supported] using support_describes op names

theorem translateBasicOperator_fail {op : Operator} (rejected : op.support = .rejected)
    (names : Option NameMap) : ∃ error, translateBasicOperator op names = Outcome.fail error := by
  simpa [Support.Describes, rejected] using support_describes op names

theorem translateBasicOperator_panic {op : Operator}
    (unimplemented : op.support = .unimplemented) (names : Option NameMap) :
    translateBasicOperator op names = Outcome.panic := by
  simpa [Support.Describes, unimplemented] using support_describes op names

theorem supported_of_translated {op : Operator} {names : Option NameMap} {text : String}
    (translated : translateBasicOperator op names = .ok text) : op.support = .supported := by
  cases support : op.support with
  | supported => rfl
  | rejected =>
      obtain ⟨error, rejected⟩ := translateBasicOperator_fail support names
      rw [rejected] at translated
      cases translated
  | unimplemented =>
      rw [translateBasicOperator_panic support] at translated
      cases translated

theorem support_closes {op : Operator} (closes : op = .else_ ∨ op = .end_) :
    op.support = .supported := by
  rcases closes with rfl | rfl <;> rfl

end Inference.WasmToV

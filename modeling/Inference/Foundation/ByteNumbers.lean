import Mathlib.Algebra.Ring.Nat
import Mathlib.Tactic.LinearCombination
import Mathlib.Tactic.Positivity
import Mathlib.Tactic.Ring

/-! # Numbers in bytes

Numbers of a fixed width as their bytes, the lowest first, and numbers in the LEB128 format: groups of
seven bits, the lowest first, where the high bit of a byte says that another group follows. The last
group of a signed number carries its sign.
-/

namespace Inference.ByteNumbers

/-! ## Fixed width -/

def toLeBytes : Nat → Nat → List UInt8
  | 0, _ => []
  | width + 1, value => UInt8.ofNat (value % 256) :: toLeBytes width (value / 256)

def ofLeBytes : List UInt8 → Nat
  | [] => 0
  | byte :: rest => byte.toNat + 256 * ofLeBytes rest

@[simp] theorem length_toLeBytes (width value : Nat) : (toLeBytes width value).length = width := by
  induction width generalizing value with
  | zero => rfl
  | succ width ih => rw [toLeBytes, List.length_cons, ih]

theorem ofLeBytes_toLeBytes {width value : Nat} (fits : value < 256 ^ width) :
    ofLeBytes (toLeBytes width value) = value := by
  induction width generalizing value with
  | zero =>
      rw [Nat.pow_zero] at fits
      rw [toLeBytes, ofLeBytes]
      omega
  | succ width ih =>
      rw [Nat.pow_succ] at fits
      have rest : value / 256 < 256 ^ width := Nat.div_lt_of_lt_mul (by omega)
      have low : (UInt8.ofNat (value % 256)).toNat = value % 256 := by
        rw [UInt8.toNat_ofNat']
        omega
      rw [toLeBytes, ofLeBytes, ih rest, low]
      omega

theorem ofLeBytes_append (front behind : List UInt8) :
    ofLeBytes (front ++ behind) = ofLeBytes front + 256 ^ front.length * ofLeBytes behind := by
  induction front with
  | nil => simp only [List.nil_append, ofLeBytes, List.length_nil, pow_zero, one_mul, zero_add]
  | cons byte front induction =>
      simp only [List.cons_append, ofLeBytes, induction, List.length_cons, pow_succ]
      ring

/-- The number whose digits are the lanes, the lowest first. -/
def joinLanes (bits : Nat) : List Nat → Nat
  | [] => 0
  | lane :: rest => lane + 2 ^ bits * joinLanes bits rest

theorem ofLeBytes_eq_joinLanes (bytes : List UInt8) :
    ofLeBytes bytes = joinLanes 8 (bytes.map UInt8.toNat) := by
  induction bytes with
  | nil => rfl
  | cons byte bytes induction => rw [ofLeBytes, List.map_cons, joinLanes, induction]; rfl

/-- Lanes of whole bytes are the digits of the number of all their bytes. -/
theorem ofLeBytes_lanes {α : Type} {width : Nat} {number : α → Nat}
    (fits : ∀ lane, number lane < 256 ^ width) (lanes : List α) :
    ofLeBytes (lanes.flatMap fun lane => toLeBytes width (number lane)) =
      joinLanes (8 * width) (lanes.map number) := by
  induction lanes with
  | nil => rfl
  | cons lane lanes induction =>
      rw [List.flatMap_cons, ofLeBytes_append, induction, ofLeBytes_toLeBytes (fits lane),
        length_toLeBytes, List.map_cons, joinLanes, pow_mul]
      rfl

theorem length_lanes {α : Type} (width : Nat) (number : α → Nat) (lanes : List α) :
    (lanes.flatMap fun lane => toLeBytes width (number lane)).length = width * lanes.length := by
  induction lanes with
  | nil => rfl
  | cons lane lanes induction =>
      rw [List.flatMap_cons, List.length_append, induction, length_toLeBytes, List.length_cons]
      ring

/-! ## Groups of seven bits -/

/-- The byte of a group behind which another one follows. -/
def continued (group : Nat) : UInt8 :=
  UInt8.ofNat (group + 128)

/-- The byte of the last group. -/
def last (group : Nat) : UInt8 :=
  UInt8.ofNat group

@[simp] theorem last_continues : ∀ {group : Nat}, group < 128 → last group &&& 0x80 = 0 := by
  have checked : ∀ group : Fin 128, last group &&& 0x80 = 0 := by decide
  intro group small
  exact checked ⟨group, small⟩

@[simp] theorem continued_continues :
    ∀ {group : Nat}, group < 128 → ¬ continued group &&& 0x80 = 0 := by
  have checked : ∀ group : Fin 128, ¬ continued group &&& 0x80 = 0 := by decide
  intro group small
  exact checked ⟨group, small⟩

@[simp] theorem last_group : ∀ {group : Nat}, group < 128 → (last group &&& 0x7F).toNat = group := by
  have checked : ∀ group : Fin 128, (last group &&& 0x7F).toNat = group := by decide
  intro group small
  exact checked ⟨group, small⟩

@[simp] theorem continued_group :
    ∀ {group : Nat}, group < 128 → (continued group &&& 0x7F).toNat = group := by
  have checked : ∀ group : Fin 128, (continued group &&& 0x7F).toNat = group := by decide
  intro group small
  exact checked ⟨group, small⟩

@[simp] theorem toNat_last {group : Nat} (small : group < 128) : (last group).toNat = group := by
  rw [last, UInt8.toNat_ofNat']
  omega

/-! ## LEB128 -/

theorem groups_fall {value : Nat} (large : ¬ value < 128) : value / 128 < value := by
  omega

def unsigned (value : Nat) : List UInt8 :=
  if value < 128 then [last value]
  else continued (value % 128) :: unsigned (value / 128)
termination_by value
decreasing_by exact groups_fall ‹_›

/-- The lowest group of a number, whose other groups are those of the number divided by 128. -/
def group (value : Int) : Nat :=
  (value % 128).toNat

/-- A number is a single group when the sixth bit is its sign. -/
def IsGroup (value : Int) : Prop :=
  -64 ≤ value ∧ value < 64

instance (value : Int) : Decidable (IsGroup value) := by
  unfold IsGroup
  infer_instance

theorem signed_groups_fall {value : Int} (large : ¬ IsGroup value) :
    (value / 128).natAbs < value.natAbs := by
  rw [IsGroup] at large
  omega

def signed (value : Int) : List UInt8 :=
  if IsGroup value then [last (group value)]
  else continued (group value) :: signed (value / 128)
termination_by value.natAbs
decreasing_by exact signed_groups_fall ‹_›

theorem group_lt (value : Int) : group value < 128 := by
  unfold group
  omega

theorem group_add (value : Int) : (group value : Int) + 128 * (value / 128) = value := by
  unfold group
  omega

/-! ## Groups in machine words -/

/-- A group joins the lower ones. -/
theorem or_group {result shift : Nat} (small : result < 2 ^ shift) (group : Nat) :
    result ||| (group <<< shift) = result + group * 2 ^ shift := by
  rw [Nat.or_comm, ← Nat.shiftLeft_add_eq_or_of_lt small, Nat.shiftLeft_eq, Nat.add_comm]

theorem ofNat_or_group {width result shift : Nat} (small : result < 2 ^ shift) (group : Nat) :
    BitVec.ofNat width result ||| (BitVec.ofNat width group <<< shift) =
      BitVec.ofNat width (result + group * 2 ^ shift) := by
  apply BitVec.eq_of_toNat_eq
  rw [BitVec.toNat_or, BitVec.toNat_shiftLeft, BitVec.toNat_ofNat, BitVec.toNat_ofNat,
    BitVec.toNat_ofNat, ← or_group small, Nat.or_mod_two_pow, Nat.shiftLeft_eq, Nat.shiftLeft_eq,
    Nat.mod_mul_mod]

theorem ofInt_congr {width : Nat} {value other : Int} (same : (2 ^ width : Int) ∣ value - other) :
    BitVec.ofInt width value = BitVec.ofInt width other := by
  have multiple : ((2 ^ width : Nat) : Int) ∣ value - other := by
    exact_mod_cast same
  apply BitVec.eq_of_toNat_eq
  rw [BitVec.toNat_ofInt, BitVec.toNat_ofInt, Int.emod_eq_emod_iff_emod_sub_eq_zero.mpr]
  exact Int.emod_eq_zero_of_dvd multiple

/-- Shifting a number to the high end of a word and back spreads its sign. -/
theorem sign_extended {width bits extra number : Nat} {value : Int} (whole : width = bits + 1 + extra)
    (low : -2 ^ bits ≤ value) (high : value < 2 ^ bits)
    (same : (2 ^ (bits + 1) : Int) ∣ value - number) :
    (BitVec.ofNat width number <<< extra).sshiftRight extra = BitVec.ofInt width value := by
  have power : (2 : Int) ^ width = 2 * (2 ^ bits * 2 ^ extra) := by
    rw [whole, pow_add, pow_succ]
    ring
  have positive : (0 : Int) < 2 ^ extra := by positivity
  have moved : (BitVec.ofNat width number <<< extra).toInt = value * 2 ^ extra := by
    have wraps := @BitVec.toInt_shiftLeft width extra (BitVec.ofNat width number)
    have below := mul_le_mul_of_nonneg_right low positive.le
    have above := mul_lt_mul_of_pos_right high positive
    have reduced : (number : Int) % 2 ^ width = number - 2 ^ width * (number / 2 ^ width) :=
      Int.emod_def _ _
    rcases same with ⟨quotient, same⟩
    rw [neg_mul] at below
    rw [wraps, Nat.shiftLeft_eq, Int.bmod_eq_iff (Nat.two_pow_pos width), BitVec.toNat_ofNat]
    push_cast
    rw [reduced]
    refine ⟨?_, ?_, quotient + number / 2 ^ width * 2 ^ extra, ?_⟩
    · rw [power]
      omega
    · rw [power]
      omega
    · rw [pow_succ] at same
      linear_combination 2 ^ extra * same - quotient * power
  rw [BitVec.sshiftRight_eq, moved, Int.shiftRight_eq_div_pow]
  push_cast
  rw [Int.mul_ediv_cancel _ positive.ne']

end Inference.ByteNumbers

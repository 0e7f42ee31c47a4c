import Mathlib.Tactic.Linarith
import Inference.Wasmparser.BinaryReader

/-! # Numbers that were written are read back

The loops of the reader collect the groups of a LEB128 number from the lowest on. What they have
collected is below the power of two at which the next group begins, so a group never touches the lower
ones.
-/

namespace Inference.Wasmparser

open ByteNumbers Reading

/-- A program that reads one byte first. -/
theorem reads_byte {α : Type} {continue_ : UInt8 → Read α} {byte : UInt8} {rest : List UInt8} {value : α}
    (continues : Reads (continue_ byte) rest value) :
    Reads (readU8 >>= continue_) (byte :: rest) value :=
  (reads_next _ byte).bind continues

/-! ## Unsigned numbers -/

theorem reads_varU32Loop {value result shift : Nat} (small : result < 2 ^ shift)
    (fits : result + value * 2 ^ shift < 2 ^ 32) :
    Reads (readVarU32Loop result shift) (unsigned value) (result + value * 2 ^ shift) := by
  induction value using unsigned.induct generalizing result shift with
  | case1 value isLast =>
      have joined : result ||| ((value <<< shift) % 2 ^ 32) = result + value * 2 ^ shift := by
        rw [Nat.mod_eq_of_lt (by rw [Nat.shiftLeft_eq]; omega), or_group small]
      have unused : value >>> (32 - shift) = 0 := by
        rw [Nat.shiftRight_eq_div_pow, Nat.div_eq_zero_iff_lt (Nat.two_pow_pos _)]
        have whole : 2 ^ 32 ≤ 2 ^ (32 - shift) * 2 ^ shift := by
          rw [← pow_add]
          exact Nat.pow_le_pow_right (by decide) (by omega)
        exact Nat.lt_of_mul_lt_mul_right (lt_of_le_of_lt (Nat.le_add_left _ _) (fits.trans_le whole))
      rw [unsigned, if_pos isLast, readVarU32Loop]
      refine reads_byte ?_
      rw [last_group isLast, toNat_last isLast, unused, joined, if_neg (by simp),
        if_pos (last_continues isLast)]
      exact reads_pure _
  | case2 value isMore induction =>
      have groupSmall : value % 128 < 128 := Nat.mod_lt _ (by decide)
      have split : result + value * 2 ^ shift =
          result + value % 128 * 2 ^ shift + value / 128 * 2 ^ (shift + 7) := by
        rw [pow_add]
        have whole := Nat.mod_add_div value 128
        calc result + value * 2 ^ shift = result + (value % 128 + 128 * (value / 128)) * 2 ^ shift := by
              rw [whole]
          _ = _ := by ring
      have joined : result ||| (((value % 128) <<< shift) % 2 ^ 32) =
          result + value % 128 * 2 ^ shift := by
        rw [Nat.mod_eq_of_lt (by rw [Nat.shiftLeft_eq]; omega), or_group small]
      have below : ¬ 25 ≤ shift := by
        intro above
        have power : 2 ^ 25 ≤ 2 ^ shift := Nat.pow_le_pow_right (by decide) above
        have large := Nat.mul_le_mul (Nat.le_of_not_lt isMore) power
        omega
      rw [unsigned, if_neg isMore, readVarU32Loop]
      refine reads_byte ?_
      rw [continued_group groupSmall, joined, if_neg (fun limit => below limit.1),
        if_neg (continued_continues groupSmall), split]
      refine induction ?_ (split ▸ fits)
      rw [pow_add]
      have group : value % 128 * 2 ^ shift ≤ 127 * 2 ^ shift := Nat.mul_le_mul_right _ (by omega)
      omega

theorem reads_varU32 {value : Nat} (fits : value < 2 ^ 32) :
    Reads readVarU32 (unsigned value) value := by
  rw [unsigned, readVarU32]
  by_cases isLast : value < 128
  · rw [if_pos isLast]
    refine reads_byte ?_
    rw [if_pos (last_continues isLast), toNat_last isLast]
    exact reads_pure _
  · have groupSmall : value % 128 < 128 := Nat.mod_lt _ (by decide)
    have whole := Nat.mod_add_div value 128
    rw [if_neg isLast]
    refine reads_byte ?_
    rw [if_neg (continued_continues groupSmall), readVarU32Big, continued_group groupSmall]
    have rest := @reads_varU32Loop (value / 128) (value % 128) 7 groupSmall (by omega)
    rwa [show value % 128 + value / 128 * 2 ^ 7 = value by omega] at rest

/-! ## Signed numbers -/

/-- A single group is its number, or 128 less. -/
theorem isGroup_cases {value : Int} (isGroup : IsGroup value) :
    (group value < 64 ∧ value = group value) ∨ (64 ≤ group value ∧ value = group value - 128) := by
  unfold IsGroup at isGroup
  unfold group
  omega

/-- The bits of the last byte that do not belong to the number all agree with its sign. -/
theorem signAndUnused : ∀ {bits number : Nat}, 0 < bits → bits ≤ 7 → number < 128 →
    (number < 2 ^ (bits - 1) ∨ 128 - 2 ^ (bits - 1) ≤ number) →
      ¬ (((last number).toBitVec <<< 1).sshiftRight bits ≠ 0 ∧
        ((last number).toBitVec <<< 1).sshiftRight bits ≠ -1) := by
  have checked : ∀ bits : Fin 8, ∀ number : Fin 128, 0 < bits.val →
      (number.val < 2 ^ (bits.val - 1) ∨ 128 - 2 ^ (bits.val - 1) ≤ number.val) →
        ¬ (((last number).toBitVec <<< 1).sshiftRight bits ≠ 0 ∧
          ((last number).toBitVec <<< 1).sshiftRight bits ≠ -1) := by decide +kernel
  intro bits number positive small groupSmall agrees
  exact checked ⟨bits, by omega⟩ ⟨number, groupSmall⟩ positive agrees

/-- What the loop needs of a format whose shifts are the multiples of seven. -/
structure SignedFormat.Sound (format : SignedFormat) : Prop where
  lastGroup : ∀ groups, format.limit ≤ 7 * groups → format.bits ≤ 7 * groups + 7
  moreGroups : ∀ groups, 7 * groups < format.limit →
    7 * groups + 7 < format.bits ∧ 7 * groups + 7 < format.word

theorem SignedFormat.Sound.i32 : SignedFormat.Sound .i32 :=
  ⟨fun _ => by simp only [SignedFormat.i32]; omega, fun _ => by simp only [SignedFormat.i32]; omega⟩

theorem SignedFormat.Sound.s33 : SignedFormat.Sound .s33 :=
  ⟨fun _ => by simp only [SignedFormat.s33]; omega, fun _ => by simp only [SignedFormat.s33]; omega⟩

theorem SignedFormat.Sound.i64 : SignedFormat.Sound .i64 :=
  ⟨fun _ => by simp only [SignedFormat.i64]; omega, fun _ => by simp only [SignedFormat.i64]; omega⟩

/-- A group in a word. -/
theorem setWidth_group {byte : UInt8} {number : Nat} (isGroup : (byte &&& 0x7F).toNat = number)
    (width : Nat) : (byte &&& 0x7F).toBitVec.setWidth width = BitVec.ofNat width number := by
  apply BitVec.eq_of_toNat_eq
  rw [BitVec.toNat_setWidth, BitVec.toNat_ofNat, ← isGroup]
  rfl

section
variable {format : SignedFormat} {value : Int} {result groups : Nat}

/-- The loop goes on only below its limit, where the number has more bits than the groups so far. -/
theorem SignedFormat.Sound.below (sound : format.Sound)
    (low : -2 ^ (format.bits - 1 - 7 * groups) ≤ value)
    (high : value < 2 ^ (format.bits - 1 - 7 * groups)) (isMore : ¬ IsGroup value) :
    7 * groups < format.limit := by
  by_contra above
  have bits := sound.lastGroup groups (Nat.le_of_not_lt above)
  have power : (2 : Int) ^ (format.bits - 1 - 7 * groups) ≤ 2 ^ 6 :=
    pow_le_pow_right₀ (by decide) (by omega)
  refine isMore ⟨?_, ?_⟩
  · linarith
  · linarith

/-- The last group of a number that fills the width of its format passes the check of its bits. -/
theorem lastBits_agree (sound : format.Sound) (inside : 7 * groups < format.bits)
    (low : -2 ^ (format.bits - 1 - 7 * groups) ≤ value)
    (high : value < 2 ^ (format.bits - 1 - 7 * groups)) (isLast : IsGroup value)
    (limit : format.limit ≤ 7 * groups) :
    ¬ (((last (group value)).toBitVec <<< 1).sshiftRight (format.bits - 7 * groups) ≠ 0 ∧
      ((last (group value)).toBitVec <<< 1).sshiftRight (format.bits - 7 * groups) ≠ -1) := by
  have bits := sound.lastGroup groups limit
  refine signAndUnused (by omega) (by omega) (group_lt value) ?_
  have width : format.bits - 7 * groups - 1 = format.bits - 1 - 7 * groups := by omega
  have power : ((2 ^ (format.bits - 1 - 7 * groups) : Nat) : Int) =
      2 ^ (format.bits - 1 - 7 * groups) := by push_cast; rfl
  rw [width]
  rcases isGroup_cases isLast with ⟨_, positive⟩ | ⟨_, negative⟩
  · left
    omega
  · right
    omega

/-- The last group at the limit completes the number, whose sign it carries past the word. -/
theorem ofNat_lastGroup (isLast : IsGroup value)
    (wraps : 0 ≤ value ∨ format.word ≤ 7 * groups + 7) :
    BitVec.ofNat format.word (result + group value * 2 ^ (7 * groups)) =
      BitVec.ofInt format.word (result + value * 2 ^ (7 * groups)) := by
  rw [← BitVec.ofInt_natCast]
  push_cast
  apply ofInt_congr
  rcases isGroup_cases isLast with ⟨_, positive⟩ | ⟨_, negative⟩
  · rw [← positive, sub_self]
    exact dvd_zero _
  · have beyond : format.word ≤ 7 * groups + 7 := by
      have small := group_lt value
      omega
    have difference : (result + group value * 2 ^ (7 * groups) : Int) -
        (result + value * 2 ^ (7 * groups)) = 2 ^ (7 * groups + 7) := by
      rw [pow_add]
      linear_combination (-2 ^ (7 * groups)) * negative
    rw [difference]
    exact pow_dvd_pow 2 beyond

/-- The last group below the limit completes the number, whose sign the word is filled with. -/
theorem sshiftRight_lastGroup (sound : format.Sound) (small : result < 2 ^ (7 * groups))
    (isLast : IsGroup value) (below : 7 * groups < format.limit) :
    (BitVec.ofNat format.word (result + group value * 2 ^ (7 * groups)) <<<
      (format.word - (7 * groups + 7))).sshiftRight (format.word - (7 * groups + 7)) =
        BitVec.ofInt format.word (result + value * 2 ^ (7 * groups)) := by
  have inWord := (sound.moreGroups groups below).2
  have positive : (0 : Int) < 2 ^ (7 * groups) := by positivity
  have smallInt : (result : Int) < 2 ^ (7 * groups) := by exact_mod_cast small
  have word : format.word = 7 * groups + 6 + 1 + (format.word - (7 * groups + 7)) := by omega
  refine sign_extended word ?_ ?_ ?_
  · rw [pow_add]
    have scaled := mul_le_mul_of_nonneg_right isLast.1 positive.le
    linarith [Int.natCast_nonneg result]
  · rw [pow_add]
    have scaled := mul_le_mul_of_nonneg_right (Int.le_sub_one_of_lt isLast.2) positive.le
    linarith
  · push_cast
    rcases isGroup_cases isLast with ⟨_, same⟩ | ⟨_, same⟩
    · rw [← same, sub_self]
      exact dvd_zero _
    · refine ⟨-1, ?_⟩
      rw [show 7 * groups + 6 + 1 = 7 * groups + 7 from rfl, pow_add]
      linear_combination (2 ^ (7 * groups)) * same

theorem reads_signedLoop (sound : format.Sound) (small : result < 2 ^ (7 * groups))
    (inside : 7 * groups < format.bits) (low : -2 ^ (format.bits - 1 - 7 * groups) ≤ value)
    (high : value < 2 ^ (format.bits - 1 - 7 * groups))
    (wraps : 0 ≤ value ∨ ∀ groups, format.limit ≤ 7 * groups → format.word ≤ 7 * groups + 7) :
    Reads (readSignedLoop format (BitVec.ofNat format.word result) (7 * groups)) (signed value)
      (BitVec.ofInt format.word (result + value * 2 ^ (7 * groups))) := by
  induction value using signed.induct generalizing result groups with
  | case1 value isLast =>
      have groupSmall := group_lt value
      have byte := setWidth_group (last_group groupSmall) format.word
      rw [signed, if_pos isLast, readSignedLoop]
      refine reads_byte ?_
      rw [byte, ofNat_or_group small]
      by_cases limit : format.limit ≤ 7 * groups
      · have agrees := lastBits_agree sound inside low high isLast limit
        have ends := last_continues groupSmall
        rw [if_pos limit, if_neg (by simp only [ends, not_true, ne_eq, false_or]; exact agrees),
          ofNat_lastGroup isLast (wraps.imp_right fun beyond => beyond groups limit)]
        exact reads_pure _
      · rw [if_neg limit, if_pos (last_continues groupSmall),
          ← sshiftRight_lastGroup sound small isLast (Nat.lt_of_not_le limit)]
        exact reads_pure _
  | case2 value isMore induction =>
      have groupSmall := group_lt value
      have whole := group_add value
      have below := sound.below low high isMore
      have inside' := (sound.moreGroups groups below).1
      have byte := setWidth_group (continued_group groupSmall) format.word
      have power : (2 : Int) ^ (format.bits - 1 - 7 * groups) =
          128 * 2 ^ (format.bits - 1 - 7 * (groups + 1)) := by
        rw [show format.bits - 1 - 7 * groups = format.bits - 1 - 7 * (groups + 1) + 7 by omega,
          pow_add, mul_comm]
        rfl
      have split : (result : Int) + value * 2 ^ (7 * groups) =
          ((result + group value * 2 ^ (7 * groups) : Nat) : Int) +
            value / 128 * 2 ^ (7 * (groups + 1)) := by
        rw [show 7 * (groups + 1) = 7 * groups + 7 from rfl, pow_add]
        push_cast
        linear_combination (-2 ^ (7 * groups)) * whole
      rw [signed, if_neg isMore, readSignedLoop]
      refine reads_byte ?_
      rw [byte, ofNat_or_group small, if_neg (Nat.not_le_of_lt below),
        if_neg (continued_continues groupSmall), split]
      refine @induction _ (groups + 1) ?_ (by omega) (by omega) (by omega) ?_
      · rw [show 7 * (groups + 1) = 7 * groups + 7 from rfl, pow_add]
        have scaled : group value * 2 ^ (7 * groups) ≤ 127 * 2 ^ (7 * groups) :=
          Nat.mul_le_mul_right _ (by omega)
        omega
      · exact wraps.imp_left fun positive => by omega

end

theorem toInt_ofInt_of_fits {width : Nat} {value : Int} (low : -2 ^ width ≤ value)
    (high : value < 2 ^ width) : (BitVec.ofInt (width + 1) value).toInt = value := by
  have power : ((2 ^ (width + 1) : Nat) : Int) = 2 * 2 ^ width := by
    push_cast
    ring
  rw [BitVec.toInt_ofInt]
  refine Int.bmod_eq_of_le_mul_two ?_ ?_
  · rw [power]
    omega
  · rw [power]
    omega

theorem reads_varI32 {value : Int} (low : -2 ^ 31 ≤ value) (high : value < 2 ^ 31) :
    Reads readVarI32 (signed value) value := by
  have groupSmall := group_lt value
  have whole := group_add value
  rw [signed, readVarI32]
  by_cases isLast : IsGroup value
  · have byte : (last (group value)).toBitVec.setWidth 32 = BitVec.ofNat 32 (group value) := by
      apply BitVec.eq_of_toNat_eq
      rw [BitVec.toNat_setWidth, BitVec.toNat_ofNat]
      exact congrArg (· % 2 ^ 32) (toNat_last groupSmall)
    have extended : (BitVec.ofNat 32 (group value) <<< 25).sshiftRight 25 = BitVec.ofInt 32 value := by
      refine @sign_extended 32 6 25 _ _ rfl isLast.1 isLast.2 ?_
      rcases isGroup_cases isLast with ⟨_, same⟩ | ⟨_, same⟩
      · omega
      · omega
    rw [if_pos isLast]
    refine reads_byte ?_
    rw [if_pos (last_continues groupSmall), byte, extended, toInt_ofInt_of_fits low high]
    exact reads_pure _
  · rw [if_neg isLast]
    refine reads_byte ?_
    rw [if_neg (continued_continues groupSmall), readVarI32Big,
      setWidth_group (continued_group groupSmall)]
    have rest := @reads_signedLoop .i32 (value / 128) (group value) 1 SignedFormat.Sound.i32 groupSmall (by decide)
      (by simp only [SignedFormat.i32]; omega) (by simp only [SignedFormat.i32]; omega)
      (.inr fun groups => by simp only [SignedFormat.i32]; omega)
    have number : (group value : Int) + value / 128 * 2 ^ (7 * 1) = value := by omega
    rw [number] at rest
    have read := rest.bind_pure BitVec.toInt
    rwa [show (BitVec.ofInt SignedFormat.i32.word value).toInt = value from
      toInt_ofInt_of_fits low high] at read

/-- A single group is read with its sign. -/
theorem reads_varS33_group {value : Int} (isLast : IsGroup value) :
    Reads readVarS33 [last (group value)] value := by
  have groupSmall := group_lt value
  have checked : ∀ number : Fin 128,
      ((((last number).toBitVec <<< 1).signExtend 64).sshiftRight 1).toInt =
        if number.val < 64 then (number.val : Int) else number.val - 128 := by decide +kernel
  have number := checked ⟨group value, groupSmall⟩
  have signed_ : (if group value < 64 then (group value : Int) else group value - 128) = value := by
    rcases isGroup_cases isLast with ⟨small, same⟩ | ⟨large, same⟩
    · rw [if_pos small, ← same]
    · rw [if_neg (Nat.not_lt_of_le large), ← same]
  rw [readVarS33]
  refine reads_byte ?_
  rw [if_pos (last_continues groupSmall)]
  rw [show ((((last (group value)).toBitVec <<< 1).signExtend 64).sshiftRight 1).toInt = value from
    number.trans signed_]
  exact reads_pure _

theorem reads_varS33 {value : Nat} (fits : value < 2 ^ 32) :
    Reads readVarS33 (signed value) value := by
  have groupSmall := group_lt value
  have whole := group_add value
  by_cases isLast : IsGroup value
  · rw [signed, if_pos isLast]
    exact reads_varS33_group isLast
  · rw [signed, readVarS33, if_neg isLast]
    refine reads_byte ?_
    rw [if_neg (continued_continues groupSmall), setWidth_group (continued_group groupSmall)]
    have rest := @reads_signedLoop .s33 ((value : Int) / 128) (group value) 1 SignedFormat.Sound.s33 groupSmall
      (by decide) (by simp only [SignedFormat.s33]; omega) (by simp only [SignedFormat.s33]; omega)
      (.inl (by omega))
    have number : (group value : Int) + (value : Int) / 128 * 2 ^ (7 * 1) = value := by omega
    rw [number] at rest
    have read := rest.bind_pure BitVec.toInt
    rwa [show (BitVec.ofInt SignedFormat.s33.word value).toInt = value from
      @toInt_ofInt_of_fits 63 value (by omega) (by omega)] at read

theorem reads_varI64 {value : Int} (low : -2 ^ 63 ≤ value) (high : value < 2 ^ 63) :
    Reads readVarI64 (signed value) value := by
  have loop := @reads_signedLoop .i64 value 0 0 SignedFormat.Sound.i64 (by decide) (by decide) low high
    (.inr fun groups => by simp only [SignedFormat.i64]; omega)
  have number : ((0 : Nat) : Int) + value * 2 ^ (7 * 0) = value := by omega
  rw [number] at loop
  have read := loop.bind_pure BitVec.toInt
  rwa [show (BitVec.ofInt SignedFormat.i64.word value).toInt = value from
    toInt_ofInt_of_fits low high] at read

/-! ## Numbers of a fixed width -/

theorem reads_bytes {size : Nat} {bytes : List UInt8} (whole : bytes.length = size) :
    Reads (readBytes size) bytes bytes := by
  rw [readBytes, ← whole]
  exact reads_take _ bytes

theorem reads_f32 {value : Nat} (fits : value < 2 ^ 32) : Reads readF32 (toLeBytes 4 value) value := by
  have read := (reads_bytes (length_toLeBytes 4 value)).bind_pure ofLeBytes
  rwa [ofLeBytes_toLeBytes fits] at read

theorem reads_f64 {value : Nat} (fits : value < 2 ^ 64) : Reads readF64 (toLeBytes 8 value) value := by
  have read := (reads_bytes (length_toLeBytes 8 value)).bind_pure ofLeBytes
  rwa [ofLeBytes_toLeBytes fits] at read

end Inference.Wasmparser

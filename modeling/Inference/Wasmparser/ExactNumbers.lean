import Inference.Foundation.ExactReading
import Inference.Wasmparser.NumberReading

/-! # Which bytes are numbers

The readers accept exactly the bytes of the LEB128 grammar that fit into the width of the number, the
shortest ones and longer ones. Five bytes of a negative number of 33 bits are not read with their sign.
-/

namespace Inference.Wasmparser

open ByteNumbers Reading

/-! ## The grammar -/

inductive UnsignedBytes : Nat → List UInt8 → Nat → Prop
  | last {bits group : Nat} (small : group < 128) (fits : group < 2 ^ bits) :
      UnsignedBytes bits [ByteNumbers.last group] group
  | more {bits group value : Nat} {bytes : List UInt8} (small : group < 128) (larger : 7 < bits)
      (rest : UnsignedBytes (bits - 7) bytes value) :
      UnsignedBytes bits (continued group :: bytes) (group + 128 * value)

inductive SignedBytes : Nat → List UInt8 → Int → Prop
  | last {bits : Nat} {value : Int} (isGroup : IsGroup value) (low : -2 ^ (bits - 1) ≤ value)
      (high : value < 2 ^ (bits - 1)) : SignedBytes bits [ByteNumbers.last (group value)] value
  | more {bits group : Nat} {value : Int} {bytes : List UInt8} (small : group < 128)
      (larger : 7 < bits) (rest : SignedBytes (bits - 7) bytes value) :
      SignedBytes bits (continued group :: bytes) (group + 128 * value)

theorem byte_cases (byte : UInt8) :
    (∃ group, group < 128 ∧ byte = last group) ∨ ∃ group, group < 128 ∧ byte = continued group := by
  have bound := byte.toNat_lt
  by_cases small : byte.toNat < 128
  · exact .inl ⟨byte.toNat, small, (UInt8.ofNat_toNat).symm⟩
  · refine .inr ⟨byte.toNat - 128, by omega, ?_⟩
    rw [continued, Nat.sub_add_cancel (Nat.le_of_not_lt small), UInt8.ofNat_toNat]

variable {group : Nat}

theorem toNat_continued (small : group < 128) :
    (continued group).toNat = group + 128 := by
  rw [continued, UInt8.toNat_ofNat']
  omega

variable {first second : Nat}

theorem last_ne_continued (firstSmall : first < 128) (secondSmall : second < 128) :
    last first ≠ continued second := by
  intro equal
  have continues := continued_continues secondSmall
  rw [← equal, last_continues firstSmall] at continues
  exact continues rfl

theorem last_injective (firstSmall : first < 128) (secondSmall : second < 128)
    (equal : last first = last second) : first = second := by
  rw [← last_group firstSmall, equal, last_group secondSmall]

theorem continued_injective (firstSmall : first < 128)
    (secondSmall : second < 128) (equal : continued first = continued second) : first = second := by
  rw [← continued_group firstSmall, equal, continued_group secondSmall]

variable {bits value : Nat} {rest : List UInt8}

theorem unsignedBytes_last_iff (small : group < 128) :
    UnsignedBytes bits (last group :: rest) value ↔
      rest = [] ∧ value = group ∧ group < 2 ^ bits := by
  constructor
  · intro bytes
    generalize isBytes : last group :: rest = all at bytes
    cases bytes with
    | last small' fits =>
        rcases List.cons.inj isBytes with ⟨same, isRest⟩
        cases last_injective small small' same
        exact ⟨isRest, rfl, fits⟩
    | more small' larger rest =>
        exact absurd (List.cons.inj isBytes).1 (last_ne_continued small small')
  · intro holds
    rcases holds with ⟨rfl, rfl, fits⟩
    exact .last small fits

theorem unsignedBytes_more_iff (small : group < 128) :
    UnsignedBytes bits (continued group :: rest) value ↔
      7 < bits ∧ ∃ high, UnsignedBytes (bits - 7) rest high ∧ value = group + 128 * high := by
  constructor
  · intro bytes
    generalize isBytes : continued group :: rest = all at bytes
    cases bytes with
    | last small' fits =>
        exact absurd (List.cons.inj isBytes).1.symm (last_ne_continued small' small)
    | more small' larger rest =>
        rcases List.cons.inj isBytes with ⟨same, isRest⟩
        cases continued_injective small small' same
        cases isRest
        exact ⟨larger, _, rest, rfl⟩
  · intro holds
    rcases holds with ⟨larger, high, rest, rfl⟩
    exact .more small larger rest

/-! ## Unsigned numbers -/

theorem readsExactly_failBehind {α : Type} (message : String) :
    ReadsExactly (failBehind message : Read α) fun _ _ => False :=
  readsExactly_fails fun _ => ⟨_, rfl⟩

/-- What the loop reads behind the groups it has joined. -/
def HighGroups (result shift : Nat) : Language UInt8 Nat :=
  fun items value => ∃ high, UnsignedBytes (32 - shift) items high ∧ value = result + high * 2 ^ shift

variable {result shift : Nat}

theorem join_group (small : result < 2 ^ shift)
    (fits : group < 2 ^ (32 - shift)) (inside : shift < 32) :
    result ||| ((group <<< shift) % 2 ^ 32) = result + group * 2 ^ shift := by
  have power : 2 ^ 32 = 2 ^ (32 - shift) * 2 ^ shift := by
    rw [← pow_add]
    congr 1
    omega
  have below : group <<< shift < 2 ^ 32 := by
    rw [Nat.shiftLeft_eq, power]
    exact Nat.mul_lt_mul_of_pos_right fits (Nat.two_pow_pos _)
  rw [Nat.mod_eq_of_lt below, or_group small]

theorem shiftRight_eq_zero_iff (number bits : Nat) : number >>> bits = 0 ↔ number < 2 ^ bits := by
  rw [Nat.shiftRight_eq_div_pow, Nat.div_eq_zero_iff_lt (Nat.two_pow_pos _)]

theorem highGroups_nil (result shift value : Nat) : ¬ HighGroups result shift [] value := by
  intro holds
  rcases holds with ⟨high, bytes, _⟩
  cases bytes

theorem highGroups_last (small : group < 128) :
    HighGroups result shift (last group :: rest) value ↔
      group < 2 ^ (32 - shift) ∧ rest = [] ∧ value = result + group * 2 ^ shift := by
  constructor
  · intro holds
    rcases holds with ⟨high, bytes, rfl⟩
    rcases (unsignedBytes_last_iff small).mp bytes with ⟨rfl, rfl, fits⟩
    exact ⟨fits, rfl, rfl⟩
  · intro holds
    rcases holds with ⟨fits, rfl, rfl⟩
    exact ⟨group, (unsignedBytes_last_iff small).mpr ⟨rfl, rfl, fits⟩, rfl⟩

theorem highGroups_more (small : group < 128) :
    HighGroups result shift (continued group :: rest) value ↔
      7 < 32 - shift ∧ HighGroups (result + group * 2 ^ shift) (shift + 7) rest value := by
  have joined (high : Nat) : result + (group + 128 * high) * 2 ^ shift =
      result + group * 2 ^ shift + high * 2 ^ (shift + 7) := by
    rw [pow_add]
    ring
  constructor
  · intro holds
    rcases holds with ⟨whole, bytes, rfl⟩
    rcases (unsignedBytes_more_iff small).mp bytes with ⟨larger, high, higher, rfl⟩
    exact ⟨larger, high, higher, joined high⟩
  · intro holds
    rcases holds with ⟨larger, high, higher, rfl⟩
    exact ⟨_, (unsignedBytes_more_iff small).mpr ⟨larger, high, higher, rfl⟩, (joined high).symm⟩

theorem readVarU32Loop_exact (result shift : Nat) (small : result < 2 ^ shift) (inside : shift < 32) :
    ReadsExactly (readVarU32Loop result shift) (HighGroups result shift) := by
  induction result, shift using readVarU32Loop.induct with
  | case1 result shift induction =>
      rw [readVarU32Loop]
      refine readsExactly_next (highGroups_nil result shift) fun byte => ?_
      rcases byte_cases byte with ⟨group, groupSmall, rfl⟩ | ⟨group, groupSmall, rfl⟩
      · rw [last_group groupSmall, toNat_last groupSmall]
        by_cases fits : group < 2 ^ (32 - shift)
        · rw [if_neg fun large => large.2 ((shiftRight_eq_zero_iff _ _).mpr fits),
            if_pos (last_continues groupSmall), join_group small fits inside]
          exact (readsExactly_pure _).congr fun items value =>
            ((highGroups_last groupSmall).trans (and_iff_right fits)).symm
        · have atLimit : 25 ≤ shift := by
            by_contra below
            have power : 2 ^ 7 ≤ 2 ^ (32 - shift) := Nat.pow_le_pow_right (by decide) (by omega)
            omega
          rw [if_pos ⟨atLimit, fun zero => fits ((shiftRight_eq_zero_iff _ _).mp zero)⟩]
          exact (readsExactly_failBehind _).congr fun items value =>
            ⟨False.elim, fun holds => fits ((highGroups_last groupSmall).mp holds).1⟩
      · rw [continued_group groupSmall, toNat_continued groupSmall]
        by_cases atLimit : 25 ≤ shift
        · have large : ¬ (group + 128) >>> (32 - shift) = 0 := by
            rw [shiftRight_eq_zero_iff]
            have power : 2 ^ (32 - shift) ≤ 2 ^ 7 := Nat.pow_le_pow_right (by decide) (by omega)
            omega
          rw [if_pos ⟨atLimit, large⟩]
          refine (readsExactly_failBehind _).congr fun items value => ⟨False.elim, fun holds => ?_⟩
          have larger := ((highGroups_more groupSmall).mp holds).1
          omega
        · have fits : group < 2 ^ (32 - shift) := by
            have power : 2 ^ 7 ≤ 2 ^ (32 - shift) := Nat.pow_le_pow_right (by decide) (by omega)
            omega
          have next := induction (continued group)
          rw [continued_group groupSmall, toNat_continued groupSmall,
            join_group small fits inside] at next
          rw [if_neg fun limit => atLimit limit.1, if_neg (continued_continues groupSmall),
            join_group small fits inside]
          have joined : result + group * 2 ^ shift < 2 ^ (shift + 7) := by
            rw [pow_add]
            have scaled : group * 2 ^ shift ≤ 127 * 2 ^ shift :=
              Nat.mul_le_mul_right _ (by omega)
            omega
          refine (next (fun limit => atLimit limit.1) (continued_continues groupSmall) joined
            (by omega)).congr fun items value => ?_
          exact ((highGroups_more groupSmall).trans (and_iff_right (by omega))).symm

theorem readVarU32_exact : ReadsExactly readVarU32 (UnsignedBytes 32) := by
  rw [readVarU32]
  refine readsExactly_next (fun value bytes => by cases bytes) fun byte => ?_
  rcases byte_cases byte with ⟨group, groupSmall, rfl⟩ | ⟨group, groupSmall, rfl⟩
  · rw [if_pos (last_continues groupSmall), toNat_last groupSmall]
    refine (readsExactly_pure _).congr fun items value => ?_
    rw [unsignedBytes_last_iff groupSmall, and_iff_left (Nat.lt_trans groupSmall (by decide))]
  · rw [if_neg (continued_continues groupSmall), readVarU32Big, continued_group groupSmall]
    refine (readVarU32Loop_exact group 7 groupSmall (by decide)).congr fun items value => ?_
    rw [unsignedBytes_more_iff groupSmall, and_iff_right (by decide)]
    refine exists_congr fun high => and_congr_right fun _ => ?_
    rw [Nat.mul_comm 128]
    exact Iff.rfl

/-! ## Signed numbers -/

theorem signedBytes_last_iff {value : Int} (small : group < 128) :
    SignedBytes bits (last group :: rest) value ↔
      rest = [] ∧ IsGroup value ∧ ByteNumbers.group value = group ∧ -2 ^ (bits - 1) ≤ value ∧
        value < 2 ^ (bits - 1) := by
  constructor
  · intro bytes
    generalize isBytes : last group :: rest = all at bytes
    cases bytes with
    | last isGroup low high =>
        rcases List.cons.inj isBytes with ⟨same, isRest⟩
        exact ⟨isRest, isGroup, (last_injective small (group_lt value) same).symm, low, high⟩
    | more small' larger rest =>
        exact absurd (List.cons.inj isBytes).1 (last_ne_continued small small')
  · intro holds
    rcases holds with ⟨rfl, isGroup, rfl, low, high⟩
    exact .last isGroup low high

theorem signedBytes_more_iff {value : Int} (small : group < 128) :
    SignedBytes bits (continued group :: rest) value ↔
      7 < bits ∧ ∃ high, SignedBytes (bits - 7) rest high ∧ value = group + 128 * high := by
  constructor
  · intro bytes
    generalize isBytes : continued group :: rest = all at bytes
    cases bytes with
    | last isGroup low high =>
        exact absurd (List.cons.inj isBytes).1.symm (last_ne_continued (group_lt value) small)
    | more small' larger rest =>
        rcases List.cons.inj isBytes with ⟨same, isRest⟩
        cases continued_injective small small' same
        cases isRest
        exact ⟨larger, _, rest, rfl⟩
  · intro holds
    rcases holds with ⟨larger, high, rest, rfl⟩
    exact .more small larger rest

/-- The number is in the range of its width. -/
theorem SignedBytes.bounds {bytes : List UInt8} {value : Int}
    (signed : SignedBytes bits bytes value) :
    -2 ^ (bits - 1) ≤ value ∧ value < 2 ^ (bits - 1) := by
  induction signed with
  | last isGroup low high => exact ⟨low, high⟩
  | @more bits group value bytes small larger rest induction =>
      have power : (2 : Int) ^ (bits - 1) = 128 * 2 ^ (bits - 7 - 1) := by
        rw [show bits - 1 = bits - 7 - 1 + 7 by omega, pow_add, mul_comm]
        rfl
      omega

theorem SignedBytes.length {bits : Nat} {bytes : List UInt8} {value : Int} (positive : 0 < bits)
    (signed : SignedBytes bits bytes value) : 7 * bytes.length < bits + 7 := by
  induction signed with
  | last isGroup low high =>
      rw [List.length_singleton]
      omega
  | more small larger rest induction =>
      have shorter := induction (by omega)
      rw [List.length_cons]
      omega

/-- A number of at most seven bits, as its last group. -/
theorem lastGroup_iff {bits group : Nat} {value : Int} (positive : 0 < bits) (few : bits ≤ 7)
    (small : group < 128) :
    (IsGroup value ∧ ByteNumbers.group value = group ∧ -2 ^ (bits - 1) ≤ value ∧
        value < 2 ^ (bits - 1)) ↔
      (group < 2 ^ (bits - 1) ∧ value = group) ∨
        (128 - 2 ^ (bits - 1) ≤ group ∧ value = group - 128) := by
  have power : ((2 ^ (bits - 1) : Nat) : Int) = 2 ^ (bits - 1) := by
    push_cast
    rfl
  have bound : 2 ^ (bits - 1) ≤ 2 ^ 6 := Nat.pow_le_pow_right (by decide) (by omega)
  rw [← power, IsGroup, ByteNumbers.group]
  omega

/-- The check of the last byte, exactly. -/
theorem signAndUnused_iff : ∀ {bits number : Nat}, 0 < bits → bits ≤ 7 → number < 128 →
    ((((last number).toBitVec <<< 1).sshiftRight bits ≠ 0 ∧
        ((last number).toBitVec <<< 1).sshiftRight bits ≠ -1) ↔
      ¬ (number < 2 ^ (bits - 1) ∨ 128 - 2 ^ (bits - 1) ≤ number)) := by
  have checked : ∀ bits : Fin 8, ∀ number : Fin 128, 0 < bits.val →
      ((((last number).toBitVec <<< 1).sshiftRight bits ≠ 0 ∧
          ((last number).toBitVec <<< 1).sshiftRight bits ≠ -1) ↔
        ¬ (number.val < 2 ^ (bits.val - 1) ∨ 128 - 2 ^ (bits.val - 1) ≤ number.val)) := by
    decide +kernel
  intro bits number positive few small
  exact checked ⟨bits, by omega⟩ ⟨number, small⟩ positive

variable {groups : Nat}

section

variable {format : SignedFormat}

/-- The sign of a negative number goes missing at the limit, unless it is beyond the word. -/
def lostSign (format : SignedFormat) (groups : Nat) (high : Int) : Int :=
  if high < 0 ∧ format.limit + 7 ≤ 7 * groups then 2 ^ (7 * groups) else 0

/-- What the loop reads behind the groups it has joined. -/
def HighSignedGroups (format : SignedFormat) (result groups : Nat) :
    Language UInt8 (BitVec format.word) :=
  fun items value => ∃ high, SignedBytes (format.bits - 7 * groups) items high ∧
    value = BitVec.ofInt format.word
      (result + high * 2 ^ (7 * groups) + lostSign format (groups + items.length) high)

theorem highSignedGroups_nil (result groups : Nat) (value : BitVec format.word) :
    ¬ HighSignedGroups format result groups [] value := by
  intro holds
  rcases holds with ⟨high, bytes, _⟩
  cases bytes

theorem highSignedGroups_more {value : BitVec format.word}
    (small : group < 128) :
    HighSignedGroups format result groups (continued group :: rest) value ↔
      7 < format.bits - 7 * groups ∧
        HighSignedGroups format (result + group * 2 ^ (7 * groups)) (groups + 1) rest value := by
  have joined (high : Int) : (result : Int) + (group + 128 * high) * 2 ^ (7 * groups) =
      ((result + group * 2 ^ (7 * groups) : Nat) : Int) + high * 2 ^ (7 * (groups + 1)) := by
    rw [Nat.mul_add, pow_add]
    push_cast
    ring
  have sign (high : Int) : lostSign format (groups + (continued group :: rest).length)
      (group + 128 * high) = lostSign format (groups + 1 + rest.length) high := by
    have negative : (group + 128 * high < 0) ↔ high < 0 := by omega
    rw [lostSign, lostSign, List.length_cons, ← Nat.add_assoc, Nat.add_right_comm]
    simp only [negative]
  have width : format.bits - 7 * groups - 7 = format.bits - 7 * (groups + 1) := by omega
  constructor
  · intro holds
    rcases holds with ⟨whole, bytes, rfl⟩
    rcases (signedBytes_more_iff small).mp bytes with ⟨larger, high, higher, rfl⟩
    rw [width] at higher
    exact ⟨larger, high, higher, by rw [joined, sign]⟩
  · intro holds
    rcases holds with ⟨larger, high, higher, rfl⟩
    rw [← width] at higher
    exact ⟨_, (signedBytes_more_iff small).mpr ⟨larger, high, higher, rfl⟩, by rw [joined, sign]⟩

theorem highSignedGroups_last {value : BitVec format.word}
    (small : group < 128) :
    HighSignedGroups format result groups (last group :: rest) value ↔
      rest = [] ∧ ∃ high, (IsGroup high ∧ ByteNumbers.group high = group ∧
          -2 ^ (format.bits - 7 * groups - 1) ≤ high ∧
            high < 2 ^ (format.bits - 7 * groups - 1)) ∧
        value = BitVec.ofInt format.word
          (result + high * 2 ^ (7 * groups) + lostSign format (groups + 1) high) := by
  constructor
  · intro holds
    rcases holds with ⟨high, bytes, rfl⟩
    rcases (signedBytes_last_iff small).mp bytes with ⟨rfl, isLast⟩
    exact ⟨rfl, high, isLast, rfl⟩
  · intro holds
    rcases holds with ⟨rfl, high, isLast, rfl⟩
    exact ⟨high, (signedBytes_last_iff small).mpr ⟨rfl, isLast⟩, rfl⟩

/-- Every group is the last one of a number. -/
theorem exists_lastGroup (small : group < 128) :
    ∃ value, IsGroup value ∧ ByteNumbers.group value = group := by
  refine ⟨if group < 64 then group else group - 128, ?_⟩
  rw [IsGroup, ByteNumbers.group]
  split <;> omega

/-- The value at the limit: the sign of the last group is not spread. -/
theorem atLimit_value {high : Int} (limit : format.limit ≤ 7 * groups) (isGroup : IsGroup high)
    (same : ByteNumbers.group high = group) :
    (result : Int) + high * 2 ^ (7 * groups) + lostSign format (groups + 1) high =
      ((result + group * 2 ^ (7 * groups) : Nat) : Int) := by
  rw [lostSign, ← same, Nat.mul_add, pow_add]
  push_cast
  rcases isGroup_cases isGroup with ⟨small, positive⟩ | ⟨large, negative⟩
  · rw [if_neg (by omega), ← positive, add_zero]
  · have bound := group_lt high
    rw [if_pos ⟨by omega, by omega⟩]
    linear_combination (2 ^ (7 * groups)) * negative

theorem belowLimit_sign (high : Int) (below : ¬ format.limit ≤ 7 * groups) :
    lostSign format (groups + 1) high = 0 :=
  if_neg fun lost => below (by omega)

theorem readSignedLoop_exact (sound : format.Sound) (result groups : Nat)
    (small : result < 2 ^ (7 * groups)) (inside : 7 * groups < format.bits) :
    ReadsExactly (readSignedLoop format (BitVec.ofNat format.word result) (7 * groups))
      (HighSignedGroups format result groups) := by
  induction left : format.limit - 7 * groups using Nat.strong_induction_on
    generalizing result groups with
  | _ left induction =>
      rw [readSignedLoop]
      refine readsExactly_next (highSignedGroups_nil result groups) fun byte => ?_
      rcases byte_cases byte with ⟨group, groupSmall, rfl⟩ | ⟨group, groupSmall, rfl⟩
      · rw [setWidth_group (last_group groupSmall), ofNat_or_group small]
        by_cases limit : format.limit ≤ 7 * groups
        · have few := sound.lastGroup groups limit
          have check := signAndUnused_iff (show 0 < format.bits - 7 * groups by omega)
            (by omega) groupSmall
          have isLast {value : Int} := @lastGroup_iff (format.bits - 7 * groups) group value
            (by omega) (by omega) groupSmall
          rw [if_pos limit]
          by_cases agrees : group < 2 ^ (format.bits - 7 * groups - 1) ∨
              128 - 2 ^ (format.bits - 7 * groups - 1) ≤ group
          · have found : ∃ high, IsGroup high ∧ ByteNumbers.group high = group ∧
                -2 ^ (format.bits - 7 * groups - 1) ≤ high ∧
                  high < 2 ^ (format.bits - 7 * groups - 1) := by
              rcases agrees with positive | negative
              · exact ⟨group, isLast.mpr (.inl ⟨positive, rfl⟩)⟩
              · exact ⟨group - 128, isLast.mpr (.inr ⟨negative, rfl⟩)⟩
            have accepted : ¬ (last group &&& 0x80 ≠ 0 ∨ _) := fun refused =>
              refused.elim (fun continues => continues (last_continues groupSmall))
                fun disagrees => check.mp disagrees agrees
            rw [if_neg accepted]
            refine (readsExactly_pure _).congr fun items value => ?_
            rw [highSignedGroups_last groupSmall, ← BitVec.ofInt_natCast]
            refine and_congr_right fun _ => ⟨fun equal => ?_, fun holds => ?_⟩
            · rcases found with ⟨high, isGroup, same, bounds⟩
              exact ⟨high, ⟨isGroup, same, bounds⟩, by
                rw [equal, atLimit_value limit isGroup same]⟩
            · rcases holds with ⟨high, ⟨isGroup, same, _⟩, rfl⟩
              rw [atLimit_value limit isGroup same]
          · rw [if_pos (.inr (check.mpr agrees))]
            refine (readsExactly_failBehind _).congr fun items value => ⟨False.elim, fun holds => ?_⟩
            rcases ((highSignedGroups_last groupSmall).mp holds).2 with ⟨high, last, _⟩
            exact agrees ((isLast.mp last).imp And.left And.left)
        · rw [if_neg limit, if_pos (last_continues groupSmall)]
          refine (readsExactly_pure _).congr fun items value => ?_
          have more := sound.moreGroups groups (Nat.lt_of_not_le limit)
          have shifted {high : Int} (isGroup : IsGroup high)
              (same : ByteNumbers.group high = group) := same ▸
            sshiftRight_lastGroup sound small isGroup (Nat.lt_of_not_le limit)
          rw [highSignedGroups_last groupSmall]
          refine and_congr_right fun _ => ⟨fun equal => ?_, fun holds => ?_⟩
          · rcases exists_lastGroup groupSmall with ⟨high, isGroup, same⟩
            have power : (2 : Int) ^ 6 ≤ 2 ^ (format.bits - 7 * groups - 1) :=
              pow_le_pow_right₀ (by decide) (by omega)
            refine ⟨high, ⟨isGroup, same, ?_, ?_⟩, ?_⟩
            · linarith [isGroup.1]
            · linarith [isGroup.2]
            · rw [equal, shifted isGroup same, belowLimit_sign high limit, add_zero]
          · rcases holds with ⟨high, ⟨isGroup, same, _⟩, rfl⟩
            rw [shifted isGroup same, belowLimit_sign high limit, add_zero]
      · by_cases limit : format.limit ≤ 7 * groups
        · rw [if_pos limit, if_pos (.inl (continued_continues groupSmall))]
          refine (readsExactly_failBehind _).congr fun items value => ⟨False.elim, fun holds => ?_⟩
          have larger := ((highSignedGroups_more groupSmall).mp holds).1
          have few := sound.lastGroup groups limit
          omega
        · rw [if_neg limit, if_neg (continued_continues groupSmall),
            setWidth_group (continued_group groupSmall), ofNat_or_group small]
          have more := sound.moreGroups groups (Nat.lt_of_not_le limit)
          have joined : result + group * 2 ^ (7 * groups) < 2 ^ (7 * (groups + 1)) := by
            rw [Nat.mul_add, pow_add]
            have scaled : group * 2 ^ (7 * groups) ≤ 127 * 2 ^ (7 * groups) :=
              Nat.mul_le_mul_right _ (by omega)
            omega
          refine (induction _ (by omega) (result + group * 2 ^ (7 * groups)) (groups + 1) joined
            (by omega) rfl).congr fun items value => ?_
          exact ((highSignedGroups_more groupSmall).trans (and_iff_right (by omega))).symm

/-- A sign that goes missing beyond the word is not missed. -/
theorem ofInt_lostSign {number high : Int}
    (beyond : format.limit + 7 ≤ 7 * groups → format.word ≤ 7 * groups) :
    BitVec.ofInt format.word (number + lostSign format groups high) =
      BitVec.ofInt format.word number := by
  apply ofInt_congr
  rw [lostSign, add_sub_cancel_left]
  split
  next lost => exact pow_dvd_pow 2 (beyond lost.2)
  next => exact dvd_zero _

end

/-- The number in the word of the loop, given what the word is as a number. -/
theorem map_toInt_iff {format : SignedFormat} {result groups : Nat} {items : List UInt8}
    {number : Int → Int}
    (isNumber : ∀ high, SignedBytes (format.bits - 7 * groups) items high →
      (BitVec.ofInt format.word (result + high * 2 ^ (7 * groups) +
        lostSign format (groups + items.length) high)).toInt = number high) (value : Int) :
    (∃ word, HighSignedGroups format result groups items word ∧ value = word.toInt) ↔
      ∃ high, SignedBytes (format.bits - 7 * groups) items high ∧ value = number high := by
  constructor
  · intro holds
    rcases holds with ⟨word, ⟨high, higher, rfl⟩, rfl⟩
    exact ⟨high, higher, isNumber high higher⟩
  · intro holds
    rcases holds with ⟨high, higher, rfl⟩
    exact ⟨_, ⟨high, higher, rfl⟩, (isNumber high higher).symm⟩

theorem readVarI32_exact : ReadsExactly readVarI32 (SignedBytes 32) := by
  have signedByte : ∀ number : Fin 128,
      (((last number).toBitVec.setWidth 32 <<< 25).sshiftRight 25).toInt =
        if number.val < 64 then (number.val : Int) else number.val - 128 := by decide +kernel
  rw [readVarI32]
  refine readsExactly_next (fun value bytes => by cases bytes) fun byte => ?_
  rcases byte_cases byte with ⟨group, groupSmall, rfl⟩ | ⟨group, groupSmall, rfl⟩
  · rw [if_pos (last_continues groupSmall), signedByte ⟨group, groupSmall⟩]
    refine (readsExactly_pure _).congr fun items value => ?_
    rw [signedBytes_last_iff groupSmall, IsGroup, ByteNumbers.group]
    refine and_congr_right fun _ => ?_
    dsimp only
    split <;> omega
  · rw [if_neg (continued_continues groupSmall), readVarI32Big,
      setWidth_group (continued_group groupSmall)]
    have loop := readSignedLoop_exact SignedFormat.Sound.i32 group 1 groupSmall (by decide)
    refine (loop.map BitVec.toInt).congr fun items value => ?_
    rw [signedBytes_more_iff groupSmall, and_iff_right (by decide)]
    refine map_toInt_iff (fun high higher => ?_) value
    have bounds := (SignedBytes.more groupSmall (show 7 < 32 by decide) higher).bounds
    rw [ofInt_lostSign (by simp only [SignedFormat.i32]; omega)]
    exact (toInt_ofInt_of_fits (by omega) (by omega)).trans (by ring)

theorem readVarI64_exact : ReadsExactly readVarI64 (SignedBytes 64) := by
  have loop := readSignedLoop_exact SignedFormat.Sound.i64 0 0 (by decide) (by decide)
  refine (loop.map BitVec.toInt).congr fun items value => ?_
  have numbers := @map_toInt_iff .i64 0 0 items id (fun high whole => ?_) value
  · refine numbers.trans ⟨fun holds => ?_, fun bytes => ⟨value, bytes, rfl⟩⟩
    rcases holds with ⟨high, bytes, rfl⟩
    exact bytes
  · have bounds := whole.bounds
    simp only [SignedFormat.i64] at bounds
    rw [ofInt_lostSign (by simp only [SignedFormat.i64]; omega)]
    exact (toInt_ofInt_of_fits (by omega) (by omega)).trans (by simp)

/-- Of five bytes, a negative number of 33 bits is read without the bits above it. -/
def SignedBytes33 : Language UInt8 Int :=
  fun items value => ∃ number, SignedBytes 33 items number ∧
    value = if number < 0 ∧ items.length = 5 then number + 2 ^ 35 else number

theorem readVarS33_exact : ReadsExactly readVarS33 SignedBytes33 := by
  have signedByte : ∀ number : Fin 128,
      ((((last number).toBitVec <<< 1).signExtend 64).sshiftRight 1).toInt =
        if number.val < 64 then (number.val : Int) else number.val - 128 := by decide +kernel
  rw [readVarS33]
  refine readsExactly_next ?_ fun byte => ?_
  · intro value holds
    rcases holds with ⟨number, bytes, _⟩
    cases bytes
  rcases byte_cases byte with ⟨group, groupSmall, rfl⟩ | ⟨group, groupSmall, rfl⟩
  · rw [if_pos (last_continues groupSmall), signedByte ⟨group, groupSmall⟩]
    refine (readsExactly_pure _).congr fun items value => ⟨fun holds => ?_, fun holds => ?_⟩
    · rcases holds with ⟨rfl, rfl⟩
      refine ⟨_, (signedBytes_last_iff groupSmall).mpr ⟨rfl, ?_⟩, (if_neg fun long => ?_).symm⟩
      · rw [IsGroup, ByteNumbers.group]
        dsimp only
        split <;> omega
      · cases long.2
    · rcases holds with ⟨number, bytes, rfl⟩
      rcases (signedBytes_last_iff groupSmall).mp bytes with ⟨rfl, isGroup, same, _⟩
      refine ⟨rfl, (if_neg fun long => ?_).trans ?_⟩
      · cases long.2
      · rw [IsGroup] at isGroup
        rw [ByteNumbers.group] at same
        dsimp only
        split <;> omega
  · rw [if_neg (continued_continues groupSmall), setWidth_group (continued_group groupSmall)]
    have loop := readSignedLoop_exact SignedFormat.Sound.s33 group 1 groupSmall (by decide)
    refine (loop.map BitVec.toInt).congr fun items value => ?_
    have numbers := @map_toInt_iff .s33 group 1 items (fun high =>
      if group + 128 * high < 0 ∧ (continued group :: items).length = 5 then
        group + 128 * high + 2 ^ 35 else group + 128 * high) (fun high higher => ?_) value
    · refine numbers.trans ⟨fun holds => ?_, fun holds => ?_⟩
      · rcases holds with ⟨high, higher, rfl⟩
        exact ⟨_, .more groupSmall (by decide) higher, rfl⟩
      · rcases holds with ⟨number, bytes, rfl⟩
        rcases (signedBytes_more_iff groupSmall).mp bytes with ⟨_, high, higher, rfl⟩
        exact ⟨high, higher, rfl⟩
    · have whole := SignedBytes.more groupSmall (show 7 < 33 by decide) higher
      have bounds := whole.bounds
      have few := whole.length (by decide)
      rw [List.length_cons] at few
      have limit : SignedFormat.s33.limit = 25 := rfl
      rw [lostSign, List.length_cons]
      by_cases lost : group + 128 * high < 0 ∧ items.length + 1 = 5
      · rw [if_pos lost, if_pos ⟨by omega, by omega⟩, show 1 + items.length = 5 by omega]
        exact (toInt_ofInt_of_fits (by omega) (by omega)).trans (by ring)
      · rw [if_neg lost, if_neg (by omega)]
        exact (toInt_ofInt_of_fits (by omega) (by omega)).trans (by ring)

/-- Each reader of a number succeeds on its bytes, and on nothing else. -/
theorem numbers_exact :
    ReadsExactly readVarU32 (UnsignedBytes 32) ∧ ReadsExactly readVarI32 (SignedBytes 32) ∧
      ReadsExactly readVarI64 (SignedBytes 64) ∧ ReadsExactly readVarS33 SignedBytes33 :=
  ⟨readVarU32_exact, readVarI32_exact, readVarI64_exact, readVarS33_exact⟩

end Inference.Wasmparser

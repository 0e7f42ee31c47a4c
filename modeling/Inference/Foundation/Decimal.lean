import Inference.Foundation.PrefixCode

/-! # Decimal numerals as prefix codes

A numeral followed by a separator that does not start with a digit can be read
back from the text, together with everything behind it.
-/

namespace Inference.Foundation

/-- A separator behind which no numeral can continue. -/
def EndsNumeral (separator : List Char) : Prop :=
  ∃ symbol rest, separator = symbol :: rest ∧ symbol.isDigit = false

theorem EndsNumeral.of_cons {symbol : Char} {rest : List Char}
    (notDigit : symbol.isDigit = false) : EndsNumeral (symbol :: rest) :=
  ⟨symbol, rest, rfl, notDigit⟩

theorem toList_toString_nat_isDigit (number : Nat) :
    ∀ symbol ∈ (toString number).toList, symbol.isDigit = true := by
  intro symbol member
  rw [Nat.toString_eq_repr, Nat.toList_repr] at member
  exact Nat.isDigit_of_mem_toDigits (by omega) (by omega) member

theorem toString_nat_injective {first second : Nat}
    (equal : (toString first).toList = (toString second).toList) : first = second := by
  rw [Nat.toString_eq_repr, Nat.toString_eq_repr, Nat.toList_repr, Nat.toList_repr] at equal
  rw [← Nat.ofDigitChars_ten_toDigits (n := first), equal, Nat.ofDigitChars_ten_toDigits]

variable {separator : List Char}

/-- The digits of a numeral are all the digits in front of its separator. -/
private theorem takeWhile_numeral (number : Nat) (ends : EndsNumeral separator) (rest : List Char) :
    ((toString number).toList ++ (separator ++ rest)).takeWhile Char.isDigit =
      (toString number).toList := by
  obtain ⟨symbol, separatorRest, rfl, notDigit⟩ := ends
  rw [List.takeWhile_append_of_pos (toList_toString_nat_isDigit number)]
  simp [notDigit]

theorem PrefixCode.natural (ends : EndsNumeral separator) :
    PrefixCode (fun number : Nat => (toString number).toList ++ separator) := by
  intro first second firstRest secondRest equal
  simp only [List.append_assoc] at equal
  have digits : (toString first).toList = (toString second).toList := by
    rw [← takeWhile_numeral first ends firstRest, equal, takeWhile_numeral second ends]
  have same := toString_nat_injective digits
  subst same
  exact ⟨rfl, List.append_cancel_left (List.append_cancel_left equal)⟩

theorem toList_toString_int_of_nonneg {number : Int} (nonnegative : 0 ≤ number) :
    (toString number).toList = (toString number.toNat).toList := by
  rw [Int.toString_eq_repr, Int.repr_eq_if, if_pos nonnegative, Nat.toString_eq_repr]

theorem toList_toString_int_of_neg {number : Int} (negative : number < 0) :
    (toString number).toList = '-' :: (toString (-number).toNat).toList := by
  rw [Int.toString_eq_repr, Int.repr_eq_if, if_neg (by omega), String.toList_append,
    Nat.toString_eq_repr]
  rfl

/-- A numeral without a sign does not start with the sign. -/
private theorem natural_ne_negative (first : Nat)
    (ends : EndsNumeral separator) (firstRest rest : List Char) :
    (toString first).toList ++ (separator ++ firstRest) ≠ '-' :: rest := by
  intro equal
  have digits := takeWhile_numeral first ends firstRest
  rw [equal] at digits
  have nonempty : Nat.toDigits 10 first ≠ [] := Nat.toDigits_ne_nil
  rw [Nat.toString_eq_repr, Nat.toList_repr] at digits
  exact nonempty (by simpa using digits.symm)

theorem PrefixCode.integer (ends : EndsNumeral separator) :
    PrefixCode (fun number : Int => (toString number).toList ++ separator) := by
  intro first second firstRest secondRest equal
  simp only [List.append_assoc] at equal
  by_cases firstSign : 0 ≤ first
  · rw [toList_toString_int_of_nonneg firstSign] at equal
    by_cases secondSign : 0 ≤ second
    · rw [toList_toString_int_of_nonneg secondSign] at equal
      obtain ⟨same, rest⟩ := PrefixCode.natural ends first.toNat second.toNat
        firstRest secondRest (by simpa only [List.append_assoc] using equal)
      exact ⟨by omega, rest⟩
    · rw [toList_toString_int_of_neg (by omega)] at equal
      exact absurd equal (natural_ne_negative _ ends _ _)
  · rw [toList_toString_int_of_neg (by omega)] at equal
    by_cases secondSign : 0 ≤ second
    · rw [toList_toString_int_of_nonneg secondSign] at equal
      exact absurd equal.symm (natural_ne_negative _ ends _ _)
    · rw [toList_toString_int_of_neg (by omega)] at equal
      obtain ⟨same, rest⟩ := PrefixCode.natural ends (-first).toNat (-second).toNat
        firstRest secondRest
        (by simpa only [List.append_assoc, List.cons_append, List.cons.injEq, true_and]
          using equal)
      exact ⟨by omega, rest⟩

end Inference.Foundation

import Mathlib.Algebra.Ring.Nat
import Mathlib.Data.Char

/-! # Unsigned numbers as text

Numbers of a fixed width are written in decimal, with leading zeros up to a
minimal length, and read back with an optional plus sign.
-/

namespace Inference.Foundation

/-- A plus sign may stand in front of the digits. -/
def withoutSign (text : List Char) : List Char :=
  if text.head? = some '+' then text.tail else text

/-- Reads a number that fits in `width` bits. -/
def parseUnsigned (width : Nat) (text : List Char) : Option Nat :=
  let digits := withoutSign text
  if digits ≠ [] ∧ digits.all Char.isDigit then
    let value := Nat.ofDigitChars 10 digits 0
    if value < 2 ^ width then some value else none
  else
    none

/-- Writes a number with leading zeros. -/
def padded (length number : Nat) : List Char :=
  (Nat.toDigits 10 number).leftpad length '0'

theorem padded_eq (length number : Nat) :
    ∃ zeros, padded length number = List.replicate zeros '0' ++ Nat.toDigits 10 number :=
  ⟨_, rfl⟩

theorem isDigit_of_mem_padded {length number : Nat} {symbol : Char}
    (member : symbol ∈ padded length number) : symbol.isDigit = true := by
  obtain ⟨zeros, spelled⟩ := padded_eq length number
  rw [spelled, List.mem_append] at member
  rcases member with zero | digit
  · rw [List.eq_of_mem_replicate zero]
    decide
  · exact Nat.isDigit_of_mem_toDigits (by omega) (by omega) digit

theorem padded_ne_nil (length number : Nat) : padded length number ≠ [] := by
  obtain ⟨zeros, spelled⟩ := padded_eq length number
  rw [spelled]
  simp [Nat.toDigits_ne_nil]

theorem ofDigitChars_padded (length number : Nat) :
    Nat.ofDigitChars 10 (padded length number) 0 = number := by
  obtain ⟨zeros, spelled⟩ := padded_eq length number
  rw [spelled, Nat.ofDigitChars_append, Nat.ofDigitChars_replicate_zero, Nat.mul_zero,
    Nat.ofDigitChars_ten_toDigits]

theorem parseUnsigned_padded {width length number : Nat} (fits : number < 2 ^ width) :
    parseUnsigned width (padded length number) = some number := by
  have unsigned : withoutSign (padded length number) = padded length number := by
    refine if_neg fun starts => ?_
    have digit : '+'.isDigit = true :=
      isDigit_of_mem_padded (List.mem_of_head? starts)
    exact absurd digit (by decide)
  have digits : (padded length number).all Char.isDigit = true :=
    List.all_eq_true.mpr fun _ member => isDigit_of_mem_padded member
  rw [parseUnsigned, unsigned]
  simp [padded_ne_nil, digits, ofDigitChars_padded, fits]

theorem padded_noSeparator {separator : Char} (notDigit : separator.isDigit = false)
    (length number : Nat) : separator ∉ padded length number := by
  intro member
  rw [isDigit_of_mem_padded member] at notDigit
  exact Bool.noConfusion notDigit

end Inference.Foundation

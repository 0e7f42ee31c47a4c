import Inference.Foundation.Blocks

/-! # The Gregorian calendar

Years and months are consecutive blocks of days. A date is numbered by the days
between the first of January of an epoch and itself.
-/

namespace Inference.Foundation.Gregorian

def IsLeap (year : Nat) : Prop :=
  4 ∣ year ∧ (100 ∣ year → 400 ∣ year)

instance (year : Nat) : Decidable (IsLeap year) :=
  inferInstanceAs (Decidable (_ ∧ _))

def yearLength (year : Nat) : Nat :=
  if IsLeap year then 366 else 365

def monthLength (year month : Nat) : Nat :=
  if month = 2 then if IsLeap year then 29 else 28
  else if month ∈ [4, 6, 9, 11] then 30
  else 31

/-- A day that the calendar has. -/
structure IsDate (year month day : Nat) : Prop where
  isMonth : 1 ≤ month ∧ month ≤ 12
  isDay : 1 ≤ day ∧ day ≤ monthLength year month

/-- The first of a month, as a day of its year. -/
def monthStart (year month : Nat) : Nat :=
  blockStart (monthLength year) 1 month

/-- The days from an epoch to a date. -/
def dayNumber (epoch year month day : Nat) : Nat :=
  blockStart yearLength epoch year + monthStart year month + (day - 1)

theorem le_yearLength (year : Nat) : 365 ≤ yearLength year := by
  rw [yearLength]
  split <;> omega

/-- Twelve months make a year. -/
theorem monthStart_thirteen (year : Nat) : monthStart year 13 = yearLength year := by
  by_cases leap : IsLeap year
  · simp [monthStart, blockStart, yearLength, monthLength, leap, Finset.sum_Ico_succ_top]
  · simp [monthStart, blockStart, yearLength, monthLength, leap, Finset.sum_Ico_succ_top]

end Inference.Foundation.Gregorian

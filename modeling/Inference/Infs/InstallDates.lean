import Inference.Foundation.Gregorian
import Inference.Foundation.UnsignedText

/-! # Dates of installations

The metadata of an installed version holds the date of the installation as text.
It is written from a timestamp and read back to say how long ago it was. Numbers
have 64 bits, and `none` stands for a number that leaves them.
-/

namespace Inference.Infs

open Foundation

def checkedAdd (left right : Nat) : Option Nat :=
  if left + right < 2 ^ 64 then some (left + right) else none

def checkedSub (left right : Nat) : Option Nat :=
  if right ≤ left then some (left - right) else none

def checkedMul (left right : Nat) : Option Nat :=
  if left * right < 2 ^ 64 then some (left * right) else none

theorem checkedAdd_fits {left right : Nat} (fits : left + right < 2 ^ 64) :
    checkedAdd left right = some (left + right) :=
  if_pos fits

theorem checkedAdd_overflows {left right : Nat} (overflows : ¬ left + right < 2 ^ 64) :
    checkedAdd left right = none :=
  if_neg overflows

theorem checkedMul_fits {left right : Nat} (fits : left * right < 2 ^ 64) :
    checkedMul left right = some (left * right) :=
  if_pos fits

theorem checkedMul_overflows {left right : Nat} (overflows : ¬ left * right < 2 ^ 64) :
    checkedMul left right = none :=
  if_neg overflows

/-! ## Dates of timestamps -/

def isLeapYear (year : Nat) : Bool :=
  (year % 4 = 0 && year % 100 ≠ 0) || year % 400 = 0

def daysInYear (year : Nat) : Nat :=
  if isLeapYear year then 366 else 365

def monthDays (year : Nat) : List Nat :=
  if isLeapYear year then [31, 29, 31, 30, 31, 30, 31, 31, 30, 31, 30, 31]
  else [31, 28, 31, 30, 31, 30, 31, 31, 30, 31, 30, 31]

structure DateTime where
  year : Nat
  month : Nat
  day : Nat
  hours : Nat
  minutes : Nat
  seconds : Nat

/-- Takes whole years off the remaining days. -/
def takeYears (year remainingDays : Nat) : Option (Nat × Nat) :=
  if remainingDays < daysInYear year then some (year, remainingDays)
  else if year + 1 < 2 ^ 64 then takeYears (year + 1) (remainingDays - daysInYear year)
  else none
termination_by remainingDays
decreasing_by
  have positive : 0 < daysInYear year := by
    rw [daysInYear]
    split <;> omega
  omega

/-- Takes whole months off the remaining days; the month is 0 when they are too many. -/
def takeMonths : List Nat → Nat → Nat → Nat × Nat
  | [], _, remainingDays => (0, remainingDays)
  | days :: rest, i, remainingDays =>
      if remainingDays < days then (i + 1, remainingDays)
      else takeMonths rest (i + 1) (remainingDays - days)

def DateTime.fromTimestamp (timestamp : Nat) : Option DateTime := do
  let secsToday := timestamp % 86400
  let (year, remainingDays) ← takeYears 1970 (timestamp / 86400)
  let (month, remainingDays) := takeMonths (monthDays year) 0 remainingDays
  let day ← checkedAdd remainingDays 1
  some
    { year := year
      month := month
      day := day
      hours := secsToday / 3600
      minutes := secsToday % 3600 / 60
      seconds := secsToday % 60 }

def formatTimestamp (timestamp : Nat) : Option (List Char) :=
  (DateTime.fromTimestamp timestamp).map fun dt =>
    padded 4 dt.year ++ '-' :: (padded 2 dt.month ++ '-' :: padded 2 dt.day)

/-! ## Reading a date -/

def parseDate (dateStr : List Char) : Option (Nat × Nat × Nat) :=
  match dateStr.splitOn '-' with
  | [year, month, day] => do
      let year ← parseUnsigned 64 year
      let month ← parseUnsigned 64 month
      let day ← parseUnsigned 64 day
      some (year, month, day)
  | _ => none

/-- The days since 1970, added up year by year and month by month. -/
def countDays (year month day : Nat) : Option Nat := do
  let totalDays ← (List.range' 1970 (year - 1970)).foldlM
    (fun totalDays y => checkedAdd totalDays (daysInYear y)) 0
  let totalDays ← ((monthDays year).take (month - 1)).foldlM checkedAdd totalDays
  let offset ← checkedSub day 1
  checkedAdd totalDays offset

def relativeTime (diffDays : Nat) : List Char :=
  if diffDays = 0 then "today".toList
  else if diffDays = 1 then "yesterday".toList
  else if diffDays ≤ 6 then Nat.toDigits 10 diffDays ++ " days ago".toList
  else if diffDays ≤ 13 then "1 week ago".toList
  else if diffDays ≤ 20 then "2 weeks ago".toList
  else if diffDays ≤ 27 then "3 weeks ago".toList
  else if diffDays ≤ 59 then "1 month ago".toList
  else if diffDays ≤ 89 then "2 months ago".toList
  else if diffDays ≤ 364 then Nat.toDigits 10 (diffDays / 30) ++ " months ago".toList
  else Nat.toDigits 10 (diffDays / 365) ++ " years ago".toList

def parseAndFormatRelativeTime (nowSecs : Nat) (dateStr : List Char) : Option (List Char) :=
  match parseDate dateStr with
  | none => some dateStr
  | some (year, month, day) => do
      let totalDays ← countDays year month day
      let installedSecs ← checkedMul totalDays 86400
      some (relativeTime ((nowSecs - installedSecs) / 86400))

/-! ## The calendar behind the tables -/

theorem isLeapYear_iff (year : Nat) : isLeapYear year = true ↔ Gregorian.IsLeap year := by
  simp only [isLeapYear, Gregorian.IsLeap, Bool.or_eq_true, Bool.and_eq_true, decide_eq_true_eq]
  omega

theorem daysInYear_eq (year : Nat) : daysInYear year = Gregorian.yearLength year := by
  simp only [daysInYear, Gregorian.yearLength, isLeapYear_iff]

theorem monthDays_eq (year : Nat) :
    monthDays year = (List.range' 1 12).map (Gregorian.monthLength year) := by
  by_cases leap : Gregorian.IsLeap year
  · simp [monthDays, isLeapYear_iff, leap, Gregorian.monthLength, List.range']
  · simp [monthDays, isLeapYear_iff, leap, Gregorian.monthLength, List.range']

theorem takeYears_inBlock (total year remaining : Nat) (since : 1970 ≤ year)
    (kept : total = blockStart Gregorian.yearLength 1970 year + remaining)
    (fits : year + remaining < 2 ^ 64) :
    ∃ last offset, takeYears year remaining = some (last, offset) ∧
      InBlock Gregorian.yearLength 1970 total last offset := by
  induction year, remaining using takeYears.induct with
  | case1 year remaining inside =>
      rw [takeYears, if_pos inside]
      rw [daysInYear_eq] at inside
      exact ⟨year, remaining, rfl, since, inside, kept⟩
  | case2 year remaining behind next induction =>
      rw [takeYears, if_neg behind, if_pos next]
      rw [daysInYear_eq] at behind induction ⊢
      have long := Gregorian.le_yearLength year
      apply induction (by omega)
      · rw [blockStart_succ since]
        omega
      · omega
  | case3 year remaining behind overflow =>
      have long := Gregorian.le_yearLength year
      rw [daysInYear_eq] at behind
      omega

theorem takeMonths_inBlock (length : Nat → Nat) {total : Nat} (count i remaining : Nat)
    (kept : total = blockStart length 1 (i + 1) + remaining)
    (within : total < blockStart length 1 (i + 1 + count)) :
    ∃ month offset, takeMonths ((List.range' (i + 1) count).map length) i remaining =
        (month, offset) ∧ month ≤ i + count ∧ InBlock length 1 total month offset := by
  induction count generalizing i remaining with
  | zero =>
      rw [Nat.add_zero] at within
      omega
  | succ count induction =>
      rw [List.range'_succ, List.map_cons, takeMonths]
      split
      · rename_i inside
        exact ⟨i + 1, remaining, rfl, by omega, by omega, inside, kept⟩
      · rename_i behind
        have step : blockStart length 1 (i + 1 + 1) = blockStart length 1 (i + 1) + length (i + 1) :=
          blockStart_succ (by omega)
        obtain ⟨month, offset, found, bound, located⟩ :=
          induction (i + 1) (remaining - length (i + 1)) (by omega)
            (by rwa [show i + 1 + 1 + count = i + 1 + (count + 1) by omega])
        exact ⟨month, offset, found, by omega, located⟩

/-- What the fields of a date and time say about the timestamp. -/
structure DateTime.Denotes (dt : DateTime) (timestamp : Nat) : Prop where
  sinceEpoch : 1970 ≤ dt.year
  isDate : Gregorian.IsDate dt.year dt.month dt.day
  isTime : dt.hours < 24 ∧ dt.minutes < 60 ∧ dt.seconds < 60
  recomposes : timestamp =
    Gregorian.dayNumber 1970 dt.year dt.month dt.day * 86400 +
      dt.hours * 3600 + dt.minutes * 60 + dt.seconds

theorem DateTime.fromTimestamp_denotes {timestamp : Nat} (fits : timestamp < 2 ^ 64) :
    ∃ dt, DateTime.fromTimestamp timestamp = some dt ∧ dt.Denotes timestamp := by
  obtain ⟨year, dayOfYear, years, inYear⟩ :=
    takeYears_inBlock (timestamp / 86400) 1970 (timestamp / 86400) (Nat.le_refl _)
      (by rw [blockStart_first, Nat.zero_add]) (by omega)
  have insideYear : dayOfYear < blockStart (Gregorian.monthLength year) 1 13 := by
    have inside := inYear.inside
    rwa [← Gregorian.monthStart_thirteen] at inside
  obtain ⟨month, dayOfMonth, months, atMost, inMonth⟩ :=
    takeMonths_inBlock (Gregorian.monthLength year) 12 0 dayOfYear
      (by rw [blockStart_first, Nat.zero_add]) insideYear
  have daysEq : timestamp / 86400 =
      Gregorian.dayNumber 1970 year month (dayOfMonth + 1) := by
    rw [inYear.position_eq, inMonth.position_eq, Gregorian.dayNumber, Gregorian.monthStart]
    omega
  have short : dayOfMonth + 1 < 2 ^ 64 := by
    have whole : timestamp / 86400 * 86400 ≤ timestamp := Nat.div_mul_le_self _ _
    have yearSum := inYear.position_eq
    have monthSum := inMonth.position_eq
    omega
  refine ⟨⟨year, month, dayOfMonth + 1, timestamp % 86400 / 3600, timestamp % 86400 % 3600 / 60,
    timestamp % 86400 % 60⟩, ?_, ?_⟩
  · rw [fromTimestamp, years]
    simp only [Option.bind_eq_bind, Option.bind_some]
    rw [monthDays_eq, months, checkedAdd, if_pos short]
    rfl
  · exact {
      sinceEpoch := inYear.behindFirst
      isDate := ⟨⟨inMonth.behindFirst, by omega⟩, ⟨by simp, inMonth.inside⟩⟩
      isTime := by
        dsimp only
        omega
      recomposes := by
        dsimp only
        rw [← daysEq]
        omega }

/-! ## Counting the days of a date -/

/-- An overflow on the way is an overflow of the sum. -/
theorem foldlM_checkedAdd (numbers : List Nat) {total : Nat} (fits : total < 2 ^ 64) :
    numbers.foldlM checkedAdd total = checkedAdd total numbers.sum := by
  induction numbers generalizing total with
  | nil =>
      rw [List.sum_nil, checkedAdd_fits fits]
      rfl
  | cons number rest induction =>
      rw [List.foldlM_cons, List.sum_cons]
      by_cases next : total + number < 2 ^ 64
      · rw [checkedAdd_fits next, Option.bind_eq_bind, Option.bind_some, induction next,
          checkedAdd, checkedAdd, Nat.add_assoc]
      · rw [checkedAdd_overflows next, checkedAdd_overflows (by omega)]
        rfl

theorem years_sum (year : Nat) :
    ((List.range' 1970 (year - 1970)).map daysInYear).sum =
      blockStart Gregorian.yearLength 1970 year := by
  rw [show daysInYear = Gregorian.yearLength from funext daysInYear_eq]
  rfl

/-- A month beyond the twelfth counts the whole year, and month 0 like the first one. -/
theorem months_sum (year month : Nat) :
    ((monthDays year).take (month - 1)).sum = Gregorian.monthStart year (min month 13) := by
  rw [monthDays_eq, ← List.map_take, Gregorian.monthStart]
  rcases Nat.lt_or_ge 12 (month - 1) with beyond | within
  · rw [List.take_range'_of_length_le (Nat.le_of_lt beyond), min_eq_right (by omega)]
    rfl
  · rw [List.take_range'_of_length_ge within, min_eq_left (by omega)]
    rfl

/-- The number that the loops count for the fields of a date. -/
def writtenDays (year month day : Nat) : Nat :=
  Gregorian.dayNumber 1970 year (min month 13) day

theorem countDays_eq (year month day : Nat) :
    countDays year month day =
      if 1 ≤ day ∧ writtenDays year month day < 2 ^ 64 then some (writtenDays year month day)
      else none := by
  have years : (List.range' 1970 (year - 1970)).foldlM
      (fun totalDays y => checkedAdd totalDays (daysInYear y)) 0 =
        checkedAdd 0 (blockStart Gregorian.yearLength 1970 year) := by
    rw [← years_sum, ← foldlM_checkedAdd _ (by omega), List.foldlM_map]
  rw [countDays, years, writtenDays, Gregorian.dayNumber, ← months_sum]
  generalize blockStart Gregorian.yearLength 1970 year = yearDays
  generalize List.take (month - 1) (monthDays year) = months
  simp only [Option.bind_eq_bind]
  by_cases yearsFit : 0 + yearDays < 2 ^ 64
  · rw [checkedAdd_fits yearsFit, Option.bind_some, foldlM_checkedAdd _ yearsFit, Nat.zero_add]
    by_cases monthsFit : yearDays + months.sum < 2 ^ 64
    · rw [checkedAdd_fits monthsFit, Option.bind_some, checkedSub]
      by_cases dayGiven : 1 ≤ day
      · rw [if_pos dayGiven, Option.bind_some, checkedAdd]
        simp only [dayGiven, true_and]
      · rw [if_neg dayGiven, if_neg fun both => dayGiven both.1]
        rfl
    · rw [checkedAdd_overflows monthsFit, if_neg (by omega)]
      rfl
  · rw [checkedAdd_overflows yearsFit, if_neg (by omega)]
    rfl

theorem parseDate_formatted {year month day : Nat} (yearFits : year < 2 ^ 64)
    (monthFits : month < 2 ^ 64) (dayFits : day < 2 ^ 64) :
    parseDate (padded 4 year ++ '-' :: (padded 2 month ++ '-' :: padded 2 day)) =
      some (year, month, day) := by
  have plain : ∀ length number, '-' ∉ padded length number :=
    padded_noSeparator (by decide)
  rw [parseDate, List.splitOn_append_cons_self_of_not_mem (plain 4 year),
    List.splitOn_append_cons_self_of_not_mem (plain 2 month),
    List.splitOn_eq_singleton (plain 2 day)]
  simp only [Option.bind_eq_bind, parseUnsigned_padded yearFits, parseUnsigned_padded monthFits,
    parseUnsigned_padded dayFits, Option.bind_some]

/-! ## Safe arithmetic -/

/-- The passes of the loop over the years. -/
def yearPasses (dateStr : List Char) : Nat :=
  match parseDate dateStr with
  | none => 0
  | some (year, _, _) => (List.range' 1970 (year - 1970)).length

/-- The arithmetic stays in its range, and the years are no more than fit in 64 bits of seconds. -/
def ReturnsSafely (nowSecs : Nat) (dateStr : List Char) : Prop :=
  (parseAndFormatRelativeTime nowSecs dateStr).isSome = true ∧
    yearPasses dateStr * 365 * 86400 < 2 ^ 64

/-- A date, if the text is one, names a day whose first second fits in 64 bits. -/
def DayFits (dateStr : List Char) : Prop :=
  ∀ year month day, parseDate dateStr = some (year, month, day) →
    1 ≤ day ∧ writtenDays year month day * 86400 < 2 ^ 64

theorem passes_le_writtenDays (year month day : Nat) :
    365 * (year - 1970) ≤ writtenDays year month day := by
  have years : 365 * (year - 1970) ≤ blockStart Gregorian.yearLength 1970 year :=
    mul_le_blockStart Gregorian.le_yearLength
  rw [writtenDays, Gregorian.dayNumber]
  omega

theorem returnsSafely_iff (nowSecs : Nat) (dateStr : List Char) :
    ReturnsSafely nowSecs dateStr ↔ DayFits dateStr := by
  rw [ReturnsSafely, DayFits, parseAndFormatRelativeTime, yearPasses]
  cases parsed : parseDate dateStr with
  | none => simp
  | some date =>
      rcases date with ⟨year, month, day⟩
      have passes := passes_le_writtenDays year month day
      simp only [Option.some.injEq, Prod.mk.injEq, countDays_eq, Option.bind_eq_bind,
        List.length_range']
      constructor
      · rintro ⟨returns, -⟩ _ _ _ ⟨rfl, rfl, rfl⟩
        by_cases counted : 1 ≤ day ∧ writtenDays year month day < 2 ^ 64
        · refine ⟨counted.1, ?_⟩
          by_contra tooLate
          rw [if_pos counted, Option.bind_some, checkedMul_overflows tooLate] at returns
          exact Bool.noConfusion returns
        · rw [if_neg counted] at returns
          exact Bool.noConfusion returns
      · intro fits
        obtain ⟨dayGiven, secondsFit⟩ := fits year month day ⟨rfl, rfl, rfl⟩
        have passesFit : (year - 1970) * 365 * 86400 < 2 ^ 64 := by
          rw [Nat.mul_comm (year - 1970)]
          exact lt_of_le_of_lt (Nat.mul_le_mul_right 86400 passes) secondsFit
        rw [if_pos ⟨dayGiven, by omega⟩, Option.bind_some, checkedMul_fits secondsFit,
          Option.bind_some]
        exact ⟨Option.isSome_some, passesFit⟩

/-- The formatted date of a timestamp is read back and counted as the days of the timestamp. -/
def CountsBack (timestamp : Nat) : Prop :=
  ∃ formatted year month day, formatTimestamp timestamp = some formatted ∧
    parseDate formatted = some (year, month, day) ∧
    countDays year month day = some (timestamp / 86400)

theorem countsBack {timestamp : Nat} (fits : timestamp < 2 ^ 64) : CountsBack timestamp := by
  obtain ⟨dt, found, denotes⟩ := DateTime.fromTimestamp_denotes fits
  have months := denotes.isDate.isMonth
  have days := denotes.isDate.isDay
  have time := denotes.isTime
  have sum := denotes.recomposes
  have sameDays : writtenDays dt.year dt.month dt.day = timestamp / 86400 := by
    rw [writtenDays, min_eq_left (by omega)]
    omega
  have passes := passes_le_writtenDays dt.year dt.month dt.day
  have dayFits : dt.day ≤ writtenDays dt.year dt.month dt.day + 1 := by
    rw [writtenDays, Gregorian.dayNumber]
    omega
  refine ⟨_, dt.year, dt.month, dt.day, by rw [formatTimestamp, found, Option.map_some],
    parseDate_formatted (by omega) (by omega) (by omega), ?_⟩
  rw [countDays_eq, sameDays, if_pos ⟨days.1, by omega⟩]

/-- Dates of timestamps are exact. Reading a text as a date keeps within 64 bits exactly when the day
is not 0 and not too late for its seconds. -/
theorem calendar_exact_safe_iff (timestamp nowSecs : UInt64) (dateStr : List Char) :
    ((∃ dt, DateTime.fromTimestamp timestamp.toNat = some dt ∧ dt.Denotes timestamp.toNat) ∧
      CountsBack timestamp.toNat) ∧
    (ReturnsSafely nowSecs.toNat dateStr ↔ DayFits dateStr) :=
  ⟨⟨DateTime.fromTimestamp_denotes timestamp.toNat_lt, countsBack timestamp.toNat_lt⟩,
    returnsSafely_iff nowSecs.toNat dateStr⟩

theorem dayZero_underflows : ¬ ReturnsSafely 0 "2024-01-00".toList := by
  intro safely
  have stays : (parseAndFormatRelativeTime 0 "2024-01-00".toList).isSome = false := by
    decide +kernel
  rw [safely.1] at stays
  exact Bool.noConfusion stays

end Inference.Infs

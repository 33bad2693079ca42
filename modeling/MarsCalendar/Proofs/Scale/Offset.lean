import MarsCalendar.Proofs.Julian.YearStart
import MarsCalendar.Scale.Offset

set_option autoImplicit false

/-! The offsets of the scales over the rationals, era by era: what TT - UTC and TAI - UTC
are at a Julian date whose year is known. -/

namespace MarsCalendar.Scale

open Civil (YearMonth)
open Gregorian (daysBeforeYear)
open Julian (FitsYear civilDate le_year_iff year_lt_iff yearMonth yearStart
  yearStart_add_year_le yearStart_eq yearStart_le_yearStart)

theorem daysOfSeconds_eq (seconds : Rat) : daysOfSeconds seconds = seconds / 86400 := by
  unfold daysOfSeconds
  norm_num
  ring

theorem taiMinusUtc_eq (here : YearMonth) : (taiMinusUtc here : Rat) = 10 + here.leapSeconds := by
  change (((10 : Nat) : Int) : Rat) + (((here.leapSeconds : Nat) : Int) : Rat) = _
  norm_num

/-- TT - UTC before 1770, where it is told by the year. -/
def earlySeconds (year : Int) : Rat :=
  32 * ((1820 - year) / 100) ^ 2 - 20

theorem earlyOffset_eq (year : Int) : earlyOffset (year : Rat) = earlySeconds year := by
  unfold earlyOffset earlySeconds
  norm_num
  ring

def centuries (date : Rat) : Rat :=
  (date - 2451545) / 36525

/-- TT - UTC from 1770 until 1972, by the centuries from 2000. -/
def quartic (time : Rat) : Rat :=
  64.184 + 59 * time - 51.2 * time ^ 2 - 67.1 * time ^ 3 - 16.4 * time ^ 4

theorem middleOffset_eq (date : Rat) :
    middleOffset date = quartic (centuries date) := by
  unfold middleOffset quartic centuries Julian.j2000 Julian.daysPerCentury
  norm_num
  ring

/-! ### At a date -/

variable {date : Rat}

theorem monthOf?_eq (fits : FitsYear (civilDate date).year) :
    monthOf? date = some (yearMonth date) := by
  unfold monthOf?
  rw [Julian.toReading_eq, if_pos fits]
  rfl

theorem j2000_eq : (Julian.j2000 : Rat) = yearStart 2000 + 1 / 2 := by
  have days : daysBeforeYear 2000 = 730119 := by decide
  unfold Julian.j2000
  rw [yearStart_eq, days]
  norm_num

/-- Dates whose year cannot be told lie before or after all leap seconds. -/
theorem taiMinusUtcAt_eq (date : Rat) :
    taiMinusUtcAt date = 10 + ((yearMonth date).leapSeconds : Rat) := by
  unfold taiMinusUtcAt
  by_cases fits : FitsYear (civilDate date).year
  · rw [monthOf?_eq fits]
    exact taiMinusUtc_eq _
  · have untold : monthOf? date = none := by
      unfold monthOf?
      rw [Julian.toReading_eq, if_neg fits]
    unfold FitsYear at fits
    rw [untold]
    dsimp only
    by_cases late : 2017 ≤ (yearMonth date).year
    · have after : Julian.j2000 < date := by
        have begun : yearStart 2000 + 365 ≤ yearStart 2017 := yearStart_add_year_le (by decide)
        have reached := le_year_iff.mp late
        rw [j2000_eq]
        linarith
      rw [if_pos after, YearMonth.leapSeconds_of_late late]
      rfl
    · have early : (civilDate date).year < 1972 := by
        change ¬ 2017 ≤ (civilDate date).year at late
        omega
      have before : ¬ Julian.j2000 < date := by
        have begun : yearStart 1972 ≤ yearStart 2000 := yearStart_le_yearStart (by decide)
        have reached := year_lt_iff.mp early
        rw [j2000_eq]
        linarith
      rw [if_neg before, YearMonth.leapSeconds_of_early early, Nat.cast_zero, add_zero]
      rfl

theorem ttMinusUtcAt_eq (fits : FitsYear (civilDate date).year) :
    ttMinusUtcAt date = ttMinusUtc (yearMonth date) date := by
  unfold ttMinusUtcAt
  rw [monthOf?_eq fits]

theorem ttMinusUtcAt_early {year : Int} (first : -2147483648 ≤ year) (last : year < 1770)
    (inYear : (civilDate date).year = year) : ttMinusUtcAt date = earlySeconds year := by
  have early : (yearMonth date).year < 1770 := by
    change (civilDate date).year < 1770
    omega
  have fits : FitsYear (civilDate date).year := by
    unfold FitsYear
    omega
  rw [ttMinusUtcAt_eq fits]
  unfold ttMinusUtc
  rw [if_pos early]
  change earlyOffset ((civilDate date).year : Rat) = _
  rw [inYear, earlyOffset_eq]

theorem ttMinusUtcAt_middle (first : yearStart 1770 ≤ date) (last : date < yearStart 1972) :
    ttMinusUtcAt date = quartic (centuries date) := by
  have notEarly : ¬ (yearMonth date).year < 1770 := Int.not_lt.mpr (le_year_iff.mpr first)
  have notLate : (yearMonth date).year < 1972 := year_lt_iff.mpr last
  have fits : FitsYear (civilDate date).year := by
    change FitsYear (yearMonth date).year
    unfold FitsYear
    omega
  rw [ttMinusUtcAt_eq fits]
  unfold ttMinusUtc
  rw [if_neg notEarly, if_pos notLate, middleOffset_eq]

theorem ttMinusUtcAt_atomic (first : yearStart 1972 ≤ date)
    (fits : FitsYear (civilDate date).year) :
    ttMinusUtcAt date = 32.184 + taiMinusUtcAt date := by
  have late : 1972 ≤ (yearMonth date).year := le_year_iff.mpr first
  rw [ttMinusUtcAt_eq fits, taiMinusUtcAt_eq]
  unfold ttMinusUtc
  rw [if_neg (by omega), if_neg (by omega), taiMinusUtc_eq]
  rfl

end MarsCalendar.Scale

import MarsCalendar.Julian.Date
import MarsCalendar.Proofs.Julian.DayNumber
import MarsCalendar.Proofs.Scalar.Rational
import Mathlib.Tactic.NormNum

set_option autoImplicit false

/-! The calendar date of a Julian day over the rationals. Its nested floors are integer
divisions: the first finds the century, which makes the day one of a calendar with a leap
day every four years without exception, and the others find the year and the month
there. Put after the closed form of the day number they give the date back. -/

namespace MarsCalendar

theorem floor_of_fraction {value : Rat} (numerator : Int) (denominator : Nat)
    (isFraction : value = numerator / denominator) :
    (Scalar.floor value : Rat) = ((numerator / denominator : Int) : Rat) := by
  rw [isFraction]
  exact congrArg (Int.cast : Int → Rat) (Rat.floor_intCast_div_natCast numerator denominator)

theorem floor_of_whole {value : Rat} {whole : Int} (isWhole : value = whole) :
    (Scalar.floor value : Rat) = whole := by
  rw [isWhole]
  exact congrArg (Int.cast : Int → Rat) (Rat.floor_intCast whole)

namespace Julian

open Gregorian (Date IsLeapYear)

/-! ### The decoder in integers -/

def century (day : Int) : Int :=
  (4 * day - 7468865) / 146097

/-- The day counted on in a calendar that never leaves out a leap day. -/
def uniformDay (day : Int) : Int :=
  day + 1525 + century day - century day / 4

def uniformYear (day : Int) : Int :=
  (20 * day - 2442) / 7305

def dayOfUniformYear (day : Int) : Int :=
  day - uniformYear day * 1461 / 4

/-- The months of a year are told from 4 for March to 15 for the February after it. -/
def uniformMonth (day : Int) : Int :=
  dayOfUniformYear day * 10000 / 306001

def dayOfUniformMonth (day : Int) : Int :=
  dayOfUniformYear day - uniformMonth day * 306001 / 10000

def namedMonth (month : Int) : Int :=
  if 12 < month - 1 then month - 13 else month - 1

def namedYear (year month : Int) : Int :=
  if 2 < namedMonth month then year - 4716 else year - 4715

private theorem named_month_rat (month : Int) :
    (if (12.0 : Rat) < (month - 1 : Int) then ((month - 1 : Int) : Rat) - 12.0
      else ((month - 1 : Int) : Rat)) = namedMonth month := by
  have same : (12.0 : Rat) < (month - 1 : Int) ↔ 12 < month - 1 := by
    rw [show (12.0 : Rat) = ((12 : Int) : Rat) by norm_num, Rat.intCast_lt_intCast]
  unfold namedMonth
  by_cases winter : 12 < month - 1
  · rw [if_pos (same.mpr winter), if_pos winter]
    push_cast
    norm_num
    ring
  · rw [if_neg (fun late => winter (same.mp late)), if_neg winter]

private theorem named_year_rat (year month : Int) :
    (if (2.0 : Rat) < (namedMonth month : Rat) then ((year - 4715 : Int) : Rat) - 1.0
      else ((year - 4715 : Int) : Rat)) = namedYear year month := by
  have same : (2.0 : Rat) < (namedMonth month : Rat) ↔ 2 < namedMonth month := by
    rw [show (2.0 : Rat) = ((2 : Int) : Rat) by norm_num, Rat.intCast_lt_intCast]
  unfold namedYear
  by_cases spring : 2 < namedMonth month
  · rw [if_pos (same.mpr spring), if_pos spring]
    push_cast
    norm_num
    ring
  · rw [if_neg (fun late => spring (same.mp late)), if_neg spring]

theorem calendarDay_intCast (day : Int) :
    calendarDay (day : Rat) =
      let uniform := uniformDay day
      ((namedYear (uniformYear uniform) (uniformMonth uniform) : Rat),
        (namedMonth (uniformMonth uniform) : Rat), (dayOfUniformMonth uniform : Rat)) := by
  -- Every floor of the decoder is taken of a fraction of integers, and so is a quotient.
  have centuryIs : (Scalar.floor ((((day : Rat) - 1867216.0) - 0.25) / 36524.25) : Rat) =
      century day := by
    apply floor_of_fraction _ 146097
    push_cast
    norm_num
    ring
  have leapCenturies : (Scalar.floor ((0.25 : Rat) * century day) : Rat) =
      (century day / 4 : Int) := by
    apply floor_of_fraction _ 4
    push_cast
    norm_num
    ring
  have shiftedIs : (day : Rat) + 1.0 + century day - (century day / 4 : Int) + 1524.0 =
      uniformDay day := by
    unfold uniformDay
    push_cast
    norm_num
    ring
  simp only [calendarDay]
  rw [centuryIs, leapCenturies, shiftedIs]
  generalize uniformDay day = uniform
  have yearIs : (Scalar.floor ((6680.0 : Rat) + (((uniform : Rat) - 2439870.0) - 122.1) / 365.25)
      : Rat) = uniformYear uniform := by
    apply floor_of_fraction _ 7305
    push_cast
    norm_num
    ring
  have startIs : (Scalar.floor ((uniformYear uniform : Rat) * 365.25) : Rat) =
      (uniformYear uniform * 1461 / 4 : Int) := by
    apply floor_of_fraction _ 4
    push_cast
    norm_num
    ring
  have placeIs : (uniform : Rat) - (uniformYear uniform * 1461 / 4 : Int) =
      dayOfUniformYear uniform := by
    unfold dayOfUniformYear
    push_cast
    rfl
  rw [yearIs, startIs, placeIs]
  have monthIs : (Scalar.floor ((dayOfUniformYear uniform : Rat) / 30.6001) : Rat) =
      uniformMonth uniform := by
    apply floor_of_fraction _ 306001
    push_cast
    norm_num
    ring
  have monthStartIs : (Scalar.floor ((uniformMonth uniform : Rat) * 30.6001) : Rat) =
      (uniformMonth uniform * 306001 / 10000 : Int) := by
    apply floor_of_fraction _ 10000
    push_cast
    norm_num
    ring
  rw [monthIs, monthStartIs]
  have dayIs : (Scalar.floor ((dayOfUniformYear uniform : Rat) -
      (uniformMonth uniform * 306001 / 10000 : Int)) : Rat) = dayOfUniformMonth uniform := by
    apply floor_of_whole
    unfold dayOfUniformMonth
    push_cast
    norm_num
  have rawMonthIs : (Scalar.floor ((uniformMonth uniform : Rat) - 1.0) : Rat) =
      (uniformMonth uniform - 1 : Int) := by
    apply floor_of_whole
    push_cast
    norm_num
  have rawYearIs : (Scalar.floor ((uniformYear uniform : Rat) - 4715.0) : Rat) =
      (uniformYear uniform - 4715 : Int) := by
    apply floor_of_whole
    push_cast
    norm_num
  rw [dayIs, rawMonthIs, rawYearIs, named_month_rat, named_year_rat]

/-! ### The decoder undoes the closed form -/

theorem century_of_march {year place : Int} (first : 1 ≤ place) (last : place ≤ 366)
    (leap : place = 366 → IsLeapYear (year + 1)) :
    century (daysBeforeMarchYear year + place + 1721119) = year / 100 - 4 := by
  -- Only the last of four centuries ends with a leap day, which its mean length makes room for.
  obtain ⟨era, part, rest, parts, partBounds, restBounds⟩ : ∃ era part rest : Int,
      year = 400 * era + 100 * part + rest ∧ (0 ≤ part ∧ part ≤ 3) ∧ 0 ≤ rest ∧ rest ≤ 99 :=
    ⟨year / 400, year % 400 / 100, year % 100, by omega, by omega, by omega⟩
  have full : place = 366 → rest = 99 → part = 3 := by
    intro filled ended
    have leapYear := leap filled
    unfold IsLeapYear at leapYear
    omega
  have fourths : year / 4 = 100 * era + 25 * part + rest / 4 := by omega
  have hundredths : year / 100 = 4 * era + part := by omega
  have eras : year / 400 = era := by omega
  unfold century daysBeforeMarchYear
  rw [fourths, hundredths, eras, parts]
  omega

theorem uniformDay_of_march {year place : Int} (first : 1 ≤ place) (last : place ≤ 366)
    (leap : place = 366 → IsLeapYear (year + 1)) :
    uniformDay (daysBeforeMarchYear year + place + 1721119) =
      365 * year + year / 4 + place + 1722641 := by
  unfold uniformDay
  rw [century_of_march first last leap]
  unfold daysBeforeMarchYear
  omega

theorem uniformYear_of_march (year : Int) {place : Int} (first : 1 ≤ place) (last : place ≤ 366)
    (leap : place = 366 → year % 4 = 3) :
    uniformYear (365 * year + year / 4 + place + 1722641) = year + 4716 ∧
      dayOfUniformYear (365 * year + year / 4 + place + 1722641) = place + 122 := by
  have found : uniformYear (365 * year + year / 4 + place + 1722641) = year + 4716 := by
    unfold uniformYear
    omega
  refine ⟨found, ?_⟩
  unfold dayOfUniformYear
  rw [found]
  omega

theorem uniformMonth_of_march {month day : Nat} (inYear : month ≤ 11) (first : 1 ≤ day)
    (last : daysBeforeMarchMonth month + day ≤ daysBeforeMarchMonth (month + 1))
    (inLast : daysBeforeMarchMonth month + day ≤ 366) (uniform : Int)
    (placed : dayOfUniformYear uniform = ((daysBeforeMarchMonth month + day : Nat) : Int) + 122) :
    uniformMonth uniform = month + 4 ∧ dayOfUniformMonth uniform = day := by
  have found : uniformMonth uniform = month + 4 := by
    unfold uniformMonth
    rw [placed]
    unfold daysBeforeMarchMonth at *
    interval_cases month <;> omega
  refine ⟨found, ?_⟩
  unfold dayOfUniformMonth
  rw [found, placed]
  unfold daysBeforeMarchMonth
  interval_cases month <;> omega

theorem namedMonth_of_march {month : Nat} (named : 1 ≤ month ∧ month ≤ 12) :
    namedMonth (marchMonth month + 4) = month := by
  unfold namedMonth marchMonth
  split <;> omega

theorem namedYear_of_march {date : Date} (named : 1 ≤ date.month ∧ date.month ≤ 12) :
    namedYear (marchYear date + 4716) (marchMonth date.month + 4) = date.year := by
  unfold namedYear marchYear
  rw [namedMonth_of_march named]
  split <;> split <;> omega

theorem calendarDay_dayNumber {date : Date} (valid : date.Valid) :
    calendarDay ((date.dayNumber + unixEpochDay : Int) : Rat) =
      ((date.year : Rat), (date.month : Rat), (date.day : Rat)) := by
  obtain ⟨first, last, leap⟩ := dayOfMarchYear_bounds valid
  obtain ⟨named, dayLow, dayHigh⟩ := valid
  have firstCast : (1 : Int) ≤ dayOfMarchYear date := by omega
  have lastCast : (dayOfMarchYear date : Int) ≤ 366 := by omega
  have leapCast : (dayOfMarchYear date : Int) = 366 → IsLeapYear (marchYear date + 1) :=
    fun full => leap (by omega)
  have uniform := uniformDay_of_march firstCast lastCast leapCast
  obtain ⟨year, place⟩ := uniformYear_of_march (marchYear date) firstCast lastCast
    (fun full => by
      have leapYear := leapCast full
      unfold IsLeapYear at leapYear
      omega)
  have month : marchMonth date.month ≤ 11 := by
    unfold marchMonth
    omega
  have inMonth : daysBeforeMarchMonth (marchMonth date.month) + date.day ≤
      daysBeforeMarchMonth (marchMonth date.month + 1) := by
    by_cases february : date.month = 2
    · have atMost := (february_le date.year).1
      rw [february] at dayHigh ⊢
      have months : daysBeforeMarchMonth (marchMonth 2) = 337 ∧
        daysBeforeMarchMonth (marchMonth 2 + 1) = 367 := ⟨rfl, rfl⟩
      omega
    · have ended := daysInMonth_of_march date.year named february
      omega
  obtain ⟨monthIs, dayIs⟩ := uniformMonth_of_march month dayLow inMonth last _ place
  rw [← dayNumber_eq named, dayNumber_eq_march named, calendarDay_intCast]
  dsimp only
  rw [uniform, year, monthIs, dayIs, namedYear_of_march named, namedMonth_of_march named,
    Int.cast_natCast, Int.cast_natCast]

end Julian

end MarsCalendar

import MarsCalendar.Gregorian.Lemmas
import MarsCalendar.Julian.DayNumber
import Mathlib.Tactic.IntervalCases

set_option autoImplicit false

/-! The Julian day number in closed form and the day number counted by years and months
are the same count from two different days. A year that begins in March has its leap day
at its end, and its months repeat every five; a date is placed in such a year, and both
numbers are read off that place. -/

namespace MarsCalendar.Julian

open Gregorian (Date IsLeapYear daysBeforeYear daysBeforeMonth daysInMonth)

/-! ### Years that begin in March -/

def marchYear (date : Date) : Int :=
  if date.month ≤ 2 then date.year - 1 else date.year

/-- Months since March: 0 for March, 11 for February. -/
def marchMonth (month : Nat) : Nat :=
  (month + 9) % 12

def daysBeforeMarchMonth (month : Nat) : Nat :=
  (153 * month + 2) / 5

def dayOfMarchYear (date : Date) : Nat :=
  daysBeforeMarchMonth (marchMonth date.month) + date.day

def daysBeforeMarchYear (year : Int) : Int :=
  365 * year + year / 4 - year / 100 + year / 400

theorem daysInMonth_of_march (year : Int) {month : Nat} (named : 1 ≤ month ∧ month ≤ 12)
    (notLast : month ≠ 2) :
    daysBeforeMarchMonth (marchMonth month) + daysInMonth year month =
      daysBeforeMarchMonth (marchMonth month + 1) := by
  obtain ⟨first, last⟩ := named
  interval_cases month <;> first | rfl | exact absurd rfl notLast

theorem february_le (year : Int) :
    daysInMonth year 2 ≤ 29 ∧ (daysInMonth year 2 = 29 → IsLeapYear year) := by
  unfold daysInMonth
  by_cases leap : IsLeapYear year
  · rw [if_pos leap]
    exact ⟨Nat.le_refl _, fun _ => leap⟩
  · rw [if_neg leap]
    exact ⟨by decide, fun full => absurd full (by decide)⟩

theorem dayOfMarchYear_bounds {date : Date} (valid : date.Valid) :
    1 ≤ dayOfMarchYear date ∧ dayOfMarchYear date ≤ 366 ∧
      (dayOfMarchYear date = 366 → IsLeapYear (marchYear date + 1)) := by
  obtain ⟨named, dayLow, dayHigh⟩ := valid
  unfold dayOfMarchYear
  by_cases last : date.month = 2
  · obtain ⟨atMost, leap⟩ := february_le date.year
    have elapsed : daysBeforeMarchMonth (marchMonth 2) = 337 := rfl
    have year : marchYear date + 1 = date.year := by
      unfold marchYear
      rw [last, if_pos (by decide)]
      omega
    rw [last] at dayHigh ⊢
    rw [year]
    exact ⟨by omega, by omega, fun full => leap (by omega)⟩
  · have ended := daysInMonth_of_march date.year named last
    have before : marchMonth date.month + 1 ≤ 11 := by
      unfold marchMonth
      omega
    have short : daysBeforeMarchMonth (marchMonth date.month + 1) ≤ 337 := by
      unfold daysBeforeMarchMonth
      omega
    omega

/-! ### Two counts of days -/

theorem dayNumber_eq_march {date : Date} (named : 1 ≤ date.month ∧ date.month ≤ 12) :
    dayNumber date.year date.month date.day =
      daysBeforeMarchYear (marchYear date) + dayOfMarchYear date + 1721119 := by
  obtain ⟨first, last⟩ := named
  simp only [dayNumber, marchYear, marchMonth, dayOfMarchYear, daysBeforeMarchMonth,
    daysBeforeMarchYear]
  rw [Int.tdiv_eq_ediv_of_nonneg (by omega)]
  by_cases winter : date.month ≤ 2
  · have carried : (14 - (date.month : Int)) / 12 = 1 := by omega
    rw [carried, if_pos winter]
    omega
  · have carried : (14 - (date.month : Int)) / 12 = 0 := by omega
    rw [carried, if_neg winter]
    omega

theorem daysBeforeMonth_of_march (year : Int) {month : Nat} (spring : 3 ≤ month)
    (inYear : month ≤ 12) :
    daysBeforeMonth year month =
      daysBeforeMarchMonth (marchMonth month) + 31 + daysInMonth year 2 := by
  interval_cases month <;>
    simp only [daysBeforeMonth, daysInMonth, daysBeforeMarchMonth, marchMonth] <;> omega

theorem daysBeforeMarchYear_eq (year : Int) :
    daysBeforeMarchYear year = daysBeforeYear year + 337 + daysInMonth year 2 := by
  have next := Gregorian.daysBeforeYear_succ year
  have february : Gregorian.daysInYear year = 337 + daysInMonth year 2 := by
    simp only [Gregorian.daysInYear, daysInMonth]
    split <;> rfl
  have shifted : daysBeforeYear (year + 1) = daysBeforeMarchYear year := by
    simp only [daysBeforeYear, daysBeforeMarchYear, Int.add_sub_cancel]
  omega

theorem dayNumber_eq {date : Date} (named : 1 ≤ date.month ∧ date.month ≤ 12) :
    dayNumber date.year date.month date.day = date.dayNumber + unixEpochDay := by
  rw [dayNumber_eq_march named]
  obtain ⟨first, last⟩ := named
  unfold Date.dayNumber unixEpochDay Gregorian.epochOffset dayOfMarchYear marchYear
  by_cases winter : date.month ≤ 2
  · have shifted : daysBeforeMarchYear (date.year - 1) = daysBeforeYear date.year := rfl
    have months : daysBeforeMonth date.year date.month = 31 * (date.month - 1) := by
      obtain january | february : date.month = 1 ∨ date.month = 2 := by omega
      · rw [january]
        rfl
      · rw [february]
        rfl
    rw [if_pos winter, shifted, months]
    unfold daysBeforeMarchMonth marchMonth
    omega
  · have months := daysBeforeMonth_of_march date.year (by omega) last
    have years := daysBeforeMarchYear_eq date.year
    rw [if_neg winter, months]
    omega

end MarsCalendar.Julian

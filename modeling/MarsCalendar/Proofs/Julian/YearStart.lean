import MarsCalendar.Proofs.Civil.LeapSecond
import MarsCalendar.Proofs.Julian.RoundTrip

set_option autoImplicit false

/-! The years and months in which Julian dates fall, over the rationals. A date falls in a
year exactly from the start of that year until the start of the next, and within a day it
gets into the next month at most; so the leap seconds before a date grow by one at most
within a day. -/

namespace MarsCalendar.Julian

open Civil (Clock Reading YearMonth)
open Gregorian (Date daysBeforeYear daysInYear)

/-! ### Years -/

def yearStart (year : Int) : Rat :=
  ofReading ⟨⟨year, 1, 1⟩, Clock.midnight, none⟩

theorem yearStart_eq (year : Int) :
    yearStart year = ((daysBeforeYear year + 1721426 : Int) : Rat) - 1 / 2 := by
  have valid : (⟨year, 1, 1⟩ : Date).Valid := Date.first_valid year (by decide)
  have microseconds : unixMicroseconds ⟨⟨year, 1, 1⟩, Clock.midnight, none⟩ =
      (daysBeforeYear year - 719162) * 86400000000 := by
    unfold unixMicroseconds Reading.unixSeconds Date.dayNumber Gregorian.epochOffset
    have none : Gregorian.daysBeforeMonth year 1 = 0 := rfl
    have noOffset : Reading.offsetSeconds ⟨⟨year, 1, 1⟩, Clock.midnight, .none⟩ = 0 := rfl
    have midnight : Clock.midnight.storedSeconds = 0 := rfl
    have whole : Clock.midnight.microsecond = 0 := rfl
    rw [noOffset]
    dsimp only
    rw [none, midnight, whole]
    omega
  unfold yearStart
  rw [ofReading_eq valid (Nat.zero_le 59), microseconds]
  push_cast
  ring

theorem yearStart_le_yearStart {first last : Int} (ordered : first ≤ last) :
    yearStart first ≤ yearStart last := by
  have days := Gregorian.daysBeforeYear_mono first last ordered
  rw [yearStart_eq, yearStart_eq]
  have cast : ((daysBeforeYear first + 1721426 : Int) : Rat) ≤
      (daysBeforeYear last + 1721426 : Int) := by
    exact_mod_cast Int.add_le_add_right days _
  linarith

theorem yearStart_succ (year : Int) : yearStart year + 365 ≤ yearStart (year + 1) := by
  have length : 365 ≤ daysInYear year := by
    unfold daysInYear
    split <;> decide
  rw [yearStart_eq, yearStart_eq, Gregorian.daysBeforeYear_succ]
  have cast : (365 : Rat) ≤ (daysInYear year : Rat) := by exact_mod_cast length
  push_cast
  linarith

theorem yearStart_add_year_le {first last : Int} (ordered : first < last) :
    yearStart first + 365 ≤ yearStart last :=
  (yearStart_succ first).trans (yearStart_le_yearStart ordered)

theorem le_midnightDay_iff {day : Int} {date : Rat} :
    day ≤ midnightDay date ↔ (day : Rat) - 1 / 2 ≤ date := by
  unfold midnightDay
  rw [Rat.le_floor_iff]
  constructor <;> intro bound <;> linarith

theorem civilDate_valid (date : Rat) : (civilDate date).Valid :=
  Date.ofDayNumber_valid _

theorem le_year_iff {year : Int} {date : Rat} :
    year ≤ (civilDate date).year ↔ yearStart year ≤ date := by
  obtain ⟨low, high⟩ := (civilDate date).dayNumber_inYear (civilDate_valid date)
  have number : (civilDate date).dayNumber = midnightDay date - unixEpochDay :=
    Date.dayNumber_ofDayNumber _
  rw [number] at low high
  rw [yearStart_eq, ← le_midnightDay_iff]
  unfold unixEpochDay Gregorian.epochOffset at low high
  constructor
  · intro later
    have days := Gregorian.daysBeforeYear_mono _ _ later
    omega
  · intro begun
    refine Int.not_lt.mp fun earlier => ?_
    have days := Gregorian.daysBeforeYear_mono ((civilDate date).year + 1) year earlier
    omega

theorem year_lt_iff {year : Int} {date : Rat} :
    (civilDate date).year < year ↔ date < yearStart year := by
  rw [← Int.not_le, le_year_iff, not_le]

theorem year_eq_iff {year : Int} {date : Rat} :
    (civilDate date).year = year ↔ yearStart year ≤ date ∧ date < yearStart (year + 1) := by
  rw [← le_year_iff, ← year_lt_iff]
  omega

/-! ### Months -/

def yearMonth (date : Rat) : YearMonth :=
  ⟨(civilDate date).year, (civilDate date).month⟩

theorem yearMonth_named (date : Rat) : (yearMonth date).Named :=
  (civilDate_valid date).1

theorem civilDate_of_near {date later : Rat} (ordered : date ≤ later) (near : later < date + 1) :
    civilDate later = civilDate date ∨ civilDate later = (civilDate date).next := by
  obtain ⟨low, high⟩ := midnightDay_bounds date
  have atLeast : midnightDay date ≤ midnightDay later := by
    rw [le_midnightDay_iff]
    linarith
  have atMost : ¬ midnightDay date + 2 ≤ midnightDay later := by
    rw [le_midnightDay_iff, not_le]
    push_cast
    linarith
  have valid := civilDate_valid date
  rcases Int.lt_or_eq_of_le atLeast with after | same
  · right
    refine Date.eq_of_dayNumber_eq _ _ (civilDate_valid later) (Date.next_valid valid) ?_
    rw [Date.dayNumber_next _ valid]
    unfold civilDate
    rw [Date.dayNumber_ofDayNumber, Date.dayNumber_ofDayNumber]
    omega
  · left
    unfold civilDate
    rw [same]

theorem yearMonth_of_near {date later : Rat} (ordered : date ≤ later) (near : later < date + 1) :
    yearMonth later = yearMonth date ∨ yearMonth later = (yearMonth date).next := by
  unfold yearMonth
  rcases civilDate_of_near ordered near with same | after
  · left
    rw [same]
  · rw [after]
    unfold Date.next
    split
    · right
      unfold Date.nextMonth YearMonth.next
      dsimp only
      split <;> rfl
    · left
      rfl

theorem leapSeconds_of_near (date later : Rat) (ordered : date ≤ later)
    (near : later < date + 1) :
    (yearMonth later).leapSeconds = (yearMonth date).leapSeconds ∨
      (yearMonth later).leapSeconds = (yearMonth date).leapSeconds + 1 := by
  rcases yearMonth_of_near ordered near with same | after
  · left
    rw [same]
  · rw [after, YearMonth.leapSeconds_next (yearMonth_named date)]
    split
    · right
      rfl
    · left
      rfl

end MarsCalendar.Julian

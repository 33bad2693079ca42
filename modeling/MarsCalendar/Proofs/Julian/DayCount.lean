import MarsCalendar.Proofs.Julian.DayNumber

set_option autoImplicit false

/-! The Julian day number counts days. Counted from 1970-01-01 by the lengths of the years, of the
months and by the day of the month, backwards for earlier years, the days are what the closed form
gives. So the next date has the next number, and dates are ordered and told apart by it. -/

namespace MarsCalendar

/-! ### Counting by lengths -/

namespace Gregorian

def daysOfYears (first : Int) (count : Nat) : Int :=
  ((List.range count).map fun later : Nat => (daysInYear (first + later) : Int)).sum

theorem daysOfYears_eq (first : Int) (count : Nat) :
    daysOfYears first count = daysBeforeYear (first + count) - daysBeforeYear first := by
  induction count with
  | zero =>
      rw [Int.natCast_zero, Int.add_zero, Int.sub_self]
      rfl
  | succ count ih =>
      have last := daysBeforeYear_succ (first + count)
      unfold daysOfYears at ih ⊢
      rw [List.range_succ, List.map_append, List.sum_append, ih, List.map_singleton,
        List.sum_singleton, Int.natCast_succ, ← Int.add_assoc, last]
      omega

/-- The days from the start of 1970 to the start of a year, year by year: those of the years that
have passed, less those of the years still to come. -/
def daysFrom1970 (year : Int) : Int :=
  daysOfYears 1970 (year - 1970).toNat - daysOfYears year (1970 - year).toNat

theorem daysFrom1970_eq (year : Int) : daysFrom1970 year = daysBeforeYear year - epochOffset := by
  have epoch : daysBeforeYear 1970 = epochOffset := rfl
  unfold daysFrom1970
  rw [daysOfYears_eq, daysOfYears_eq, epoch]
  obtain later | earlier := Int.le_total 1970 year
  · have passed : (1970 : Int) + (year - 1970).toNat = year := by omega
    have ahead : year + ((1970 - year).toNat : Int) = year := by omega
    rw [passed, ahead]
    omega
  · have passed : (1970 : Int) + (year - 1970).toNat = 1970 := by omega
    have ahead : year + ((1970 - year).toNat : Int) = 1970 := by omega
    rw [passed, ahead, epoch]
    omega

namespace Date

/-- The days from 1970-01-01 to a date, counted by the lengths of years and months. -/
def daysSince1970 (date : Date) : Int :=
  daysFrom1970 date.year + daysBeforeMonth date.year date.month + ((date.day : Int) - 1)

theorem daysSince1970_eq (date : Date) : date.daysSince1970 = date.dayNumber := by
  unfold daysSince1970 dayNumber
  rw [daysFrom1970_eq]
  omega

/-! ### The order of dates -/

def Before (left right : Date) : Prop :=
  left.year < right.year ∨ (left.year = right.year ∧
    (left.month < right.month ∨ (left.month = right.month ∧ left.day < right.day)))

instance (left right : Date) : Decidable (left.Before right) :=
  inferInstanceAs (Decidable (_ ∨ _))

theorem before_trichotomy (left right : Date) :
    left.Before right ∨ left = right ∨ right.Before left := by
  cases left
  cases right
  unfold Before
  dsimp only
  rw [Date.mk.injEq]
  omega

theorem dayNumber_lt_of_before {left right : Date} (leftValid : left.Valid)
    (rightValid : right.Valid) (before : left.Before right) :
    left.dayNumber < right.dayNumber := by
  obtain ⟨leftLow, leftHigh⟩ := dayNumber_inYear left leftValid
  obtain ⟨rightLow, rightHigh⟩ := dayNumber_inYear right rightValid
  obtain ⟨-, -, leftDay⟩ := leftValid
  obtain ⟨-, rightDay, -⟩ := rightValid
  rcases before with year | ⟨year, month | ⟨month, day⟩⟩
  · have ordered := daysBeforeYear_mono (left.year + 1) right.year year
    omega
  · have ordered := daysBeforeMonth_mono right.year (left.month + 1) right.month month
    rw [daysBeforeMonth_succ] at ordered
    rw [year] at leftDay
    unfold dayNumber
    rw [year]
    omega
  · unfold dayNumber
    rw [year, month]
    omega

theorem dayNumber_lt_iff {left right : Date} (leftValid : left.Valid) (rightValid : right.Valid) :
    left.dayNumber < right.dayNumber ↔ left.Before right := by
  refine ⟨fun less => ?_, dayNumber_lt_of_before leftValid rightValid⟩
  rcases before_trichotomy left right with before | same | after
  · exact before
  · rw [same] at less
    exact absurd less (Int.lt_irrefl _)
  · have more := dayNumber_lt_of_before rightValid leftValid after
    omega

end Date

end Gregorian

/-! ### The Julian day number -/

namespace Julian

open Gregorian (Date)

/-- The Julian day number of a real date is the one of 1970-01-01 and the days since then, by the
lengths of years and months. The next date has the next number; two dates have the same number if
they are the same, and the lesser number belongs to the earlier date. -/
theorem dayNumber_counts_days :
    (∀ date : Date, date.Valid →
      dayNumber date.year date.month date.day = 2440588 + date.daysSince1970) ∧
    (∀ date : Date, date.Valid → date.next.Valid ∧
      dayNumber date.next.year date.next.month date.next.day =
        dayNumber date.year date.month date.day + 1) ∧
    ∀ left right : Date, left.Valid → right.Valid →
      (dayNumber left.year left.month left.day = dayNumber right.year right.month right.day ↔
        left = right) ∧
      (dayNumber left.year left.month left.day < dayNumber right.year right.month right.day ↔
        left.Before right) := by
  refine ⟨?_, ?_, ?_⟩
  · intro date valid
    rw [dayNumber_eq valid.1, Date.daysSince1970_eq]
    exact Int.add_comm _ _
  · intro date valid
    have following := Date.next_valid valid
    refine ⟨following, ?_⟩
    rw [dayNumber_eq valid.1, dayNumber_eq following.1, Date.dayNumber_next date valid]
    omega
  · intro left right leftValid rightValid
    rw [dayNumber_eq leftValid.1, dayNumber_eq rightValid.1, Int.add_left_inj, Int.add_lt_add_iff_right]
    refine ⟨⟨?_, fun same => by rw [same]⟩, Date.dayNumber_lt_iff leftValid rightValid⟩
    exact Date.eq_of_dayNumber_eq left right leftValid rightValid

/-- The last day of year -1 and the first of year 0, a leap year; the last days of February of a
common century; and a date before 1970. -/
theorem dayNumber_counts_days_at_ends :
    let last : Date := ⟨-1, 12, 31⟩
    let century : Date := ⟨1900, 2, 28⟩
    last.Valid ∧ century.Valid ∧ last.next = ⟨0, 1, 1⟩ ∧ century.next = ⟨1900, 3, 1⟩ ∧
      dayNumber 0 1 1 = dayNumber (-1) 12 31 + 1 ∧
      dayNumber 1900 3 1 = dayNumber 1900 2 28 + 1 ∧
      dayNumber 1969 12 31 = 2440588 + Date.daysSince1970 ⟨1969, 12, 31⟩ ∧
      (dayNumber (-1) 12 31 < dayNumber 1900 2 28 ↔ last.Before century) := by
  intro last century
  have lastValid : last.Valid := by decide
  have centuryValid : century.Valid := by decide
  obtain ⟨counted, next, ordered⟩ := dayNumber_counts_days
  exact ⟨lastValid, centuryValid, by decide, by decide, (next last lastValid).2,
    (next century centuryValid).2, counted ⟨1969, 12, 31⟩ (by decide),
    (ordered last century lastValid centuryValid).2⟩

end Julian

end MarsCalendar

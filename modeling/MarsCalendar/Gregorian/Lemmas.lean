import MarsCalendar.Gregorian.DayNumber

set_option autoImplicit false

/-! Day numbers count days: the next day of the calendar has the next number, a day number
and a real date determine each other, and the days that can be told are whole years. -/

namespace MarsCalendar.Gregorian

theorem daysBeforeYear_succ (year : Int) :
    daysBeforeYear (year + 1) = daysBeforeYear year + daysInYear year := by
  have fourth : (year + 1 - 1) / 4 = (year - 1) / 4 + if year % 4 = 0 then 1 else 0 := by omega
  have hundredth : (year + 1 - 1) / 100 = (year - 1) / 100 + if year % 100 = 0 then 1 else 0 := by
    omega
  have era : (year + 1 - 1) / 400 = (year - 1) / 400 + if year % 400 = 0 then 1 else 0 := by omega
  have hundredFour : year % 100 = 0 → year % 4 = 0 := by omega
  have eraHundred : year % 400 = 0 → year % 100 = 0 := by omega
  simp only [daysBeforeYear, daysInYear, IsLeapYear, fourth, hundredth, era]
  by_cases four : year % 4 = 0 <;> by_cases hundred : year % 100 = 0 <;>
    by_cases whole : year % 400 = 0 <;> simp_all <;> omega

theorem daysBeforeMonth_succ (year : Int) (month : Nat) :
    daysBeforeMonth year (month + 1) = daysBeforeMonth year month + daysInMonth year month := rfl

theorem daysBeforeMonth_thirteen (year : Int) :
    daysBeforeMonth year 13 = daysInYear year := by
  simp only [daysBeforeMonth, daysInMonth, daysInYear]
  split <;> rfl

theorem daysBeforeYear_mono (first last : Int) (ordered : first ≤ last) :
    daysBeforeYear first ≤ daysBeforeYear last := by
  simp only [daysBeforeYear]
  omega

theorem daysBeforeMonth_mono (year : Int) (first last : Nat) (ordered : first ≤ last) :
    daysBeforeMonth year first ≤ daysBeforeMonth year last := by
  obtain ⟨extra, reached⟩ := Nat.exists_eq_add_of_le ordered
  rw [reached]
  clear reached ordered
  induction extra with
  | zero => exact Nat.le_refl _
  | succ extra ih =>
      rw [← Nat.add_assoc, daysBeforeMonth_succ]
      omega

theorem Date.dayNumber_next (date : Date) (valid : date.Valid) :
    date.next.dayNumber = date.dayNumber + 1 := by
  obtain ⟨⟨monthLow, monthHigh⟩, dayLow, dayHigh⟩ := valid
  unfold Date.next
  by_cases last : date.IsMonthEnd
  · rw [if_pos last]
    unfold Date.IsMonthEnd at last
    unfold Date.nextMonth
    by_cases december : date.month = 12
    · rw [if_pos december]
      have filled := daysBeforeMonth_thirteen date.year
      rw [daysBeforeMonth_succ, ← december, ← last] at filled
      simp only [Date.dayNumber, daysBeforeYear_succ]
      have none : daysBeforeMonth (date.year + 1) 1 = 0 := rfl
      omega
    · rw [if_neg december]
      simp only [Date.dayNumber, daysBeforeMonth_succ]
      omega
  · rw [if_neg last]
    simp only [Date.dayNumber]
    omega

theorem daysBeforeYear_yearOfDay (day : Int) :
    daysBeforeYear (yearOfDay day).1 + (yearOfDay day).2 = day ∧
      (yearOfDay day).2 < daysInYear (yearOfDay day).1 := by
  simp only [yearOfDay]
  generalize eras : day / 146097 = era, inEra : day % 146097 = rest
  have dayParts : day = 146097 * era + rest := by omega
  have restBounds : 0 ≤ rest ∧ rest < 146097 := by omega
  generalize centuryEq : min (rest / 36524) 3 = century
  have centuryBounds : 0 ≤ century ∧ century ≤ 3 := by omega
  generalize centuryRest : rest - 36524 * century = inCentury
  have inCenturyBounds : 0 ≤ inCentury ∧ inCentury ≤ 36524 ∧
      (inCentury = 36524 → century = 3) := by omega
  generalize fourEq : inCentury / 1461 = four, fourRest : inCentury % 1461 = inFour
  have centuryParts : inCentury = 1461 * four + inFour := by omega
  have fourBounds : 0 ≤ four ∧ four ≤ 24 ∧ 0 ≤ inFour ∧ inFour < 1461 := by omega
  generalize yearsEq : min (inFour / 365) 3 = years
  have yearsBounds : 0 ≤ years ∧ years ≤ 3 ∧ 0 ≤ inFour - 365 * years ∧
      inFour - 365 * years ≤ 365 ∧ (inFour - 365 * years = 365 → years = 3) := by omega
  -- From here on only the bounds of the quotients count, not how they were found.
  clear eras inEra centuryEq yearsEq fourEq fourRest
  constructor
  · have elapsed : 400 * era + 100 * century + 4 * four + years + 1 - 1
        = 400 * era + 100 * century + 4 * four + years := by omega
    have fourth : (400 * era + 100 * century + 4 * four + years) / 4
        = 100 * era + 25 * century + four := by omega
    have hundredth : (400 * era + 100 * century + 4 * four + years) / 100
        = 4 * era + century := by omega
    have whole : (400 * era + 100 * century + 4 * four + years) / 400 = era := by omega
    simp only [daysBeforeYear, elapsed, fourth, hundredth, whole]
    omega
  · unfold daysInYear
    by_cases leap : IsLeapYear (400 * era + 100 * century + 4 * four + years + 1)
    · rw [if_pos leap]
      omega
    · rw [if_neg leap]
      have short : inFour - 365 * years ≠ 365 := by
        intro full
        apply leap
        have yearsThree := yearsBounds.2.2.2.2 full
        by_cases centuryEnd : four = 24
        · right
          have centuryThree : century = 3 := by omega
          omega
        · left
          omega
      omega

theorem daysBeforeMonth_walk (year : Int) (first count elapsed : Nat)
    (inside : daysBeforeMonth year first + elapsed < daysBeforeMonth year (first + count)) :
    let found := monthAndDay year (List.range' first count) elapsed
    daysBeforeMonth year found.1 + found.2 = daysBeforeMonth year first + elapsed + 1 ∧
      (first ≤ found.1 ∧ found.1 < first + count) ∧
      1 ≤ found.2 ∧ found.2 ≤ daysInMonth year found.1 := by
  induction count generalizing first elapsed with
  | zero => exact absurd inside (by simp only [Nat.add_zero]; omega)
  | succ count ih =>
      simp only [List.range'_succ, monthAndDay]
      by_cases here : elapsed < daysInMonth year first
      · rw [if_pos here]
        simp only
        omega
      · rw [if_neg here]
        have step := daysBeforeMonth_succ year first
        have shifted : first + 1 + count = first + (count + 1) := by omega
        have later := ih (first + 1) (elapsed - daysInMonth year first)
          (by rw [shifted]; omega)
        simp only at later
        omega

theorem daysBeforeMonth_monthAndDay (year : Int) (elapsed : Nat) (inYear : elapsed < daysInYear year) :
    let found := monthAndDay year months elapsed
    daysBeforeMonth year found.1 + found.2 = elapsed + 1 ∧
      (1 ≤ found.1 ∧ found.1 ≤ 12) ∧
      1 ≤ found.2 ∧ found.2 ≤ daysInMonth year found.1 := by
  have listed : months = List.range' 1 12 := rfl
  have none : daysBeforeMonth year 1 = 0 := rfl
  have found := daysBeforeMonth_walk year 1 12 elapsed (by
    rw [none, daysBeforeMonth_thirteen]
    omega)
  rw [none] at found
  simp only [listed] at found ⊢
  omega

namespace Date

theorem ofDayNumber_valid (number : Int) : (ofDayNumber number).Valid := by
  have year := daysBeforeYear_yearOfDay (number + epochOffset)
  have found := daysBeforeMonth_monthAndDay _ _ year.2
  exact ⟨found.2.1, found.2.2⟩

theorem dayNumber_ofDayNumber (number : Int) : (ofDayNumber number).dayNumber = number := by
  have year := daysBeforeYear_yearOfDay (number + epochOffset)
  have found := daysBeforeMonth_monthAndDay _ _ year.2
  simp only [dayNumber, ofDayNumber]
  simp only at found
  omega

theorem dayNumber_inYear (date : Date) (valid : date.Valid) :
    daysBeforeYear date.year ≤ date.dayNumber + epochOffset ∧
      date.dayNumber + epochOffset < daysBeforeYear (date.year + 1) := by
  obtain ⟨⟨monthLow, monthHigh⟩, dayLow, dayHigh⟩ := valid
  have upTo := daysBeforeMonth_mono date.year (date.month + 1) 13 (by omega)
  rw [daysBeforeMonth_thirteen, daysBeforeMonth_succ] at upTo
  rw [daysBeforeYear_succ]
  simp only [dayNumber]
  omega

theorem eq_of_dayNumber_eq (left right : Date) (leftValid : left.Valid)
    (rightValid : right.Valid) (same : left.dayNumber = right.dayNumber) : left = right := by
  have leftYear := dayNumber_inYear left leftValid
  have rightYear := dayNumber_inYear right rightValid
  have yearSame : left.year = right.year := by
    by_cases before : left.year < right.year
    · have ordered := daysBeforeYear_mono (left.year + 1) right.year before
      omega
    · by_cases after : right.year < left.year
      · have ordered := daysBeforeYear_mono (right.year + 1) left.year after
        omega
      · omega
  obtain ⟨leftMonths, leftLow, leftHigh⟩ := leftValid
  obtain ⟨rightMonths, rightLow, rightHigh⟩ := rightValid
  simp only [dayNumber, yearSame] at same
  rw [yearSame] at leftHigh
  have monthSame : left.month = right.month := by
    by_cases before : left.month < right.month
    · have ordered := daysBeforeMonth_mono right.year (left.month + 1) right.month before
      rw [daysBeforeMonth_succ] at ordered
      omega
    · by_cases after : right.month < left.month
      · have ordered := daysBeforeMonth_mono right.year (right.month + 1) left.month after
        rw [daysBeforeMonth_succ] at ordered
        omega
      · omega
  rw [monthSame] at same
  have daySame : left.day = right.day := by omega
  cases left
  cases right
  simp only at yearSame monthSame daySame
  rw [yearSame, monthSame, daySame]

theorem ofDayNumber_dayNumber (date : Date) (valid : date.Valid) :
    ofDayNumber date.dayNumber = date :=
  eq_of_dayNumber_eq _ _ (ofDayNumber_valid _) valid (dayNumber_ofDayNumber _)

end Date

/-! ### The months on either side -/

theorem daysInMonth_bounds (year : Int) (month : Nat) (named : 1 ≤ month ∧ month ≤ 12) :
    28 ≤ daysInMonth year month ∧ daysInMonth year month ≤ 31 := by
  obtain ⟨first, last⟩ := named
  unfold daysInMonth
  split <;> grind

namespace Date

theorem first_valid (year : Int) {month : Nat} (named : 1 ≤ month ∧ month ≤ 12) :
    (⟨year, month, 1⟩ : Date).Valid := by
  have long := (daysInMonth_bounds year month named).1
  exact ⟨named, Nat.le_refl 1, Nat.le_trans (Nat.le_add_left 1 27) long⟩

theorem nextMonth_valid {date : Date} (valid : date.Valid) : date.nextMonth.Valid := by
  obtain ⟨⟨first, last⟩, -⟩ := valid
  unfold nextMonth
  split
  · exact first_valid _ (by decide)
  · exact first_valid _ ⟨by omega, by omega⟩

theorem next_valid {date : Date} (valid : date.Valid) : date.next.Valid := by
  unfold next
  by_cases last : date.IsMonthEnd
  · rw [if_pos last]
    exact nextMonth_valid valid
  · rw [if_neg last]
    obtain ⟨named, first, inMonth⟩ := valid
    unfold IsMonthEnd at last
    refine ⟨named, Nat.le_add_left 1 date.day, ?_⟩
    dsimp only
    omega

theorem dayNumber_nextMonth (date : Date) :
    date.nextMonth.dayNumber =
      date.dayNumber - date.day + daysInMonth date.year date.month + 1 := by
  unfold nextMonth
  split
  · rename_i december
    have none : daysBeforeMonth (date.year + 1) 1 = 0 := rfl
    have filled : daysBeforeMonth date.year 13 =
        daysBeforeMonth date.year 12 + daysInMonth date.year 12 := rfl
    have year := daysBeforeMonth_thirteen date.year
    simp only [dayNumber, daysBeforeYear_succ, december]
    omega
  · have filled := daysBeforeMonth_succ date.year date.month
    simp only [dayNumber, filled]
    omega

theorem previousMonthEnd_valid {date : Date} (valid : date.Valid) :
    date.previousMonthEnd.Valid := by
  obtain ⟨⟨first, last⟩, -⟩ := valid
  unfold previousMonthEnd
  split
  · have long := (daysInMonth_bounds (date.year - 1) 12 (by decide)).1
    exact ⟨⟨Nat.le_add_left 1 11, Nat.le_refl 12⟩,
      Nat.le_trans (Nat.le_add_left 1 27) long, Nat.le_refl _⟩
  · have earlier : 1 ≤ date.month - 1 ∧ date.month - 1 ≤ 12 := by omega
    have long := (daysInMonth_bounds date.year _ earlier).1
    exact ⟨earlier, Nat.le_trans (Nat.le_add_left 1 27) long, Nat.le_refl _⟩

theorem dayNumber_previousMonthEnd {date : Date} (named : 1 ≤ date.month) :
    date.previousMonthEnd.dayNumber = date.dayNumber - date.day := by
  unfold previousMonthEnd
  split
  · rename_i january
    have none : daysBeforeMonth date.year 1 = 0 := rfl
    have filled : daysBeforeMonth (date.year - 1) 13 =
        daysBeforeMonth (date.year - 1) 12 + daysInMonth (date.year - 1) 12 := rfl
    have year := daysBeforeMonth_thirteen (date.year - 1)
    have next := daysBeforeYear_succ (date.year - 1)
    rw [Int.sub_add_cancel] at next
    simp only [dayNumber, january]
    omega
  · have filled := daysBeforeMonth_succ date.year (date.month - 1)
    rw [Nat.sub_add_cancel named] at filled
    simp only [dayNumber, filled]
    omega

end Date

theorem inRange_dayNumber_iff {date : Date} (valid : date.Valid) :
    InRange date.dayNumber ↔ -262143 ≤ date.year ∧ date.year ≤ 262142 := by
  obtain ⟨low, high⟩ := date.dayNumber_inYear valid
  have first : firstDay = daysBeforeYear (-262143) - epochOffset := by decide
  have last : lastDay = daysBeforeYear (262142 + 1) - 1 - epochOffset := by decide
  unfold InRange
  rw [first, last]
  constructor
  · intro inside
    constructor
    · refine Int.not_lt.mp fun early => ?_
      have ordered := daysBeforeYear_mono (date.year + 1) (-262143) early
      omega
    · refine Int.not_lt.mp fun late => ?_
      have ordered := daysBeforeYear_mono (262142 + 1) date.year late
      omega
  · intro inside
    have early := daysBeforeYear_mono (-262143) date.year inside.1
    have late := daysBeforeYear_mono (date.year + 1) (262142 + 1) (by omega)
    omega

theorem InRange.near {day : Int} (inRange : InRange day) :
    -100000000 ≤ day ∧ day ≤ 100000000 := by
  have first : -100000000 ≤ firstDay := by decide
  have last : lastDay ≤ 100000000 := by decide
  obtain ⟨low, high⟩ := inRange
  exact ⟨Int.le_trans first low, Int.le_trans high last⟩

end MarsCalendar.Gregorian

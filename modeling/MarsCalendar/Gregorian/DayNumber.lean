import MarsCalendar.Gregorian.Basic

set_option autoImplicit false

/-! Days counted from 1970-01-01, which is day 0. A date's number is the days of the
years before it, of the months before it and of the month it stands in; the way back
peels off whole cycles of 400, 100, 4 and 1 years and then whole months. -/

namespace MarsCalendar.Gregorian

def daysBeforeYear (year : Int) : Int :=
  let elapsed := year - 1
  365 * elapsed + elapsed / 4 - elapsed / 100 + elapsed / 400

def daysBeforeMonth (year : Int) : Nat → Nat
  | 0 => 0
  | month + 1 => daysBeforeMonth year month + daysInMonth year month

def epochOffset : Int := 719162

def Date.dayNumber (date : Date) : Int :=
  daysBeforeYear date.year + daysBeforeMonth date.year date.month + date.day
    - 1 - epochOffset

/-- The year that holds a day counted from 0001-01-01, and the days since that year
began. The last day of a long cycle belongs to its last part. -/
def yearOfDay (day : Int) : Int × Nat :=
  let inEra := day % 146097
  let centuries := min (inEra / 36524) 3
  let inCentury := inEra - 36524 * centuries
  let inFour := inCentury % 1461
  let years := min (inFour / 365) 3
  (400 * (day / 146097) + 100 * centuries + 4 * (inCentury / 1461) + years + 1,
    (inFour - 365 * years).toNat)

def monthAndDay (year : Int) : List Nat → Nat → Nat × Nat
  | [], elapsed => (12, elapsed + 1)
  | month :: later, elapsed =>
      if elapsed < daysInMonth year month then (month, elapsed + 1)
      else monthAndDay year later (elapsed - daysInMonth year month)

def months : List Nat := [1, 2, 3, 4, 5, 6, 7, 8, 9, 10, 11, 12]

def Date.ofDayNumber (number : Int) : Date :=
  let (year, elapsed) := yearOfDay (number + epochOffset)
  let (month, day) := monthAndDay year months elapsed
  ⟨year, month, day⟩

namespace Date

def dayOfYear (date : Date) : Nat :=
  daysBeforeMonth date.year date.month + date.day

def weekday (date : Date) : Nat :=
  ((date.dayNumber + 3) % 7).toNat + 1

/-- The ISO week: a week belongs to the year of its Thursday, and that Thursday's place
in the year tells the number. -/
def isoWeek (date : Date) : Nat :=
  let thursday := ofDayNumber (date.dayNumber + 4 - date.weekday)
  (thursday.dayOfYear - 1) / 7 + 1

end Date

/-- The first and the last day that a moment can lie on: -262143-01-01 and
262142-12-31. -/
def firstDay : Int := Date.dayNumber ⟨-262143, 1, 1⟩
def lastDay : Int := Date.dayNumber ⟨262142, 12, 31⟩

def InRange (day : Int) : Prop :=
  firstDay ≤ day ∧ day ≤ lastDay

instance (day : Int) : Decidable (InRange day) :=
  inferInstanceAs (Decidable (_ ∧ _))

end MarsCalendar.Gregorian

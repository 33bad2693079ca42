set_option autoImplicit false

/-! The proleptic Gregorian calendar: leap years, month lengths and dates. Years are
numbered astronomically, so year 0 comes before year 1. -/

namespace MarsCalendar.Gregorian

def monthsPerYear : Nat := 12

def IsLeapYear (year : Int) : Prop :=
  (year % 4 = 0 ∧ year % 100 ≠ 0) ∨ year % 400 = 0

instance (year : Int) : Decidable (IsLeapYear year) :=
  inferInstanceAs (Decidable (_ ∨ _))

/-- The length of a month; 0 for a number that names no month. -/
def daysInMonth (year : Int) : Nat → Nat
  | 1 | 3 | 5 | 7 | 8 | 10 | 12 => 31
  | 4 | 6 | 9 | 11 => 30
  | 2 => if IsLeapYear year then 29 else 28
  | _ => 0

def daysInYear (year : Int) : Nat :=
  if IsLeapYear year then 366 else 365

structure Date where
  year : Int
  month : Nat
  day : Nat
  deriving DecidableEq, Repr

namespace Date

def Valid (date : Date) : Prop :=
  (1 ≤ date.month ∧ date.month ≤ 12) ∧
    1 ≤ date.day ∧ date.day ≤ daysInMonth date.year date.month

instance (date : Date) : Decidable date.Valid :=
  inferInstanceAs (Decidable (_ ∧ _))

def IsMonthEnd (date : Date) : Prop :=
  date.day = daysInMonth date.year date.month

instance (date : Date) : Decidable date.IsMonthEnd :=
  inferInstanceAs (Decidable (_ = _))

def nextMonth (date : Date) : Date :=
  if date.month = 12 then ⟨date.year + 1, 1, 1⟩ else ⟨date.year, date.month + 1, 1⟩

def previousMonthEnd (date : Date) : Date :=
  if date.month = 1 then ⟨date.year - 1, 12, daysInMonth (date.year - 1) 12⟩
  else ⟨date.year, date.month - 1, daysInMonth date.year (date.month - 1)⟩

def next (date : Date) : Date :=
  if date.IsMonthEnd then date.nextMonth else { date with day := date.day + 1 }

end Date

end MarsCalendar.Gregorian

import MarsCalendar.Civil.Clock
import MarsCalendar.Civil.LeapSecond
import MarsCalendar.Civil.Offset
import MarsCalendar.Error
import MarsCalendar.Gregorian.Basic
import MarsCalendar.Scalar.Basic

set_option autoImplicit false

/-! A wall-clock reading on Earth: a Gregorian date, a time of day to the microsecond
and the offset it is read at. A reading is plain data; `check` says whether it names a
real moment. The sixty-first second is accepted only in the minute that ends a leap
month of UTC. -/

namespace MarsCalendar.Civil

open Gregorian (Date daysInMonth)

/-- A date and a time, read at an offset from UTC in seconds. Without an offset the
reading is UTC. -/
structure Reading where
  date : Date
  clock : Clock
  offset : Option Int
  deriving DecidableEq, Repr

namespace Reading

def offsetSeconds (reading : Reading) : Int :=
  reading.offset.getD 0

/-- The date in UTC of a local date whose time is a number of days away. The offset is
less than a day, so the date moves by one day at most. -/
def shiftedDate (date : Date) (days : Int) : Date :=
  let day := (date.day : Int) + days
  if day < 1 then date.previousMonthEnd
  else if (daysInMonth date.year date.month : Int) < day then date.nextMonth
  else { date with day := day.toNat }

/-- The reading falls in the minute 23:59 UTC that ends a leap month. Only the whole
minutes of the offset are looked at. -/
def InLeapMinute (reading : Reading) : Prop :=
  let minute := (reading.clock.hour : Int) * 60 + reading.clock.minute
    - reading.offsetSeconds.tdiv 60
  let date := shiftedDate reading.date (minute / 1440)
  minute % 1440 = 1439 ∧ date.IsMonthEnd ∧ YearMonth.IsLeap ⟨date.year, date.month⟩

instance (reading : Reading) : Decidable reading.InLeapMinute :=
  inferInstanceAs (Decidable (_ ∧ _))

def invalid (reading : Reading) (field : CivilField) : Error :=
  .invalidCivilDate reading.date.year reading.date.month reading.date.day field

def fault? (reading : Reading) : Option Error :=
  if ¬ IsOffset reading.offsetSeconds then some .outOfRange
  else if ¬ (1 ≤ reading.date.month ∧ reading.date.month ≤ 12) then
    some (reading.invalid .month)
  else if ¬ reading.date.Valid then some (reading.invalid .day)
  else if 23 < reading.clock.hour then some (reading.invalid .hour)
  else if 59 < reading.clock.minute then some (reading.invalid .minute)
  else if 60 < reading.clock.second ∨ (reading.clock.second = 60 ∧ ¬ reading.InLeapMinute) then
    some (reading.invalid .second)
  else if 999999 < reading.clock.microsecond then some (reading.invalid .microsecond)
  else none

def Valid (reading : Reading) : Prop :=
  IsOffset reading.offsetSeconds ∧ reading.date.Valid ∧ reading.clock.InDay ∧
    (reading.clock.second = 60 → reading.InLeapMinute)

instance (reading : Reading) : Decidable reading.Valid :=
  inferInstanceAs (Decidable (_ ∧ _))

theorem fault?_eq_none_iff (reading : Reading) : reading.fault? = none ↔ reading.Valid := by
  unfold fault? Valid Clock.InDay
  constructor
  · intro faultless
    repeat' split at faultless
    all_goals simp_all
  · intro valid
    obtain ⟨offset, date, ⟨hour, minute, second, microsecond⟩, leap⟩ := valid
    rw [if_neg (fun outside => outside offset), if_neg (fun outside => outside date.1),
      if_neg (fun outside => outside date), if_neg (Nat.not_lt.mpr hour),
      if_neg (Nat.not_lt.mpr minute), if_neg, if_neg (Nat.not_lt.mpr microsecond)]
    intro beyond
    cases beyond with
    | inl above => exact absurd second (Nat.not_le.mpr above)
    | inr wrong => exact wrong.2 (leap wrong.1)

def check (reading : Reading) : Except Error Reading :=
  match reading.fault? with
  | some fault => .error fault
  | none => .ok reading

theorem check_eq_ok_iff (reading checked : Reading) :
    reading.check = .ok checked ↔ reading.Valid ∧ checked = reading := by
  rw [← fault?_eq_none_iff]
  unfold check
  cases found : reading.fault? with
  | none => simp [eq_comm]
  | some fault => simp

def ofUtc (date : Date) (clock : Clock) : Except Error Reading :=
  check ⟨date, clock, none⟩

def ofDate (date : Date) : Except Error Reading :=
  ofUtc date Clock.midnight

/-- The same fields, read at an offset. A leap second may become wrong by that. -/
def withOffset (reading : Reading) (offset : UtcOffset) : Except Error Reading :=
  check { reading with offset := some offset.seconds }

def secondsOfDay {α : Type} [Scalar α] (reading : Reading) : α :=
  Scalar.ofInt reading.clock.seconds + Scalar.ofInt reading.clock.microsecond / 1e6

open Text (padded) in
/-- `1609-03-12T19:19:06.000000Z`, with the offset in place of `Z` if there is one. -/
def text (reading : Reading) : String :=
  padded 4 reading.date.year ++ "-" ++ padded 2 reading.date.month ++ "-"
    ++ padded 2 reading.date.day ++ "T" ++ padded 2 reading.clock.hour ++ ":"
    ++ padded 2 reading.clock.minute ++ ":" ++ padded 2 reading.clock.second ++ "."
    ++ padded 6 reading.clock.microsecond
    ++ (match reading.offset with
      | some seconds => offsetText seconds
      | none => "Z")

end Reading

end MarsCalendar.Civil

import MarsCalendar.Civil.Reading
import MarsCalendar.Gregorian.DayNumber
import MarsCalendar.Scale.JulianDate

set_option autoImplicit false

/-! A moment on Earth: a point of UTC to the nanosecond, read at a fixed offset. Two
moments are the same instant, whatever their offsets, when their UTC points agree. An
inserted second is kept as the second before it with a billion nanoseconds more.

The UTC date of a moment is always in range, but its offset may take the local date a day
past it. Such a moment has its local date, day of the week and text, and no civil fields. -/

namespace MarsCalendar.Earth

open Civil (Clock Reading UtcOffset leapNanosecond)
open Gregorian (Date InRange)

abbrev secondsPerDay : Int := 86400

/-- Whole seconds of UTC since 1970-01-01, a leap second not counted; the nanoseconds
after them; and the offset of the reading. The UTC date lies in the supported range. -/
structure Moment where
  seconds : Int
  nanosecond : Nat
  offset : UtcOffset
  inRange : InRange (seconds / secondsPerDay)
  nanosecond_lt : nanosecond < 2 * leapNanosecond
  deriving DecidableEq, Repr

namespace Moment

def ofSeconds (seconds : Int) (nanosecond : Nat) (offset : UtcOffset) :
    Except Error Moment :=
  if bounds : InRange (seconds / secondsPerDay) ∧ nanosecond < 2 * leapNanosecond then
    .ok ⟨seconds, nanosecond, offset, bounds.1, bounds.2⟩
  else .error .outOfRange

/-- A point of Unix time in UTC. A leap second can only follow the last second of a
minute. -/
def ofUnix (seconds : Int) (nanosecond : Nat) : Except Error Moment :=
  if leapNanosecond ≤ nanosecond ∧ seconds % 60 ≠ 59 then .error .outOfRange
  else ofSeconds seconds nanosecond .utc

def ofLocal (seconds : Int) (nanosecond : Nat) (offset : UtcOffset) :
    Except Error Moment :=
  if InRange (seconds / secondsPerDay) then
    ofSeconds (seconds - offset.seconds) nanosecond offset
  else .error .outOfRange

def ofReading (reading : Reading) : Except Error Moment :=
  match UtcOffset.ofSeconds? reading.offsetSeconds with
  | some offset =>
      if reading.date.Valid ∧ reading.clock.InDay then
        ofLocal (reading.date.dayNumber * secondsPerDay + reading.clock.storedSeconds)
          reading.clock.storedNanosecond offset
      else .error .outOfRange
  | none => .error .outOfRange

def localSeconds (moment : Moment) : Int :=
  moment.seconds + moment.offset.seconds

def localDate (moment : Moment) : Date :=
  Date.ofDayNumber (moment.localSeconds / secondsPerDay)

def utcDate (moment : Moment) : Date :=
  Date.ofDayNumber (moment.seconds / secondsPerDay)

def IsLeap (moment : Moment) : Prop :=
  leapNanosecond ≤ moment.nanosecond

instance (moment : Moment) : Decidable moment.IsLeap :=
  inferInstanceAs (Decidable (_ ≤ _))

def readingOf (seconds : Int) (nanosecond : Nat) (offset : Int) : Reading :=
  ⟨Date.ofDayNumber (seconds / secondsPerDay),
    Clock.ofStored (seconds % secondsPerDay).toNat nanosecond,
    if offset = 0 then none else some offset⟩

def localReading (moment : Moment) : Reading :=
  readingOf moment.localSeconds moment.nanosecond moment.offset.seconds

def LocalInRange (moment : Moment) : Prop :=
  InRange (moment.localSeconds / secondsPerDay)

instance (moment : Moment) : Decidable moment.LocalInRange :=
  inferInstanceAs (Decidable (InRange _))

/-- The civil fields at the moment's own offset. There are none where the local date is out
of range, and what is computed from them has no result there. -/
def civil (moment : Moment) : Option Reading :=
  if moment.LocalInRange then some moment.localReading else none

theorem civil_inRange {moment : Moment} (inRange : moment.LocalInRange) :
    moment.civil = some moment.localReading :=
  if_pos inRange

theorem civil_outside {moment : Moment} (outside : ¬ moment.LocalInRange) :
    moment.civil = none :=
  if_neg outside

def utcCivil (moment : Moment) : Reading :=
  readingOf moment.seconds moment.nanosecond 0

def withOffset (moment : Moment) (offset : UtcOffset) : Moment :=
  { moment with offset := offset }

/-- Microseconds after the whole second; a million or more inside a leap second. -/
def subsecondMicroseconds (moment : Moment) : Nat :=
  moment.nanosecond / 1000

def compare (left right : Moment) : Ordering :=
  (Ord.compare left.seconds right.seconds).then
    (Ord.compare left.nanosecond right.nanosecond)

section Text

open Text (padded signedPadded)

/-- A year of four digits, with a sign where it needs one: `1609`, `-0001`, `+10000`. -/
def yearText (year : Int) : String :=
  if 0 ≤ year ∧ year ≤ 9999 then padded 4 year else signedPadded 5 year

/-- `2017-07-31 13:35:22 +00:00`. In a leap second the stored second shows as the next. -/
def text (moment : Moment) : String :=
  let date := moment.localDate
  let ofDay := (moment.localSeconds % secondsPerDay).toNat
  let second := ofDay % 60 + (if moment.IsLeap then 1 else 0)
  yearText date.year ++ "-" ++ padded 2 date.month ++ "-" ++ padded 2 date.day ++ " "
    ++ padded 2 (ofDay / 3600 : Nat) ++ ":" ++ padded 2 (ofDay / 60 % 60 : Nat) ++ ":"
    ++ padded 2 second ++ " " ++ Civil.offsetMinutesText moment.offset.seconds

end Text

end Moment

end MarsCalendar.Earth

import MarsCalendar.Civil.Reading
import MarsCalendar.Julian.DayNumber

set_option autoImplicit false

/-! Julian dates as plain numbers of days, with no time scale: their relation to civil
readings and to Unix timestamps. A Julian day begins at noon. -/

namespace MarsCalendar.Julian

open Civil (Reading)

variable {α : Type} [Scalar α]

def unixEpoch : α := 2440587.5

def secondsPerDay : α := 86400.0

def j2000 : α := 2451545.0

def daysPerCentury : α := 36525.0

/-- The Julian date of a reading, its offset taken off. Midnight is half a day before
the Julian day begins. -/
def ofReading (reading : Reading) : α :=
  let day := dayNumber reading.date.year reading.date.month reading.date.day
  let seconds : α := reading.secondsOfDay - Scalar.ofInt reading.offsetSeconds
  (Scalar.ofInt day - 0.5) + seconds / secondsPerDay

/-- The day and the fraction of a day since midnight. The boundary moves from noon to
midnight before the calendar is looked at. -/
def midnightSplit (date : α) : α × α :=
  let day := Scalar.floor date
  let fraction := (date - day) + 0.5
  if (1.0 : α) ≤ fraction then (day + 1.0, fraction - 1.0) else (day, fraction)

def calendarDay (day : α) : α × α × α :=
  let century : α := Scalar.floor (((day - 1867216.0) - 0.25) / 36524.25)
  let uniform := day + 1.0 + century - Scalar.floor (0.25 * century)
  let shifted := uniform + 1524.0
  let yearCount := Scalar.floor (6680.0 + ((shifted - 2439870.0) - 122.1) / 365.25)
  let yearStart := Scalar.floor (yearCount * 365.25)
  let monthCount := Scalar.floor ((shifted - yearStart) / 30.6001)
  let dayOfMonth := Scalar.floor (shifted - yearStart - Scalar.floor (monthCount * 30.6001))
  let rawMonth := Scalar.floor (monthCount - 1.0)
  let month := if (12.0 : α) < rawMonth then rawMonth - 12.0 else rawMonth
  let rawYear := Scalar.floor (yearCount - 4715.0)
  let year := if (2.0 : α) < month then rawYear - 1.0 else rawYear
  (year, month, dayOfMonth)

def clockOfFraction (fraction : α) : Civil.Clock :=
  let hours := fraction * 24.0
  let hour := Scalar.floor hours
  let minutes := (hours - hour) * 60.0
  let minute := Scalar.floor minutes
  let seconds := (minutes - minute) * 60.0
  let second := Scalar.floor seconds
  let microsecond := Scalar.floor ((seconds - second) * 1e6)
  ⟨Scalar.toCount hour, Scalar.toCount minute, Scalar.toCount second,
    Scalar.toCount microsecond⟩

def toReading (date : α) : Except Error Reading :=
  if Scalar.isFinite date then
    let (day, fraction) := midnightSplit date
    let (year, month, dayOfMonth) := calendarDay day
    if year < -2147483648.0 ∨ (2147483647.0 : α) < year then .error .outOfRange
    else
      .ok ⟨⟨Scalar.toWord year, Scalar.toCount month, Scalar.toCount dayOfMonth⟩,
        clockOfFraction fraction, none⟩
  else .error .outOfRange

def toTimestamp (date : α) : α :=
  (date - unixEpoch) * secondsPerDay

def ofTimestamp (timestamp : α) : α :=
  timestamp / secondsPerDay + unixEpoch

end MarsCalendar.Julian

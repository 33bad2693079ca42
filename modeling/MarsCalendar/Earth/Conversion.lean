import MarsCalendar.Earth.Moment

set_option autoImplicit false

/-! Moments as numbers: Unix timestamps, Julian dates on each scale, and the offsets
between the scales at a moment. -/

namespace MarsCalendar.Earth

open Civil (Reading YearMonth)

variable {α : Type} [Scalar α]

namespace Moment

def ofTimestamp (timestamp : α) : Except Error Moment :=
  if Scalar.isFinite timestamp then
    let whole := Scalar.floor timestamp
    let rounded := Scalar.round ((timestamp - whole) * 1e6)
    let (seconds, microseconds) :=
      if (1e6 : α) ≤ rounded then (whole + 1.0, rounded - 1e6) else (whole, rounded)
    if (9223372036854775808.0 : α) ≤ Scalar.abs seconds then .error .outOfRange
    else ofUnix (Scalar.toWord seconds) (Scalar.toCount microseconds * 1000)
  else .error .outOfRange

def timestamp (moment : Moment) : α :=
  Scalar.ofInt moment.seconds + Scalar.ofInt moment.subsecondMicroseconds / 1e6

def ofUtcJulian (date : α) : Except Error Moment :=
  Julian.toReading date >>= ofReading

/-- The moment of a Julian date on a scale. TAI is brought to UTC by the leap-second
table alone. -/
def ofJulian (date : α) : Scale → Except Error Moment
  | .utc => ofUtcJulian date
  | .tai => ofUtcJulian (Scale.utcOfTai date)
  | .tt => ofUtcJulian (Scale.utcOfTt date)

def ofJulianDate {scale : Scale} (date : JulianDate scale α) : Except Error Moment :=
  ofUtcJulian (date.convert .utc).value

def utcMonth (moment : Moment) : YearMonth :=
  ⟨moment.utcDate.year, moment.utcDate.month⟩

def leapSecondCount (moment : Moment) : Nat :=
  moment.utcMonth.leapSeconds

def taiMinusUtc (moment : Moment) : α :=
  Scale.taiMinusUtc moment.utcMonth

def ttMinusUtc (moment : Moment) : Option α := do
  let reading ← moment.civil
  return Scale.ttMinusUtc moment.utcMonth (Julian.ofReading reading)

def toJulian (moment : Moment) (scale : Scale) : Option α := do
  let utc : α := Julian.ofReading (← moment.civil)
  match scale with
  | .utc => return utc
  | .tai => return utc + moment.taiMinusUtc / Julian.secondsPerDay
  | .tt => return utc + (← moment.ttMinusUtc) / Julian.secondsPerDay

def toJulianDate (moment : Moment) (scale : Scale) : Option (JulianDate scale α) := do
  let utc ← moment.toJulian .utc
  return JulianDate.convert scale (⟨utc⟩ : JulianDate .utc α)

def secondsSince (moment other : Moment) (absolute : Bool) : α :=
  let difference : α := moment.timestamp - other.timestamp
  if absolute then Scalar.abs difference else difference

end Moment

end MarsCalendar.Earth

namespace MarsCalendar.JulianDate

open Earth (Moment)

variable {α : Type} [Scalar α] {scale : Scale}

def ofMoment (moment : Moment) : JulianDate scale α :=
  let seconds : α := moment.timestamp
  convert scale (⟨Julian.unixEpoch + Scale.daysOfSeconds seconds⟩ : JulianDate .utc α)

def toMoment? (date : JulianDate scale α) : Option Moment :=
  let seconds := ((date.convert .utc).value - Julian.unixEpoch) * Julian.secondsPerDay
  let microseconds := Scalar.round (seconds * 1e6)
  if Scalar.isFinite seconds
      ∧ ¬ (9223372036854775808.0 : α) ≤ Scalar.abs microseconds then
    let count := Scalar.toWord microseconds
    (Moment.ofUnix (count / 1000000) ((count % 1000000).toNat * 1000)).toOption
  else none

end MarsCalendar.JulianDate

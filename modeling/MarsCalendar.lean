import MarsCalendar.Civil.Clock
import MarsCalendar.Civil.LeapSecond
import MarsCalendar.Civil.Offset
import MarsCalendar.Civil.Reading
import MarsCalendar.Decimal.Positional
import MarsCalendar.Decimal.Shortest
import MarsCalendar.Earth.Conversion
import MarsCalendar.Earth.Moment
import MarsCalendar.Earth.Shift
import MarsCalendar.Error
import MarsCalendar.Gregorian.Basic
import MarsCalendar.Gregorian.DayNumber
import MarsCalendar.Gregorian.Lemmas
import MarsCalendar.Interval
import MarsCalendar.Julian.Date
import MarsCalendar.Julian.DayNumber
import MarsCalendar.Mars.Basic
import MarsCalendar.Mars.Clock
import MarsCalendar.Mars.Date
import MarsCalendar.Mars.Instant
import MarsCalendar.Mars.Memo
import MarsCalendar.Mars.Mir
import MarsCalendar.Mars.Month
import MarsCalendar.Mars.Name
import MarsCalendar.Mars.SolDate
import MarsCalendar.Mars.Text
import MarsCalendar.Mars.Zone
import MarsCalendar.Proofs.Binary64.Arithmetic
import MarsCalendar.Proofs.Binary64.Bounded
import MarsCalendar.Proofs.Binary64.Comparison
import MarsCalendar.Proofs.Binary64.Division
import MarsCalendar.Proofs.Binary64.Magnitude
import MarsCalendar.Proofs.Binary64.Nearest
import MarsCalendar.Proofs.Binary64.Normal
import MarsCalendar.Proofs.Binary64.Quotient
import MarsCalendar.Proofs.Binary64.Value
import MarsCalendar.Proofs.Civil.InsertedSecond
import MarsCalendar.Proofs.Civil.LeapSecond
import MarsCalendar.Proofs.Civil.Utc
import MarsCalendar.Proofs.Earth.FieldChange
import MarsCalendar.Proofs.Earth.JulianDate
import MarsCalendar.Proofs.Earth.LocalReading
import MarsCalendar.Proofs.Earth.MonthShift
import MarsCalendar.Proofs.Earth.NearestMicrosecond
import MarsCalendar.Proofs.Earth.Order
import MarsCalendar.Proofs.Earth.Reachable
import MarsCalendar.Proofs.Earth.Reading
import MarsCalendar.Proofs.Earth.Rollover
import MarsCalendar.Proofs.Earth.ScalePaths
import MarsCalendar.Proofs.Earth.Timestamp
import MarsCalendar.Proofs.Interval.Description
import MarsCalendar.Proofs.Interval.Grain
import MarsCalendar.Proofs.Julian.Calendar
import MarsCalendar.Proofs.Julian.ClockRounding
import MarsCalendar.Proofs.Julian.DayCount
import MarsCalendar.Proofs.Julian.DayNumber
import MarsCalendar.Proofs.Julian.RoundTrip
import MarsCalendar.Proofs.Julian.YearStart
import MarsCalendar.Proofs.Mars.DateCheck
import MarsCalendar.Proofs.Mars.DateInstant
import MarsCalendar.Proofs.Mars.DateInvariant
import MarsCalendar.Proofs.Mars.DateOrder
import MarsCalendar.Proofs.Mars.DateText
import MarsCalendar.Proofs.Mars.Guess
import MarsCalendar.Proofs.Mars.Kilomir
import MarsCalendar.Proofs.Mars.MemoRun
import MarsCalendar.Proofs.Mars.MirStart
import MarsCalendar.Proofs.Mars.MirSum
import MarsCalendar.Proofs.Mars.MirTally
import MarsCalendar.Proofs.Mars.MirWords
import MarsCalendar.Proofs.Mars.SolCount
import MarsCalendar.Proofs.Mars.SolOrder
import MarsCalendar.Proofs.Mars.TimeOfSol
import MarsCalendar.Proofs.Mars.TimeText
import MarsCalendar.Proofs.Scalar.Rational
import MarsCalendar.Proofs.Scale.AtomicEra
import MarsCalendar.Proofs.Scale.EarlyEra
import MarsCalendar.Proofs.Scale.MiddleEra
import MarsCalendar.Proofs.Scale.Offset
import MarsCalendar.Proofs.Scale.Quartic
import MarsCalendar.Proofs.Scale.Solver
import MarsCalendar.Proofs.Scale.Twin
import MarsCalendar.Proofs.Scale.UtcRoundTrip
import MarsCalendar.Proofs.Text.Numeral
import MarsCalendar.Scalar.Basic
import MarsCalendar.Scalar.Rational
import MarsCalendar.Scalar.Rounding
import MarsCalendar.Scale.Basic
import MarsCalendar.Scale.JulianDate
import MarsCalendar.Scale.Offset
import MarsCalendar.Text.Blank
import MarsCalendar.Text.Numeral
import MarsCalendar.Wire.Reader
import MarsCalendar.Wire.Value
import MarsCalendar.Wire.Writer

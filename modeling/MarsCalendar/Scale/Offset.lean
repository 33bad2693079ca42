import MarsCalendar.Julian.Date
import MarsCalendar.Scale.Basic

set_option autoImplicit false

/-! The offsets of TT and TAI from UTC, in seconds. TT - UTC has three eras: a parabola
in centuries from 1820 before 1770, a quartic in centuries from 2000 until 1972, and
from then on the leap-second table. TAI - UTC follows the table throughout. -/

namespace MarsCalendar.Scale

open Civil (YearMonth leapMonths initialTaiMinusUtc)

variable {α : Type} [Scalar α]

def ttMinusTai : α := 32.184

/-- Seconds as days. The reciprocal of the day is taken first. -/
def daysOfSeconds (seconds : α) : α :=
  seconds * (1.0 / 86400.0)

def taiMinusUtc (here : YearMonth) : α :=
  Scalar.ofInt initialTaiMinusUtc + Scalar.ofInt here.leapSeconds

def earlyOffset (year : α) : α :=
  let centuries := (1820.0 - year) / 100.0
  (-20.0) + 32.0 * centuries * centuries

def middleOffset (date : α) : α :=
  let centuries := (date - Julian.j2000) / Julian.daysPerCentury
  let square := centuries * centuries
  let cube := centuries * square
  64.184 + 59.0 * centuries - 51.2 * square - 67.1 * cube - 16.4 * (square * square)

def ttMinusUtc (here : YearMonth) (date : α) : α :=
  if here.year < 1770 then earlyOffset (Scalar.ofInt here.year)
  else if here.year < 1972 then middleOffset date
  else ttMinusTai + taiMinusUtc here

def monthOf? (date : α) : Option YearMonth :=
  match Julian.toReading date with
  | .ok reading => some ⟨reading.date.year, reading.date.month⟩
  | .error _ => none

/-- TT - UTC at a Julian date on UTC. Years past 32 bits are estimated by their mean
length and stay on the parabola. -/
def ttMinusUtcAt (date : α) : α :=
  match monthOf? date with
  | some here => ttMinusUtc here date
  | none => earlyOffset (Scalar.floor (2000.0 + (date - Julian.j2000) / 365.2425))

/-- TAI - UTC at a Julian date on UTC. Years past 32 bits lie before or after the whole
table. -/
def taiMinusUtcAt (date : α) : α :=
  match monthOf? date with
  | some here => taiMinusUtc here
  | none =>
      if Julian.j2000 < date then
        Scalar.ofInt initialTaiMinusUtc + Scalar.ofInt leapMonths.length
      else Scalar.ofInt initialTaiMinusUtc

/-- The UTC date of a date that lies a UTC-dependent number of seconds later, by three
steps of a fixed point from the date itself. -/
def removeOffset (offset : α → α) (date : α) : α :=
  let step := fun utc => date - daysOfSeconds (offset utc)
  step (step (step date))

def ttOfUtc (date : α) : α :=
  date + daysOfSeconds (ttMinusUtcAt date)

def utcOfTt (date : α) : α :=
  removeOffset ttMinusUtcAt date

def taiOfUtc (date : α) : α :=
  date + daysOfSeconds (taiMinusUtcAt date)

def utcOfTai (date : α) : α :=
  removeOffset taiMinusUtcAt date

def toTt : Scale → α → α
  | .utc, date => ttOfUtc date
  | .tai, date => ttOfUtc (utcOfTai date)
  | .tt, date => date

def ofTt : Scale → α → α
  | .utc, date => utcOfTt date
  | .tai, date => taiOfUtc (utcOfTt date)
  | .tt, date => date

end MarsCalendar.Scale

import MarsCalendar.Scalar.Basic
import MarsCalendar.Text.Numeral

set_option autoImplicit false

/-! A length of time in rough words: `35 seconds`, `an hour`, `3 weeks`. A count that
fills a larger unit is left to that unit, so 24 hours are a day. -/

namespace MarsCalendar.Interval

inductive Unit where
  | second | minute | hour | day | week | month | year
  deriving DecidableEq, Repr

namespace Unit

/-- The seconds of a unit. A month and a year are mean Gregorian ones. -/
def seconds {α : Type} [Scalar α] : Unit → α
  | .second => 1.0
  | .minute => 60.0
  | .hour => 3600.0
  | .day => 86400.0
  | .week => 604800.0
  | .month => 2629746.0
  | .year => 31556952.0

def singular : Unit → String
  | .second => "a second"
  | .minute => "a minute"
  | .hour => "an hour"
  | .day => "a day"
  | .week => "a week"
  | .month => "a month"
  | .year => "a year"

def plural : Unit → String
  | .second => "seconds"
  | .minute => "minutes"
  | .hour => "hours"
  | .day => "days"
  | .week => "weeks"
  | .month => "months"
  | .year => "years"

end Unit

structure Approximation where
  count : Int
  unit : Unit
  deriving DecidableEq, Repr

variable {α : Type} [Scalar α]

def Approximation.text (about : Approximation) : String :=
  if about.count = 1 then about.unit.singular
  else Text.plain about.count ++ " " ++ about.unit.plural

def times (seconds length : α) : Int :=
  Scalar.toWord (Scalar.round (seconds / length))

/-- The count of each unit in turn, until one is small enough. Between 20 and 58 the
seconds and the minutes are told in fives. -/
def approximate (interval : α) : Approximation :=
  let seconds := Scalar.round (Scalar.abs interval)
  let minutes := times seconds Unit.minute.seconds
  let hours := times seconds Unit.hour.seconds
  let days := times seconds Unit.day.seconds
  let weeks := times seconds Unit.week.seconds
  let months := times seconds Unit.month.seconds
  if seconds ≤ (20.0 : α) then ⟨Scalar.toWord seconds, .second⟩
  else if seconds < (58.0 : α) then ⟨times seconds 5.0 * 5, .second⟩
  else if minutes ≤ 20 then ⟨minutes, .minute⟩
  else if minutes < 58 then ⟨times (Scalar.ofInt minutes : α) 5.0 * 5, .minute⟩
  else if hours < 48 ∧ hours % 24 ≠ 0 then ⟨hours, .hour⟩
  else if days < 28 ∧ days % 7 ≠ 0 then ⟨days, .day⟩
  else if weeks ≤ 12 then ⟨weeks, .week⟩
  else if months < 24 ∧ months % 12 ≠ 0 then ⟨months, .month⟩
  else ⟨times seconds Unit.year.seconds, .year⟩

def describe (interval : α) : String :=
  (approximate interval).text

end MarsCalendar.Interval

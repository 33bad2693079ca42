import MarsCalendar.Earth.Moment

set_option autoImplicit false

/-! Changing one local field of a moment. Any value may be set: a field past its range
rolls over into the next larger unit, so month 13 is the January of the next year, and
a month after January 31 falls into March. The count starts at the first of the month,
which has to be a date in range itself, and adds up the spans from there; every number on
the way has its limits, and one that passes them is out of range. -/

namespace MarsCalendar.Earth

open Civil (Reading UtcOffset)
open Gregorian (Date InRange)

inductive Field where
  | year | month | day | hour | minute | second | microsecond
  deriving DecidableEq, Repr

inductive TimeUnit where
  | years | months | weeks | days | hours | minutes | seconds | microseconds
  deriving DecidableEq, Repr

def TimeUnit.field : TimeUnit → Field
  | .years => .year
  | .months => .month
  | .weeks => .day
  | .days => .day
  | .hours => .hour
  | .minutes => .minute
  | .seconds => .second
  | .microseconds => .microsecond

def TimeUnit.steps : TimeUnit → Int
  | .weeks => 7
  | _ => 1

/-- A span of time in microseconds: no longer, forward or back, than the largest 64-bit word
of milliseconds. -/
def IsSpan (microseconds : Int) : Prop :=
  -9223372036854775807000 ≤ microseconds ∧ microseconds ≤ 9223372036854775807000

instance (microseconds : Int) : Decidable (IsSpan microseconds) :=
  inferInstanceAs (Decidable (_ ∧ _))

def addSpan? (sum span : Int) : Option Int :=
  if IsSpan span ∧ IsSpan (sum + span) then some (sum + span) else none

def sumOfSpans? (spans : List Int) : Option Int :=
  spans.foldlM addSpan? 0

structure Fields where
  year : Int
  month : Int
  day : Int
  hour : Int
  minute : Int
  second : Int
  microsecond : Int
  deriving DecidableEq, Repr

namespace Fields

def ofReading (reading : Reading) : Fields :=
  { year := reading.date.year
    month := reading.date.month
    day := reading.date.day
    hour := reading.clock.hour
    minute := reading.clock.minute
    second := reading.clock.second
    microsecond := reading.clock.microsecond }

def get (fields : Fields) : Field → Int
  | .year => fields.year
  | .month => fields.month
  | .day => fields.day
  | .hour => fields.hour
  | .minute => fields.minute
  | .second => fields.second
  | .microsecond => fields.microsecond

def set (fields : Fields) (value : Int) : Field → Fields
  | .year => { fields with year := value }
  | .month => { fields with month := value }
  | .day => { fields with day := value }
  | .hour => { fields with hour := value }
  | .minute => { fields with minute := value }
  | .second => { fields with second := value }
  | .microsecond => { fields with microsecond := value }

/-- Months counted from the January of year 0. -/
def monthIndex (fields : Fields) : Int :=
  12 * fields.year + (fields.month - 1)

def monthStart (fields : Fields) : Date :=
  ⟨fields.monthIndex / 12, (fields.monthIndex % 12).toNat + 1, 1⟩

/-- The first of the month, if its months can be counted in a 64-bit word and its year
told in 32 bits, and it is in range. -/
def monthStart? (fields : Fields) : Option Date :=
  if FitsWord (12 * fields.year) ∧ FitsWord fields.monthIndex
      ∧ (-2147483648 ≤ fields.monthIndex / 12 ∧ fields.monthIndex / 12 ≤ 2147483647)
      ∧ InRange fields.monthStart.dayNumber then some fields.monthStart
  else none

def spans (fields : Fields) : List Int :=
  [(fields.day - 1) * 86400000000, fields.hour * 3600000000, fields.minute * 60000000,
    fields.second * 1000000, fields.microsecond]

end Fields

namespace Moment

def fields (moment : Moment) : Option Fields :=
  moment.civil.map Fields.ofReading

def ofLocalMicroseconds (microseconds : Int) (offset : UtcOffset) : Except Error Moment :=
  ofLocal (microseconds / 1000000) ((microseconds % 1000000).toNat * 1000) offset

/-- The moment that fields lead to, rolled over as needed. The month they are counted from
has to begin in range, also where an inserted second at its end would lead into the range. -/
def ofFields (fields : Fields) (offset : UtcOffset) : Except Error Moment :=
  match fields.monthStart?, sumOfSpans? fields.spans with
  | some first, some elapsed =>
      ofLocalMicroseconds (first.dayNumber * 86400000000 + elapsed) offset
  | _, _ => .error .outOfRange

/-- The moment with one local field set. A moment that has no fields to set has no result,
not even an error. -/
def set (moment : Moment) (field : Field) (value : Int) : Option (Except Error Moment) :=
  moment.fields.map fun fields => ofFields (fields.set value field) moment.offset

/-- The moment moved by an amount of its unit. The amount is checked before the fields are
read; it and the field it leads to must fit a 64-bit word. -/
def add (moment : Moment) (unit : TimeUnit) (amount : Int) : Option (Except Error Moment) :=
  let steps := unit.steps * amount
  if FitsWord amount ∧ FitsWord steps then
    moment.fields.bind fun fields =>
      let value := fields.get unit.field + steps
      if FitsWord value then moment.set unit.field value else some (.error .outOfRange)
  else some (.error .outOfRange)

def sub (moment : Moment) (unit : TimeUnit) (amount : Int) : Option (Except Error Moment) :=
  moment.add unit (-amount)

end Moment

end MarsCalendar.Earth

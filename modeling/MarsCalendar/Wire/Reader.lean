import MarsCalendar.Mars.Instant
import MarsCalendar.Mars.Text
import MarsCalendar.Wire.Value

set_option autoImplicit false

/-! Reading the values of the calendar from their exchange form. A structure is a record
by names or a list of all parts in order; names that are not known are passed over.
Parts are read before it is asked whether all are there, and the rules of the calendar
are applied to the whole at the end. -/

namespace MarsCalendar.Wire.Value

open Civil (Reading)

variable {α : Type}

def isShortList (names : List String) : Value α → Bool
  | .list items => decide (items.length < names.length)
  | _ => false

def readingNames : List String :=
  ["year", "month", "day", "hour", "minute", "second", "microsecond", "offset"]

def toReading (value : Value α) : Result Reading := do
  let parts ← Parts.ofValue readingNames value
  let year ← parts.read "year" toHalfWord
  let month ← parts.read "month" toCount
  let day ← parts.read "day" toCount
  let hour ← parts.read "hour" toCount
  let minute ← parts.read "minute" toCount
  let second ← parts.read "second" toCount
  let microsecond ← parts.read "microsecond" toCount
  let offset ← parts.read "offset" toOptionalHalfWord
  parts.finish
  if value.isShortList readingNames then .error .malformed
  else
    let date : Gregorian.Date := ⟨← require year, ← require month, ← require day⟩
    let clock : Civil.Clock :=
      ⟨← require hour, ← require minute, ← require second, ← require microsecond⟩
    refusing (Reading.check ⟨date, clock, offset.join⟩)

def toZone (value : Value α) : Result Mars.Zone := do
  refusing (Mars.Zone.ofSlot (← value.toWord))

def marsDateNames : List String :=
  ["mir", "month", "sol", "millisols", "time_zone"]

/-- A valid Mars date. The zone is checked as it is read, before the rest. -/
def toMarsDate [Scalar α] (value : Value α) : Result (Mars.Date α) := do
  let parts ← Parts.ofValue marsDateNames value
  let mir ← parts.read "mir" toWord
  let month ← parts.read "month" toCount
  let sol ← parts.read "sol" toCount
  let millisols ← parts.read "millisols" toReal
  let zone ← parts.read "time_zone" toZone
  parts.finish
  refusing (Mars.Date.make (← require mir) (← require month) (← require sol)
    (← require millisols) (← require zone))

def toInstant [Scalar α] (value : Value α) : Result (Mars.Instant α) := do
  let parts ← Parts.ofValue ["sols"] value
  let sols ← parts.read "sols" toReal
  parts.finish
  return ⟨← require sols⟩

def toJulianDate [Scalar α] {scale : Scale} (value : Value α) :
    Result (JulianDate scale α) := do
  return ⟨← value.toReal⟩

def scaleName : Scale → String
  | .utc => "Utc"
  | .tai => "Tai"
  | .tt => "Tt"

def scaleOfName (name : String) : Result Scale :=
  require ([Scale.utc, .tai, .tt].find? fun scale => scaleName scale == name)

/-- A scale by its name, or as a record that holds nothing under that name. -/
def toScale : Value α → Result Scale
  | .text name => scaleOfName name
  | .record [(name, .null)] => scaleOfName name
  | _ => .error .malformed

/-- The options of a text. What is missing is switched on. -/
def toTextOptions (value : Value α) : Result Mars.TextOptions := do
  let parts ← Parts.ofValue ["prefix", "time_zone"] value
  let leadingMark ← parts.read "prefix" toBool
  let zone ← parts.read "time_zone" toBool
  parts.finish
  return ⟨leadingMark.getD true, zone.getD true⟩

end MarsCalendar.Wire.Value

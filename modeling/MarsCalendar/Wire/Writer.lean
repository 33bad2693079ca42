import MarsCalendar.Wire.Reader

set_option autoImplicit false

/-! Writing the values of the calendar in their exchange form. Structures are records
with every part. -/

namespace MarsCalendar.Wire.Value

variable {α : Type}

def ofReading (reading : Civil.Reading) : Value α :=
  .record
    [("year", .integer reading.date.year),
     ("month", .integer reading.date.month),
     ("day", .integer reading.date.day),
     ("hour", .integer reading.clock.hour),
     ("minute", .integer reading.clock.minute),
     ("second", .integer reading.clock.second),
     ("microsecond", .integer reading.clock.microsecond),
     ("offset", match reading.offset with
       | some seconds => .integer seconds
       | none => .null)]

def ofZone (zone : Mars.Zone) : Value α :=
  .integer zone.slot

def ofMarsDate (date : Mars.Date α) : Value α :=
  .record
    [("mir", .integer date.mir),
     ("month", .integer date.month),
     ("sol", .integer date.sol),
     ("millisols", .real date.millisols),
     ("time_zone", ofZone date.zone)]

def ofInstant (instant : Mars.Instant α) : Value α :=
  .record [("sols", .real instant.sols)]

def ofJulianDate {scale : Scale} (date : JulianDate scale α) : Value α :=
  .real date.value

def ofScale (scale : Scale) : Value α :=
  .text (scaleName scale)

def ofTextOptions (options : Mars.TextOptions) : Value α :=
  .record [("prefix", .bool options.leadingMark), ("time_zone", .bool options.zone)]

end MarsCalendar.Wire.Value

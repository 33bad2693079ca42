import MarsCalendar.Text.Numeral

set_option autoImplicit false

/-! What can go wrong in the calendar. Each failure is a cause with the values that
show it; the wording is in `Error.message` alone. -/

namespace MarsCalendar

inductive CivilField where
  | month | day | hour | minute | second | microsecond
  deriving DecidableEq, Repr

inductive MarsField where
  | month | sol | millisols
  deriving DecidableEq, Repr

inductive Error where
  | invalidScale (name : String)
  | invalidZoneSlot (slot : Int)
  | invalidCivilDate (year : Int) (month day : Nat) (field : CivilField)
  | invalidMarsDate (mir : Int) (month sol : Nat) (field : MarsField)
  | outOfRange
  deriving DecidableEq, Repr

def CivilField.name : CivilField → String
  | .month => "Month"
  | .day => "Day"
  | .hour => "Hour"
  | .minute => "Minute"
  | .second => "Second"
  | .microsecond => "Microsecond"

def MarsField.name : MarsField → String
  | .month => "Month"
  | .sol => "Sol"
  | .millisols => "Millisols"

open Text (padded plain) in
/-- The text of a failure. Years have at least four places, the sign among them. -/
def Error.message : Error → String
  | .invalidScale name =>
      "unsupported time scale '" ++ name ++ "': expected UTC, TAI or TT"
  | .invalidZoneSlot slot =>
      "Mars time zone slot " ++ plain slot ++ " is outside the range -5..=5"
  | .invalidCivilDate year month day field =>
      "invalid civil date " ++ padded 4 year ++ "-" ++ padded 2 month ++ "-"
        ++ padded 2 day ++ ": bad " ++ field.name
  | .invalidMarsDate mir month sol field =>
      "invalid Mars date M" ++ plain mir ++ "/" ++ padded 2 month ++ "/"
        ++ padded 2 sol ++ ": bad " ++ field.name
  | .outOfRange => "value is outside the supported calendar range"

end MarsCalendar

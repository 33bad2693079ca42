import MarsCalendar.Error
import MarsCalendar.Text.Blank

set_option autoImplicit false

/-! The time scales on which a Julian date can be read. -/

namespace MarsCalendar

inductive Scale where
  | utc | tai | tt
  deriving DecidableEq, Repr, Inhabited

namespace Scale

def label : Scale → String
  | .utc => "UTC"
  | .tai => "TAI"
  | .tt => "TT"

def parse (name : String) : Except Error Scale :=
  let given := String.ofList (Text.capitals (Text.trimmed name.toList))
  match [utc, tai, tt].find? fun scale => scale.label == given with
  | some scale => .ok scale
  | none => .error (.invalidScale name)

end Scale

end MarsCalendar

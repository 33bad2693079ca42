import MarsCalendar.Mars.Date

set_option autoImplicit false

/-! The text of a Mars date: `M217/04/01:886.888+000`, with the leading mark and the
zone as options. -/

namespace MarsCalendar.Mars

structure TextOptions where
  leadingMark : Bool := true
  zone : Bool := true
  deriving DecidableEq, Repr

namespace Date

open Text (padded plain)

/-- `M217/04/01`, or `217/04/01` without the mark. -/
def dateText {α : Type} (date : Date α) (leadingMark : Bool) : String :=
  (if leadingMark then "M" else "") ++ plain date.mir ++ "/" ++ padded 2 date.month ++ "/"
    ++ padded 2 date.sol

def zoneText {α : Type} (date : Date α) : String :=
  date.zone.offsetText

variable {α : Type} [Scalar α]

def thousandths (date : Date α) : Int :=
  Scalar.toWord (Scalar.floor (date.millisols * 1000.0 + 0.5))

/-- `M:886.888`, or `886.888` without the mark. -/
def timeText (date : Date α) (leadingMark : Bool) : String :=
  (if leadingMark then "M:" else "") ++ padded 3 (date.thousandths / 1000) ++ "."
    ++ padded 3 (date.thousandths % 1000)

def textWith (date : Date α) (options : TextOptions) : String :=
  date.dateText options.leadingMark ++ ":" ++ date.timeText false
    ++ (if options.zone then date.zoneText else "")

def text (date : Date α) : String :=
  date.textWith {}

end Date

end MarsCalendar.Mars

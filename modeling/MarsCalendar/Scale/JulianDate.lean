import MarsCalendar.Decimal.Positional
import MarsCalendar.Scale.Offset

set_option autoImplicit false

/-! A Julian date that knows its scale. Arithmetic stays on one scale; every change of
scale goes through Terrestrial Time, also one to the same scale. -/

namespace MarsCalendar

structure JulianDate (scale : Scale) (α : Type) where
  value : α
  deriving DecidableEq, Repr

namespace JulianDate

variable {α : Type} [Scalar α] {scale : Scale}

def daysTt (date : JulianDate scale α) : α :=
  Scale.toTt scale date.value

def ofDaysTt (days : α) : JulianDate scale α :=
  ⟨Scale.ofTt scale days⟩

def convert (target : Scale) (date : JulianDate scale α) : JulianDate target α :=
  ofDaysTt date.daysTt

def addDays (date : JulianDate scale α) (days : α) : JulianDate scale α :=
  ⟨date.value + days⟩

def subDays (date : JulianDate scale α) (days : α) : JulianDate scale α :=
  ⟨date.value - days⟩

def daysSince (date earlier : JulianDate scale α) : α :=
  date.value - earlier.value

def min (left right : JulianDate scale α) : JulianDate scale α :=
  ⟨Scalar.least left.value right.value⟩

def max (left right : JulianDate scale α) : JulianDate scale α :=
  ⟨Scalar.greatest left.value right.value⟩

def order? (left right : JulianDate scale α) : Option Ordering :=
  Scalar.order? left.value right.value

def ttMinusUtc (date : JulianDate .utc α) : α :=
  Scale.ttMinusUtcAt date.value

def timestamp (date : JulianDate .utc α) : α :=
  Julian.toTimestamp date.value

def ofTimestamp (timestamp : α) : JulianDate .utc α :=
  ⟨Julian.ofTimestamp timestamp⟩

def text (date : JulianDate scale Float) : String :=
  "JD(" ++ scale.label ++ ") " ++ Decimal.text date.value

end JulianDate

end MarsCalendar

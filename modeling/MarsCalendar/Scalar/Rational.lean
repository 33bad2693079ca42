import MarsCalendar.Scalar.Basic

set_option autoImplicit false

/-! The rationals as calendar numbers: no operation rounds, and every value is
finite. -/

namespace MarsCalendar

instance : Scalar Rat where
  addition := inferInstance
  subtraction := inferInstance
  multiplication := inferInstance
  division := inferInstance
  negation := inferInstance
  strictOrder := inferInstance
  order := inferInstance
  decimals := inferInstance
  ofInt value := (value : Rat)
  floor value := (value.floor : Rat)
  round value := (roundRat value : Rat)
  abs value := if value < 0 then -value else value
  toWord value := clampWord (truncateRat value)
  isFinite _ := true
  decideLT := inferInstance
  decideLE := inferInstance

end MarsCalendar

set_option autoImplicit false

/-! Whole numbers near a rational, and near a binary64 number. -/

namespace MarsCalendar

def truncateRat (value : Rat) : Int :=
  Int.tdiv value.num value.den

def roundRat (value : Rat) : Int :=
  if value < 0 then -(-value + 1 / 2).floor else (value + 1 / 2).floor

/-- The whole number that a rule finds near a number, as a number again. One that has no
fraction already is kept, and so is one that is not finite; a zero has the sign of the
number it comes from. -/
def wholeBinary64 (rule : Rat → Int) (number : Float) : Float :=
  match number.toModel.unpack with
  | .finite sign mantissa exponent _ =>
      if 0 ≤ exponent then number
      else
        let value := mkRat (sign.apply mantissa) (1 <<< (-exponent).toNat)
        .ofModel (.pack (.normalize .binary64 (rule value) 0 sign))
  | _ => number

end MarsCalendar

set_option autoImplicit false

/-! The shortest decimal that reads back as a given binary number. All of it is exact
arithmetic on naturals: a decimal reads back exactly if it lies between the midpoints
to the two neighbouring binary numbers, and among the shortest such decimals the
nearest is taken, the upper one of two equally near. -/

namespace MarsCalendar.Decimal

/-- The positive number `mantissa * 2 ^ exponent`. Below a power of two the
neighbouring number is only half as far away as above it. -/
structure Binary where
  mantissa : Nat
  exponent : Int
  halfGapBelow : Bool
  deriving DecidableEq, Repr

structure Digits where
  coefficient : Nat
  exponent : Int
  deriving DecidableEq, Repr

def digitCount (value : Nat) : Nat :=
  if value = 0 then 0 else (Nat.toDigits 10 value).length

/-- Quarters of the last binary place, as a numerator over `scaleDenominator` in units
of `10 ^ place`. -/
def scaleNumerator (exponent place : Int) : Nat :=
  Nat.pow 2 (exponent - 2).toNat * Nat.pow 10 (-place).toNat

def scaleDenominator (exponent place : Int) : Nat :=
  Nat.pow 2 (2 - exponent).toNat * Nat.pow 10 place.toNat

namespace Binary

def quarters (number : Binary) : Nat :=
  4 * number.mantissa

def lowerQuarters (number : Binary) : Nat :=
  number.quarters - (if number.halfGapBelow then 1 else 2)

def upperQuarters (number : Binary) : Nat :=
  number.quarters + 2

/-- Whether `coefficient * 10 ^ place` reads back as the number. The midpoints
themselves do so exactly for an even mantissa. -/
def readsBack (number : Binary) (place : Int) (coefficient : Nat) : Bool :=
  let numerator := scaleNumerator number.exponent place
  let point := coefficient * scaleDenominator number.exponent place
  let lower := number.lowerQuarters * numerator
  let upper := number.upperQuarters * numerator
  if number.mantissa % 2 = 0 then lower ≤ point && point ≤ upper
  else lower < point && point < upper

def topPlace (number : Binary) : Int :=
  let numerator := number.quarters * scaleNumerator number.exponent 0
  let denominator := scaleDenominator number.exponent 0
  if denominator ≤ numerator then digitCount (numerator / denominator)
  else 1 - (digitCount ((denominator - 1) / numerator) : Int)

/-- The best multiple of `10 ^ place` that reads back, if there is one. Only the two
multiples around the number can be best. -/
def onGrid? (number : Binary) (place : Int) : Option Digits :=
  let numerator := number.quarters * scaleNumerator number.exponent place
  let denominator := scaleDenominator number.exponent place
  let below := numerator / denominator
  let above := below + 1
  let belowIsNearer := decide <|
    numerator - below * denominator < above * denominator - numerator
  match number.readsBack place below, number.readsBack place above with
  | true, true => some ⟨if belowIsNearer then below else above, place⟩
  | true, false => some ⟨below, place⟩
  | false, true => some ⟨above, place⟩
  | false, false => none

/-- The shortest decimal that reads back. Seventeen digits always suffice for a
53-bit mantissa. -/
def shortest (number : Binary) : Digits :=
  let top := number.topPlace
  ((List.range 17).findSome? fun (count : Nat) => number.onGrid? (top - 1 - count)).getD ⟨0, 0⟩

end Binary

inductive Number where
  | notANumber
  | infinite (negative : Bool)
  | zero (negative : Bool)
  | finite (negative : Bool) (magnitude : Binary)
  deriving DecidableEq, Repr

def Number.ofBits (bits : Nat) : Number :=
  let negative := decide (bits / Nat.pow 2 63 % 2 = 1)
  let biased : Nat := bits / Nat.pow 2 52 % Nat.pow 2 11
  let fraction : Nat := bits % Nat.pow 2 52
  if biased = 2047 then
    if fraction = 0 then .infinite negative else .notANumber
  else if biased = 0 then
    if fraction = 0 then .zero negative
    else .finite negative ⟨fraction, -1074, false⟩
  else
    .finite negative ⟨Nat.pow 2 52 + fraction, (biased : Int) - 1075, decide (fraction = 0)⟩

end MarsCalendar.Decimal

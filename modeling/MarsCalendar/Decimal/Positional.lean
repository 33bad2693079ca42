import MarsCalendar.Decimal.Shortest

set_option autoImplicit false

/-! Decimals written out by position: never an exponent, and no point after a whole
number. -/

namespace MarsCalendar.Decimal

def Digits.withoutEndZeros (number : Digits) : List Char × Int :=
  let written := Nat.toDigits 10 number.coefficient
  let kept := (written.reverse.dropWhile (· == '0')).reverse
  (kept, number.exponent + (written.length - kept.length : Nat))

def Digits.positional (number : Digits) : List Char :=
  let (written, exponent) := number.withoutEndZeros
  let point := written.length + exponent
  if 0 ≤ exponent then
    written ++ List.replicate exponent.toNat '0'
  else if 0 < point then
    written.take point.toNat ++ '.' :: written.drop point.toNat
  else
    '0' :: '.' :: List.replicate (-point).toNat '0' ++ written

def sign (negative : Bool) : List Char :=
  if negative then ['-'] else []

def Number.text : Number → List Char
  | .notANumber => ['N', 'a', 'N']
  | .infinite negative => sign negative ++ ['i', 'n', 'f']
  | .zero negative => sign negative ++ ['0']
  | .finite negative magnitude => sign negative ++ magnitude.shortest.positional

def text (value : Float) : String :=
  String.ofList (Number.ofBits value.toBits.toNat).text

end MarsCalendar.Decimal

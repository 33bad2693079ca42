set_option autoImplicit false

/-! Integers in decimal, filled with zeros to a least width. The sign stands before
the zeros and counts toward the width. -/

namespace MarsCalendar.Text

def digits (value : Nat) : List Char :=
  Nat.toDigits 10 value

def zeroFilled (width : Nat) (value : Nat) : List Char :=
  List.replicate (width - (digits value).length) '0' ++ digits value

def minusSign (value : Int) : List Char :=
  if value < 0 then ['-'] else []

def signMark (value : Int) : List Char :=
  if value < 0 then ['-'] else ['+']

/-- An integer of at least `width` characters: `7` is `07`, `-5` at width four is
`-005`. -/
def padded (width : Nat) (value : Int) : String :=
  let sign := minusSign value
  String.ofList (sign ++ zeroFilled (width - sign.length) value.natAbs)

def signedPadded (width : Nat) (value : Int) : String :=
  String.ofList (signMark value ++ zeroFilled (width - 1) value.natAbs)

def plain (value : Int) : String :=
  padded 0 value

end MarsCalendar.Text

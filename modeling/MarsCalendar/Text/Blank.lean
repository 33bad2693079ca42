set_option autoImplicit false

/-! The blank characters, by the Unicode property White_Space. -/

namespace MarsCalendar.Text

def blankRanges : List (Nat × Nat) :=
  [(0x09, 0x0D), (0x20, 0x20), (0x85, 0x85), (0xA0, 0xA0), (0x1680, 0x1680),
   (0x2000, 0x200A), (0x2028, 0x2029), (0x202F, 0x202F), (0x205F, 0x205F),
   (0x3000, 0x3000)]

def isBlank (letter : Char) : Bool :=
  blankRanges.any fun range => range.1 ≤ letter.toNat && letter.toNat ≤ range.2

def trimmed (letters : List Char) : List Char :=
  ((letters.dropWhile isBlank).reverse.dropWhile isBlank).reverse

def capitals (letters : List Char) : List Char :=
  letters.map Char.toUpper

end MarsCalendar.Text

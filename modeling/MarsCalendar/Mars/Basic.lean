set_option autoImplicit false

/-! The fixed lengths of the Mars calendar. A mir has four quarters of six months, and
a month has four weeks of seven sols. The last week of a quarter is a sol short, except
at the end of a long mir. -/

namespace MarsCalendar.Mars

abbrev solsPerShortWeek : Nat := 6
abbrev solsPerLongWeek : Nat := 7
abbrev solsPerShortMonth : Nat := 27
abbrev solsPerLongMonth : Nat := 28
abbrev solsPerShortQuarter : Nat := 167
abbrev solsPerLongQuarter : Nat := 168
abbrev solsPerShortMir : Nat := 668
abbrev solsPerLongMir : Nat := 669
abbrev weeksPerMonth : Nat := 4
abbrev weeksPerQuarter : Nat := 24
abbrev weeksPerMir : Nat := 96
abbrev monthsPerQuarter : Nat := 6
abbrev monthsPerMir : Nat := 24

/-- Sols of a thousand mirs in a row. The pattern of long mirs begins anew after them. -/
abbrev solsPerKilomir : Int := 668591

end MarsCalendar.Mars

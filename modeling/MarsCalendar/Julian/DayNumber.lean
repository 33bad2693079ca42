set_option autoImplicit false

/-! The Julian day number of a Gregorian date in closed form. The year is taken to
begin in March, so that the leap day ends it. -/

namespace MarsCalendar.Julian

/-- The Julian day that begins at noon of a date. Month numbers past 12 carry into the
year; January and February belong to the March-based year before. -/
def dayNumber (year : Int) (month day : Nat) : Int :=
  let carry := (14 - (month : Int)).tdiv 12
  let marchYear := year + 4800 - carry
  let marchMonth := month + 12 * carry - 3
  day + (153 * marchMonth + 2) / 5 + 365 * marchYear + marchYear / 4 - marchYear / 100
    + marchYear / 400 - 32045

def unixEpochDay : Int := 2440588

end MarsCalendar.Julian

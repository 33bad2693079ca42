import MarsCalendar.Text.Numeral

set_option autoImplicit false

/-! Offsets from UTC: less than a day east or west, in whole seconds. -/

namespace MarsCalendar.Civil

def IsOffset (seconds : Int) : Prop :=
  -86400 < seconds ∧ seconds < 86400

instance (seconds : Int) : Decidable (IsOffset seconds) :=
  inferInstanceAs (Decidable (_ ∧ _))

structure UtcOffset where
  seconds : Int
  inDay : IsOffset seconds
  deriving DecidableEq, Repr

namespace UtcOffset

def utc : UtcOffset := ⟨0, by decide⟩

def ofSeconds? (seconds : Int) : Option UtcOffset :=
  if inDay : IsOffset seconds then some ⟨seconds, inDay⟩ else none

end UtcOffset

open Text (padded) in
def offsetText (seconds : Int) : String :=
  let size := seconds.natAbs
  let minutes := (if seconds < 0 then "-" else "+") ++ padded 2 (size / 3600 : Nat) ++ ":"
    ++ padded 2 (size / 60 % 60 : Nat)
  if size % 60 = 0 then minutes else minutes ++ ":" ++ padded 2 (size % 60 : Nat)

open Text (padded) in
/-- The offset to the nearest minute, half a minute away from zero: `+24:00` is
possible. -/
def offsetMinutesText (seconds : Int) : String :=
  let minutes := (seconds.natAbs + 30) / 60
  (if seconds < 0 then "-" else "+") ++ padded 2 (minutes / 60 : Nat) ++ ":"
    ++ padded 2 (minutes % 60 : Nat)

end MarsCalendar.Civil

set_option autoImplicit false

/-! The leap seconds of UTC: the months whose last minute had 61 seconds, and what
they add up to. -/

namespace MarsCalendar.Civil

structure YearMonth where
  year : Int
  month : Nat
  deriving DecidableEq, Repr

def YearMonth.Before (left right : YearMonth) : Prop :=
  left.year < right.year ∨ (left.year = right.year ∧ left.month < right.month)

instance (left right : YearMonth) : Decidable (left.Before right) :=
  inferInstanceAs (Decidable (_ ∨ _))

/-- The months that ended with an inserted second, earliest first. -/
def leapMonths : List YearMonth :=
  [⟨1972, 6⟩, ⟨1972, 12⟩, ⟨1973, 12⟩, ⟨1974, 12⟩, ⟨1975, 12⟩, ⟨1976, 12⟩, ⟨1977, 12⟩,
   ⟨1978, 12⟩, ⟨1979, 12⟩, ⟨1981, 6⟩, ⟨1982, 6⟩, ⟨1983, 6⟩, ⟨1985, 6⟩, ⟨1987, 12⟩,
   ⟨1989, 12⟩, ⟨1990, 12⟩, ⟨1992, 6⟩, ⟨1993, 6⟩, ⟨1994, 6⟩, ⟨1995, 12⟩, ⟨1997, 6⟩,
   ⟨1998, 12⟩, ⟨2005, 12⟩, ⟨2008, 12⟩, ⟨2012, 6⟩, ⟨2015, 6⟩, ⟨2016, 12⟩]

def YearMonth.IsLeap (here : YearMonth) : Prop :=
  here ∈ leapMonths

instance (here : YearMonth) : Decidable here.IsLeap :=
  inferInstanceAs (Decidable (_ ∈ _))

/-- The leap seconds in effect during a month. The second inserted at the end of a
month counts from the month after. The table is in order, so the earlier entries are
its beginning. -/
def YearMonth.leapSeconds (here : YearMonth) : Nat :=
  (leapMonths.takeWhile fun entry => entry.Before here).length

def initialTaiMinusUtc : Nat := 10

def YearMonth.taiMinusUtc (here : YearMonth) : Nat :=
  initialTaiMinusUtc + here.leapSeconds

theorem leapMonths_ordered : leapMonths.Pairwise YearMonth.Before := by
  decide

theorem YearMonth.leapSeconds_le (here : YearMonth) :
    here.leapSeconds ≤ leapMonths.length := by
  exact (List.takeWhile_sublist _).length_le

end MarsCalendar.Civil

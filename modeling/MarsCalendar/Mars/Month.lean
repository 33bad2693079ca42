import MarsCalendar.Mars.Mir

set_option autoImplicit false

/-! The months of a mir, by number from 1 to 24: how long they are and where they begin. -/

namespace MarsCalendar.Mars.Month

/-- The sols of a month: the last of each quarter is a sol short, except at the end of a
long mir. A number that names no month has no sols. -/
def length (mir : Int) (month : Nat) : Nat :=
  if month < 1 ∨ monthsPerMir < month then 0
  else if month = monthsPerMir ∧ Mir.IsLong mir then solsPerLongMonth
  else if month % monthsPerQuarter = 0 then solsPerShortMonth
  else solsPerLongMonth

def start (month : Nat) : Nat :=
  (month - 1) / monthsPerQuarter * solsPerShortQuarter
    + (month - 1) % monthsPerQuarter * solsPerLongMonth

theorem length_le (mir : Int) (month : Nat) : length mir month ≤ solsPerLongMonth := by
  unfold length
  repeat' split
  all_goals decide

theorem length_of_lt (mir : Int) (month : Nat) (named : 1 ≤ month)
    (inMir : month < monthsPerMir) :
    length mir month =
      if month % monthsPerQuarter = 0 then solsPerShortMonth else solsPerLongMonth := by
  unfold length
  rw [if_neg (by omega), if_neg (fun both => Nat.ne_of_lt inMir both.1)]

theorem start_succ (mir : Int) (month : Nat) (named : 1 ≤ month)
    (inMir : month < monthsPerMir) :
    start (month + 1) = start month + length mir month := by
  rw [length_of_lt mir month named inMir]
  unfold start monthsPerQuarter solsPerShortQuarter solsPerLongMonth solsPerShortMonth
  by_cases quarterEnd : month % 6 = 0
  · rw [if_pos quarterEnd]
    omega
  · rw [if_neg quarterEnd]
    omega

theorem start_add_length_last (mir : Int) :
    (start 24 + length mir 24 : Nat) = Mir.length mir := by
  unfold length Mir.length
  by_cases long : Mir.IsLong mir
  · rw [if_pos long, if_neg (by decide), if_pos ⟨rfl, long⟩]
    decide
  · rw [if_neg long, if_neg (by decide), if_neg (fun both => long both.2)]
    decide

end MarsCalendar.Mars.Month

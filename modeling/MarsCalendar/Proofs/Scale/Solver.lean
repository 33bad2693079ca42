import MarsCalendar.Proofs.Scale.Offset

set_option autoImplicit false

/-! Taking off an offset that is told by the date wanted. The guesses begin with the later date
itself, and every step puts right by how much the offset at the last guess is wrong. A guess that
has the offset of a date with the given later date leads to that date, and the guesses stay
there; whether it is the date wanted is another question, since several may share a later date. -/

namespace MarsCalendar.Scale

variable {offset : Rat → Rat} {date other : Rat}

/-- The guesses at a date from the date that lies its offset later. -/
def guess (offset : Rat → Rat) (date : Rat) : Nat → Rat
  | 0 => date + offset date / 86400
  | count + 1 => date + (offset date - offset (guess offset date count)) / 86400

theorem guess_succ (offset : Rat → Rat) (date : Rat) (count : Nat) :
    guess offset date (count + 1) =
      date + (offset date - offset (guess offset date count)) / 86400 := rfl

theorem removeOffset_eq (offset : Rat → Rat) (date : Rat) :
    removeOffset offset (date + daysOfSeconds (offset date)) = guess offset date 3 := by
  have step (count : Nat) : date + daysOfSeconds (offset date) -
      daysOfSeconds (offset (guess offset date count)) = guess offset date (count + 1) := by
    rw [daysOfSeconds_eq, daysOfSeconds_eq, guess_succ]
    ring
  have first : date + daysOfSeconds (offset date) = guess offset date 0 := by
    rw [daysOfSeconds_eq]
    rfl
  simp only [removeOffset]
  rw [← step 2, ← step 1, ← step 0, ← first]

/-- A guess with the offset of a date that has the same later date is the last but that date. -/
theorem guess_of_settled (shared : other + offset other / 86400 = date + offset date / 86400)
    {count : Nat} (settled : offset (guess offset date count) = offset other) {later : Nat}
    (after : count < later) : guess offset date later = other := by
  induction later with
  | zero => exact absurd after (Nat.not_lt_zero count)
  | succ later ih =>
      have same : offset (guess offset date later) = offset other := by
        rcases Nat.lt_or_eq_of_le (Nat.le_of_lt_succ after) with before | here
        · rw [ih before]
        · rw [← here]
          exact settled
      rw [guess_succ, same]
      linarith

end MarsCalendar.Scale

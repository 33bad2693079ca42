import MarsCalendar.Mars.SolDate
import MarsCalendar.Proofs.Binary64.Quotient
import Mathlib.Tactic.Linarith

set_option autoImplicit false

/-! The guessed mir. The mean length of a mir is no binary64 number and the quotient is
rounded besides, yet the whole part of the quotient is exact for every sol of a thousand
mirs: only at sol 0 is the exact quotient whole, and elsewhere it is too far from a
whole number for rounding to reach one. -/

namespace MarsCalendar.Mars.SolDate

open Binary64

private theorem isNormal_mean :
    IsNormal (solsPerCalendarMir : Float) 5880988629811069 (-43) :=
  ⟨by decide, by decide, by decide, rfl⟩

private theorem lt_of_scaled {scale left right rest bound : Nat}
    (atMost : scale * left ≤ scale * right + rest) (small : rest < scale * bound) :
    left < right + bound := by
  apply Nat.lt_of_mul_lt_mul_left (a := scale)
  rw [Nat.mul_add]
  omega

/-- Inside the thousand mirs, no sol but the first is a whole number of mean mirs. -/
private theorem not_whole {mir sol : Nat} (positive : 0 < sol) (inBlock : sol < 668591) :
    mir * 668591 ≠ sol * 1000 := by
  omega

private theorem floor_of_close {mir sol : Nat} (positive : 0 < sol) (inBlock : sol < 668591)
    (notAbove : mir * 5880988629811069 < sol * 2 ^ 43 + 2 ^ 11)
    (notBelow : sol * 2 ^ 43 < (mir + 1) * 5880988629811069 + 2 ^ 11) :
    mir = sol * 1000 / 668591 := by
  symm
  apply Nat.div_eq_of_lt_le
  · by_contra! above
    have next : sol * 1000 + 1 ≤ mir * 668591 := above
    linarith
  · by_contra! atMost
    have less : (mir + 1) * 668591 < sol * 1000 :=
      Nat.lt_of_le_of_ne atMost (not_whole positive inBlock)
    have next : (mir + 1) * 668591 + 1 ≤ sol * 1000 := less
    linarith

/-- The guess is a division on the scale of the leading bit of `sol`, on which the rounded
quotient and the one by the binary64 mean differ by two units at most. -/
private theorem guess_scaled {sol : Nat} (positive : 0 < sol) (inBlock : sol < 668591) :
    ∃ scale rounded, 2 ^ 43 ≤ scale ∧ guess sol = rounded / scale ∧
      scale * (sol * 2 ^ 43) / 5880988629811069 ≤ rounded + 1 ∧
      rounded ≤ scale * (sol * 2 ^ 43) / 5880988629811069 + 2 := by
  obtain ⟨log, logIs⟩ : ∃ log, sol.log2 = log := ⟨_, rfl⟩
  obtain ⟨atLeast, below⟩ := (Nat.log2_eq_iff (by omega)).mp logIs
  have logSmall : log < 20 := logIs ▸ (Nat.log2_lt (by omega)).mpr (by omega)
  obtain ⟨mantissa, places, isQuotient, few, floorBelow, floorAbove⟩ :=
    isNormal_div (isNormal_toFloat atLeast below (by omega)) isNormal_mean (by omega) (by omega)
  -- The exponent of the quotient is negative, so its whole part is a division.
  have exponent : (log : Int) - 52 - -43 - 53 + places = -((62 - log - places : Nat) : Int) := by
    omega
  rw [exponent] at isQuotient
  have found : guess sol = mantissa / 2 ^ (62 - log - places) :=
    toUInt64_of_isNormal isQuotient
  have scaleSplit : 2 ^ (62 - log - places) * 2 ^ places = 2 ^ (62 - log) := by
    rw [← pow_add, Nat.sub_add_cancel (by omega)]
  have scaledSol : sol * 2 ^ (52 - log) * 2 ^ 53 = 2 ^ (62 - log) * (sol * 2 ^ 43) := by
    have powers : 2 ^ (52 - log) * 2 ^ 53 = 2 ^ (62 - log) * 2 ^ 43 := by
      rw [← pow_add, ← pow_add]
      congr 1
      omega
    rw [Nat.mul_assoc, powers, Nat.mul_left_comm]
  rw [scaledSol] at floorBelow floorAbove
  refine ⟨2 ^ (62 - log), mantissa * 2 ^ places, ?_, ?_, floorBelow, floorAbove⟩
  · exact Nat.pow_le_pow_right (by decide) (by omega)
  · rw [← scaleSplit, Nat.mul_div_mul_right _ _ (Nat.two_pow_pos places), found]

theorem guess_eq {sol : Nat} (inBlock : sol < 668591) : guess sol = sol * 1000 / 668591 := by
  rcases Nat.eq_zero_or_pos sol with zero | positive
  · subst zero
    decide +kernel
  obtain ⟨scale, rounded, scaleLarge, onScale, floorBelow, floorAbove⟩ :=
    guess_scaled positive inBlock
  have floorLow := Nat.div_mul_le_self (scale * (sol * 2 ^ 43)) 5880988629811069
  have floorHigh := Nat.lt_div_mul_add (a := scale * (sol * 2 ^ 43)) (b := 5880988629811069)
    (by decide)
  have guessLow : scale * guess sol ≤ rounded := by
    rw [onScale]
    exact Nat.mul_div_le rounded scale
  have guessHigh : rounded < scale * (guess sol + 1) := by
    rw [onScale]
    exact Nat.lt_mul_div_succ rounded (by omega)
  have small : 2 * 5880988629811069 < scale * 2 ^ 11 := by omega
  apply floor_of_close positive inBlock
  · apply lt_of_scaled _ small
    rw [← Nat.mul_assoc]
    linarith
  · apply lt_of_scaled _ small
    rw [← Nat.mul_assoc]
    linarith

end MarsCalendar.Mars.SolDate

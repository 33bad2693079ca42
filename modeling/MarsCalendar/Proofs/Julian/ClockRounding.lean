import MarsCalendar.Julian.Date
import MarsCalendar.Proofs.Binary64.Bounded

set_option autoImplicit false

/-! The clock of a fraction of a day at binary64. Rounding may fill an hour with sixty
minutes, but no minute with sixty seconds: what is left of the minutes is exact, and
sixty times the largest number below one is nearer to the number before sixty. -/

namespace MarsCalendar.Julian

open Binary64 Float.Model.UnpackedFloat

theorem value?_sixty : value? (60.0 : Float) = some 60 := by
  have unpacked : (60.0 : Float).toModel.unpack =
      .finite .positive (60 * 2 ^ 47) (-47) (by decide) := rfl
  rw [value?_of_unpack unpacked]
  norm_num [Sign.apply]

theorem sixty_rest_lt {rest : Float} (isRest : AtMost (1 - 1 / 2 ^ 53) rest) :
    ∃ bound : Rat, bound < 60 ∧ AtMost bound (rest * 60.0) := by
  refine ⟨60 - 56 / 2 ^ 53, by norm_num, ?_⟩
  obtain isNaN | ⟨value, isRest, low, high⟩ := isRest
  · exact .inl (isNaN.mul _)
  · have nonneg : 0 ≤ value * 60 := mul_nonneg low (by norm_num)
    have atMost : value * 60 ≤ 60 - 60 / 2 ^ 53 := by
      norm_num at high ⊢
      linarith
    have small : |value * 60| < 2 ^ (200 : Int) := by
      rw [abs_of_nonneg nonneg]
      exact atMost.trans_lt (by norm_num)
    obtain ⟨result, resultIs, nearest⟩ := value?_mul isRest value?_sixty small
    refine .inr ⟨result, resultIs, nearest.bound_le representable_zero nonneg, ?_⟩
    -- The number before sixty.
    have before : Representable (60 - 64 / 2 ^ 53) :=
      ⟨60 * 2 ^ 47 - 1, -47, by decide, by decide, by norm_num⟩
    by_cases passed : 60 - 64 / 2 ^ 53 ≤ value * 60
    · have closest := nearest _ before
      rw [abs_of_nonpos (sub_nonpos.mpr passed)] at closest
      have distance := le_abs_self (result - value * 60)
      linarith
    · have resultHigh := nearest.le_bound before (not_le.mp passed).le
      linarith

theorem clockOfFraction_second (fraction : Float) : (clockOfFraction fraction).second ≤ 59 := by
  have hours := atMost_rest (fraction * 24.0)
  have minutes := hours.mul value?_sixty (by norm_num)
    (by norm_num; exact representable_intCast 60 (by decide)) (by norm_num)
  obtain ⟨bound, below, seconds⟩ := sixty_rest_lt minutes.rest
  exact seconds.floor.toCount_le (by norm_num; exact below) (by decide)

theorem toReading_common {date : Float} {reading : Civil.Reading}
    (read : toReading date = .ok reading) : reading.offset = none ∧ reading.clock.second ≤ 59 := by
  unfold toReading at read
  split at read
  · dsimp only at read
    split at read
    · cases read
    · cases read
      exact ⟨rfl, clockOfFraction_second _⟩
  · cases read

end MarsCalendar.Julian

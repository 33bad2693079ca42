import MarsCalendar.Earth.Conversion
import MarsCalendar.Proofs.Binary64.Bounded
import MarsCalendar.Proofs.Binary64.Comparison
import MarsCalendar.Proofs.Earth.Reading

set_option autoImplicit false

/-! The moment of a Unix timestamp at binary64. The part of a second is rounded to whole
microseconds, and a full million of them is carried; so no timestamp leads into an
inserted second. -/

namespace MarsCalendar.Earth

open Binary64 Float.Model.UnpackedFloat
open Civil (UtcOffset leapNanosecond)

variable {rounded : Float}

theorem toCount_carried (isRounded : AtMost 1000000 rounded) :
    Scalar.toCount (rounded - 1e6) = 0 := by
  obtain isNaN | ⟨value, isRounded, low, high⟩ := isRounded
  · exact (isNaN.sub _).toCount
  · have fits : |value - 1000000| < 2 ^ (200 : Int) := by
      rw [abs_of_nonpos (by linarith)]
      norm_num
      linarith
    obtain ⟨result, resultIs, nearest⟩ := value?_sub isRounded value?_million fits
    have nonpositive := nearest.le_bound representable_zero (by linarith)
    have nothing : result.floor ≤ 0 := by
      exact_mod_cast (Rat.floor_le result).trans nonpositive
    rw [toCount_eq resultIs (nonpositive.trans_lt (by norm_num)), Int.toNat_eq_zero.mpr nothing]

theorem toCount_not_full (isRounded : AtMost 1000000 rounded) (short : ¬ (1e6 : Float) ≤ rounded) :
    Scalar.toCount rounded ≤ 999999 := by
  obtain isNaN | ⟨value, isRounded, low, high⟩ := isRounded
  · rw [isNaN.toCount]
    exact Nat.zero_le _
  · have below : value < 1000000 :=
      not_le.mp fun full => short ((le_iff value?_million isRounded).mpr full)
    have bounded : AtMost value rounded := .inr ⟨value, isRounded, low, le_refl _⟩
    exact bounded.toCount_le (by norm_num; exact below) (by decide)

namespace Moment

private theorem ofUnix_of_microseconds {seconds : Int} {microseconds : Nat} {moment : Moment}
    (few : microseconds ≤ 999999) (made : ofUnix seconds (microseconds * 1000) = .ok moment) :
    moment.nanosecond < leapNanosecond ∧ moment.nanosecond % 1000 = 0 ∧
      moment.offset = .utc := by
  unfold ofUnix at made
  split at made
  · cases made
  · obtain ⟨-, nanosecond, offset⟩ := ofSeconds_eq_ok_iff.mp made
    unfold leapNanosecond
    exact ⟨by omega, by omega, offset⟩

theorem of_ofTimestamp {timestamp : Float} {moment : Moment}
    (made : ofTimestamp timestamp = .ok moment) :
    moment.nanosecond < leapNanosecond ∧ moment.nanosecond % 1000 = 0 ∧
      moment.offset = .utc := by
  have scaled := (atMost_rest timestamp).mul value?_million (by norm_num)
    (by norm_num; exact representable_intCast 1000000 (by decide)) (by norm_num)
  have bounded : AtMost ((1000000 : Int) : Rat) ((timestamp - Scalar.floor timestamp) * 1e6) := by
    norm_num at scaled ⊢
    exact scaled
  have isRounded := bounded.round
  push_cast at isRounded
  unfold ofTimestamp at made
  split at made
  · dsimp only at made
    split at made
    · split at made
      · cases made
      · have nothing := toCount_carried isRounded
        exact ofUnix_of_microseconds (nothing.trans_le (Nat.zero_le _)) made
    · rename_i short
      split at made
      · cases made
      · exact ofUnix_of_microseconds (toCount_not_full isRounded short) made
  · cases made

end Moment

end MarsCalendar.Earth

import MarsCalendar.Proofs.Binary64.Arithmetic

set_option autoImplicit false

/-! The quotient of two binary64 numbers is nearest to the exact one. The mantissas are divided
with a remainder, of which is kept whether it is nothing, less than half of the divisor, half of
it or more. Counted in quarters of the last place that rounds the exact quotient to odd, and two
places or more of it are cut off. -/

namespace MarsCalendar.Binary64

open Float.Model Float.Model.UnpackedFloat

/-! ### Quarters of the last place -/

/-- The quarters that an accuracy stands for: an odd number where it is not known which part. -/
def quarters : Accuracy → Nat
  | .exact => 0
  | .inexact .lt => 1
  | .inexact .eq => 2
  | .inexact .gt => 3

theorem quarters_lt (accuracy : Accuracy) : quarters accuracy < 4 := by
  unfold quarters
  split <;> decide

private theorem shift_quarters (mantissa : Nat) (accuracy : Accuracy) :
    ExtendedMantissa.ofMantissaAndAccuracy (4 * mantissa + quarters accuracy) .exact >>> 2 =
      ExtendedMantissa.ofMantissaAndAccuracy mantissa accuracy := by
  have whole : (4 * mantissa + quarters accuracy) / 2 / 2 = mantissa := by
    have few := quarters_lt accuracy
    omega
  have half : (4 * mantissa + quarters accuracy) / 2 % 2 = quarters accuracy / 2 := by
    have few := quarters_lt accuracy
    omega
  have rest : (4 * mantissa + quarters accuracy) % 2 = quarters accuracy % 2 := by omega
  change ExtendedMantissa.mk ((4 * mantissa + quarters accuracy) / 2 / 2)
    ((4 * mantissa + quarters accuracy) / 2 % 2 != 0)
    ((4 * mantissa + quarters accuracy) % 2 != 0 || (false || false)) = _
  rw [whole, half, rest]
  cases accuracy with
  | exact => rfl
  | inexact order => cases order <;> rfl

private theorem shift_add_two (extended : ExtendedMantissa) (places : Nat) :
    extended >>> (places + 2) = extended >>> 2 >>> places := by
  induction places with
  | zero => rfl
  | succ places ih => exact congrArg ExtendedMantissa.shiftRightOne ih

theorem lastPlace_quarters {mantissa few : Nat} {exponent : Int} (isFew : few < 4)
    (reached : 0 < mantissa ∨ exponent ≤ -1074) :
    lastPlace (4 * mantissa + few) (exponent - 2) = lastPlace mantissa exponent := by
  unfold lastPlace
  by_cases positive : 0 < mantissa
  · have lower := Nat.log2_self_le (Nat.ne_of_gt positive)
    have upper : mantissa < 2 ^ (mantissa.log2 + 1) := Nat.lt_log2_self
    have length : (4 * mantissa + few).log2 = mantissa.log2 + 2 := by
      rw [Nat.log2_eq_iff (by omega), Nat.add_right_comm, pow_add, pow_add _ (_ + 1)]
      omega
    rw [length]
    omega
  · have bottom := reached.resolve_left positive
    obtain rfl : mantissa = 0 := by omega
    have short : (4 * 0 + few).log2 ≤ 1 := by
      interval_cases few <;> decide
    have none : Nat.log2 0 = 0 := by decide
    omega

theorem roundWithAccuracy_quarters (sign : Sign) {mantissa : Nat} {exponent : Int}
    (accuracy : Accuracy) (reached : exponent ≤ lastPlace mantissa exponent)
    (low : 0 < mantissa ∨ exponent ≤ -1074) :
    roundWithAccuracy Format.binary64 sign mantissa exponent accuracy =
      roundWithAccuracy Format.binary64 sign (4 * mantissa + quarters accuracy) (exponent - 2)
        .exact := by
  obtain ⟨places, placesIs⟩ : ∃ places : Nat, lastPlace mantissa exponent = exponent + places :=
    ⟨(lastPlace mantissa exponent - exponent).toNat, by omega⟩
  have samePlace := lastPlace_quarters (quarters_lt accuracy) low
  have amount : (lastPlace mantissa exponent - exponent).toNat = places := by omega
  have amountBefore : (lastPlace (4 * mantissa + quarters accuracy) (exponent - 2) -
      (exponent - 2)).toNat = places + 2 := by omega
  have sameExponent : exponent - 2 + ((places + 2 : Nat) : Int) = exponent + places := by
    push_cast
    omega
  unfold roundWithAccuracy
  rw [shift_by accuracy amount, shift_by .exact amountBefore, shift_add_two, shift_quarters,
    sameExponent]

/-! ### The quotient of mantissas -/

/-- Told in quarters, a division with remainder rounds the exact quotient to odd. -/
theorem oddRounding_of_division (dividend : Nat) {divisor : Nat} (positive : 0 < divisor) :
    IsOddRounding (4 * (dividend / divisor) +
        quarters (accuracyOfFraction (dividend % divisor) divisor))
      (4 * (dividend : Rat) / divisor) := by
  have nonzero : (divisor : Rat) ≠ 0 := by exact_mod_cast Nat.ne_of_gt positive
  have size : (0 : Rat) < divisor := by exact_mod_cast positive
  have parts : (dividend : Rat) = divisor * (dividend / divisor : Nat) + (dividend % divisor : Nat) := by
    exact_mod_cast (Nat.div_add_mod dividend divisor).symm
  have rest := Nat.mod_lt dividend positive
  generalize dividend / divisor = quotient at *
  generalize dividend % divisor = remainder at *
  have apart (part : Rat) : 4 * (dividend : Rat) / divisor - (4 * quotient + part) =
      (4 * remainder - part * divisor) / divisor := by
    rw [parts]
    field_simp
    ring
  have near {part : Nat} (above : (part - 1) * (divisor : Rat) < 4 * remainder)
      (below : 4 * (remainder : Rat) < (part + 1) * divisor) :
      |4 * (dividend : Rat) / divisor - (4 * quotient + part : Nat)| < 1 := by
    push_cast
    rw [apart, abs_div, abs_of_pos size, div_lt_one size, abs_lt]
    constructor <;> linarith
  unfold accuracyOfFraction
  split
  · rename_i nothing
    left
    change _ = ((4 * quotient + 0 : Nat) : Rat)
    rw [parts, nothing]
    push_cast
    field_simp
    ring
  · rename_i something
    have leftOver : (0 : Rat) < remainder := by exact_mod_cast Nat.pos_of_ne_zero something
    have restCast : (remainder : Rat) < divisor := by exact_mod_cast rest
    obtain less | half | more := Nat.lt_trichotomy (2 * remainder) divisor
    · rw [Nat.compare_eq_lt.mpr less]
      have lessCast : 2 * (remainder : Rat) < divisor := by exact_mod_cast less
      change IsOddRounding (4 * quotient + 1) _
      refine .inr ⟨by omega, near ?_ ?_⟩ <;> push_cast <;> linarith
    · rw [Nat.compare_eq_eq.mpr half]
      have halfCast : 2 * (remainder : Rat) = divisor := by exact_mod_cast half
      left
      change _ = ((4 * quotient + 2 : Nat) : Rat)
      rw [parts, ← halfCast]
      push_cast
      have nonzeroRest := leftOver.ne'
      field_simp
      ring
    · rw [Nat.compare_eq_gt.mpr more]
      have moreCast : (divisor : Rat) < 2 * remainder := by exact_mod_cast more
      change IsOddRounding (4 * quotient + 3) _
      refine .inr ⟨by omega, near ?_ ?_⟩ <;> push_cast <;> linarith

/-! ### The quotient of numbers -/

/-- The quotient of two mantissas has all of its places, unless its exponent is the least there
is or below. -/
private theorem quotient_full {mantissa otherMantissa : Nat} {exponent otherExponent target : Int}
    (positive : 0 < mantissa) (otherPositive : 0 < otherMantissa)
    (targetIs : target = min (exponent - otherExponent) (Format.binary64.targetExponent
      (totalExponent mantissa exponent - totalExponent otherMantissa otherExponent))) :
    target ≤ -1074 ∨
      2 ^ 52 ≤ mantissa * 2 ^ (exponent - otherExponent - target).toNat / otherMantissa := by
  by_cases low : target ≤ -1074
  · exact .inl low
  · have target_le : target ≤ mantissa.log2 - otherMantissa.log2 + (exponent - otherExponent) - 53 := by
      simp only [Format.targetExponent, totalExponent, Format.mantissaBits, Format.minExponent] at targetIs
      norm_num at targetIs
      omega
    have lower := Nat.log2_self_le (Nat.ne_of_gt positive)
    have upper : otherMantissa < 2 ^ (otherMantissa.log2 + 1) := Nat.lt_log2_self
    right
    rw [Nat.le_div_iff_mul_le otherPositive]
    calc 2 ^ 52 * otherMantissa ≤ 2 ^ 52 * 2 ^ (otherMantissa.log2 + 1) :=
          Nat.mul_le_mul_left _ upper.le
      _ = 2 ^ (52 + (otherMantissa.log2 + 1)) := (pow_add _ _ _).symm
      _ ≤ 2 ^ (mantissa.log2 + (exponent - otherExponent - target).toNat) :=
          Nat.pow_le_pow_right (by decide) (by omega)
      _ = 2 ^ mantissa.log2 * 2 ^ (exponent - otherExponent - target).toNat := pow_add _ _ _
      _ ≤ mantissa * 2 ^ (exponent - otherExponent - target).toNat :=
          Nat.mul_le_mul_right _ lower

variable {left right : Float} {first second : Rat}

private theorem apply_div (sign other : Sign) (mantissa otherMantissa : Nat) :
    ((sign.apply mantissa : Int) : Rat) / (other.apply otherMantissa : Int) =
      ((sign / other).apply 1 : Int) * ((mantissa : Rat) / otherMantissa) := by
  have signs : ((sign.apply 1 : Int) : Rat) / (other.apply 1 : Int) =
      ((sign / other).apply 1 : Int) := by
    cases sign <;> cases other <;> decide +kernel
  rw [apply_cast, apply_cast other, mul_div_mul_comm, signs]

private theorem lastPlace_le_of_odd {mantissa : Nat} {exponent : Int} {exact : Rat}
    (odd : IsOddRounding mantissa exact) (positive : 0 < mantissa)
    (long : exponent ≤ 0 ∨ 1 < mantissa) (small : exact * 2 ^ exponent < 2 ^ (200 : Int)) :
    lastPlace mantissa exponent ≤ 970 := by
  have lower := Nat.log2_self_le (Nat.ne_of_gt positive)
  unfold lastPlace
  by_cases short : mantissa.log2 = 0
  · have few : mantissa < 2 ^ 1 := (Nat.log2_lt (Nat.ne_of_gt positive)).mp (by omega)
    omega
  · have even : 2 ^ mantissa.log2 % 2 = 0 := by
      obtain ⟨before, beforeIs⟩ := Nat.exists_eq_succ_of_ne_zero short
      rw [beforeIs, Nat.pow_succ, Nat.mul_mod_left]
    have bound := le_of_oddRounding odd even lower
    have unit : (0 : Rat) < 2 ^ exponent := zpow_pos (by norm_num) exponent
    have size : (2 : Rat) ^ (mantissa.log2 + exponent) < 2 ^ (200 : Int) := by
      rw [zpow_add₀ (by norm_num), zpow_natCast]
      push_cast at bound
      exact (mul_le_mul_of_nonneg_right bound unit.le).trans_lt small
    have exponents := (zpow_lt_zpow_iff_right₀ (by norm_num)).mp size
    omega

/-- A quotient that has all of its places, or the least exponent, is rounded with its remainder
to a number nearest to the exact one. -/
private theorem roundWithAccuracy_quotient (sign : Sign) {dividend divisor : Nat} {target : Int}
    (numerator : 0 < dividend) (denominator : 0 < divisor)
    (full : target ≤ -1074 ∨ 2 ^ 52 ≤ dividend / divisor)
    (small : 4 * (dividend : Rat) / divisor * 2 ^ (target - 2) < 2 ^ (200 : Int)) :
    ∃ result, rational? (Float.Model.pack (roundWithAccuracy Format.binary64 sign
        (dividend / divisor) target
        (accuracyOfFraction (dividend % divisor) divisor))).unpack = some result ∧
      IsNearest result
        ((sign.apply 1 : Int) * (4 * (dividend : Rat) / divisor * 2 ^ (target - 2))) := by
  have odd := oddRounding_of_division dividend denominator
  have low : 0 < dividend / divisor ∨ target ≤ -1074 := by omega
  have reached : target ≤ lastPlace (dividend / divisor) target := by
    unfold lastPlace
    obtain bottom | long := full
    · omega
    · have length := (Nat.le_log2 (by omega)).mpr long
      omega
  rw [roundWithAccuracy_quarters _ _ reached low]
  have samePlace := lastPlace_quarters (quarters_lt
    (accuracyOfFraction (dividend % divisor) divisor)) low
  generalize quarters (accuracyOfFraction (dividend % divisor) divisor) = part at *
  have exactPositive : (0 : Rat) < 4 * dividend / divisor := by
    have numeratorCast : (0 : Rat) < dividend := by exact_mod_cast numerator
    have denominatorCast : (0 : Rat) < divisor := by exact_mod_cast denominator
    positivity
  have quartersPositive : 0 < 4 * (dividend / divisor) + part := by
    obtain same | ⟨isOdd, -⟩ := odd
    · rw [same] at exactPositive
      exact_mod_cast exactPositive
    · omega
  have top : lastPlace (4 * (dividend / divisor) + part) (target - 2) ≤ 970 :=
    lastPlace_le_of_odd odd quartersPositive (by omega) small
  exact roundWithAccuracy_nearest_of_odd _ quartersPositive (by omega) top odd (.inr (by omega))

private theorem quotient_value (sign other : Sign) (mantissa otherMantissa : Nat)
    {exponent otherExponent target : Int} (reached : target ≤ exponent - otherExponent) :
    ((sign.apply mantissa : Int) : Rat) * 2 ^ exponent /
        (((other.apply otherMantissa : Int) : Rat) * 2 ^ otherExponent) =
      ((sign / other).apply 1 : Int) *
        (4 * ((mantissa * 2 ^ (exponent - otherExponent - target).toNat : Nat) : Rat) /
          otherMantissa * 2 ^ (target - 2)) := by
  obtain ⟨places, placesIs⟩ : ∃ places : Nat, exponent - otherExponent = target + places :=
    ⟨(exponent - otherExponent - target).toNat, by omega⟩
  have amount : (exponent - otherExponent - target).toNat = places := by omega
  have powers : (2 : Rat) ^ exponent / 2 ^ otherExponent = 4 * 2 ^ places * 2 ^ (target - 2) := by
    rw [← zpow_sub₀ (by norm_num), placesIs, zpow_add₀ (by norm_num),
      zpow_sub₀ (by norm_num), zpow_natCast]
    norm_num
    ring
  rw [mul_div_mul_comm, apply_div, powers, amount]
  push_cast
  ring

theorem value?_div (isLeft : value? left = some first) (isRight : value? right = some second)
    (nonzero : second ≠ 0) (small : |first / second| < 2 ^ (200 : Int)) :
    ∃ result, value? (left / right) = some result ∧ IsNearest result (first / second) := by
  change ∃ result, rational? (Float.Model.pack (UnpackedFloat.div Format.binary64
    left.toModel.unpack right.toModel.unpack)).unpack = _ ∧ _
  obtain ⟨other, -, zero⟩ | ⟨other, otherMantissa, otherExponent, otherPositive, unpackedRight,
    otherCanonical, otherTop, rfl⟩ := unpack_of_value? isRight
  · exact absurd zero nonzero
  obtain ⟨sign, unpackedLeft, rfl⟩ | ⟨sign, mantissa, exponent, positive, unpackedLeft,
    canonical, top, rfl⟩ := unpack_of_value? isLeft
  · rw [unpackedLeft, unpackedRight, zero_div]
    exact ⟨0, congrArg rational? (unpack_pack_zero _), isNearest_self 0⟩
  · obtain ⟨target, targetIs⟩ : ∃ target, target = min (exponent - otherExponent)
        (Format.binary64.targetExponent (totalExponent mantissa exponent -
          totalExponent otherMantissa otherExponent)) := ⟨_, rfl⟩
    have core : divCore Format.binary64 mantissa exponent otherMantissa otherExponent =
        (mantissa * 2 ^ (exponent - otherExponent - target).toNat / otherMantissa, target,
          accuracyOfFraction (mantissa * 2 ^ (exponent - otherExponent - target).toNat %
            otherMantissa) otherMantissa) := by
      simp only [divCore, ← targetIs, Nat.shiftLeft_eq]
    have reached : target ≤ exponent - otherExponent := by
      rw [targetIs]
      exact min_le_left _ _
    have full := quotient_full positive otherPositive targetIs
    have valueIs := quotient_value sign other mantissa otherMantissa reached
    have numerator : 0 < mantissa * 2 ^ (exponent - otherExponent - target).toNat :=
      Nat.mul_pos positive (Nat.two_pow_pos _)
    rw [unpackedLeft, unpackedRight]
    simp only [UnpackedFloat.div, core]
    rw [valueIs] at small ⊢
    generalize mantissa * 2 ^ (exponent - otherExponent - target).toNat = dividend at *
    refine roundWithAccuracy_quotient _ numerator otherPositive full ?_
    have signSize : |(((sign / other).apply 1 : Int) : Rat)| = 1 := abs_apply _ 1
    rw [abs_mul, signSize, one_mul] at small
    exact (le_abs_self _).trans_lt small

end MarsCalendar.Binary64

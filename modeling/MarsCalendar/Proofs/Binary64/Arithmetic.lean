import MarsCalendar.Proofs.Binary64.Nearest
import MarsCalendar.Proofs.Scalar.Rational
import MarsCalendar.Scalar.Basic

set_option autoImplicit false

/-! What the operations on binary64 numbers do to the rationals they stand for: a
difference, a sum and a product are nearest to the exact ones, a floor and a rounding to whole
numbers are exact, and a word and a count are the whole part. -/

namespace MarsCalendar.Binary64

open Float.Model Float.Model.UnpackedFloat

variable {left right number : Float} {first second value : Rat}

/-! ### Differences, sums and products -/

theorem apply_cast (sign : Sign) (mantissa : Nat) :
    ((sign.apply mantissa : Int) : Rat) = (sign.apply 1 : Int) * mantissa := by
  cases sign <;> simp only [Sign.apply] <;> push_cast <;> ring

theorem apply_mul (sign other : Sign) (mantissa otherMantissa : Nat) :
    (sign * other).apply (mantissa * otherMantissa : Nat) =
      sign.apply mantissa * other.apply otherMantissa := by
  push_cast
  cases sign <;> cases other
  · exact (Int.neg_mul_neg _ _).symm
  · exact (Int.neg_mul _ _).symm
  · exact (Int.mul_neg _ _).symm
  · rfl

private theorem decreased (sign : Sign) (mantissa : Nat) {exponent least : Int}
    (atMost : least ≤ exponent) :
    ((sign.apply (mantissa <<< (exponent - least).toNat : Nat) : Int) : Rat) * 2 ^ least =
      ((sign.apply mantissa : Int) : Rat) * 2 ^ exponent := by
  obtain ⟨places, placesIs⟩ : ∃ places : Nat, exponent = least + places :=
    ⟨(exponent - least).toNat, by omega⟩
  have amount : (exponent - least).toNat = places := by omega
  rw [amount, Nat.shiftLeft_eq, placesIs, zpow_add₀ (by norm_num), zpow_natCast, apply_cast,
    apply_cast sign mantissa]
  push_cast
  ring

def Unpacks (unpacked : UnpackedFloat) (value : Rat) : Prop :=
  (∃ sign, unpacked = .zero sign ∧ value = 0) ∨
    ∃ sign mantissa exponent positive,
      unpacked = .finite sign mantissa exponent positive ∧
      IsCanonical mantissa exponent ∧ exponent ≤ 971 ∧
      value = ((sign.apply mantissa : Int) : Rat) * 2 ^ exponent

private theorem apply_neg (sign : Sign) (mantissa : Nat) :
    (-sign).apply (mantissa : Int) = -sign.apply mantissa := by
  cases sign
  · exact (Int.neg_neg _).symm
  · rfl

theorem Unpacks.neg {unpacked : UnpackedFloat} (stands : Unpacks unpacked value) :
    Unpacks (UnpackedFloat.neg unpacked) (-value) := by
  obtain ⟨sign, rfl, rfl⟩ | ⟨sign, mantissa, exponent, positive, rfl, canonical, top, rfl⟩ := stands
  · exact .inl ⟨-sign, rfl, neg_zero⟩
  · refine .inr ⟨-sign, mantissa, exponent, positive, rfl, canonical, top, ?_⟩
    rw [apply_neg, Int.cast_neg, neg_mul]

theorem Unpacks.rational? {unpacked : UnpackedFloat} (stands : Unpacks unpacked value) :
    rational? (Float.Model.pack unpacked).unpack = some value := by
  obtain ⟨sign, rfl, rfl⟩ | ⟨sign, mantissa, exponent, positive, rfl, canonical, top, rfl⟩ := stands
  · exact congrArg _ (unpack_pack_zero sign)
  · exact congrArg _ (unpack_pack_of_canonical positive canonical top)

private theorem sub_nearest {minuend subtrahend : UnpackedFloat} (isMinuend : Unpacks minuend first)
    (isSubtrahend : Unpacks subtrahend second) (small : |first - second| < 2 ^ (200 : Int)) :
    ∃ result, Binary64.rational? (Float.Model.pack (UnpackedFloat.sub Format.binary64
      minuend subtrahend)).unpack = some result ∧ IsNearest result (first - second) := by
  obtain ⟨sign, rfl, rfl⟩ | ⟨sign, mantissa, exponent, positive, rfl, canonical, top, rfl⟩ :=
    isMinuend
  · rw [zero_sub]
    obtain ⟨other, rfl, rfl⟩ | ⟨other, mantissa, exponent, positive, rfl, canonical, top, rfl⟩ :=
      isSubtrahend
    · refine ⟨0, ?_, isNearest_self 0⟩
      cases sign <;> cases other <;> rfl
    · refine ⟨_, congrArg _ (unpack_pack_of_canonical positive canonical top), ?_⟩
      rw [apply_neg, Int.cast_neg, neg_mul]
      exact isNearest_self _
  · obtain ⟨other, rfl, rfl⟩ | ⟨other, otherMantissa, otherExponent, otherPositive, rfl,
      otherCanonical, otherTop, rfl⟩ := isSubtrahend
    · rw [sub_zero]
      exact ⟨_, congrArg _ (unpack_pack_of_canonical positive canonical top), isNearest_self _⟩
    · have scaled := decreased sign mantissa (min_le_left exponent otherExponent)
      have otherScaled := decreased other otherMantissa (min_le_right exponent otherExponent)
      rw [← scaled, ← otherScaled, ← sub_mul, ← Int.cast_sub] at small ⊢
      exact normalize_nearest _ _ .positive small

theorem value?_sub (isLeft : value? left = some first) (isRight : value? right = some second)
    (small : |first - second| < 2 ^ (200 : Int)) :
    ∃ result, value? (left - right) = some result ∧ IsNearest result (first - second) :=
  sub_nearest (unpack_of_value? isLeft) (unpack_of_value? isRight) small

theorem value?_neg (isNumber : value? number = some value) : value? (-number) = some (-value) :=
  Unpacks.rational? (Unpacks.neg (unpack_of_value? isNumber))

private theorem neg_neg_sign (sign : Sign) : - -sign = sign := by
  cases sign <;> rfl

private theorem add_eq_sub_neg (augend addend : UnpackedFloat) :
    UnpackedFloat.add Format.binary64 augend addend =
      UnpackedFloat.sub Format.binary64 augend (UnpackedFloat.neg addend) := by
  cases augend <;> cases addend <;>
    simp only [UnpackedFloat.add, UnpackedFloat.sub, UnpackedFloat.neg, neg_neg_sign, apply_neg,
      Int.sub_neg]

theorem value?_add (isLeft : value? left = some first) (isRight : value? right = some second)
    (small : |first + second| < 2 ^ (200 : Int)) :
    ∃ result, value? (left + right) = some result ∧ IsNearest result (first + second) := by
  change ∃ result, rational? (Float.Model.pack (UnpackedFloat.add Format.binary64
    left.toModel.unpack right.toModel.unpack)).unpack = _ ∧ _
  rw [← sub_neg_eq_add] at small ⊢
  rw [add_eq_sub_neg]
  exact sub_nearest (unpack_of_value? isLeft) (Unpacks.neg (unpack_of_value? isRight)) small

/-- The product of two mantissas in unpacked form has no place to spare. -/
private theorem product_reaches {mantissa otherMantissa : Nat} {exponent otherExponent : Int}
    (positive : 0 < mantissa) (otherPositive : 0 < otherMantissa)
    (canonical : IsCanonical mantissa exponent)
    (otherCanonical : IsCanonical otherMantissa otherExponent) :
    exponent + otherExponent ≤
      lastPlace (mantissa * otherMantissa) (exponent + otherExponent) := by
  have product : mantissa * otherMantissa ≠ 0 :=
    Nat.ne_of_gt (Nat.mul_pos positive otherPositive)
  have long (factor : 2 ^ 52 ≤ mantissa * otherMantissa) :
      52 ≤ (mantissa * otherMantissa).log2 := (Nat.le_log2 product).mpr factor
  have left := Nat.le_mul_of_pos_right mantissa otherPositive
  have right := Nat.le_mul_of_pos_left otherMantissa positive
  unfold lastPlace
  obtain full | least := canonical.full
  · have length := long (full.trans left)
    omega
  · obtain full | otherLeast := otherCanonical.full
    · have length := long (full.trans right)
      omega
    · omega

theorem value?_mul (isLeft : value? left = some first) (isRight : value? right = some second)
    (small : |first * second| < 2 ^ (200 : Int)) :
    ∃ result, value? (left * right) = some result ∧ IsNearest result (first * second) := by
  change ∃ result, rational? (Float.Model.pack (UnpackedFloat.mul Format.binary64
    left.toModel.unpack right.toModel.unpack)).unpack = _ ∧ _
  have zero (sign : Sign) : ∃ result, rational? (Float.Model.pack (.zero sign)).unpack =
      some result ∧ IsNearest result 0 :=
    ⟨0, congrArg rational? (unpack_pack_zero sign), isNearest_self 0⟩
  obtain ⟨sign, unpackedLeft, rfl⟩ | ⟨sign, mantissa, exponent, positive, unpackedLeft,
    canonical, top, rfl⟩ := unpack_of_value? isLeft
  · obtain ⟨other, unpackedRight, rfl⟩ | ⟨other, mantissa, exponent, positive, unpackedRight,
      -⟩ := unpack_of_value? isRight
    · rw [unpackedLeft, unpackedRight, zero_mul]
      exact zero _
    · rw [unpackedLeft, unpackedRight, zero_mul]
      exact zero _
  · obtain ⟨other, unpackedRight, rfl⟩ | ⟨other, otherMantissa, otherExponent, otherPositive,
      unpackedRight, otherCanonical, otherTop, rfl⟩ := unpack_of_value? isRight
    · rw [unpackedLeft, unpackedRight, mul_zero]
      exact zero _
    · have reached := product_reaches positive otherPositive canonical otherCanonical
      have product : ((sign.apply mantissa : Int) : Rat) * 2 ^ exponent *
          (((other.apply otherMantissa : Int) : Rat) * 2 ^ otherExponent) =
          (((sign * other).apply (mantissa * otherMantissa : Nat) : Int) : Rat) *
            2 ^ (exponent + otherExponent) := by
        rw [apply_mul, zpow_add₀ (by norm_num)]
        push_cast
        ring
      have size : |((sign.apply mantissa : Int) : Rat) * 2 ^ exponent *
          (((other.apply otherMantissa : Int) : Rat) * 2 ^ otherExponent)| =
          ((mantissa * otherMantissa : Nat) : Rat) * 2 ^ (exponent + otherExponent) := by
        rw [product, abs_mul, abs_apply, abs_of_pos (zpow_pos (by norm_num) _)]
      rw [size] at small
      rw [unpackedLeft, unpackedRight, product]
      exact roundWithAccuracy_nearest _ (Nat.mul_pos positive otherPositive) reached
        (lastPlace_le (Nat.mul_pos positive otherPositive) small)

/-! ### Whole numbers -/

theorem mul_zpow_of_neg (mantissa : Int) {exponent : Int} (negative : exponent < 0) :
    (mantissa : Rat) * 2 ^ exponent = mantissa / (2 ^ (-exponent).toNat : Nat) := by
  obtain ⟨places, placesIs⟩ : ∃ places : Nat, exponent = -(places : Int) :=
    ⟨(-exponent).toNat, by omega⟩
  rw [placesIs, Int.neg_neg, Int.toNat_natCast, zpow_neg, zpow_natCast]
  push_cast
  rfl

theorem mul_zpow_of_nonneg (mantissa : Int) {exponent : Int} (nonneg : 0 ≤ exponent) :
    (mantissa : Rat) * 2 ^ exponent = (mantissa * 2 ^ exponent.toNat : Int) := by
  obtain ⟨places, rfl⟩ := Int.eq_ofNat_of_zero_le nonneg
  rw [Int.toNat_natCast, zpow_natCast]
  push_cast
  rfl

/-- A number that has places after the point is small, so a whole number next to it has a
number too. -/
private theorem fraction_lt (sign : Sign) {mantissa : Nat} {exponent : Int}
    (high : mantissa < 2 ^ 53) (isFraction : exponent < 0) :
    |((sign.apply mantissa : Int) : Rat) * 2 ^ exponent| < 2 ^ (52 : Int) := by
  have highCast : (mantissa : Rat) < 2 ^ (53 : Int) := by exact_mod_cast high
  have half : (2 : Rat) ^ exponent ≤ 2 ^ (-1 : Int) :=
    zpow_le_zpow_right₀ (by norm_num) (by omega)
  rw [abs_mul, abs_apply, abs_of_pos (zpow_pos (by norm_num) _)]
  calc (mantissa : Rat) * 2 ^ exponent ≤ mantissa * 2 ^ (-1 : Int) :=
        mul_le_mul_of_nonneg_left half (Nat.cast_nonneg _)
    _ < 2 ^ (53 : Int) * 2 ^ (-1 : Int) := mul_lt_mul_of_pos_right highCast (by norm_num)
    _ = 2 ^ (52 : Int) := by norm_num

theorem rational?_normalize_whole {whole : Int} (small : |whole| < 2 ^ 53) (zeroSign : Sign) :
    rational? (Float.Model.pack (.normalize .binary64 whole 0 zeroSign)).unpack =
      some (whole : Rat) := by
  have unscaled : (whole : Rat) * 2 ^ (0 : Int) = whole := by
    rw [zpow_zero, mul_one]
  have smallCast : |(whole : Rat)| < 2 ^ 53 := by exact_mod_cast small
  have fits : |(whole : Rat) * 2 ^ (0 : Int)| < 2 ^ (200 : Int) := by
    rw [unscaled]
    exact smallCast.trans (by norm_num)
  obtain ⟨result, resultIs, nearest⟩ := normalize_nearest whole 0 zeroSign fits
  rw [unscaled] at nearest
  rw [resultIs, nearest.eq_exact ⟨whole, 0, small, by decide, unscaled.symm⟩]

/-- The number that a rule for whole numbers makes stands for what the rule makes of the
rational, if the rule keeps whole numbers and does not go past the next one. -/
theorem value?_whole {rule : Rat → Int} (keeps : ∀ whole : Int, rule whole = whole)
    (near : ∀ value, |(rule value : Rat) - value| ≤ 1) (isNumber : value? number = some value) :
    value? (wholeBinary64 rule number) = some (rule value : Rat) := by
  obtain ⟨sign, unpacked, rfl⟩ | ⟨sign, mantissa, exponent, positive, unpacked, canonical, top,
    rfl⟩ := unpack_of_value? isNumber
  · have kept : wholeBinary64 rule number = number := by
      unfold wholeBinary64
      rw [unpacked]
    have zero : rule 0 = 0 := keeps 0
    rw [kept, isNumber, zero]
    rfl
  · by_cases isWhole : 0 ≤ exponent
    · have kept : wholeBinary64 rule number = number := by
        unfold wholeBinary64
        rw [unpacked]
        exact if_pos isWhole
      rw [kept, isNumber, mul_zpow_of_nonneg _ isWhole, keeps]
    · have fraction := mul_zpow_of_neg (sign.apply mantissa) (not_le.mp isWhole)
      have made : value? (wholeBinary64 rule number) = rational? (Float.Model.pack
          (.normalize .binary64 (rule (((sign.apply mantissa : Int) : Rat) * 2 ^ exponent)) 0
            sign)).unpack := by
        unfold value? wholeBinary64
        rw [unpacked, fraction, ← Rat.mkRat_eq_div, ← Nat.one_shiftLeft]
        dsimp only
        rw [if_neg isWhole]
      have size := fraction_lt sign canonical.high (not_le.mp isWhole)
      generalize ((sign.apply mantissa : Int) : Rat) * 2 ^ exponent = value at *
      have ruleSize : |(rule value : Rat)| < 2 ^ 53 := by
        have triangle := abs_sub_abs_le_abs_sub (rule value : Rat) value
        have step := near value
        norm_num at size ⊢
        linarith
      have ruleSmall : |rule value| < 2 ^ 53 := by exact_mod_cast ruleSize
      rw [made, rational?_normalize_whole ruleSmall]

theorem value?_floor (isNumber : value? number = some value) :
    value? (Scalar.floor number) = some (value.floor : Rat) := by
  refine value?_whole Rat.floor_intCast (fun value => ?_) isNumber
  obtain ⟨below, above⟩ := floor_bounds value
  exact abs_sub_le_iff.mpr ⟨by linarith, by linarith⟩

theorem value?_round (isNumber : value? number = some value) :
    value? (Scalar.round number) = some (roundRat value : Rat) := by
  refine value?_whole roundRat_intCast (fun value => ?_) isNumber
  obtain ⟨below, above⟩ := roundRat_close value
  exact abs_sub_le_iff.mpr ⟨by linarith, by linarith⟩

private theorem roundToInt_eq (sign : Sign) (mantissa : Nat) (exponent : Int) :
    roundToInt sign mantissa exponent =
      sign.apply (mantissa * 2 ^ exponent.toNat / 2 ^ (-exponent).toNat : Nat) := by
  have amount : (0 - (exponent - (exponent.toNat : Int))).toNat = (-exponent).toNat := by omega
  simp only [roundToInt, decreaseExponent, Int.sub_zero, shiftToExponent, amount, shift_mantissa,
    ofMantissaAndAccuracy_mantissa, Nat.shiftLeft_eq]

private theorem floor_mantissa (mantissa : Nat) (exponent : Int) :
    (((Sign.positive.apply mantissa : Int) : Rat) * 2 ^ exponent).floor =
      (mantissa * 2 ^ exponent.toNat / 2 ^ (-exponent).toNat : Nat) := by
  by_cases isWhole : 0 ≤ exponent
  · have unshifted : (-exponent).toNat = 0 := by omega
    rw [mul_zpow_of_nonneg _ isWhole, Rat.floor_intCast, unshifted, pow_zero, Nat.div_one]
    push_cast
    rfl
  · have unraised : exponent.toNat = 0 := by omega
    rw [mul_zpow_of_neg _ (not_le.mp isWhole), unraised, pow_zero, Nat.mul_one]
    exact Rat.floor_intCast_div_natCast _ _

theorem toWord_eq (isNumber : value? number = some value) (nonneg : 0 ≤ value)
    (small : value < 2 ^ 63) : Scalar.toWord number = value.floor := by
  change (Int64.ofIntClamp (UnpackedFloat.toInt Int64.minValue.toInt Int64.maxValue.toInt
    number.toModel.unpack)).toInt = _
  have fits : value.floor < 2 ^ 63 := by
    rw [Rat.floor_lt_iff]
    exact_mod_cast small
  have notNegative : 0 ≤ value.floor := Rat.le_floor_iff.mpr (by exact_mod_cast nonneg)
  obtain ⟨sign, unpacked, rfl⟩ | ⟨sign, mantissa, exponent, positive, unpacked, -, -, rfl⟩ :=
    unpack_of_value? isNumber
  · rw [unpacked]
    rfl
  · cases sign with
    | positive =>
        have whole := floor_mantissa mantissa exponent
        rw [unpacked, UnpackedFloat.toInt, roundToInt_eq]
        rw [whole] at fits notNegative ⊢
        exact Int64.toInt_ofIntClamp (le_trans (by decide) notNegative) (Int.le_of_lt_add_one fits)
    | negative =>
        have size := magnitude_pos positive exponent
        rw [Sign.apply, Int.cast_neg, Int.cast_natCast, neg_mul] at nonneg
        linarith
theorem toCount_eq (isNumber : value? number = some value) (small : value < 2 ^ 63) :
    Scalar.toCount number = value.floor.toNat := by
  rcases le_or_gt 0 value with nonneg | negative
  · unfold Scalar.toCount
    rw [toWord_eq isNumber nonneg small]
  have nonpositive : value.floor ≤ 0 := by
    have below := (Rat.floor_le value).trans negative.le
    exact_mod_cast below
  rw [Int.toNat_eq_zero.mpr nonpositive]
  change (Int64.ofIntClamp (UnpackedFloat.toInt Int64.minValue.toInt Int64.maxValue.toInt
    number.toModel.unpack)).toNatClampNeg = _
  obtain ⟨sign, unpacked, rfl⟩ | ⟨sign, mantissa, exponent, positive, unpacked, -, -, rfl⟩ :=
    unpack_of_value? isNumber
  · exact absurd negative (lt_irrefl 0)
  · rw [unpacked, UnpackedFloat.toInt, roundToInt_eq]
    generalize mantissa * 2 ^ exponent.toNat / 2 ^ (-exponent).toNat = whole
    cases sign with
    | positive =>
        have size := magnitude_pos positive exponent
        rw [Sign.apply, Int.cast_natCast] at negative
        exact absurd negative size.not_gt
    | negative =>
        have fits : Sign.negative.apply (whole : Int) < 2 ^ 63 := by
          simp only [Sign.apply]
          omega
        rw [Int64.toNatClampNeg_ofIntClamp_of_lt fits]
        simp only [Sign.apply]
        omega

end MarsCalendar.Binary64

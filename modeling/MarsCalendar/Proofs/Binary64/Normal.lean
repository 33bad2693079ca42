import Mathlib

set_option autoImplicit false

/-! Positive binary64 numbers with a mantissa of full length, and what conversion from
a natural number, division and the return to a natural number make of them. Conversion
is exact below 2 ^ 53; the mantissa of a quotient is known to within two units. That is
coarse, but it asks nothing of the way halves are rounded. -/

namespace MarsCalendar.Binary64

open Float.Model Float.Model.UnpackedFloat

/-- The number is `mantissa * 2 ^ exponent`, and its mantissa has all of its 53 bits. -/
structure IsNormal (number : Float) (mantissa : Nat) (exponent : Int) : Prop where
  low : 2 ^ 52 ≤ mantissa
  high : mantissa < 2 ^ 53
  unpacked : ∃ positive,
    number.toModel.unpack = .finite .positive mantissa exponent positive

/-! ### Packing and unpacking -/

theorem leading_one (bits : BitVec 52) : (1#1 ++ bits).toNat = 2 ^ 52 + bits.toNat := by
  rw [BitVec.toNat_append, ← Nat.shiftLeft_add_eq_or_of_lt bits.isLt]
  rfl

private theorem leading_bit {mantissa : Nat} (low : 2 ^ 52 ≤ mantissa)
    (high : mantissa < 2 ^ 53) : (1#1 ++ BitVec.ofNat 52 mantissa).toNat = mantissa := by
  rw [leading_one, BitVec.toNat_ofNat]
  omega

theorem ofBitVec_toBitVec (sign : Sign) : Sign.ofBitVec sign.toBitVec = sign := by
  cases sign <;> rfl

theorem log2_full {mantissa : Nat} (low : 2 ^ 52 ≤ mantissa)
    (high : mantissa < 2 ^ 53) : mantissa.log2 = 52 :=
  (Nat.log2_eq_iff (by omega)).mpr ⟨low, high⟩

theorem unpack_pack {sign : Sign} {mantissa : Nat} {exponent : Int} (positive : 0 < mantissa)
    (low : 2 ^ 52 ≤ mantissa) (high : mantissa < 2 ^ 53) (bottom : -1074 ≤ exponent)
    (top : exponent ≤ 971) :
    (Float.Model.pack (.finite sign mantissa exponent positive)).unpack =
      .finite sign mantissa exponent positive := by
  obtain ⟨biased, biasedIs⟩ : ∃ biased : Nat, (biased : Int) = exponent + 1075 :=
    ⟨(exponent + 1075).toNat, by omega⟩
  have sameBiased : (exponent + 1023 + 52).toNat = biased := by omega
  have packed :
      UnpackedFloat.pack Format.binary64 (.finite sign mantissa exponent positive) =
        packComponents Format.binary64 sign (BitVec.ofNat 11 biased)
          (BitVec.ofNat 52 mantissa) := by
    simp only [UnpackedFloat.pack, log2_full low high, Format.exponentBias,
      Format.mantissaBits]
    norm_num
    rw [sameBiased, if_neg (by omega)]
  have biasedBits : (BitVec.ofNat 11 biased).toNat = biased := by
    rw [BitVec.toNat_ofNat]
    omega
  have notInfinite : BitVec.ofNat 11 biased ≠ -1#11 := by
    intro same
    have value : (BitVec.ofNat 11 biased).toNat = 2047 := congrArg BitVec.toNat same
    omega
  have notSubnormal : BitVec.ofNat 11 biased ≠ 0#11 := by
    intro same
    have value : (BitVec.ofNat 11 biased).toNat = 0 := congrArg BitVec.toNat same
    omega
  change UnpackedFloat.unpack Format.binary64 (UnpackedFloat.pack Format.binary64 _) = _
  rw [packed]
  simp only [UnpackedFloat.unpack, unpackExponent_packComponents,
    unpackMantissa_packComponents, unpackSign_packComponents, ofBitVec_toBitVec]
  rw [if_neg notInfinite, if_neg notSubnormal]
  have exponentBack : ((BitVec.ofNat 11 biased).toNat : Int) - (1023 + 52) = exponent := by
    omega
  congr 1
  exact leading_bit low high

/-! ### Rounding to a full mantissa -/

def lastPlace (mantissa : Nat) (exponent : Int) : Int :=
  max (mantissa.log2 + exponent - 52) (-1074)

theorem targetExponent_eq_lastPlace (mantissa : Nat) (exponent : Int) :
    Format.binary64.targetExponent (totalExponent mantissa exponent) =
      lastPlace mantissa exponent := by
  simp only [Format.targetExponent, totalExponent, Format.mantissaBits, Format.minExponent,
    lastPlace]
  norm_num
  omega

theorem shift_by (accuracy : Accuracy) {mantissa places : Nat} {exponent : Int}
    (amount : (lastPlace mantissa exponent - exponent).toNat = places) :
    shiftToTargetExponent Format.binary64 mantissa exponent accuracy =
      (ExtendedMantissa.ofMantissaAndAccuracy mantissa accuracy >>> places, exponent + places) := by
  simp only [shiftToTargetExponent, shiftToExponent, targetExponent_eq_lastPlace, amount]

private theorem shift_to_full (mantissa places : Nat) (exponent : Int) (accuracy : Accuracy)
    (size : mantissa.log2 = 52 + places) (bottom : -1074 ≤ exponent) :
    shiftToTargetExponent Format.binary64 mantissa exponent accuracy =
      (ExtendedMantissa.ofMantissaAndAccuracy mantissa accuracy >>> places,
        exponent + places) := by
  apply shift_by
  unfold lastPlace
  omega

theorem roundedMantissa_bounds (extended : ExtendedMantissa) :
    extended.mantissa ≤ extended.roundedMantissa ∧
      extended.roundedMantissa ≤ extended.mantissa + 1 := by
  obtain ⟨mantissa, round, sticky⟩ := extended
  cases round <;> cases sticky <;>
    simp only [ExtendedMantissa.roundedMantissa, ExtendedMantissa.accuracy,
      Accuracy.roundToNearestEven] <;> omega

theorem ofMantissaAndAccuracy_mantissa (mantissa : Nat) (accuracy : Accuracy) :
    (ExtendedMantissa.ofMantissaAndAccuracy mantissa accuracy).mantissa = mantissa := by
  unfold ExtendedMantissa.ofMantissaAndAccuracy
  split <;> rfl

theorem shift_mantissa (extended : ExtendedMantissa) (places : Nat) :
    (extended >>> places).mantissa = extended.mantissa / 2 ^ places := by
  induction places with
  | zero => exact (Nat.div_one _).symm
  | succ places ih =>
      change (extended >>> places).mantissa / 2 = _
      rw [ih, Nat.div_div_eq_div_mul, pow_succ]

private theorem carry (rounded : Nat) (exponent : Int) (low : 2 ^ 52 ≤ rounded)
    (high : rounded ≤ 2 ^ 53) (bottom : -1074 ≤ exponent) :
    ∃ mantissa places : Nat,
      (shiftToTargetExponent Format.binary64 rounded exponent .exact).1.mantissa = mantissa ∧
      (shiftToTargetExponent Format.binary64 rounded exponent .exact).2 = exponent + places ∧
      2 ^ 52 ≤ mantissa ∧ mantissa < 2 ^ 53 ∧ places ≤ 1 ∧
      mantissa * 2 ^ places = rounded := by
  by_cases grown : rounded = 2 ^ 53
  · subst grown
    refine ⟨2 ^ 52, 1, ?_⟩
    rw [shift_to_full _ 1 _ _ (by decide) bottom]
    exact ⟨rfl, rfl, by decide, by decide, by decide, by decide⟩
  · refine ⟨rounded, 0, ?_⟩
    rw [shift_to_full _ 0 _ _ (log2_full low (by omega)) bottom]
    exact ⟨rfl, rfl, low, by omega, by omega, by omega⟩

theorem roundWithAccuracy_bounds (mantissa : Nat) (exponent : Int) (accuracy : Accuracy)
    (low : 2 ^ 52 ≤ mantissa) (high : mantissa < 2 ^ 54) (bottom : -1074 ≤ exponent) :
    ∃ (result places : Nat) (positive : 0 < result),
      roundWithAccuracy Format.binary64 .positive mantissa exponent accuracy =
        .finite .positive result (exponent + places) positive ∧
      2 ^ 52 ≤ result ∧ result < 2 ^ 53 ∧ places ≤ 2 ∧
      mantissa ≤ result * 2 ^ places + 1 ∧ result * 2 ^ places ≤ mantissa + 2 := by
  obtain ⟨first, firstSmall, size, firstLow, firstHigh⟩ : ∃ first ≤ 1,
      mantissa.log2 = 52 + first ∧ 2 ^ 52 ≤ mantissa / 2 ^ first ∧
        mantissa / 2 ^ first < 2 ^ 53 := by
    by_cases full : mantissa < 2 ^ 53
    · exact ⟨0, by omega, log2_full low full, by omega, by omega⟩
    · exact ⟨1, by omega, (Nat.log2_eq_iff (by omega)).mpr ⟨by omega, high⟩, by omega, by omega⟩
  -- The first shift leaves a full mantissa; rounding it may carry, which a second one undoes.
  have rounding := roundedMantissa_bounds
    (ExtendedMantissa.ofMantissaAndAccuracy mantissa accuracy >>> first)
  rw [shift_mantissa, ofMantissaAndAccuracy_mantissa] at rounding
  obtain ⟨result, second, found, raised, resultLow, resultHigh, secondSmall, value⟩ :=
    carry (ExtendedMantissa.ofMantissaAndAccuracy mantissa accuracy >>> first).roundedMantissa
      (exponent + first) (by omega) (by omega) (by omega)
  refine ⟨result, first + second, by omega, ?_, resultLow, resultHigh, by omega, ?_⟩
  · unfold roundWithAccuracy
    rw [shift_to_full mantissa first exponent accuracy size bottom]
    dsimp only
    split
    · rename_i vanished
      have impossible := found.symm.trans vanished
      omega
    · simp only [found, raised]
      congr 1
      omega
  · have places : result * 2 ^ (first + second) = result * 2 ^ second * 2 ^ first := by ring
    rw [places, value]
    interval_cases first <;> omega

theorem roundWithAccuracy_exact {mantissa : Nat} {exponent : Int}
    (positive : 0 < mantissa) (low : 2 ^ 52 ≤ mantissa) (high : mantissa < 2 ^ 53)
    (bottom : -1074 ≤ exponent) :
    roundWithAccuracy Format.binary64 .positive mantissa exponent .exact =
      .finite .positive mantissa exponent positive := by
  have size : mantissa.log2 = 52 + 0 := log2_full low high
  have kept : (ExtendedMantissa.ofMantissaAndAccuracy mantissa .exact >>> 0).roundedMantissa =
      mantissa := rfl
  unfold roundWithAccuracy
  rw [shift_to_full mantissa 0 exponent _ size bottom]
  dsimp only
  rw [kept, shift_to_full mantissa 0 _ _ size (by omega)]
  dsimp only
  split
  · rename_i vanished
    rw [shift_mantissa, ofMantissaAndAccuracy_mantissa] at vanished
    omega
  · congr 1
    omega

end MarsCalendar.Binary64

import MarsCalendar.Proofs.Binary64.Normal

set_option autoImplicit false

/-! The way of a natural number through binary64: converted exactly, divided with a
mantissa known to within two units, and cut off to a natural number again. -/

namespace MarsCalendar.Binary64

open Float.Model Float.Model.UnpackedFloat

theorem full_of_bits {value log : Nat} (atLeast : 2 ^ log ≤ value)
    (below : value < 2 ^ (log + 1)) (small : log ≤ 52) :
    2 ^ 52 ≤ value * 2 ^ (52 - log) ∧ value * 2 ^ (52 - log) < 2 ^ 53 := by
  have lower := Nat.mul_le_mul_right (2 ^ (52 - log)) atLeast
  have upper := Nat.mul_lt_mul_of_pos_right below (Nat.two_pow_pos (52 - log))
  rw [← pow_add] at lower upper
  rw [Nat.add_sub_of_le small] at lower
  rw [Nat.add_right_comm, Nat.add_sub_of_le small] at upper
  exact ⟨lower, upper⟩

theorem isNormal_toFloat {value log : Nat} (atLeast : 2 ^ log ≤ value)
    (below : value < 2 ^ (log + 1)) (small : log ≤ 52) :
    IsNormal value.toUInt64.toFloat (value * 2 ^ (52 - log)) (log - 52) := by
  obtain ⟨low, high⟩ := full_of_bits atLeast below small
  have positive : 0 < value := Nat.lt_of_lt_of_le (Nat.two_pow_pos log) atLeast
  have bounded : value < 2 ^ 53 :=
    Nat.lt_of_lt_of_le below (Nat.pow_le_pow_right (by decide) (by omega))
  have size : value.log2 = log := (Nat.log2_eq_iff (by omega)).mpr ⟨atLeast, below⟩
  have word : value.toUInt64.toNat = value := by
    rw [Nat.toUInt64_eq, UInt64.toNat_ofNat']
    exact Nat.mod_eq_of_lt (by omega)
  have target : Format.binary64.targetExponent (totalExponent value 0) = (log : Int) - 52 := by
    simp only [Format.targetExponent, totalExponent, Format.mantissaBits, Format.minExponent,
      size]
    norm_num
    omega
  have places : (0 - ((log : Int) - 52)).toNat = 52 - log := by omega
  have lowered : (0 : Int) - ((52 - log : Nat) : Int) = log - 52 := by omega
  refine ⟨low, high, by omega, ?_⟩
  change (Float.Model.pack (UnpackedFloat.normalize Format.binary64
    (value.toUInt64.toNat : Int) 0 .positive)).unpack = _
  rw [word, UnpackedFloat.normalize, Int.compare_eq_gt.mpr (by omega)]
  simp only [Int.toNat_natCast, UnpackedFloat.round, target, decreaseExponent, places,
    Nat.shiftLeft_eq]
  rw [lowered, roundWithAccuracy_exact (by omega) low high (by omega),
    unpack_pack _ low high (by omega) (by omega)]

/-- The mantissa of a quotient, carried to the scale of the exact one, differs from it by
two units at most. -/
theorem isNormal_div {dividend divisor : Float} {upper lower : Nat} {above under : Int}
    (isDividend : IsNormal dividend upper above) (isDivisor : IsNormal divisor lower under)
    (bottom : -1000 ≤ above - under) (top : above - under ≤ 1000) :
    ∃ mantissa places : Nat,
      IsNormal (dividend / divisor) mantissa (above - under - 53 + places) ∧ places ≤ 2 ∧
      upper * 2 ^ 53 / lower ≤ mantissa * 2 ^ places + 1 ∧
      mantissa * 2 ^ places ≤ upper * 2 ^ 53 / lower + 2 := by
  obtain ⟨upperLow, upperHigh, _, dividendIs⟩ := isDividend
  obtain ⟨lowerLow, lowerHigh, lowerPositive, divisorIs⟩ := isDivisor
  have core : divCore Format.binary64 upper above lower under =
      (upper * 2 ^ 53 / lower, above - under - 53,
        accuracyOfFraction (upper * 2 ^ 53 % lower) lower) := by
    have target : Format.binary64.targetExponent
        (totalExponent upper above - totalExponent lower under) = above - under - 53 := by
      simp only [Format.targetExponent, totalExponent, Format.mantissaBits,
        Format.minExponent, log2_full upperLow upperHigh, log2_full lowerLow lowerHigh]
      norm_num
      omega
    have least : min (above - under) (above - under - 53) = above - under - 53 := by omega
    have amount : (above - under - (above - under - 53)).toNat = 53 := by omega
    simp only [divCore, target, least, amount, Nat.shiftLeft_eq]
  have quotientLow : 2 ^ 52 ≤ upper * 2 ^ 53 / lower := by
    rw [Nat.le_div_iff_mul_le lowerPositive]
    omega
  have quotientHigh : upper * 2 ^ 53 / lower < 2 ^ 54 := by
    rw [Nat.div_lt_iff_lt_mul lowerPositive]
    omega
  obtain ⟨mantissa, places, positive, rounded, low, high, few, atLeast, atMost⟩ :=
    roundWithAccuracy_bounds (upper * 2 ^ 53 / lower) (above - under - 53)
      (accuracyOfFraction (upper * 2 ^ 53 % lower) lower) quotientLow quotientHigh (by omega)
  refine ⟨mantissa, places, ⟨low, high, positive, ?_⟩, few, atLeast, atMost⟩
  change (Float.Model.pack (UnpackedFloat.div Format.binary64
    dividend.toModel.unpack divisor.toModel.unpack)).unpack = _
  rw [dividendIs, divisorIs]
  simp only [UnpackedFloat.div, core]
  change (Float.Model.pack (roundWithAccuracy Format.binary64 .positive _ _ _)).unpack = _
  rw [rounded, unpack_pack positive low high (by omega) (by omega)]

theorem toUInt64_of_isNormal {number : Float} {mantissa places : Nat}
    (isNumber : IsNormal number mantissa (-places)) :
    number.toUInt64.toNat = mantissa / 2 ^ places := by
  obtain ⟨_, high, positive, numberIs⟩ := isNumber
  have unraised : (-(places : Int)).toNat = 0 := by omega
  have amount : (0 - (-(places : Int) - (0 : Nat))).toNat = places := by omega
  have whole : UnpackedFloat.toInt 0 (UInt64.size - 1)
      (.finite .positive mantissa (-places) positive) = (mantissa / 2 ^ places : Nat) := by
    simp only [UnpackedFloat.toInt, roundToInt, decreaseExponent, Int.sub_zero, unraised,
      Nat.shiftLeft_zero, shiftToExponent, amount, shift_mantissa,
      ofMantissaAndAccuracy_mantissa]
    rfl
  have bounded : mantissa / 2 ^ places < UInt64.size :=
    Nat.lt_of_le_of_lt (Nat.div_le_self _ _) (Nat.lt_trans high (by decide))
  change (UInt64.ofNatClamp
    (number.toModel.unpack.toInt 0 (UInt64.size - 1)).toNat).toNat = _
  rw [numberIs, whole, Int.toNat_natCast, UInt64.ofNatClamp_eq_ofNat _ bounded,
    UInt64.toNat_ofNat_of_lt' bounded]

end MarsCalendar.Binary64

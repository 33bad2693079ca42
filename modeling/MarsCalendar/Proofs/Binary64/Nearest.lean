import MarsCalendar.Proofs.Binary64.Value

set_option autoImplicit false

/-! Rounding at binary64 finds a nearest representable rational: no other one is closer.
So the result never passes a representable number that the exact one does not, and a
representable exact result is the result. -/

namespace MarsCalendar.Binary64

open Float.Model Float.Model.UnpackedFloat

/-! ### Nearest rationals -/

def IsNearest (result exact : Rat) : Prop :=
  ∀ other, Representable other → |result - exact| ≤ |other - exact|

variable {result exact bound : Rat}

theorem Representable.neg {value : Rat} (representable : Representable value) :
    Representable (-value) := by
  obtain ⟨mantissa, exponent, small, bottom, rfl⟩ := representable
  exact ⟨-mantissa, exponent, by rwa [abs_neg], bottom, by push_cast; ring⟩

theorem isNearest_self (value : Rat) : IsNearest value value := by
  intro other _
  rw [sub_self, abs_zero]
  exact abs_nonneg _

theorem IsNearest.neg (nearest : IsNearest result exact) : IsNearest (-result) (-exact) := by
  intro other representable
  have closest := nearest _ representable.neg
  rw [← neg_sub', abs_neg]
  rw [← neg_add', abs_neg] at closest
  rwa [sub_neg_eq_add]

theorem IsNearest.eq_exact (nearest : IsNearest result exact) (representable : Representable exact) :
    result = exact := by
  have closest := nearest _ representable
  rw [sub_self, abs_zero] at closest
  exact sub_eq_zero.mp (abs_nonpos_iff.mp closest)

theorem IsNearest.le_bound (nearest : IsNearest result exact) (representable : Representable bound)
    (below : exact ≤ bound) : result ≤ bound := by
  have closest := nearest _ representable
  rw [abs_of_nonneg (sub_nonneg.mpr below)] at closest
  linarith [le_abs_self (result - exact)]

theorem IsNearest.bound_le (nearest : IsNearest result exact) (representable : Representable bound)
    (above : bound ≤ exact) : bound ≤ result := by
  have closest := nearest _ representable
  rw [abs_of_nonpos (sub_nonpos.mpr above)] at closest
  linarith [neg_abs_le (result - exact)]

theorem IsNearest.mono {later laterExact : Rat} (nearest : IsNearest result exact)
    (laterNearest : IsNearest later laterExact) (representable : Representable result)
    (laterRepresentable : Representable later) (before : exact < laterExact) : result ≤ later := by
  by_contra crossed
  have closest := nearest later laterRepresentable
  have laterClosest := laterNearest result representable
  rw [← sq_le_sq] at closest laterClosest
  have gap : 0 < result - later := by linarith
  -- The middle of the two is not above one of the exact ones and not below the other.
  have notAbove : (result - later) * (result + later - 2 * exact) ≤ 0 := by linarith
  have notBelow : 0 ≤ (result - later) * (result + later - 2 * laterExact) := by linarith
  have low := nonpos_of_mul_nonpos_right notAbove gap
  have high := nonneg_of_mul_nonneg_right notBelow gap
  linarith

theorem IsNearest.eq_or_midpoint {other : Rat} (nearest : IsNearest result exact)
    (otherNearest : IsNearest other exact) (representable : Representable result)
    (otherRepresentable : Representable other) : result = other ∨ result + other = 2 * exact := by
  have distances := le_antisymm (nearest other otherRepresentable)
    (otherNearest result representable)
  obtain same | opposite := abs_eq_abs.mp distances
  · left
    linarith
  · right
    linarith

private theorem closest_multiple {mantissa exponent : Int}
    (close : 2 * |(mantissa : Rat) * 2 ^ exponent - exact| ≤ 2 ^ exponent) (other : Int) :
    |(mantissa : Rat) * 2 ^ exponent - exact| ≤ |(other : Rat) * 2 ^ exponent - exact| := by
  by_cases same : other = mantissa
  · rw [same]
  · have unit : (0 : Rat) < 2 ^ exponent := zpow_pos (by norm_num) exponent
    have apart : (1 : Rat) ≤ |(other : Rat) - mantissa| := by
      have integers : 1 ≤ |other - mantissa| := Int.one_le_abs (sub_ne_zero.mpr same)
      exact_mod_cast integers
    have distance : (2 : Rat) ^ exponent ≤
        |(other : Rat) * 2 ^ exponent - (mantissa : Rat) * 2 ^ exponent| := by
      rw [← sub_mul, abs_mul, abs_of_pos unit]
      exact le_mul_of_one_le_left unit.le apart
    have triangle := abs_sub_le ((other : Rat) * 2 ^ exponent) exact (mantissa * 2 ^ exponent)
    rw [abs_sub_comm exact] at triangle
    linarith

private theorem le_of_finer {mantissa finer exponent : Int} (small : |mantissa| < 2 ^ 53)
    (isFiner : finer < exponent) : (mantissa : Rat) * 2 ^ finer ≤ 2 ^ (exponent + 52) := by
  have mantissaSmall : (mantissa : Rat) ≤ 2 ^ (53 : Int) := by
    have integers : mantissa ≤ 2 ^ 53 := (le_abs_self _).trans small.le
    exact_mod_cast integers
  have exponentSmall : (2 : Rat) ^ finer ≤ 2 ^ (exponent - 1) :=
    zpow_le_zpow_right₀ (by norm_num) (by omega)
  calc (mantissa : Rat) * 2 ^ finer
      ≤ 2 ^ (53 : Int) * 2 ^ finer :=
        mul_le_mul_of_nonneg_right mantissaSmall (zpow_pos (by norm_num) _).le
    _ ≤ 2 ^ (53 : Int) * 2 ^ (exponent - 1) :=
        mul_le_mul_of_nonneg_left exponentSmall (by norm_num)
    _ = 2 ^ (exponent + 52) := by
        rw [← zpow_add₀ (by norm_num)]
        congr 1
        omega

private theorem multiple_of_coarser (mantissa : Int) {coarser exponent : Int}
    (isCoarser : exponent ≤ coarser) : (mantissa : Rat) * 2 ^ coarser =
      ((mantissa * 2 ^ (coarser - exponent).toNat : Int) : Rat) * 2 ^ exponent := by
  push_cast
  rw [mul_assoc, ← zpow_natCast, ← zpow_add₀ (by norm_num)]
  congr 2
  omega

/-- Among the multiples of a power of two a closest one is a nearest representable rational,
if the representable rationals that are finer than it are all below a multiple of it that
is not above the exact one. -/
theorem isNearest_of_grid {mantissa exponent : Int}
    (close : 2 * |(mantissa : Rat) * 2 ^ exponent - exact| ≤ 2 ^ exponent)
    (coarse : exponent = -1074 ∨ 2 ^ (exponent + 52) ≤ exact) :
    IsNearest (mantissa * 2 ^ exponent) exact := by
  rintro other ⟨otherMantissa, otherExponent, small, bottom, rfl⟩
  by_cases finer : otherExponent < exponent
  · have above := coarse.resolve_left (by omega)
    have below := le_of_finer small finer
    have power : (2 : Rat) ^ (exponent + 52) = ((2 ^ 52 : Int) : Rat) * 2 ^ exponent := by
      rw [zpow_add₀ (by norm_num)]
      push_cast
      rw [mul_comm]
    have grid := closest_multiple close (2 ^ 52)
    rw [← power, abs_of_nonpos (sub_nonpos.mpr above)] at grid
    rw [abs_of_nonpos (sub_nonpos.mpr (below.trans above))]
    linarith
  · rw [multiple_of_coarser otherMantissa (not_lt.mp finer)]
    exact closest_multiple close _

/-! ### Rounding a mantissa -/

theorem shift_residue (mantissa places : Nat) :
    ((ExtendedMantissa.ofMantissaAndAccuracy mantissa .exact >>> (places + 1)).roundBit =
        (mantissa / 2 ^ places % 2 != 0)) ∧
      ((ExtendedMantissa.ofMantissaAndAccuracy mantissa .exact >>> (places + 1)).stickyBit =
        (mantissa % 2 ^ places != 0)) := by
  induction places with
  | zero =>
      rw [pow_zero, Nat.div_one, Nat.mod_one]
      exact ⟨rfl, rfl⟩
  | succ places ih =>
      obtain ⟨round, sticky⟩ := ih
      have shifted := shift_mantissa (.ofMantissaAndAccuracy mantissa .exact) (places + 1)
      rw [ofMantissaAndAccuracy_mantissa] at shifted
      constructor
      · change ((ExtendedMantissa.ofMantissaAndAccuracy mantissa .exact >>>
          (places + 1)).mantissa % 2 != 0) = _
        rw [shifted]
      · change ((ExtendedMantissa.ofMantissaAndAccuracy mantissa .exact >>>
          (places + 1)).roundBit || (ExtendedMantissa.ofMantissaAndAccuracy mantissa .exact >>>
          (places + 1)).stickyBit) = _
        have unit := Nat.two_pow_pos places
        rw [round, sticky, Nat.mod_pow_succ, Bool.eq_iff_iff, Bool.or_eq_true, bne_iff_ne,
          bne_iff_ne, bne_iff_ne]
        obtain bit | bit : mantissa / 2 ^ places % 2 = 0 ∨ mantissa / 2 ^ places % 2 = 1 := by
          omega
        · rw [bit]
          omega
        · rw [bit]
          omega

def roundedAt (mantissa places : Nat) : Nat :=
  (ExtendedMantissa.ofMantissaAndAccuracy mantissa .exact >>> places).roundedMantissa

theorem roundedAt_close (mantissa places : Nat) :
    2 * mantissa ≤ 2 * (roundedAt mantissa places * 2 ^ places) + 2 ^ places ∧
      2 * (roundedAt mantissa places * 2 ^ places) ≤ 2 * mantissa + 2 ^ places := by
  cases places with
  | zero =>
      have kept : roundedAt mantissa 0 = mantissa := rfl
      simp only [kept, pow_zero]
      omega
  | succ places =>
      obtain ⟨round, sticky⟩ := shift_residue mantissa places
      have shifted := shift_mantissa (.ofMantissaAndAccuracy mantissa .exact) (places + 1)
      rw [ofMantissaAndAccuracy_mantissa] at shifted
      have parts : mantissa = 2 * (mantissa / 2 ^ (places + 1) * 2 ^ places) +
          mantissa / 2 ^ places % 2 * 2 ^ places + mantissa % 2 ^ places := by
        have whole := Nat.div_add_mod mantissa (2 ^ (places + 1))
        rw [Nat.mod_pow_succ, pow_succ] at whole
        rw [pow_succ]
        linarith
      have rest := Nat.mod_lt mantissa (Nat.two_pow_pos places)
      unfold roundedAt
      generalize ExtendedMantissa.ofMantissaAndAccuracy mantissa .exact >>> (places + 1) =
        extended at *
      obtain ⟨quotient, roundBit, stickyBit⟩ := extended
      dsimp only at round sticky shifted
      rw [← shifted] at parts
      have bit : mantissa / 2 ^ places % 2 = 0 ∨ mantissa / 2 ^ places % 2 = 1 := by omega
      have kept : quotient * 2 ^ (places + 1) = 2 * (quotient * 2 ^ places) := by ring
      have raised : (quotient + 1) * 2 ^ (places + 1) =
          2 * (quotient * 2 ^ places) + 2 * 2 ^ places := by ring
      have unit : 2 ^ (places + 1) = 2 * 2 ^ places := by ring
      -- The first bit that is lost tells the side of the half; at the half itself the even one wins.
      obtain lost | lost := bit
      · rw [lost] at round parts
        subst round
        have down : ExtendedMantissa.roundedMantissa ⟨quotient, 0 != 0, stickyBit⟩ = quotient := by
          cases stickyBit <;> rfl
        rw [down, kept, unit]
        omega
      · rw [lost] at round parts
        subst round
        by_cases half : mantissa % 2 ^ places = 0
        · rw [half] at sticky parts
          subst sticky
          have tie : ExtendedMantissa.roundedMantissa ⟨quotient, 1 != 0, 0 != 0⟩ =
              quotient + quotient % 2 := rfl
          obtain even | odd : quotient % 2 = 0 ∨ quotient % 2 = 1 := by omega
          · rw [tie, even, Nat.add_zero, kept, unit]
            omega
          · rw [tie, odd, raised, unit]
            omega
        · rw [bne_iff_ne.mpr half] at sticky
          subst sticky
          have up : ExtendedMantissa.roundedMantissa ⟨quotient, 1 != 0, true⟩ = quotient + 1 := rfl
          rw [up, raised, unit]
          omega

/-! ### Rounding a number -/

private theorem log2_le_of_lt {mantissa : Nat} (high : mantissa < 2 ^ 53) :
    mantissa.log2 ≤ 52 := by
  by_cases zero : mantissa = 0
  · rw [zero]
    decide
  · have below := (Nat.log2_lt zero).mpr high
    omega

private theorem shift_none {mantissa : Nat} {exponent : Int} (high : mantissa < 2 ^ 53)
    (bottom : -1074 ≤ exponent) :
    shiftToTargetExponent Format.binary64 mantissa exponent .exact =
      (⟨mantissa, false, false⟩, exponent) := by
  have short := log2_le_of_lt high
  have amount : (lastPlace mantissa exponent - exponent).toNat = 0 := by
    unfold lastPlace
    omega
  rw [shift_by .exact amount, Int.natCast_zero, Int.add_zero]
  rfl

private theorem shift_carried {exponent : Int} (bottom : -1074 ≤ exponent) :
    shiftToTargetExponent Format.binary64 (2 ^ 53) exponent .exact =
      (⟨2 ^ 52, false, false⟩, exponent + 1) := by
  have amount : (lastPlace (2 ^ 53) exponent - exponent).toNat = 1 := by
    have length : Nat.log2 (2 ^ 53) = 53 := by decide
    unfold lastPlace
    omega
  rw [shift_by .exact amount]
  rfl

private theorem rational_of_rounded {sign : Sign} {rounded : Nat} {exponent : Int}
    (high : rounded ≤ 2 ^ 53) (bottom : -1074 ≤ exponent) (top : exponent ≤ 970)
    (full : 2 ^ 52 ≤ rounded ∨ exponent = -1074) :
    let shifted := shiftToTargetExponent Format.binary64 rounded exponent .exact
    rational? (Float.Model.pack (if vanished : shifted.1.mantissa = 0 then .zero sign
      else .finite sign shifted.1.mantissa shifted.2 (Nat.pos_of_ne_zero vanished))).unpack =
        some (((sign.apply rounded : Int) : Rat) * 2 ^ exponent) := by
  by_cases carried : rounded = 2 ^ 53
  · subst carried
    rw [shift_carried bottom]
    have canonical : IsCanonical (2 ^ 52) (exponent + 1) :=
      ⟨by decide, by omega, .inl (by decide)⟩
    dsimp only
    rw [dif_neg (by decide), unpack_pack_of_canonical _ canonical (by omega)]
    change some (((sign.apply (2 ^ 52 : Nat) : Int) : Rat) * 2 ^ (exponent + 1)) = _
    rw [zpow_add₀ (by norm_num)]
    cases sign <;> simp only [Sign.apply] <;> push_cast <;> congr 1 <;> ring
  · rw [shift_none (by omega) bottom]
    dsimp only
    split
    · rename_i vanished
      rw [unpack_pack_zero, vanished]
      change some 0 = _
      cases sign <;> simp only [Sign.apply] <;> norm_num
    · rw [unpack_pack_of_canonical _ ⟨by omega, bottom, full⟩ (by omega)]
      rfl

/-- A rounded mantissa is full, as is the part of the mantissa that is kept, but for numbers
whose last place is the least there is. -/
theorem roundedAt_full {mantissa places : Nat} {exponent : Int} (positive : 0 < mantissa)
    (reached : lastPlace mantissa exponent = exponent + places) :
    roundedAt mantissa places ≤ 2 ^ 53 ∧
      (2 ^ 52 ≤ roundedAt mantissa places ∧ 2 ^ 52 * 2 ^ places ≤ mantissa ∨
        lastPlace mantissa exponent = -1074) := by
  have bounds := roundedMantissa_bounds
    (ExtendedMantissa.ofMantissaAndAccuracy mantissa .exact >>> places)
  rw [shift_mantissa, ofMantissaAndAccuracy_mantissa] at bounds
  change _ ≤ roundedAt mantissa places ∧ roundedAt mantissa places ≤ _ at bounds
  have lower := Nat.log2_self_le (Nat.ne_of_gt positive)
  have upper : mantissa < 2 ^ (mantissa.log2 + 1) := Nat.lt_log2_self
  have unit := Nat.two_pow_pos places
  have short : mantissa.log2 + 1 ≤ 53 + places := by
    unfold lastPlace at reached
    omega
  have quotientHigh : mantissa / 2 ^ places < 2 ^ 53 := by
    rw [Nat.div_lt_iff_lt_mul unit, ← pow_add]
    exact upper.trans_le (Nat.pow_le_pow_right (by decide) short)
  refine ⟨by omega, ?_⟩
  by_cases least : lastPlace mantissa exponent = -1074
  · exact .inr least
  · have length : 52 + places = mantissa.log2 := by
      unfold lastPlace at reached least
      omega
    have long : 2 ^ 52 * 2 ^ places ≤ mantissa := by
      rw [← pow_add, length]
      exact lower
    have quotientLow := (Nat.le_div_iff_mul_le unit).mpr long
    exact .inl ⟨by omega, long⟩

/-- Rounding to odd: the mantissa is the exact one or its odd neighbour. -/
def IsOddRounding (mantissa : Nat) (exact : Rat) : Prop :=
  exact = mantissa ∨ mantissa % 2 = 1 ∧ |exact - mantissa| < 1

/-- Once two places are cut off, an odd neighbour is rounded as the exact mantissa is: the middle
between two results is even, so the two lie on the same side of it. -/
private theorem roundedAt_near {mantissa : Nat} (places : Nat) {exact : Rat}
    (odd : IsOddRounding mantissa exact) (cut : exact = mantissa ∨ 2 ≤ places) :
    2 * |(roundedAt mantissa places : Rat) * 2 ^ places - exact| ≤ 2 ^ places := by
  obtain ⟨low, high⟩ := roundedAt_close mantissa places
  by_cases same : exact = mantissa
  · have lowCast : 2 * (mantissa : Rat) ≤
        2 * (roundedAt mantissa places * 2 ^ places) + 2 ^ places := by exact_mod_cast low
    have highCast : 2 * ((roundedAt mantissa places : Rat) * 2 ^ places) ≤
        2 * mantissa + 2 ^ places := by exact_mod_cast high
    rw [same]
    cases abs_cases ((roundedAt mantissa places : Rat) * 2 ^ places - mantissa) <;> linarith
  · obtain ⟨isOdd, close⟩ := odd.resolve_left same
    obtain ⟨before, rfl⟩ : ∃ before, places = before + 2 :=
      ⟨places - 2, by have few := cut.resolve_left same; omega⟩
    have unit : 2 ^ (before + 2) = 4 * 2 ^ before := by ring
    have even : roundedAt mantissa (before + 2) * 2 ^ (before + 2) =
        4 * (roundedAt mantissa (before + 2) * 2 ^ before) := by ring
    have lowStrict : 2 * mantissa + 2 ≤
        2 * (roundedAt mantissa (before + 2) * 2 ^ (before + 2)) + 2 ^ (before + 2) := by omega
    have highStrict : 2 * (roundedAt mantissa (before + 2) * 2 ^ (before + 2)) + 2 ≤
        2 * mantissa + 2 ^ (before + 2) := by omega
    have lowCast : 2 * (mantissa : Rat) + 2 ≤
        2 * (roundedAt mantissa (before + 2) * 2 ^ (before + 2)) + 2 ^ (before + 2) := by
      exact_mod_cast lowStrict
    have highCast : 2 * ((roundedAt mantissa (before + 2) : Rat) * 2 ^ (before + 2)) + 2 ≤
        2 * mantissa + 2 ^ (before + 2) := by exact_mod_cast highStrict
    obtain ⟨below, above⟩ := abs_lt.mp close
    cases abs_cases ((roundedAt mantissa (before + 2) : Rat) * 2 ^ (before + 2) - exact) <;>
      linarith

theorem le_of_oddRounding {mantissa bound : Nat} {exact : Rat}
    (odd : IsOddRounding mantissa exact) (even : bound % 2 = 0) (reached : bound ≤ mantissa) :
    (bound : Rat) ≤ exact := by
  obtain same | ⟨isOdd, close⟩ := odd
  · rw [same]
    exact_mod_cast reached
  · have strict : bound + 1 ≤ mantissa := by omega
    have strictCast : (bound : Rat) + 1 ≤ mantissa := by exact_mod_cast strict
    linarith [(abs_lt.mp close).1]

/-- A mantissa that was rounded to odd is rounded to a number nearest to the exact one, if two
places are cut off. -/
theorem roundWithAccuracy_nearest_of_odd (sign : Sign) {mantissa : Nat} {exponent : Int}
    {exact : Rat} (positive : 0 < mantissa) (reached : exponent ≤ lastPlace mantissa exponent)
    (top : lastPlace mantissa exponent ≤ 970) (odd : IsOddRounding mantissa exact)
    (cut : exact = mantissa ∨ exponent + 2 ≤ lastPlace mantissa exponent) :
    ∃ result, rational? (Float.Model.pack (roundWithAccuracy Format.binary64 sign mantissa
        exponent .exact)).unpack = some result ∧
      IsNearest result ((sign.apply 1 : Int) * (exact * 2 ^ exponent)) := by
  obtain ⟨places, placesIs⟩ : ∃ places : Nat, lastPlace mantissa exponent = exponent + places :=
    ⟨(lastPlace mantissa exponent - exponent).toNat, by omega⟩
  have bottom : -1074 ≤ lastPlace mantissa exponent := le_max_right _ _
  obtain ⟨high, full⟩ := roundedAt_full positive placesIs
  have distance := roundedAt_near places odd (cut.imp id (by omega))
  have amount : (lastPlace mantissa exponent - exponent).toNat = places := by omega
  have unit : (0 : Rat) < 2 ^ exponent := zpow_pos (by norm_num) exponent
  have scale : (2 : Rat) ^ (exponent + places) = 2 ^ places * 2 ^ exponent := by
    rw [zpow_add₀ (by norm_num), zpow_natCast, mul_comm]
  unfold roundWithAccuracy
  rw [shift_by .exact amount]
  dsimp only
  change ∃ result, rational? (Float.Model.pack (if vanished : (shiftToTargetExponent
    Format.binary64 (roundedAt mantissa places) (exponent + places) .exact).1.mantissa = 0 then
      .zero sign else _)).unpack = _ ∧ _
  rw [placesIs] at bottom top full
  refine ⟨_, rational_of_rounded high bottom top (full.imp And.left id), ?_⟩
  have nearest : IsNearest ((roundedAt mantissa places : Int) * 2 ^ (exponent + places))
      (exact * 2 ^ exponent) := by
    apply isNearest_of_grid
    · rw [scale, Int.cast_natCast, ← mul_assoc, ← sub_mul, abs_mul, abs_of_pos unit, ← mul_assoc]
      exact mul_le_mul_of_nonneg_right distance unit.le
    · refine full.symm.imp id fun both => ?_
      have even : 2 ^ 52 * 2 ^ places % 2 = 0 := by omega
      have longCast := le_of_oddRounding odd even both.2
      push_cast at longCast
      have scaled := mul_le_mul_of_nonneg_right longCast unit.le
      rw [zpow_add₀ (by norm_num), scale, mul_comm]
      rw [mul_assoc] at scaled
      exact scaled
  cases sign with
  | positive =>
      simp only [Sign.apply, Int.cast_one, one_mul]
      exact nearest
  | negative =>
      have opposite := nearest.neg
      rw [← neg_mul] at opposite
      simp only [Sign.apply]
      push_cast at opposite ⊢
      rw [neg_one_mul]
      exact opposite

theorem roundWithAccuracy_nearest (sign : Sign) {mantissa : Nat} {exponent : Int}
    (positive : 0 < mantissa) (reached : exponent ≤ lastPlace mantissa exponent)
    (top : lastPlace mantissa exponent ≤ 970) :
    ∃ result, rational? (Float.Model.pack (roundWithAccuracy Format.binary64 sign mantissa
        exponent .exact)).unpack = some result ∧
      IsNearest result (((sign.apply mantissa : Int) : Rat) * 2 ^ exponent) := by
  have rounded := roundWithAccuracy_nearest_of_odd sign positive reached top (.inl rfl) (.inl rfl)
  have signed : ((sign.apply mantissa : Int) : Rat) * 2 ^ exponent =
      (sign.apply 1 : Int) * (mantissa * 2 ^ exponent) := by
    cases sign <;> simp only [Sign.apply] <;> push_cast <;> ring
  rwa [signed]

theorem lastPlace_le {mantissa : Nat} {exponent : Int} (positive : 0 < mantissa)
    (small : (mantissa : Rat) * 2 ^ exponent < 2 ^ (200 : Int)) :
    lastPlace mantissa exponent ≤ 970 := by
  have lower : (2 : Rat) ^ (mantissa.log2 : Int) ≤ mantissa := by
    rw [zpow_natCast]
    exact_mod_cast Nat.log2_self_le (Nat.ne_of_gt positive)
  have size : (2 : Rat) ^ (mantissa.log2 + exponent) < 2 ^ (200 : Int) := by
    rw [zpow_add₀ (by norm_num)]
    exact (mul_le_mul_of_nonneg_right lower (zpow_pos (by norm_num) _).le).trans_lt small
  have exponents := (zpow_lt_zpow_iff_right₀ (by norm_num)).mp size
  unfold lastPlace
  omega

private theorem round_nearest {sign : Sign} {mantissa : Nat} {exponent : Int}
    (positive : 0 < mantissa) (small : (mantissa : Rat) * 2 ^ exponent < 2 ^ (200 : Int)) :
    ∃ result, rational? (Float.Model.pack (UnpackedFloat.round Format.binary64 sign mantissa
        exponent)).unpack = some result ∧
      IsNearest result (((sign.apply mantissa : Int) : Rat) * 2 ^ exponent) := by
  obtain ⟨places, placesIs⟩ : ∃ places, (exponent - lastPlace mantissa exponent).toNat = places :=
    ⟨_, rfl⟩
  have longer : 0 < mantissa * 2 ^ places := Nat.mul_pos positive (Nat.two_pow_pos places)
  have length : (mantissa * 2 ^ places).log2 = mantissa.log2 + places := by
    rw [Nat.log2_eq_iff (Nat.ne_of_gt longer)]
    have lower := Nat.log2_self_le (Nat.ne_of_gt positive)
    have upper : mantissa < 2 ^ (mantissa.log2 + 1) := Nat.lt_log2_self
    rw [Nat.add_right_comm, pow_add, pow_add]
    exact ⟨Nat.mul_le_mul_right _ lower, Nat.mul_lt_mul_of_pos_right upper (Nat.two_pow_pos _)⟩
  have samePlace : lastPlace (mantissa * 2 ^ places) (exponent - places) =
      lastPlace mantissa exponent := by
    unfold lastPlace
    rw [length]
    push_cast
    congr 1
    omega
  have sameValue : ((sign.apply (mantissa * 2 ^ places : Nat) : Int) : Rat) *
      2 ^ (exponent - places) = ((sign.apply mantissa : Int) : Rat) * 2 ^ exponent := by
    rw [zpow_sub₀ (by norm_num), zpow_natCast]
    cases sign <;> simp only [Sign.apply] <;> push_cast <;> field_simp
  have reached : exponent - places ≤ lastPlace (mantissa * 2 ^ places) (exponent - places) := by
    omega
  have top := lastPlace_le positive small
  rw [← samePlace] at top
  have rounded := roundWithAccuracy_nearest sign longer reached top
  rw [sameValue] at rounded
  simp only [UnpackedFloat.round, targetExponent_eq_lastPlace, decreaseExponent, placesIs,
    Nat.shiftLeft_eq]
  exact rounded

theorem normalize_nearest (mantissa exponent : Int) (zeroSign : Sign)
    (small : |(mantissa : Rat) * 2 ^ exponent| < 2 ^ (200 : Int)) :
    ∃ result, rational? (Float.Model.pack (UnpackedFloat.normalize Format.binary64 mantissa
        exponent zeroSign)).unpack = some result ∧
      IsNearest result ((mantissa : Rat) * 2 ^ exponent) := by
  have unit : (0 : Rat) < 2 ^ exponent := zpow_pos (by norm_num) exponent
  rw [abs_mul, abs_of_pos unit] at small
  unfold UnpackedFloat.normalize
  obtain below | zero | above := Int.lt_trichotomy mantissa 0
  · rw [Int.compare_eq_lt.mpr below]
    obtain ⟨size, sizeIs⟩ : ∃ size : Nat, mantissa = -(size : Int) := ⟨(-mantissa).toNat, by omega⟩
    subst sizeIs
    rw [Int.neg_neg, Int.toNat_natCast]
    rw [abs_of_neg (by exact_mod_cast below)] at small
    push_cast at small
    rw [neg_neg] at small
    exact round_nearest (by omega) small
  · subst zero
    refine ⟨0, congrArg rational? (unpack_pack_zero zeroSign), ?_⟩
    intro other _
    norm_num
  · rw [Int.compare_eq_gt.mpr above]
    obtain ⟨size, sizeIs⟩ : ∃ size : Nat, mantissa = (size : Int) := ⟨mantissa.toNat, by omega⟩
    subst sizeIs
    rw [Int.toNat_natCast]
    rw [abs_of_pos (by exact_mod_cast above)] at small
    push_cast at small
    exact round_nearest (by omega) small

end MarsCalendar.Binary64

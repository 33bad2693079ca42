import MarsCalendar.Proofs.Binary64.Value

set_option autoImplicit false

/-! Binary64 numbers are compared as the rationals they stand for. In the form in which a
number is unpacked the exponent decides first, since a mantissa that is not full belongs
to the least exponent. What is compared with success on both sides is itself a number. -/

namespace MarsCalendar.Binary64

open Float.Model Float.Model.UnpackedFloat

variable {number left right : Float} {value first second : Rat}

private theorem magnitude_lt {mantissa other : Nat} {exponent otherExponent : Int}
    (canonical : IsCanonical mantissa exponent) (otherCanonical : IsCanonical other otherExponent)
    (before : exponent < otherExponent) :
    (mantissa : Rat) * 2 ^ exponent < other * 2 ^ otherExponent := by
  obtain ⟨places, rfl⟩ : ∃ places : Nat, otherExponent = exponent + (places + 1) :=
    ⟨(otherExponent - exponent - 1).toNat, by omega⟩
  have unit : (0 : Rat) < 2 ^ exponent := zpow_pos (by norm_num) exponent
  have full := otherCanonical.full.resolve_right (by
    have bottom := canonical.bottom
    omega)
  have long : mantissa < other * 2 ^ (places + 1) :=
    calc mantissa < 2 ^ 52 * 2 ^ 1 := canonical.high
      _ ≤ other * 2 ^ (places + 1) :=
        Nat.mul_le_mul full (Nat.pow_le_pow_right (by decide) (by omega))
  have longCast : (mantissa : Rat) < other * 2 ^ (places + 1) := by exact_mod_cast long
  calc (mantissa : Rat) * 2 ^ exponent < other * 2 ^ (places + 1) * 2 ^ exponent :=
        mul_lt_mul_of_pos_right longCast unit
    _ = other * 2 ^ (exponent + (places + 1)) := by
        rw [zpow_add₀ (by norm_num), zpow_add₀ (by norm_num), zpow_natCast]
        ring

/-- Exponents first and mantissas then compare as the rationals do. -/
theorem compare_magnitudes {mantissa other : Nat} {exponent otherExponent : Int}
    (canonical : IsCanonical mantissa exponent)
    (otherCanonical : IsCanonical other otherExponent) :
    (compare exponent otherExponent).then (compare mantissa other) =
      compare ((mantissa : Rat) * 2 ^ exponent) (other * 2 ^ otherExponent) := by
  rcases Int.lt_trichotomy exponent otherExponent with before | rfl | after
  · rw [compare_lt_iff_lt.mpr before,
      compare_lt_iff_lt.mpr (magnitude_lt canonical otherCanonical before)]
    rfl
  · have unit : (0 : Rat) < 2 ^ exponent := zpow_pos (by norm_num) exponent
    rw [compare_eq_iff_eq.mpr rfl]
    change compare mantissa other = _
    rcases Nat.lt_trichotomy mantissa other with less | rfl | more
    · have lessCast : (mantissa : Rat) < other := by exact_mod_cast less
      rw [compare_lt_iff_lt.mpr less, compare_lt_iff_lt.mpr (mul_lt_mul_of_pos_right lessCast unit)]
    · rw [compare_eq_iff_eq.mpr rfl, compare_eq_iff_eq.mpr rfl]
    · have moreCast : (other : Rat) < mantissa := by exact_mod_cast more
      rw [compare_gt_iff_gt.mpr more, compare_gt_iff_gt.mpr (mul_lt_mul_of_pos_right moreCast unit)]
  · rw [compare_gt_iff_gt.mpr after,
      compare_gt_iff_gt.mpr (magnitude_lt otherCanonical canonical after)]
    rfl

private theorem compare_neg (left right : Rat) : compare (-left) (-right) = compare right left := by
  rcases lt_trichotomy left right with less | rfl | more
  · rw [compare_gt_iff_gt.mpr less, compare_gt_iff_gt.mpr (neg_lt_neg less)]
  · rw [compare_eq_iff_eq.mpr rfl, compare_eq_iff_eq.mpr rfl]
  · rw [compare_lt_iff_lt.mpr more, compare_lt_iff_lt.mpr (neg_lt_neg more)]

theorem compare_eq (isLeft : value? left = some first) (isRight : value? right = some second) :
    left.toModel.unpack.compare right.toModel.unpack = some (compare first second) := by
  obtain ⟨sign, unpackedLeft, rfl⟩ | ⟨sign, mantissa, exponent, positive, unpackedLeft, canonical,
    -, rfl⟩ := unpack_of_value? isLeft
  · obtain ⟨other, unpackedRight, rfl⟩ | ⟨other, mantissa, exponent, positive, unpackedRight, -, -,
      rfl⟩ := unpack_of_value? isRight
    · rw [unpackedLeft, unpackedRight, compare_eq_iff_eq.mpr rfl]
      rfl
    · have size := magnitude_pos positive exponent
      rw [unpackedLeft, unpackedRight]
      cases other with
      | positive =>
          rw [Sign.apply, Int.cast_natCast, compare_lt_iff_lt.mpr size]
          rfl
      | negative =>
          rw [Sign.apply, Int.cast_neg, Int.cast_natCast, neg_mul,
            compare_gt_iff_gt.mpr (neg_neg_iff_pos.mpr size)]
          rfl
  · have size := magnitude_pos positive exponent
    obtain ⟨other, unpackedRight, rfl⟩ | ⟨other, otherMantissa, otherExponent, otherPositive,
      unpackedRight, otherCanonical, -, rfl⟩ := unpack_of_value? isRight
    · rw [unpackedLeft, unpackedRight]
      cases sign with
      | positive =>
          rw [Sign.apply, Int.cast_natCast, compare_gt_iff_gt.mpr size]
          rfl
      | negative =>
          rw [Sign.apply, Int.cast_neg, Int.cast_natCast, neg_mul,
            compare_lt_iff_lt.mpr (neg_neg_iff_pos.mpr size)]
          rfl
    · have otherSize := magnitude_pos otherPositive otherExponent
      have magnitudes := compare_magnitudes canonical otherCanonical
      rw [unpackedLeft, unpackedRight]
      cases sign <;> cases other <;>
        simp only [Sign.apply, Int.cast_neg, Int.cast_natCast, neg_mul, UnpackedFloat.compare,
          magnitudes, compare_neg]
      · rw [← Std.OrientedOrd.eq_swap]
      · rw [compare_lt_iff_lt.mpr ((neg_neg_iff_pos.mpr size).trans otherSize)]
      · rw [compare_gt_iff_gt.mpr ((neg_neg_iff_pos.mpr otherSize).trans size)]

theorem beq_iff (isLeft : value? left = some first) (isRight : value? right = some second) :
    (left == right) = true ↔ first = second := by
  change (left.toModel.unpack.compare right.toModel.unpack == some Ordering.eq) = true ↔ _
  rw [compare_eq isLeft isRight, beq_iff_eq, Option.some_inj, compare_eq_iff_eq]

private theorem lt_unpack : left < right ↔ left.toModel.unpack.lt right.toModel.unpack = true :=
  decide_eq_true_iff

private theorem le_unpack : left ≤ right ↔ left.toModel.unpack.le right.toModel.unpack = true :=
  decide_eq_true_iff

theorem lt_iff (isLeft : value? left = some first) (isRight : value? right = some second) :
    left < right ↔ first < second := by
  rw [lt_unpack, UnpackedFloat.lt, compare_eq isLeft isRight, beq_iff_eq, Option.some_inj,
    compare_lt_iff_lt]

theorem le_iff (isLeft : value? left = some first) (isRight : value? right = some second) :
    left ≤ right ↔ first ≤ second := by
  rw [le_unpack, UnpackedFloat.le, compare_eq isLeft isRight, Option.any_some,
    ← Ordering.ne_gt_iff_isLE]
  exact compare_le_iff_le

theorem le_of_lt (before : left < right) : left ≤ right := by
  rw [lt_unpack, UnpackedFloat.lt, beq_iff_eq] at before
  rw [le_unpack, UnpackedFloat.le, before]
  rfl

theorem value?_between (isLeft : value? left = some first) (isRight : value? right = some second)
    (above : left ≤ number) (below : number ≤ right) :
    ∃ value, value? number = some value ∧ first ≤ value ∧ value ≤ second := by
  have ofFinite {value : Rat} (isNumber : value? number = some value) :
      ∃ value, value? number = some value ∧ first ≤ value ∧ value ≤ second :=
    ⟨value, isNumber, (le_iff isLeft isNumber).mp above, (le_iff isNumber isRight).mp below⟩
  rw [le_unpack] at above below
  obtain ⟨sign, unpackedLeft, -⟩ | ⟨sign, mantissa, exponent, positive, unpackedLeft, -⟩ :=
    unpack_of_value? isLeft
  all_goals
    obtain ⟨other, unpackedRight, -⟩ | ⟨other, otherMantissa, otherExponent, otherPositive,
      unpackedRight, -⟩ := unpack_of_value? isRight
  all_goals
    rw [unpackedLeft] at above
    rw [unpackedRight] at below
    cases unpacked : number.toModel.unpack with
    | zero sign | finite sign mantissa exponent positive =>
        exact ofFinite (congrArg rational? unpacked)
    | notANumber =>
        rw [unpacked] at above
        cases above
    | infinity sign =>
        rw [unpacked] at above below
        cases sign with
        | positive => cases below
        | negative => cases above

end MarsCalendar.Binary64

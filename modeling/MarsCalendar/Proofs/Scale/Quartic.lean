import MarsCalendar.Proofs.Scale.AtomicEra
import Mathlib.Tactic.Positivity

set_option autoImplicit false

/-! The offset from 1770 until 1972, a quartic in the centuries from 2000. On its era the
slope of the quartic stays below 80 seconds a century, so within a day the offset changes by
less than a forty millionth of the time between; on the first day it grows, and at the two ends
of the era it is known to a tenth of a second. -/

namespace MarsCalendar.Scale

open Gregorian (daysBeforeYear)
open Julian (yearStart yearStart_eq)

/-! ### The quartic -/

def quarticSlope (left right : Rat) : Rat :=
  59 - 51.2 * (left + right) - 67.1 * (left ^ 2 + left * right + right ^ 2)
    - 16.4 * (left ^ 3 + left ^ 2 * right + left * right ^ 2 + right ^ 3)

theorem quartic_sub (left right : Rat) :
    quartic left - quartic right = (left - right) * quarticSlope left right := by
  unfold quartic quarticSlope
  ring

def quarticDerivative (middle : Rat) : Rat :=
  59 - 102.4 * middle - 201.3 * middle ^ 2 - 65.6 * middle ^ 3

theorem quarticDerivative_bounds {middle : Rat} (first : -23 / 10 ≤ middle)
    (last : middle ≤ -28 / 100) :
    -79 ≤ quarticDerivative middle ∧ quarticDerivative middle ≤ 79 := by
  have above := sub_nonneg.mpr first
  have below := sub_nonneg.mpr last
  unfold quarticDerivative
  constructor
  · nlinarith [mul_nonneg below (sq_nonneg (middle + 16 / 10)), sq_nonneg (middle + 4),
      sq_nonneg middle]
  · nlinarith [mul_nonneg above (sq_nonneg (middle + 3 / 10)), sq_nonneg middle]

theorem quarticDerivative_pos {middle : Rat} (first : -23 / 10 ≤ middle)
    (last : middle ≤ -229 / 100) : 1 ≤ quarticDerivative middle := by
  unfold quarticDerivative
  nlinarith [mul_nonneg (sub_nonneg.mpr first) (sub_nonneg.mpr last)]

/-- Between close points the slope is the derivative halfway, but for the square of the width. -/
theorem quarticSlope_close {left right : Rat} (first : -23 / 10 ≤ left ∧ -23 / 10 ≤ right)
    (last : left ≤ -28 / 100 ∧ right ≤ -28 / 100) (narrow : |left - right| ≤ 1 / 36525) :
    |quarticSlope left right - quarticDerivative ((left + right) / 2)| ≤ 1 := by
  have width : (left - right) ^ 2 ≤ 1 / 1000 := by
    have squares := pow_le_pow_left₀ (abs_nonneg _) narrow 2
    rw [sq_abs] at squares
    exact squares.trans (by norm_num)
  have square := sq_nonneg (left - right)
  have difference : quarticSlope left right - quarticDerivative ((left + right) / 2) =
      -(16.775 + 8.2 * (left + right)) * (left - right) ^ 2 := by
    unfold quarticSlope quarticDerivative
    ring
  rw [difference, abs_le]
  constructor <;> nlinarith

theorem quartic_bounds {time : Rat} (first : -23 / 10 ≤ time) (last : time ≤ -28 / 100) :
    -60 ≤ quartic time ∧ quartic time ≤ 60 := by
  have above := sub_nonneg.mpr first
  have below := sub_nonneg.mpr last
  have negative : 0 ≤ -time := by linarith
  unfold quartic
  constructor
  · nlinarith [mul_nonneg (sq_nonneg time) (mul_nonneg above below),
      mul_nonneg negative (sq_nonneg (time + 16 / 10))]
  · nlinarith [sq_nonneg (time * (time + 205 / 100)), mul_nonneg above below,
      mul_nonneg (sq_nonneg time) below]

/-! ### The offset of the era -/

theorem yearStart_1770 : yearStart 1770 = 2367539.5 := by
  have days : daysBeforeYear 1770 = 646114 := by decide
  rw [yearStart_eq, days]
  norm_num

theorem day_le_era : yearStart 1770 + 1 ≤ yearStart 1972 := by
  rw [yearStart_1770, yearStart_1972]
  norm_num

def InMiddle (date : Rat) : Prop :=
  yearStart 1770 ≤ date ∧ date ≤ yearStart 1972

def middleSeconds (date : Rat) : Rat :=
  quartic (centuries date)

variable {date left right : Rat}

theorem InMiddle.centuries_bounds (inMiddle : InMiddle date) :
    -23 / 10 ≤ centuries date ∧ centuries date ≤ -28 / 100 := by
  obtain ⟨first, last⟩ := inMiddle
  rw [yearStart_1770] at first
  rw [yearStart_1972] at last
  norm_num at first last
  unfold centuries
  constructor <;> linarith

theorem centuries_sub (left right : Rat) :
    centuries left - centuries right = (left - right) / 36525 := by
  unfold centuries
  ring

theorem middleSlope_close (leftIn : InMiddle left) (rightIn : InMiddle right)
    (near : |left - right| ≤ 1) :
    |quarticSlope (centuries left) (centuries right) -
      quarticDerivative ((centuries left + centuries right) / 2)| ≤ 1 := by
  obtain ⟨leftFirst, leftLast⟩ := leftIn.centuries_bounds
  obtain ⟨rightFirst, rightLast⟩ := rightIn.centuries_bounds
  refine quarticSlope_close ⟨leftFirst, rightFirst⟩ ⟨leftLast, rightLast⟩ ?_
  rw [centuries_sub, abs_div, abs_of_pos (by norm_num : (0 : Rat) < 36525)]
  linarith

theorem middleSeconds_close (leftIn : InMiddle left) (rightIn : InMiddle right)
    (near : |left - right| ≤ 1) :
    |middleSeconds left - middleSeconds right| ≤ |left - right| * 80 / 36525 := by
  have slope := abs_le.mp (middleSlope_close leftIn rightIn near)
  have flat : |quarticSlope (centuries left) (centuries right)| ≤ 80 := by
    obtain ⟨leftFirst, leftLast⟩ := leftIn.centuries_bounds
    obtain ⟨rightFirst, rightLast⟩ := rightIn.centuries_bounds
    have first : -23 / 10 ≤ (centuries left + centuries right) / 2 := by linarith
    have last : (centuries left + centuries right) / 2 ≤ -28 / 100 := by linarith
    obtain ⟨low, high⟩ := quarticDerivative_bounds first last
    rw [abs_le]
    constructor <;> linarith
  calc |middleSeconds left - middleSeconds right|
      = |left - right| / 36525 * |quarticSlope (centuries left) (centuries right)| := by
        unfold middleSeconds
        rw [quartic_sub, centuries_sub, abs_mul, abs_div,
          abs_of_pos (by norm_num : (0 : Rat) < 36525)]
    _ ≤ |left - right| / 36525 * 80 := by
        apply mul_le_mul_of_nonneg_left flat
        positivity
    _ = |left - right| * 80 / 36525 := by ring

theorem middleSeconds_le_middleSeconds (first : yearStart 1770 ≤ left) (ordered : left ≤ right)
    (last : right ≤ yearStart 1770 + 1) : middleSeconds left ≤ middleSeconds right := by
  have era := day_le_era
  have leftIn : InMiddle left := ⟨first, by linarith⟩
  have rightIn : InMiddle right := ⟨by linarith, by linarith⟩
  have near : |right - left| ≤ 1 := by
    rw [abs_le]
    constructor <;> linarith
  have slope := abs_le.mp (middleSlope_close rightIn leftIn near)
  have early : centuries right ≤ -229 / 100 := by
    rw [yearStart_1770] at last
    norm_num at last
    unfold centuries
    linarith
  have earlier : 0 ≤ centuries right - centuries left := by
    rw [centuries_sub]
    linarith
  have begun := leftIn.centuries_bounds.1
  have halfway : -23 / 10 ≤ (centuries right + centuries left) / 2 := by linarith
  have rising := quarticDerivative_pos halfway (by linarith)
  have grown : 0 ≤ middleSeconds right - middleSeconds left := by
    unfold middleSeconds
    rw [quartic_sub]
    exact mul_nonneg earlier (by linarith)
  exact sub_nonneg.mp grown

theorem middleSeconds_bounds (inMiddle : InMiddle date) :
    -60 ≤ middleSeconds date ∧ middleSeconds date ≤ 60 :=
  quartic_bounds inMiddle.centuries_bounds.1 inMiddle.centuries_bounds.2

theorem middleSeconds_start (first : yearStart 1770 ≤ date) (last : date ≤ yearStart 1770 + 1) :
    15 ≤ middleSeconds date ∧ middleSeconds date ≤ 16 := by
  have era := day_le_era
  have start : 15.1 ≤ middleSeconds (yearStart 1770) ∧
      middleSeconds (yearStart 1770) ≤ 15.2 := by
    rw [yearStart_1770]
    unfold middleSeconds quartic centuries
    norm_num
  have near : |date - yearStart 1770| ≤ 1 := by
    rw [abs_le]
    constructor <;> linarith
  have close := abs_le.mp (middleSeconds_close ⟨first, by linarith⟩ ⟨le_refl _, by linarith⟩ near)
  norm_num at start
  constructor <;> linarith

theorem middleSeconds_end (first : yearStart 1972 - 1 ≤ date) (last : date ≤ yearStart 1972) :
    45 ≤ middleSeconds date ∧ middleSeconds date ≤ 45.1 := by
  have era := day_le_era
  have finish : 45.01 ≤ middleSeconds (yearStart 1972) ∧
      middleSeconds (yearStart 1972) ≤ 45.03 := by
    rw [yearStart_1972]
    unfold middleSeconds quartic centuries
    norm_num
  have near : |date - yearStart 1972| ≤ 1 := by
    rw [abs_le]
    constructor <;> linarith
  have close := abs_le.mp (middleSeconds_close ⟨by linarith, last⟩ ⟨by linarith, le_refl _⟩ near)
  norm_num at finish ⊢
  constructor <;> linarith

end MarsCalendar.Scale

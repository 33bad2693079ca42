import MarsCalendar.Scalar.Rational
import Mathlib.Data.Rat.Floor
import Mathlib.Tactic.Linarith

set_option autoImplicit false

/-! What the operations on calendar numbers do to rationals: rounding moves a number by
half at most and leaves whole numbers alone, and a floor becomes a word by staying in
bounds. -/

namespace MarsCalendar

theorem floor_bounds (value : Rat) : 0 ≤ value - value.floor ∧ value - value.floor < 1 := by
  have below := Rat.floor_le value
  have above := Rat.lt_floor_add_one value
  push_cast at above
  constructor <;> linarith

theorem exists_floor_eq {value : Rat} (nonneg : 0 ≤ value) :
    ∃ whole : Nat, value.floor = whole ∧ (whole : Rat) ≤ value ∧ value < whole + 1 := by
  obtain ⟨below, above⟩ := floor_bounds value
  have floorNonneg : 0 ≤ value.floor := Rat.le_floor_iff.mpr nonneg
  obtain ⟨whole, wholeIs⟩ := Int.eq_ofNat_of_zero_le floorNonneg
  rw [wholeIs, Int.cast_natCast] at below above
  exact ⟨whole, wholeIs, by linarith, by linarith⟩

theorem roundRat_close (value : Rat) :
    value - 1 / 2 ≤ roundRat value ∧ (roundRat value : Rat) ≤ value + 1 / 2 := by
  unfold roundRat
  split
  · have below := Rat.floor_le (-value + 1 / 2)
    have above := Rat.lt_floor_add_one (-value + 1 / 2)
    push_cast at above ⊢
    constructor <;> linarith
  · have below := Rat.floor_le (value + 1 / 2)
    have above := Rat.lt_floor_add_one (value + 1 / 2)
    push_cast at above ⊢
    constructor <;> linarith

/-- Rounding keeps the order, whichever way halves go: numbers apart cannot change places, since
each moves by half at most. -/
theorem roundRat_mono {lesser greater : Rat} (ordered : lesser ≤ greater) :
    roundRat lesser ≤ roundRat greater := by
  rcases ordered.eq_or_lt with same | apart
  · rw [same]
  · have lesserClose := (roundRat_close lesser).2
    have greaterClose := (roundRat_close greater).1
    have near : (roundRat lesser : Rat) < (roundRat greater + 1 : Int) := by
      push_cast
      linarith
    have below := Rat.intCast_lt_intCast.mp near
    omega

theorem roundRat_intCast (value : Int) : roundRat (value : Rat) = value := by
  obtain ⟨below, above⟩ := roundRat_close (value : Rat)
  have notAbove : (value : Rat) < (roundRat (value : Rat) + 1 : Int) := by
    push_cast
    linarith
  have notBelow : (roundRat (value : Rat) : Rat) < (value + 1 : Int) := by
    push_cast
    linarith
  have lower := Rat.intCast_lt_intCast.mp notAbove
  have upper := Rat.intCast_lt_intCast.mp notBelow
  omega

theorem exists_roundRat_eq {value : Rat} {bound : Nat} (nonneg : 0 ≤ value) (below : value ≤ bound) :
    ∃ whole : Nat, roundRat value = whole ∧ whole ≤ bound := by
  have low := roundRat_mono nonneg
  have high := roundRat_mono below
  have zero : roundRat 0 = 0 := roundRat_intCast 0
  have top : roundRat (bound : Rat) = bound := roundRat_intCast bound
  rw [zero] at low
  rw [top] at high
  exact ⟨(roundRat value).toNat, by omega, by omega⟩

theorem floor_div_million (value : Int) : ((value : Rat) / 1000000).floor = value / 1000000 := by
  have quotient := Rat.floor_intCast_div_natCast value 1000000
  exact quotient

theorem clampWord_of_fits {value : Int} (fits : FitsWord value) : clampWord value = value := by
  obtain ⟨low, high⟩ := fits
  rw [clampWord, Int.min_eq_left high, Int.max_eq_right low]

theorem truncateRat_intCast (value : Int) : truncateRat (value : Rat) = value := by
  change Int.tdiv value (1 : Nat) = value
  exact Int.tdiv_one value

theorem toWord_natCast (value : Nat) :
    Scalar.toWord (value : Rat) = (min value 9223372036854775807 : Nat) := by
  change clampWord (truncateRat ((value : Int) : Rat)) = _
  rw [truncateRat_intCast]
  unfold clampWord
  omega

theorem abs_eq (value : Rat) : Scalar.abs value = |value| := by
  change (if value < 0 then -value else value) = _
  by_cases negative : value < 0
  · rw [if_pos negative, abs_of_neg negative]
  · rw [if_neg negative, abs_of_nonneg (not_lt.mp negative)]

end MarsCalendar

import MarsCalendar.Mars.Instant
import MarsCalendar.Proofs.Binary64.Comparison
import MarsCalendar.Proofs.Binary64.Magnitude

set_option autoImplicit false

/-! The time of sol at binary64. Before an instant is read it is rounded to millionths of a
sol, so that no sum with a zone's offset lies just below a whole sol, where what is left
after the floor would round to a whole sol again. So the time of sol found is never a full
thousand. -/

namespace MarsCalendar.Mars

open Binary64

variable {zone : Zone}

/-! ### The count in a zone -/

theorem Zone.tenth_small (zone : Zone) : |(zone.slot : Rat) / 10| ≤ 1 := by
  obtain ⟨low, high⟩ := zone.isSlot
  have lowCast : (-5 : Rat) ≤ zone.slot := by exact_mod_cast low
  have highCast : (zone.slot : Rat) ≤ 5 := by exact_mod_cast high
  rw [abs_le]
  constructor <;> linarith

theorem Zone.value?_offsetSols (zone : Zone) :
    ∃ offset, value? (zone.offsetSols : Float) = some offset ∧
      IsNearest offset ((zone.slot : Rat) / 10) := by
  obtain ⟨low, high⟩ := zone.isSlot
  have few : |zone.slot| < 2 ^ 53 := abs_lt.mpr ⟨by omega, by omega⟩
  obtain ⟨slot, slotIs, nearest⟩ := value?_ofInt zone.slot (few.trans (by decide))
  rw [nearest.eq_exact (representable_intCast zone.slot few)] at slotIs
  exact value?_div slotIs value?_ten (by norm_num) (zone.tenth_small.trans_lt (by norm_num))

theorem Zone.within_offsetSols (zone : Zone) : Within 0 (zone.offsetSols : Float) := by
  obtain ⟨offset, isOffset, nearest⟩ := zone.value?_offsetSols
  exact ⟨offset, isOffset, nearest.abs_result_le (zone.tenth_small.trans_eq (pow_zero 2).symm)⟩

/-- With the same exact size, the roundings of a count and an offset cancel: a number of tenths has
one nearest number. -/
private theorem roundings_cancel {sols offset : Rat} (isSols : Representable sols)
    (isOffset : Representable offset) (solsNear : IsNearest sols (-((zone.slot : Rat) / 10)))
    (offsetNear : IsNearest offset ((zone.slot : Rat) / 10)) : sols + offset = 0 := by
  have thousandths : -((zone.slot : Rat) / 10) = ((-100 * zone.slot : Int) : Rat) / 1000 := by
    push_cast
    ring
  have few : |-100 * zone.slot| < 2 ^ 53 := by
    obtain ⟨low, high⟩ := zone.isSlot
    exact abs_lt.mpr ⟨by omega, by omega⟩
  have oppositeNear := offsetNear.neg
  rw [thousandths] at solsNear oppositeNear
  have same := solsNear.eq_of_thousandths oppositeNear isSols isOffset.neg few
  linarith

/-- A count in millionths and an offset in tenths, both rounded, never add up to a number
just below zero. -/
theorem shifted_away {microsols : Int} {sols offset shifted : Rat}
    (isSols : Representable sols) (isOffset : Representable offset)
    (solsNear : IsNearest sols ((microsols : Rat) / 1000000))
    (offsetNear : IsNearest offset ((zone.slot : Rat) / 10))
    (shiftedNear : IsNearest shifted (sols + offset)) :
    0 ≤ shifted ∨ shifted ≤ -(1 / 2 ^ 21) := by
  obtain ⟨slotLow, slotHigh⟩ := zone.isSlot
  have slotLowCast : (-5 : Rat) ≤ zone.slot := by exact_mod_cast slotLow
  have slotHighCast : (zone.slot : Rat) ≤ 5 := by exact_mod_cast slotHigh
  rcases Int.lt_trichotomy (microsols + 100000 * zone.slot) 0 with negative | zero | positive
  · right
    have negativeCast : (microsols : Rat) + 100000 * zone.slot ≤ -1 := by
      exact_mod_cast Int.le_sub_one_of_lt negative
    have least : Representable (-(1 / 2 ^ 21)) := ⟨-1, -21, by decide, by decide, by norm_num⟩
    refine shiftedNear.le_bound least ?_
    have offsetSmall := zone.tenth_small.trans_eq (pow_zero 2).symm
    have offsetClose := (abs_le.mp (offsetNear.close offsetSmall (by decide))).2
    norm_num at offsetClose ⊢
    by_cases far : microsols ≤ -1000000
    · have farCast : (microsols : Rat) ≤ -1000000 := by exact_mod_cast far
      have low := solsNear.le_bound representable_one.neg (by linarith)
      linarith
    · have nearCast : (-1000000 : Rat) ≤ microsols := by exact_mod_cast (not_le.mp far).le
      have solsSmall : |(microsols : Rat) / 1000000| ≤ 2 ^ 0 := by
        rw [pow_zero, abs_le]
        constructor <;> linarith
      have solsClose := (abs_le.mp (solsNear.close solsSmall (by decide))).2
      -- A millionth is more than both roundings can make up for.
      norm_num at solsClose
      linarith
  · left
    have zeroCast : (microsols : Rat) + 100000 * zone.slot = 0 := by exact_mod_cast zero
    have opposite : (microsols : Rat) / 1000000 = -((zone.slot : Rat) / 10) := by linarith
    rw [opposite] at solsNear
    have cancelled := roundings_cancel isSols isOffset solsNear offsetNear
    exact shiftedNear.bound_le representable_zero cancelled.ge
  · left
    have positiveCast : (0 : Rat) < microsols + 100000 * zone.slot := by exact_mod_cast positive
    have ordered := offsetNear.neg.mono solsNear isOffset.neg isSols (by linarith)
    exact shiftedNear.bound_le representable_zero (by linarith)

/-- In every zone a count is a number that does not lie just below zero. The bound leaves room
for a count that fills a word and for all that a date adds to one. -/
theorem Instant.value?_zoneSols {instant : Instant Float} (bounded : Within 66 instant.sols)
    (zone : Zone) :
    ∃ shifted, value? (instant.zoneSols zone) = some shifted ∧
      (0 ≤ shifted ∨ shifted ≤ -(1 / 2 ^ 21)) := by
  obtain ⟨sols, isSols, solsBounded⟩ := bounded
  have productBounded : |sols * 1000000| ≤ 2 ^ 86 := by
    rw [abs_mul]
    norm_num at solsBounded ⊢
    linarith
  obtain ⟨scaled, isScaled, scaledNear⟩ := value?_mul isSols value?_million
    (productBounded.trans_lt (by norm_num))
  obtain ⟨scaledLow, scaledHigh⟩ := abs_le.mp (scaledNear.abs_result_le productBounded)
  obtain ⟨below, above⟩ := roundRat_close scaled
  have quotientBounded : |(roundRat scaled : Rat) / 1000000| ≤ 2 ^ 86 := by
    rw [abs_le]
    constructor <;> linarith
  obtain ⟨count, isCount, countNear⟩ := value?_div (value?_round isScaled) value?_million
    (by norm_num) (quotientBounded.trans_lt (by norm_num))
  obtain ⟨offset, isOffset, offsetNear⟩ := zone.value?_offsetSols
  have sumBounded : |count + offset| < 2 ^ (200 : Int) := by
    have countBounded := countNear.abs_result_le quotientBounded
    have offsetBounded : |offset| ≤ 2 ^ 0 :=
      offsetNear.abs_result_le (zone.tenth_small.trans_eq (pow_zero 2).symm)
    have triangle := abs_add_le count offset
    norm_num at countBounded offsetBounded ⊢
    linarith
  obtain ⟨shifted, isShifted, shiftedNear⟩ := value?_add isCount isOffset sumBounded
  exact ⟨shifted, isShifted, shifted_away (representable_of_value? isCount)
    (representable_of_value? isOffset) countNear offsetNear shiftedNear⟩

/-! ### The time in thousandths -/

private theorem scaled_lt_million {rest scaled : Rat} (short : rest ≤ 1 - 1 / 2 ^ 53)
    (scaledNear : IsNearest scaled (rest * 1000000)) : scaled < 1000000 := by
  have before : Representable (1000000 - 1 / 2 ^ 33) :=
    ⟨1000000 * 2 ^ 33 - 1, -33, by decide, by decide, by norm_num⟩
  norm_num at short
  by_cases below : rest * 1000000 ≤ 1000000 - 1 / 2 ^ 33
  · have high := scaledNear.le_bound before below
    linarith
  · -- The last number before a million is closer than a million is.
    by_contra full
    have closest := scaledNear _ before
    rw [abs_of_nonneg (by linarith), abs_of_neg (by linarith)] at closest
    norm_num at closest below
    linarith

theorem value?_scaledRest {number : Float} {value : Rat} (isNumber : value? number = some value)
    (away : 0 ≤ value ∨ value ≤ -(1 / 2 ^ 21)) :
    ∃ scaled, value? ((number - Scalar.floor number) * 1e6) = some scaled ∧
      0 ≤ scaled ∧ scaled < 1000000 := by
  obtain ⟨restLow, restHigh⟩ := floor_bounds value
  have longest : Representable (1 - 1 / 2 ^ 53) :=
    ⟨2 ^ 53 - 1, -53, by decide, by decide, by norm_num⟩
  obtain ⟨rest, isRest, restNear⟩ := value?_sub isNumber (value?_floor isNumber) (by
    rw [abs_of_nonneg restLow]
    exact restHigh.trans (by norm_num))
  have nonneg := restNear.bound_le representable_zero restLow
  have short := restNear.le_bound longest
    (rest_le_of_away (representable_of_value? isNumber) away)
  obtain ⟨scaled, isScaled, scaledNear⟩ := value?_mul isRest value?_million (by
    rw [abs_of_nonneg (by linarith)]
    norm_num at short ⊢
    linarith)
  exact ⟨scaled, isScaled, scaledNear.bound_le representable_zero (by linarith),
    scaled_lt_million short scaledNear⟩

theorem value?_thousandths {number : Float} {count : Int}
    (isNumber : value? number = some (count : Rat)) (low : 0 ≤ count) (high : count ≤ 999999) :
    ∃ time, value? (number / 1e3) = some time ∧ IsNearest time ((count : Rat) / 1000) ∧
      0 ≤ time ∧ time < 1000 := by
  have lowCast : (0 : Rat) ≤ count := by exact_mod_cast low
  have highCast : (count : Rat) ≤ 999999 := by exact_mod_cast high
  have latest : Representable (1000 - 1 / 2 ^ 10) :=
    ⟨1000 * 2 ^ 10 - 1, -10, by decide, by decide, by norm_num⟩
  obtain ⟨time, isTime, timeNear⟩ := value?_div isNumber value?_thousand (by norm_num) (by
    rw [abs_of_nonneg (by positivity)]
    norm_num
    linarith)
  have below := timeNear.le_bound latest (by linarith)
  exact ⟨time, isTime, timeNear, timeNear.bound_le representable_zero (by positivity), by linarith⟩

theorem Instant.value?_millisols {instant : Instant Float} (bounded : Within 66 instant.sols)
    (zone : Zone) :
    ∃ (count : Int) (time : Rat), value? (instant.millisols zone) = some time ∧
      IsNearest time ((count : Rat) / 1000) ∧ 0 ≤ time ∧ time < 1000 := by
  obtain ⟨shifted, isShifted, away⟩ := instant.value?_zoneSols bounded zone
  obtain ⟨scaled, isScaled, low, high⟩ := value?_scaledRest isShifted away
  have floorHigh : scaled.floor < 1000000 := Rat.floor_lt_iff.mpr (by exact_mod_cast high)
  exact ⟨scaled.floor, value?_thousandths (value?_floor isScaled)
    (Rat.le_floor_iff.mpr (by exact_mod_cast low)) (Int.lt_add_one_iff.mp floorHigh)⟩

end MarsCalendar.Mars

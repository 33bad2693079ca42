import MarsCalendar.Proofs.Mars.DateCheck
import MarsCalendar.Proofs.Mars.TimeText

set_option autoImplicit false

/-! The text of a date with its zone names one date. All that follows the mir has a fixed number of
letters, so that the mir is what stands before them, however long it is and whatever its sign; the
month, the sol, the time and the zone each fill their own places. The time is written in whole
thousandths, and of each number of thousandths there is one nearest binary64 number. -/

namespace MarsCalendar.Mars

open Binary64
open Text (length_signedPadded length_zeroFilled padded plain plain_injective signedPadded_injective
  toList_padded zeroFilled zeroFilled_injective)

theorem Zone.offsetText_injective : Function.Injective Zone.offsetText := by
  intro left right same
  have offsets := signedPadded_injective 4 same
  have slots : left.slot = right.slot := by omega
  cases left
  cases right
  cases slots
  rfl

theorem Zone.length_offsetText (zone : Zone) : zone.offsetText.toList.length = 4 := by
  obtain ⟨low, high⟩ := zone.isSlot
  exact length_signedPadded (by decide) (by omega)

namespace Date

/-! ### The letters of a text -/

section Letters

variable {α : Type} {date left right : Date α}

theorem named_lt (real : date.solDate.Valid) : date.month < 10 ^ 2 ∧ date.sol < 10 ^ 2 := by
  obtain ⟨⟨-, lastMonth⟩, -, lastSol⟩ := real
  have long := Month.length_le date.solDate.mir date.solDate.month
  have monthIs : date.solDate.month = date.month := rfl
  have solIs : date.solDate.sol = date.sol := rfl
  unfold monthsPerMir at lastMonth
  unfold solsPerLongMonth at long
  omega

def afterMir (date : Date α) (count : Nat) : List Char :=
  '/' :: (zeroFilled 2 date.month ++ '/' :: (zeroFilled 2 date.sol ++ ':' ::
    (zeroFilled 3 (count / 1000) ++ '.' :: (zeroFilled 3 (count % 1000) ++
      date.zone.offsetText.toList))))

theorem length_afterMir {count : Nat} (real : date.solDate.Valid) (inSol : count < 1000000) :
    (date.afterMir count).length = 18 := by
  obtain ⟨month, sol⟩ := named_lt real
  unfold afterMir
  simp only [List.length_cons, List.length_append, date.zone.length_offsetText,
    length_zeroFilled (by decide : 0 < 2) month, length_zeroFilled (by decide : 0 < 2) sol,
    length_zeroFilled (by decide : 0 < 3) (by omega : count / 1000 < 10 ^ 3),
    length_zeroFilled (by decide : 0 < 3) (by omega : count % 1000 < 10 ^ 3)]

theorem marked_inj {mark : Char} {width first second : Nat} {rest otherRest : List Char}
    (wide : 0 < width) (firstFits : first < 10 ^ width) (secondFits : second < 10 ^ width)
    (same : mark :: (zeroFilled width first ++ rest) =
      mark :: (zeroFilled width second ++ otherRest)) :
    first = second ∧ rest = otherRest := by
  have lengths : (zeroFilled width first).length = (zeroFilled width second).length := by
    rw [length_zeroFilled wide firstFits, length_zeroFilled wide secondFits]
  obtain ⟨numerals, rests⟩ := List.append_inj ((List.cons_inj_right mark).mp same) lengths
  exact ⟨zeroFilled_injective width numerals, rests⟩

theorem eq_of_afterMir_eq {count otherCount : Nat} (leftReal : left.solDate.Valid)
    (rightReal : right.solDate.Valid) (inSol : count < 1000000) (otherInSol : otherCount < 1000000)
    (same : left.afterMir count = right.afterMir otherCount) :
    left.month = right.month ∧ left.sol = right.sol ∧ count = otherCount ∧
      left.zone = right.zone := by
  obtain ⟨leftMonth, leftSol⟩ := named_lt leftReal
  obtain ⟨rightMonth, rightSol⟩ := named_lt rightReal
  unfold afterMir at same
  obtain ⟨month, same⟩ := marked_inj (by decide) leftMonth rightMonth same
  obtain ⟨sol, same⟩ := marked_inj (by decide) leftSol rightSol same
  obtain ⟨whole, same⟩ := marked_inj (by decide) (by omega) (by omega) same
  obtain ⟨fraction, same⟩ := marked_inj (by decide) (by omega) (by omega) same
  exact ⟨month, sol, by omega, Zone.offsetText_injective (String.toList_inj.mp same)⟩

variable [Scalar α] {options : TextOptions}

theorem toList_textWith {count : Nat} (zoneShown : options.zone = true)
    (counted : date.thousandths = count) :
    (date.textWith options).toList = (if options.leadingMark then "M" else "").toList ++
      ((plain date.mir).toList ++ date.afterMir count) := by
  unfold textWith dateText zoneText afterMir
  rw [if_pos zoneShown]
  simp only [String.toList_append, toList_timeText counted, toList_padded, List.append_assoc]
  rfl

theorem eq_of_textWith_eq {count otherCount : Nat} (zoneShown : options.zone = true)
    (leftReal : left.solDate.Valid) (rightReal : right.solDate.Valid)
    (leftCounted : left.thousandths = count) (rightCounted : right.thousandths = otherCount)
    (inSol : count < 1000000) (otherInSol : otherCount < 1000000)
    (same : left.textWith options = right.textWith options) :
    left.solDate = right.solDate ∧ count = otherCount ∧ left.zone = right.zone := by
  have letters := congrArg String.toList same
  rw [toList_textWith zoneShown leftCounted, toList_textWith zoneShown rightCounted,
    List.append_cancel_left_eq] at letters
  obtain ⟨mirs, after⟩ := List.append_inj' letters (by
    rw [length_afterMir leftReal inSol, length_afterMir rightReal otherInSol])
  have mir := plain_injective (String.toList_inj.mp mirs)
  obtain ⟨month, sol, counts, zone⟩ := eq_of_afterMir_eq leftReal rightReal inSol otherInSol after
  unfold solDate
  rw [mir, month, sol]
  exact ⟨rfl, counts, zone⟩

end Letters

/-! ### Times of whole thousandths -/

theorem count_of_wholeThousandths {date : Date Rat} (valid : date.Valid)
    (whole : date.WholeThousandths) :
    ∃ count : Nat, date.thousandths = count ∧ count < 1000000 ∧ date.millisols * 1000 = count := by
  obtain ⟨thousandths, isWhole⟩ := whole
  obtain ⟨count, counted, -, low, high⟩ := thousandths_spec valid
  obtain ⟨-, -, inSol⟩ := (valid_iff date).mp valid
  have notAbove : (count : Rat) < (thousandths + 1 : Int) := by
    push_cast
    linarith
  have notBelow : (thousandths : Rat) < (count + 1 : Int) := by
    push_cast
    linarith
  have before : (thousandths : Rat) < (1000000 : Int) := by
    push_cast
    linarith
  have lower : (count : Int) < thousandths + 1 := by exact_mod_cast notAbove
  have upper := Rat.intCast_lt_intCast.mp notBelow
  have inside := Rat.intCast_lt_intCast.mp before
  obtain rfl : thousandths = count := by omega
  exact ⟨count, counted, by omega, isWhole⟩

/-- The time at binary64 is the number nearest to a whole number of thousandths. -/
def NearThousandths (date : Date Float) : Prop :=
  ∃ (count : Int) (time : Rat), value? date.millisols = some time ∧
    IsNearest time ((count : Rat) / 1000)

theorem thousandths_inSol {count : Int} {time : Rat} (nearest : IsNearest time ((count : Rat) / 1000))
    (low : 0 ≤ time) (high : time < 1000) : 0 ≤ count ∧ count < 1000000 := by
  constructor
  · by_contra negative
    have least : Representable (-(1 / 2 ^ 10)) := ⟨-1, -10, by decide, by decide, by norm_num⟩
    have atMost : (count : Rat) ≤ (-1 : Int) := Rat.intCast_le_intCast.mpr (by omega)
    push_cast at atMost
    have below := nearest.le_bound least (by linarith)
    norm_num at below
    linarith
  · by_contra beyond
    have thousand : Representable 1000 := by
      exact_mod_cast representable_intCast 1000 (by decide)
    have atLeast : ((1000000 : Int) : Rat) ≤ count := Rat.intCast_le_intCast.mpr (by omega)
    push_cast at atLeast
    have above := nearest.bound_le thousand (by linarith)
    linarith

/-- Before the floor is taken, a time nearest to so many thousandths is that many and a half, but for
the roundings of the product and the sum, which are far less than the half. -/
theorem exists_thousandths_and_half {number : Float} {count : Nat} {time : Rat}
    (isTime : value? number = some time)
    (nearest : IsNearest time (((count : Int) : Rat) / 1000)) (inSol : count < 1000000) :
    ∃ sum : Rat, value? (number * 1000.0 + 0.5) = some sum ∧
      (count : Rat) ≤ sum ∧ sum < count + 1 := by
  rw [Int.cast_natCast] at nearest
  have countLow : (0 : Rat) ≤ count := Nat.cast_nonneg count
  have countHigh : (count : Rat) ≤ (999999 : Nat) := Nat.cast_le.mpr (Nat.le_of_lt_succ inSol)
  push_cast at countHigh
  have timeSmall : |(count : Rat) / 1000| ≤ 2 ^ 10 := by
    rw [abs_of_nonneg (by positivity)]
    norm_num
    linarith
  obtain ⟨timeLow, timeHigh⟩ := abs_le.mp (nearest.close timeSmall (by decide))
  norm_num at timeLow timeHigh
  have productSmall : |time * 1000| ≤ 2 ^ 20 := by
    rw [abs_le]
    norm_num
    constructor <;> linarith
  obtain ⟨product, isProduct, productNear⟩ := value?_mul isTime value?_thousandTenths
    (productSmall.trans_lt (by norm_num))
  obtain ⟨productLow, productHigh⟩ := abs_le.mp (productNear.close productSmall (by decide))
  norm_num at productLow productHigh
  have sumSmall : |product + 1 / 2| ≤ 2 ^ 20 := by
    rw [abs_le]
    norm_num
    constructor <;> linarith
  obtain ⟨sum, isSum, sumNear⟩ := value?_add isProduct value?_half
    (sumSmall.trans_lt (by norm_num))
  obtain ⟨sumLow, sumHigh⟩ := abs_le.mp (sumNear.close sumSmall (by decide))
  norm_num at sumLow sumHigh
  exact ⟨sum, isSum, by linarith, by linarith⟩

theorem thousandths_of_nearest {date : Date Float} {count : Nat} {time : Rat}
    (isTime : value? date.millisols = some time)
    (nearest : IsNearest time (((count : Int) : Rat) / 1000)) (inSol : count < 1000000) :
    date.thousandths = count := by
  obtain ⟨sum, isSum, below, above⟩ := exists_thousandths_and_half isTime nearest inSol
  have nonneg : (0 : Rat) ≤ count := Nat.cast_nonneg count
  obtain ⟨whole, isFloor, wholeLe, ltSucc⟩ := exists_floor_eq (nonneg.trans below)
  have atMost : whole < count + 1 := by exact_mod_cast wholeLe.trans_lt above
  have atLeast : count < whole + 1 := by exact_mod_cast below.trans_lt ltSucc
  obtain rfl : whole = count := by omega
  have isWhole := value?_floor isSum
  rw [isFloor, Int.cast_natCast] at isWhole
  have small : (whole : Rat) < 2 ^ 63 := by
    exact_mod_cast inSol.trans (by decide : 1000000 < 2 ^ 63)
  change Scalar.toWord (Scalar.floor (date.millisols * 1000.0 + 0.5)) = _
  rw [toWord_eq isWhole nonneg small]
  exact Rat.floor_intCast whole

theorem count_of_nearThousandths {date : Date Float} (valid : date.Valid)
    (near : date.NearThousandths) :
    ∃ (count : Nat) (time : Rat), date.thousandths = count ∧ count < 1000000 ∧
      value? date.millisols = some time ∧ IsNearest time (((count : Int) : Rat) / 1000) := by
  obtain ⟨thousandths, time, isTime, nearest⟩ := near
  obtain ⟨low, high⟩ := (timeInSol_iff isTime).mp valid.2
  obtain ⟨nonneg, inSol⟩ := thousandths_inSol nearest low high
  obtain ⟨count, rfl⟩ := Int.eq_ofNat_of_zero_le nonneg
  have few : count < 1000000 := by omega
  exact ⟨count, time, thousandths_of_nearest isTime nearest few, few, isTime, nearest⟩

theorem nearThousandths_toDate {instant : Instant Float} (bounded : Within 66 instant.sols)
    (zone : Zone) : (instant.toDate zone).NearThousandths := by
  obtain ⟨count, time, isTime, nearest, -⟩ := instant.value?_millisols bounded zone
  exact ⟨count, time, isTime, nearest⟩

/-! ### One text, one date -/

/-- Two dates whose times are whole thousandths have the same text, with its zone, only if they are the
same in mir, month, sol, time and zone: at binary64, where a whole number of thousandths is the
nearest number to it and is so in every date that is read from an instant, and over the rationals. -/
theorem textWith_unique {options : TextOptions} (zoneShown : options.zone = true) :
    (∀ left right : Date Float, left.Valid → right.Valid →
      left.NearThousandths → right.NearThousandths →
      left.textWith options = right.textWith options →
      left.mir = right.mir ∧ left.month = right.month ∧ left.sol = right.sol ∧
        (left.millisols == right.millisols) = true ∧ left.zone = right.zone) ∧
    (∀ left right : Date Rat, left.Valid → right.Valid →
      left.WholeThousandths → right.WholeThousandths →
      left.textWith options = right.textWith options → left = right) ∧
    (∀ (instant : Instant Float) (zone : Zone), -9.2e18 ≤ instant.sols → instant.sols ≤ 9.2e18 →
      (instant.toDate zone).Valid ∧ (instant.toDate zone).NearThousandths) := by
  refine ⟨fun left right leftValid rightValid leftNear rightNear same => ?_,
    fun left right leftValid rightValid leftWhole rightWhole same => ?_,
    fun instant zone low high => ?_⟩
  · obtain ⟨count, time, counted, inSol, isTime, nearest⟩ :=
      count_of_nearThousandths leftValid leftNear
    obtain ⟨otherCount, otherTime, otherCounted, otherInSol, isOtherTime, otherNearest⟩ :=
      count_of_nearThousandths rightValid rightNear
    obtain ⟨sols, rfl, zone⟩ := eq_of_textWith_eq zoneShown leftValid.1 rightValid.1 counted
      otherCounted inSol otherInSol same
    have times := nearest.eq_of_thousandths otherNearest (representable_of_value? isTime)
      (representable_of_value? isOtherTime) (abs_lt.mpr ⟨by omega, by omega⟩)
    obtain ⟨mir, month, sol⟩ := SolDate.mk.inj sols
    exact ⟨mir, month, sol, (beq_iff isTime isOtherTime).mpr times, zone⟩
  · obtain ⟨count, counted, inSol, time⟩ := count_of_wholeThousandths leftValid leftWhole
    obtain ⟨otherCount, otherCounted, otherInSol, otherTime⟩ :=
      count_of_wholeThousandths rightValid rightWhole
    obtain ⟨sols, rfl, zone⟩ := eq_of_textWith_eq zoneShown leftValid.1 rightValid.1 counted
      otherCounted inSol otherInSol same
    have times : left.millisols = right.millisols := by linarith
    obtain ⟨mir, month, sol⟩ := SolDate.mk.inj sols
    cases left
    cases right
    exact (Date.mk.injEq ..).mpr ⟨mir, month, sol, times, zone⟩
  · have bounded := within_of_range low high
    exact ⟨(sound_toDate bounded zone).valid, nearThousandths_toDate bounded zone⟩

/-- A time of zero and one of negative zero, long before the epoch and far to the west: the two
dates have one text, and no field that is different. -/
theorem textWith_unique_at_zeros :
    let zero : Date Float := ⟨-5000000000000, 3, 7, 0.0, Zone.westernmost⟩
    let negativeZero : Date Float := ⟨-5000000000000, 3, 7, -0.0, Zone.westernmost⟩
    zero.Valid ∧ negativeZero.Valid ∧ zero.NearThousandths ∧ negativeZero.NearThousandths ∧
      zero.textWith ⟨false, true⟩ = "-5000000000000/03/07:000.000-500" ∧
      zero.textWith ⟨false, true⟩ = negativeZero.textWith ⟨false, true⟩ ∧
      (zero.millisols == negativeZero.millisols) = true := by
  intro zero negativeZero
  have nearest : IsNearest 0 (((0 : Int) : Rat) / 1000) := by
    rw [Int.cast_zero, zero_div]
    exact isNearest_self 0
  have zeroValid : zero.Valid := by decide +kernel
  have negativeValid : negativeZero.Valid := by decide +kernel
  have negativeTime : value? (-0.0 : Float) = some 0 := by
    rw [value?_neg value?_zero, neg_zero]
  have zeroNear : zero.NearThousandths := ⟨0, 0, value?_zero, nearest⟩
  have negativeNear : negativeZero.NearThousandths := ⟨0, 0, negativeTime, nearest⟩
  have text : zero.textWith ⟨false, true⟩ = "-5000000000000/03/07:000.000-500" := by decide +kernel
  have same : zero.textWith ⟨false, true⟩ = negativeZero.textWith ⟨false, true⟩ := by
    decide +kernel
  obtain ⟨unique, -, -⟩ := textWith_unique (rfl : (⟨false, true⟩ : TextOptions).zone = true)
  obtain ⟨-, -, -, time, -⟩ :=
    unique zero negativeZero zeroValid negativeValid zeroNear negativeNear same
  exact ⟨zeroValid, negativeValid, zeroNear, negativeNear, text, same, time⟩

end Date

end MarsCalendar.Mars

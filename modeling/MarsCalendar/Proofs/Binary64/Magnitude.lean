import MarsCalendar.Proofs.Binary64.Bounded
import MarsCalendar.Proofs.Binary64.Division

set_option autoImplicit false

/-! The size of binary64 numbers. Whole numbers become the nearest numbers, sums and
differences of numbers up to a power of two stay below the next one, and a nearest
rational is off by a unit of the 52nd place after its leading one at most. -/

namespace MarsCalendar.Binary64

open Float.Model Float.Model.UnpackedFloat

variable {number left right : Float} {value first second result exact : Rat} {places : Nat}

/-! ### Nearest rationals by their size -/

theorem IsNearest.close (nearest : IsNearest result exact) (bounded : |exact| ≤ 2 ^ places)
    (modest : places ≤ 52) : |result - exact| ≤ 1 / 2 ^ (52 - places) := by
  -- The multiple of the unit below the exact rational has a number, and the nearest is no further.
  obtain ⟨finer, finerIs⟩ : ∃ finer, 52 = places + finer := Nat.exists_eq_add_of_le modest
  have unit : (0 : Rat) < 2 ^ finer := by positivity
  have full : (2 : Rat) ^ places * 2 ^ finer = 2 ^ 52 := by rw [← pow_add, ← finerIs]
  have scaled : |exact * 2 ^ finer| ≤ 2 ^ 52 := by
    rw [abs_mul, abs_of_pos unit, ← full]
    exact mul_le_mul_of_nonneg_right bounded unit.le
  obtain ⟨low, high⟩ := abs_le.mp scaled
  obtain ⟨below, above⟩ := floor_bounds (exact * 2 ^ finer)
  have floorLow : (-2 ^ 52 : Int) ≤ (exact * 2 ^ finer).floor := by
    rw [Rat.le_floor_iff]
    push_cast
    linarith
  have floorHigh : (exact * 2 ^ finer).floor ≤ (2 ^ 52 : Int) := by
    have cast : ((exact * 2 ^ finer).floor : Rat) ≤ (2 ^ 52 : Int) := by
      push_cast
      linarith
    exact_mod_cast cast
  have representable : Representable ((exact * 2 ^ finer).floor * 2 ^ (-(finer : Int))) :=
    ⟨(exact * 2 ^ finer).floor, -finer, abs_lt.mpr ⟨by omega, by omega⟩, by omega, rfl⟩
  have distance :
      |((exact * 2 ^ finer).floor : Rat) * 2 ^ (-(finer : Int)) - exact| ≤ 1 / 2 ^ finer := by
    rw [zpow_neg, zpow_natCast, ← div_eq_mul_inv, div_sub' unit.ne', abs_div, abs_of_pos unit]
    apply div_le_div_of_nonneg_right _ unit.le
    rw [abs_le]
    constructor <;> linarith
  have finerIs : 52 - places = finer := by omega
  rw [finerIs]
  exact (nearest _ representable).trans distance

theorem IsNearest.abs_result_le (nearest : IsNearest result exact) (bounded : |exact| ≤ 2 ^ places) :
    |result| ≤ 2 ^ places := by
  have representable : Representable (2 ^ places) :=
    ⟨1, places, by decide, by omega, by rw [Int.cast_one, one_mul, zpow_natCast]⟩
  obtain ⟨low, high⟩ := abs_le.mp bounded
  exact abs_le.mpr ⟨nearest.bound_le representable.neg low, nearest.le_bound representable high⟩

theorem representable_grid :
    ∃ bottom : Nat, ∀ value, Representable value → ∃ whole : Int, value * 2 ^ bottom = whole := by
  refine ⟨1074, ?_⟩
  rintro value ⟨mantissa, exponent, -, low, rfl⟩
  refine ⟨mantissa * 2 ^ (exponent + 1074).toNat, ?_⟩
  obtain ⟨places, placesIs⟩ : ∃ places : Nat, exponent + 1074 = places :=
    ⟨(exponent + 1074).toNat, by omega⟩
  rw [placesIs, Int.toNat_natCast, mul_assoc, ← zpow_natCast, ← zpow_add₀ (by norm_num)]
  push_cast
  rw [placesIs, zpow_natCast]

/-- A whole number of so many parts that are representable has all odd factors of their number. -/
theorem dvd_of_parts (parts : Int) {odd whole : Int} (coprime : IsCoprime odd 2)
    (divides : odd ∣ parts) (isFirst : Representable first) (isSecond : Representable second)
    (total : parts * (first + second) = whole) : odd ∣ whole := by
  obtain ⟨bottom, onGrid⟩ := representable_grid
  obtain ⟨units, unitsIs⟩ := onGrid first isFirst
  obtain ⟨otherUnits, otherUnitsIs⟩ := onGrid second isSecond
  have scaled : (parts : Rat) * (units + otherUnits) = whole * 2 ^ bottom := by
    rw [← unitsIs, ← otherUnitsIs, ← total]
    ring
  have product : parts * (units + otherUnits) = whole * 2 ^ bottom := by exact_mod_cast scaled
  have multiple : odd ∣ whole * 2 ^ bottom := product ▸ divides.mul_right _
  exact coprime.pow_right.dvd_of_dvd_mul_right multiple

/-- A number of thousandths has one nearest number: what lies halfway between two numbers is a number
of eighths, and is not rounded. -/
theorem IsNearest.eq_of_thousandths {count : Int} (nearest : IsNearest first ((count : Rat) / 1000))
    (otherNearest : IsNearest second ((count : Rat) / 1000)) (isFirst : Representable first)
    (isSecond : Representable second) (few : |count| < 2 ^ 53) : first = second := by
  obtain same | middle := nearest.eq_or_midpoint otherNearest isFirst isSecond
  · exact same
  · have odd : IsCoprime (125 : Int) 2 := Int.isCoprime_iff_gcd_eq_one.mpr (by decide)
    obtain ⟨eighths, eighthsIs⟩ : 125 ∣ count := by
      refine dvd_of_parts 500 odd (by decide) isFirst isSecond ?_
      push_cast
      linarith
    have fewEighths : |eighths| < 2 ^ 53 := by
      obtain ⟨low, high⟩ := abs_lt.mp few
      exact abs_lt.mpr ⟨by omega, by omega⟩
    have representable : Representable ((count : Rat) / 1000) := by
      refine ⟨eighths, -3, fewEighths, by decide, ?_⟩
      rw [eighthsIs]
      push_cast
      norm_num
      ring
    rw [nearest.eq_exact representable, otherNearest.eq_exact representable]

/-! ### Whole numbers -/

private theorem value?_toFloat {whole : Nat} (small : whole < 2 ^ 53) :
    value? whole.toUInt64.toFloat = some (whole : Rat) := by
  have word : whole.toUInt64.toNat = whole := by
    rw [Nat.toUInt64_eq, UInt64.toNat_ofNat']
    exact Nat.mod_eq_of_lt (by omega)
  change rational? (Float.Model.pack (UnpackedFloat.normalize Format.binary64
    (whole.toUInt64.toNat : Int) 0 .positive)).unpack = _
  rw [word, rational?_normalize_whole (by rw [Nat.abs_cast]; exact_mod_cast small)]
  rfl

private theorem ofScientific_whole {whole : Nat} (positive : 0 < whole) :
    UnpackedFloat.ofScientific Format.binary64 whole 0 =
      roundWithAccuracy Format.binary64 .positive (whole * 2 ^ 53) (-53) .exact := by
  have modest : ¬ (0 : Int) < -((2 ^ Format.binary64.exponentBits : Int) + whole.log2) := by
    change ¬ (0 : Int) < -(2 ^ 11 + whole.log2)
    omega
  rw [UnpackedFloat.ofScientific, dif_neg (Nat.ne_of_gt positive), if_neg (by decide),
    if_neg modest, if_pos (by decide)]
  change roundWithAccuracy Format.binary64 .positive ((whole <<< 53) * 1) (-53) .exact = _
  rw [Nat.mul_one, Nat.shiftLeft_eq]

private theorem ofScientific_nearest {whole : Nat} (positive : 0 < whole)
    (small : (whole : Rat) < 2 ^ (200 : Int)) :
    ∃ result, rational? (Float.Model.pack (UnpackedFloat.ofScientific Format.binary64
      whole 0)).unpack = some result ∧ IsNearest result whole := by
  have longer : 0 < whole * 2 ^ 53 := Nat.mul_pos positive (by decide)
  have valueIs : ((whole * 2 ^ 53 : Nat) : Rat) * 2 ^ (-53 : Int) = whole := by
    push_cast
    rw [mul_assoc]
    norm_num
  have length := (Nat.le_log2 (Nat.ne_of_gt longer)).mpr (Nat.le_mul_of_pos_left (2 ^ 53) positive)
  have reached : -53 ≤ lastPlace (whole * 2 ^ 53) (-53) := by
    unfold lastPlace
    omega
  have rounded := roundWithAccuracy_nearest .positive longer reached
    (lastPlace_le longer (by rwa [valueIs]))
  rw [Sign.apply, Int.cast_natCast, valueIs] at rounded
  rwa [ofScientific_whole positive]

private theorem value?_ofNat (whole : Nat) (small : whole < 2 ^ 100) :
    ∃ result, value? (Float.ofNat whole) = some result ∧ IsNearest result whole := by
  have smallCast : (whole : Rat) < 2 ^ (200 : Int) := by
    have power : (whole : Rat) < 2 ^ 100 := by exact_mod_cast small
    exact power.trans (by norm_num)
  change ∃ result, value? (Float.ofScientific whole false 0) = some result ∧ _
  unfold Float.ofScientific
  by_cases short : whole < 2 ^ 53
  · -- A whole number of at most 53 bits is converted as a word and taken once.
    have one : value? (Float.ofBits 0x3FF0000000000000) = some 1 := by
      have unpacked : (Float.ofBits 0x3FF0000000000000).toModel.unpack =
          .finite .positive (2 ^ 52) (-52) (by decide) := rfl
      rw [value?_of_unpack unpacked]
      norm_num [Sign.apply]
    have product := value?_mul (value?_toFloat short) one (by
      rwa [mul_one, Nat.abs_cast])
    rw [dif_pos ⟨short, by decide⟩]
    rwa [mul_one] at product
  · rw [dif_neg (fun both => short both.1)]
    exact ofScientific_nearest (by omega) smallCast

theorem value?_ofInt (whole : Int) (small : |whole| < 2 ^ 100) :
    ∃ result, value? (Float.ofInt whole) = some result ∧ IsNearest result whole := by
  cases whole with
  | ofNat size =>
      rw [Int.ofNat_eq_natCast, Nat.abs_cast] at small
      exact value?_ofNat size (by exact_mod_cast small)
  | negSucc size =>
      rw [Int.negSucc_eq, abs_neg] at small
      obtain ⟨result, isNumber, nearest⟩ := value?_ofNat (size + 1) (by
        rw [← Nat.cast_succ, Nat.abs_cast] at small
        exact_mod_cast small)
      refine ⟨-result, value?_neg isNumber, ?_⟩
      rw [Int.cast_negSucc]
      exact nearest.neg

/-! ### Numbers up to a power of two -/

def Within (places : Nat) (number : Float) : Prop :=
  ∃ value, value? number = some value ∧ |value| ≤ 2 ^ places

private theorem small_of_within (bounded : |value| ≤ 2 ^ places) (modest : places < 200) :
    |value| < 2 ^ (200 : Int) := by
  have power : (2 : Rat) ^ places < 2 ^ 200 := pow_lt_pow_right₀ (by norm_num) modest
  exact bounded.trans_lt power

theorem Within.add (isLeft : Within places left) (isRight : Within places right)
    (modest : places < 199) : Within (places + 1) (left + right) := by
  obtain ⟨first, isFirst, bounded⟩ := isLeft
  obtain ⟨second, isSecond, otherBounded⟩ := isRight
  have sum : |first + second| ≤ 2 ^ (places + 1) := by
    rw [pow_succ]
    linarith [abs_add_le first second]
  obtain ⟨result, isResult, nearest⟩ := value?_add isFirst isSecond
    (small_of_within sum (by omega))
  exact ⟨result, isResult, nearest.abs_result_le sum⟩

theorem Within.sub (isLeft : Within places left) (isRight : Within places right)
    (modest : places < 199) : Within (places + 1) (left - right) := by
  obtain ⟨first, isFirst, bounded⟩ := isLeft
  obtain ⟨second, isSecond, otherBounded⟩ := isRight
  have difference : |first - second| ≤ 2 ^ (places + 1) := by
    rw [pow_succ]
    linarith [abs_sub first second]
  obtain ⟨result, isResult, nearest⟩ := value?_sub isFirst isSecond
    (small_of_within difference (by omega))
  exact ⟨result, isResult, nearest.abs_result_le difference⟩

theorem Within.mono {more : Nat} (isNumber : Within places number) (atMost : places ≤ more) :
    Within more number := by
  obtain ⟨value, isValue, bounded⟩ := isNumber
  exact ⟨value, isValue, bounded.trans (pow_le_pow_right₀ (by norm_num) atMost)⟩

theorem within_ofInt {whole : Int} (bounded : |whole| ≤ 2 ^ places) (modest : places < 100) :
    Within places (Float.ofInt whole) := by
  have power : (2 : Int) ^ places < 2 ^ 100 := pow_lt_pow_right₀ (by decide) modest
  obtain ⟨result, isResult, nearest⟩ := value?_ofInt whole (bounded.trans_lt power)
  exact ⟨result, isResult, nearest.abs_result_le (by exact_mod_cast bounded)⟩

end MarsCalendar.Binary64

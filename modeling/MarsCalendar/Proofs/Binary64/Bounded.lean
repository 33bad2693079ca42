import MarsCalendar.Proofs.Binary64.Arithmetic

set_option autoImplicit false

/-! Binary64 numbers between zero and a bound. What is left of a number after its floor is
at most one, since rounding may reach the next whole number; of a number that is not
negative it is exact, and so is less than one. What is not a number stays so through
every operation and counts for nothing. -/

namespace MarsCalendar.Binary64

open Float.Model Float.Model.UnpackedFloat

variable {number left right : Float} {value bound scale : Rat}

/-! ### What is not a number -/

def IsNaN (number : Float) : Prop :=
  number.toModel.unpack = .notANumber

theorem IsNaN.sub (isNaN : IsNaN left) (right : Float) : IsNaN (left - right) := by
  change (Float.Model.pack (UnpackedFloat.sub Format.binary64 left.toModel.unpack
    right.toModel.unpack)).unpack = _
  rw [isNaN]
  exact unpack_pack_notANumber

theorem IsNaN.mul (isNaN : IsNaN left) (right : Float) : IsNaN (left * right) := by
  change (Float.Model.pack (UnpackedFloat.mul Format.binary64 left.toModel.unpack
    right.toModel.unpack)).unpack = _
  rw [isNaN]
  exact unpack_pack_notANumber

theorem IsNaN.whole (isNaN : IsNaN number) (rule : Rat → Int) :
    IsNaN (wholeBinary64 rule number) := by
  have kept : wholeBinary64 rule number = number := by
    unfold wholeBinary64
    rw [isNaN]
  rw [kept]
  exact isNaN

theorem IsNaN.toCount (isNaN : IsNaN number) : Scalar.toCount number = 0 := by
  change (Int64.ofIntClamp (UnpackedFloat.toInt Int64.minValue.toInt Int64.maxValue.toInt
    number.toModel.unpack)).toNatClampNeg = _
  rw [isNaN]
  rfl

/-! ### Bounded numbers -/

/-- The number stands for a rational between zero and the bound, or is not a number. -/
def AtMost (bound : Rat) (number : Float) : Prop :=
  IsNaN number ∨ ∃ value, value? number = some value ∧ 0 ≤ value ∧ value ≤ bound

theorem representable_intCast (whole : Int) (small : |whole| < 2 ^ 53) :
    Representable (whole : Rat) :=
  ⟨whole, 0, small, by decide, by rw [zpow_zero, mul_one]⟩

theorem representable_zero : Representable 0 :=
  representable_intCast 0 (by decide)

theorem representable_one : Representable 1 :=
  representable_intCast 1 (by decide)

private theorem small_of_bounds {value bound : Rat} (low : 0 ≤ value) (high : value ≤ bound)
    (small : bound < 2 ^ (200 : Int)) : |value| < 2 ^ (200 : Int) := by
  rw [abs_of_nonneg low]
  exact high.trans_lt small

private theorem one_small : (1 : Rat) < 2 ^ (200 : Int) := by
  norm_num

theorem atMost_rest (number : Float) : AtMost 1 (number - Scalar.floor number) := by
  have ofFinite {value : Rat} (isNumber : value? number = some value) :
      AtMost 1 (number - Scalar.floor number) := by
    obtain ⟨low, high⟩ := floor_bounds value
    obtain ⟨result, resultIs, nearest⟩ := value?_sub isNumber (value?_floor isNumber)
      (small_of_bounds low high.le one_small)
    exact .inr ⟨result, resultIs, nearest.bound_le representable_zero low,
      nearest.le_bound representable_one high.le⟩
  cases unpacked : number.toModel.unpack with
  | notANumber => exact .inl (IsNaN.sub unpacked _)
  | infinity sign =>
      have kept : Scalar.floor number = number := by
        change wholeBinary64 Rat.floor number = number
        unfold wholeBinary64
        rw [unpacked]
      left
      change (Float.Model.pack (UnpackedFloat.sub Format.binary64 number.toModel.unpack
        (Scalar.floor number).toModel.unpack)).unpack = _
      rw [kept, unpacked]
      cases sign <;> rfl
  | zero sign | finite sign mantissa exponent positive =>
      exact ofFinite (congrArg rational? unpacked)

theorem AtMost.mul (isLeft : AtMost bound left) (isRight : value? right = some scale)
    (nonneg : 0 ≤ scale) (representable : Representable (bound * scale))
    (small : bound * scale < 2 ^ (200 : Int)) : AtMost (bound * scale) (left * right) := by
  obtain isNaN | ⟨value, isLeft, low, high⟩ := isLeft
  · exact .inl (isNaN.mul right)
  · have productLow := mul_nonneg low nonneg
    have productHigh := mul_le_mul_of_nonneg_right high nonneg
    obtain ⟨result, resultIs, nearest⟩ := value?_mul isLeft isRight
      (small_of_bounds productLow productHigh small)
    exact .inr ⟨result, resultIs, nearest.bound_le representable_zero productLow,
      nearest.le_bound representable productHigh⟩

theorem representable_rest (representable : Representable value) (nonneg : 0 ≤ value) :
    Representable (value - value.floor) := by
  obtain ⟨mantissa, exponent, small, bottom, rfl⟩ := representable
  by_cases isWhole : 0 ≤ exponent
  · rw [mul_zpow_of_nonneg mantissa isWhole, Rat.floor_intCast, sub_self]
    exact representable_zero
  · have negative := not_le.mp isWhole
    have mantissaLow : 0 ≤ mantissa := by
      have cast := nonneg_of_mul_nonneg_left nonneg (zpow_pos (by norm_num) exponent)
      exact_mod_cast cast
    obtain ⟨size, rfl⟩ := Int.eq_ofNat_of_zero_le mantissaLow
    obtain ⟨power, powerIs⟩ : ∃ power : Nat, power = 2 ^ (-exponent).toNat := ⟨_, rfl⟩
    have floorIs : (((size : Int) : Rat) / power).floor = (size / power : Nat) :=
      Rat.floor_intCast_div_natCast _ _
    have nonzero : (power : Rat) ≠ 0 := by
      rw [powerIs]
      exact_mod_cast (Nat.two_pow_pos _).ne'
    have parts : (power : Rat) * (size / power : Nat) + (size % power : Nat) = size := by
      exact_mod_cast Nat.div_add_mod size power
    refine ⟨(size % power : Nat), exponent, ?_, bottom, ?_⟩
    · rw [Nat.abs_cast] at small ⊢
      have sizeSmall : size < 2 ^ 53 := by exact_mod_cast small
      exact_mod_cast (Nat.mod_le size power).trans_lt sizeSmall
    · rw [mul_zpow_of_neg _ negative, mul_zpow_of_neg _ negative, ← powerIs, floorIs,
        div_sub' nonzero]
      congr 1
      simp only [Int.cast_natCast]
      linarith

theorem le_of_lt_one (representable : Representable value) (below : value < 1) :
    value ≤ 1 - 1 / 2 ^ 53 := by
  obtain ⟨mantissa, exponent, small, bottom, rfl⟩ := representable
  by_cases isWhole : 0 ≤ exponent
  · rw [mul_zpow_of_nonneg mantissa isWhole] at below ⊢
    have integer : mantissa * 2 ^ exponent.toNat < 1 := by exact_mod_cast below
    have nonpositive : ((mantissa * 2 ^ exponent.toNat : Int) : Rat) ≤ 0 := by
      exact_mod_cast Int.lt_add_one_iff.mp integer
    norm_num at nonpositive ⊢
    linarith
  · obtain ⟨power, powerIs⟩ : ∃ power : Nat, power = 2 ^ (-exponent).toNat := ⟨_, rfl⟩
    have positive : (0 : Rat) < power := by
      rw [powerIs]
      exact_mod_cast Nat.two_pow_pos _
    rw [mul_zpow_of_neg _ (not_le.mp isWhole), ← powerIs] at below ⊢
    rw [div_lt_one positive] at below
    rw [div_le_iff₀ positive]
    by_cases few : (-exponent).toNat ≤ 53
    · have integer : mantissa < power := by exact_mod_cast below
      have less : (mantissa : Rat) ≤ power - 1 := by exact_mod_cast Int.le_sub_one_of_lt integer
      have atMost : power ≤ 2 ^ 53 := powerIs ▸ Nat.pow_le_pow_right (by decide) few
      have powers : (power : Rat) ≤ 9007199254740992 := by exact_mod_cast atMost
      norm_num
      linarith
    · have atLeast : 2 ^ 54 ≤ power := powerIs ▸ Nat.pow_le_pow_right (by decide) (by omega)
      have powers : (18014398509481984 : Rat) ≤ power := by exact_mod_cast atLeast
      have short : (mantissa : Rat) ≤ 9007199254740992 := by
        exact_mod_cast (le_abs_self mantissa).trans small.le
      norm_num
      linarith

/-- What is left after the floor keeps its distance from one, unless the number lies just
below zero. -/
theorem rest_le_of_away (representable : Representable value)
    (away : 0 ≤ value ∨ value ≤ -(1 / 2 ^ 21)) : value - value.floor ≤ 1 - 1 / 2 ^ 53 := by
  obtain nonneg | negative := away
  · exact le_of_lt_one (representable_rest representable nonneg) (floor_bounds value).2
  obtain ⟨mantissa, exponent, small, bottom, rfl⟩ := representable
  by_cases isWhole : 0 ≤ exponent
  · rw [mul_zpow_of_nonneg mantissa isWhole, Rat.floor_intCast, sub_self]
    norm_num
  · obtain ⟨power, powerIs⟩ : ∃ power : Nat, power = 2 ^ (-exponent).toNat := ⟨_, rfl⟩
    have positive : 0 < power := powerIs ▸ Nat.two_pow_pos _
    have positiveCast : (0 : Rat) < power := by exact_mod_cast positive
    rw [mul_zpow_of_neg _ (not_le.mp isWhole), ← powerIs] at negative ⊢
    by_cases few : (-exponent).toNat ≤ 53
    · -- The rest counts the parts of a power of two, of which one is missing at least.
      have atMost : power ≤ 2 ^ 53 := powerIs ▸ Nat.pow_le_pow_right (by decide) few
      have powers : (power : Rat) ≤ 9007199254740992 := by exact_mod_cast atMost
      have floorIs : ((mantissa : Rat) / power).floor = mantissa / power :=
        Rat.floor_intCast_div_natCast _ _
      have parts := Int.mul_ediv_add_emod mantissa power
      have short := Int.emod_lt_of_pos mantissa (b := power) (by exact_mod_cast positive)
      have whole : mantissa + 1 ≤ power * (mantissa / power) + power := by omega
      have wholeCast : (mantissa : Rat) + 1 ≤ power * ((mantissa / power : Int) : Rat) + power := by
        exact_mod_cast whole
      rw [floorIs, div_sub' positiveCast.ne', div_le_iff₀ positiveCast]
      norm_num
      linarith
    · -- The number has no whole part.
      have atLeast : 2 ^ 54 ≤ power := powerIs ▸ Nat.pow_le_pow_right (by decide) (by omega)
      have powers : (18014398509481984 : Rat) ≤ power := by exact_mod_cast atLeast
      have above : (-1 : Rat) ≤ mantissa / power := by
        have long : (-9007199254740992 : Rat) ≤ mantissa := by
          exact_mod_cast (abs_lt.mp small).1.le
        rw [le_div_iff₀ positiveCast]
        linarith
      have floorLow : (-1 : Int) ≤ ((mantissa : Rat) / power).floor :=
        Rat.le_floor_iff.mpr (by exact_mod_cast above)
      have floorCast : ((-1 : Int) : Rat) ≤ ((mantissa : Rat) / power).floor :=
        Int.cast_le.mpr floorLow
      push_cast at floorCast
      norm_num at negative ⊢
      linarith

theorem AtMost.rest (isNumber : AtMost bound number) :
    AtMost (1 - 1 / 2 ^ 53) (number - Scalar.floor number) := by
  obtain isNaN | ⟨value, isNumber, low, -⟩ := isNumber
  · exact .inl (isNaN.sub _)
  · obtain ⟨restLow, restHigh⟩ := floor_bounds value
    have representable := representable_rest (representable_of_value? isNumber) low
    obtain ⟨result, resultIs, nearest⟩ := value?_sub isNumber (value?_floor isNumber)
      (small_of_bounds restLow restHigh.le one_small)
    rw [nearest.eq_exact representable] at resultIs
    exact .inr ⟨_, resultIs, restLow, le_of_lt_one representable restHigh⟩

theorem AtMost.floor (isNumber : AtMost bound number) : AtMost bound (Scalar.floor number) := by
  obtain isNaN | ⟨value, isNumber, low, high⟩ := isNumber
  · exact .inl (isNaN.whole _)
  · have nonneg : 0 ≤ value.floor := Rat.le_floor_iff.mpr (by exact_mod_cast low)
    exact .inr ⟨_, value?_floor isNumber, by exact_mod_cast nonneg, (Rat.floor_le value).trans high⟩

theorem AtMost.round {whole : Int} (isNumber : AtMost whole number) :
    AtMost whole (Scalar.round number) := by
  obtain isNaN | ⟨value, isNumber, low, high⟩ := isNumber
  · exact .inl (isNaN.whole _)
  · obtain ⟨below, above⟩ := roundRat_close value
    have nonneg : ((-1 : Int) : Rat) < roundRat value := by
      push_cast
      linarith
    have atMost : (roundRat value : Rat) < (whole + 1 : Int) := by
      push_cast
      linarith
    have lower := Int.cast_lt.mp nonneg
    have upper := Int.cast_lt.mp atMost
    refine .inr ⟨_, value?_round isNumber, ?_, ?_⟩
    · exact_mod_cast Int.add_one_le_of_lt lower
    · exact_mod_cast Int.le_of_lt_add_one upper

theorem AtMost.toCount_le {limit : Nat} (isNumber : AtMost bound number)
    (below : bound < limit + 1) (fits : limit < 2 ^ 62) : Scalar.toCount number ≤ limit := by
  obtain isNaN | ⟨value, isNumber, -, high⟩ := isNumber
  · rw [isNaN.toCount]
    exact Nat.zero_le _
  · have fitsCast : (limit : Rat) + 1 < 2 ^ 63 := by
      have nats : limit + 1 < 2 ^ 63 := by omega
      exact_mod_cast nats
    have wholeBelow : value.floor < limit + 1 := by
      rw [Rat.floor_lt_iff]
      push_cast
      exact high.trans_lt below
    rw [toCount_eq isNumber ((high.trans_lt below).trans fitsCast)]
    omega

end MarsCalendar.Binary64

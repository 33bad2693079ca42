import MarsCalendar.Proofs.Binary64.Normal

set_option autoImplicit false

/-! The rational that a finite binary64 number stands for. A number is unpacked in one
form only: its mantissa has all of its 53 bits, or its exponent is the least there is.
In that form packing loses nothing. -/

namespace MarsCalendar.Binary64

open Float.Model Float.Model.UnpackedFloat

structure IsCanonical (mantissa : Nat) (exponent : Int) : Prop where
  high : mantissa < 2 ^ 53
  bottom : -1074 ≤ exponent
  full : 2 ^ 52 ≤ mantissa ∨ exponent = -1074

/-! ### Packing and unpacking -/

theorem canonical_of_unpack {model : Float.Model} {sign : Sign} {mantissa : Nat}
    {exponent : Int} {positive : 0 < mantissa}
    (unpacked : model.unpack = .finite sign mantissa exponent positive) :
    IsCanonical mantissa exponent ∧ exponent ≤ 971 := by
  have bits : (@unpackMantissa Format.binary64 model.toBits.toBitVec).toNat < 2 ^ 52 :=
    BitVec.isLt _
  have biased : (@unpackExponent Format.binary64 model.toBits.toBitVec).toNat < 2 ^ 11 :=
    BitVec.isLt _
  have bias : Format.binary64.exponentBias = 1023 := by decide
  change UnpackedFloat.unpack Format.binary64 model.toBits.toBitVec = _ at unpacked
  simp only [UnpackedFloat.unpack] at unpacked
  split at unpacked
  · split at unpacked <;> cases unpacked
  · rename_i finite
    split at unpacked
    · rename_i least
      split at unpacked
      · cases unpacked
      · injection unpacked with _ mantissaIs exponentIs
        rw [bias, least, BitVec.toNat_ofNat] at exponentIs
        subst mantissaIs
        exact ⟨⟨by omega, by omega, .inr (by omega)⟩, by omega⟩
    · rename_i above
      injection unpacked with _ mantissaIs exponentIs
      have notLeast : (@unpackExponent Format.binary64 model.toBits.toBitVec).toNat ≠ 0 :=
        fun same => above (BitVec.eq_of_toNat_eq same)
      have notInfinite :
          (@unpackExponent Format.binary64 model.toBits.toBitVec).toNat ≠ 2047 :=
        fun same => finite (BitVec.eq_of_toNat_eq same)
      rw [bias] at exponentIs
      have value := (leading_one (@unpackMantissa Format.binary64 _)).symm.trans mantissaIs
      exact ⟨⟨by omega, by omega, .inl (by omega)⟩, by omega⟩

private theorem unpack_pack_subnormal {sign : Sign} {mantissa : Nat} (positive : 0 < mantissa)
    (low : mantissa < 2 ^ 52) :
    (Float.Model.pack (.finite sign mantissa (-1074) positive)).unpack =
      .finite sign mantissa (-1074) positive := by
  have short : mantissa.log2 < 52 := (Nat.log2_lt (by omega)).mpr low
  have bits : (BitVec.ofNat 52 mantissa).toNat = mantissa := by
    rw [BitVec.toNat_ofNat, Nat.mod_eq_of_lt low]
  have nonzero : BitVec.ofNat 52 mantissa ≠ 0#52 := by
    intro same
    have value : (BitVec.ofNat 52 mantissa).toNat = 0 := congrArg BitVec.toNat same
    omega
  have packed :
      UnpackedFloat.pack Format.binary64 (.finite sign mantissa (-1074) positive) =
        packComponents Format.binary64 sign 0#11 (BitVec.ofNat 52 mantissa) := by
    simp only [UnpackedFloat.pack, Format.exponentBias, Format.mantissaBits]
    norm_num
    omega
  change UnpackedFloat.unpack Format.binary64 (UnpackedFloat.pack Format.binary64 _) = _
  rw [packed]
  simp only [UnpackedFloat.unpack, unpackExponent_packComponents,
    unpackMantissa_packComponents, unpackSign_packComponents, ofBitVec_toBitVec]
  rw [if_neg (by decide), if_pos trivial, dif_neg nonzero]
  congr 1

theorem unpack_pack_of_canonical {sign : Sign} {mantissa : Nat} {exponent : Int}
    (positive : 0 < mantissa) (canonical : IsCanonical mantissa exponent)
    (top : exponent ≤ 971) :
    (Float.Model.pack (.finite sign mantissa exponent positive)).unpack =
      .finite sign mantissa exponent positive := by
  obtain ⟨high, bottom, full⟩ := canonical
  by_cases low : mantissa < 2 ^ 52
  · obtain rfl : exponent = -1074 := by omega
    exact unpack_pack_subnormal positive low
  · exact unpack_pack positive (by omega) high bottom top

theorem unpack_pack_zero (sign : Sign) :
    (Float.Model.pack (.zero sign)).unpack = .zero sign := by
  cases sign <;> rfl

theorem unpack_pack_notANumber : (Float.Model.pack .notANumber).unpack = .notANumber := by
  rfl

/-! ### The rational of a number -/

def rational? : UnpackedFloat → Option Rat
  | .zero _ => some 0
  | .finite sign mantissa exponent _ => some (sign.apply mantissa * 2 ^ exponent)
  | _ => none

def value? (number : Float) : Option Rat :=
  rational? number.toModel.unpack

/-- The rationals that have a number, but for their size. -/
def Representable (value : Rat) : Prop :=
  ∃ mantissa exponent : Int,
    |mantissa| < 2 ^ 53 ∧ -1074 ≤ exponent ∧ value = mantissa * 2 ^ exponent

theorem value?_of_unpack {number : Float} {sign : Sign} {mantissa : Nat} {exponent : Int}
    {positive : 0 < mantissa}
    (unpacked : number.toModel.unpack = .finite sign mantissa exponent positive) :
    value? number = some (((sign.apply mantissa : Int) : Rat) * 2 ^ exponent) :=
  congrArg rational? unpacked

theorem unpack_of_value? {number : Float} {value : Rat} (found : value? number = some value) :
    (∃ sign, number.toModel.unpack = .zero sign ∧ value = 0) ∨
      ∃ sign mantissa exponent positive,
        number.toModel.unpack = .finite sign mantissa exponent positive ∧
        IsCanonical mantissa exponent ∧ exponent ≤ 971 ∧
        value = ((sign.apply mantissa : Int) : Rat) * 2 ^ exponent := by
  unfold value? at found
  cases unpacked : number.toModel.unpack with
  | zero sign =>
      rw [unpacked] at found
      cases found
      exact .inl ⟨sign, rfl, rfl⟩
  | finite sign mantissa exponent positive =>
      obtain ⟨canonical, top⟩ := canonical_of_unpack unpacked
      rw [unpacked] at found
      cases found
      exact .inr ⟨sign, mantissa, exponent, positive, rfl, canonical, top, rfl⟩
  | infinity sign =>
      rw [unpacked] at found
      cases found
  | notANumber =>
      rw [unpacked] at found
      cases found

theorem magnitude_pos {mantissa : Nat} (positive : 0 < mantissa) (exponent : Int) :
    (0 : Rat) < mantissa * 2 ^ exponent :=
  mul_pos (Nat.cast_pos.mpr positive) (zpow_pos (by norm_num) exponent)

theorem abs_apply (sign : Sign) (mantissa : Nat) :
    |((sign.apply mantissa : Int) : Rat)| = mantissa := by
  cases sign <;> simp only [Sign.apply, Int.cast_neg, abs_neg, Int.cast_natCast, Nat.abs_cast]

theorem representable_of_value? {number : Float} {value : Rat}
    (found : value? number = some value) : Representable value := by
  obtain ⟨sign, -, rfl⟩ | ⟨sign, mantissa, exponent, positive, -, ⟨high, bottom, -⟩, -, rfl⟩ :=
    unpack_of_value? found
  · exact ⟨0, 0, by decide, by decide, by norm_num⟩
  · refine ⟨sign.apply mantissa, exponent, ?_, bottom, rfl⟩
    cases sign <;> simp only [Sign.apply, abs_neg, Nat.abs_cast] <;> exact_mod_cast high

/-! ### Numbers that are written out -/

private theorem value?_scaled {number : Float} (whole places : Nat)
    (positive : 0 < whole * 2 ^ places)
    (unpacked : number.toModel.unpack =
      .finite .positive (whole * 2 ^ places) (-(places : Int)) positive) :
    value? number = some (whole : Rat) := by
  rw [value?_of_unpack unpacked, Sign.apply, zpow_neg, zpow_natCast]
  push_cast
  rw [mul_inv_cancel_right₀ (by positivity)]

theorem value?_zero : value? (0.0 : Float) = some 0 := by
  rfl

theorem value?_half : value? (0.5 : Float) = some (1 / 2) := by
  have unpacked : (0.5 : Float).toModel.unpack =
      .finite .positive (2 ^ 52) (-53) (by decide) := rfl
  rw [value?_of_unpack unpacked]
  norm_num [Sign.apply]

theorem value?_ten : value? (10.0 : Float) = some 10 :=
  value?_scaled 10 49 (by decide) rfl

theorem value?_thousand : value? (1e3 : Float) = some 1000 :=
  value?_scaled 1000 43 (by decide) rfl

theorem value?_thousandTenths : value? (1000.0 : Float) = some 1000 :=
  value?_scaled 1000 43 (by decide) rfl

theorem value?_million : value? (1e6 : Float) = some 1000000 :=
  value?_scaled 1000000 33 (by decide) rfl

end MarsCalendar.Binary64

import MarsCalendar.Text.Numeral
import Mathlib.Algebra.Ring.Nat

set_option autoImplicit false

/-! Integers in decimal read back. Filling with zeros adds no value and nothing but digits, and a
number of no more digits than the width fills it exactly. So a numeral names one number, and its
sign, which is no digit, tells the numbers on either side of zero apart. -/

namespace MarsCalendar.Text

theorem ofDigitChars_zeroFilled (width value : Nat) :
    Nat.ofDigitChars 10 (zeroFilled width value) 0 = value := by
  unfold zeroFilled digits
  rw [Nat.ofDigitChars_append, Nat.ofDigitChars_replicate_zero, Nat.mul_zero,
    Nat.ofDigitChars_ten_toDigits]

theorem isDigit_of_mem_zeroFilled {width value : Nat} {letter : Char}
    (member : letter ∈ zeroFilled width value) : letter.isDigit = true := by
  rcases List.mem_append.mp member with zero | digit
  · rw [List.eq_of_mem_replicate zero]
    rfl
  · exact Nat.isDigit_of_mem_toDigits (by decide) (by decide) digit

/-! What is no digit ends a numeral. -/

theorem takeWhile_zeroFilled_append (width value : Nat) {stop : Char} (other : ¬ stop.isDigit)
    (rest : List Char) :
    (zeroFilled width value ++ stop :: rest).takeWhile Char.isDigit = zeroFilled width value := by
  rw [List.takeWhile_append_of_pos fun _ => isDigit_of_mem_zeroFilled,
    List.takeWhile_cons_of_neg other, List.append_nil]

theorem dropWhile_zeroFilled_append (width value : Nat) {stop : Char} (other : ¬ stop.isDigit)
    (rest : List Char) :
    (zeroFilled width value ++ stop :: rest).dropWhile Char.isDigit = stop :: rest := by
  rw [List.dropWhile_append_of_pos fun _ => isDigit_of_mem_zeroFilled,
    List.dropWhile_cons_of_neg other]

theorem zeroFilled_ne_nil (width value : Nat) : zeroFilled width value ≠ [] :=
  List.append_ne_nil_of_right_ne_nil _ Nat.toDigits_ne_nil

theorem length_zeroFilled {width value : Nat} (wide : 0 < width) (fits : value < 10 ^ width) :
    (zeroFilled width value).length = width := by
  have short : (digits value).length ≤ width := (Nat.length_toDigits_le_iff (by decide) wide).mpr fits
  unfold zeroFilled
  rw [List.length_append, List.length_replicate]
  omega

theorem toList_padded (width value : Nat) : (padded width value).toList = zeroFilled width value := by
  have noSign : minusSign (value : Int) = [] := if_neg (Int.not_lt.mpr (Int.natCast_nonneg value))
  unfold padded
  rw [noSign, String.toList_ofList]
  rfl

/-! ### One numeral, one number -/

theorem zeroFilled_injective (width : Nat) : Function.Injective (zeroFilled width) := by
  intro left right same
  have values := congrArg (Nat.ofDigitChars 10 · 0) same
  rwa [ofDigitChars_zeroFilled, ofDigitChars_zeroFilled] at values

theorem minus_not_mem_zeroFilled (width value : Nat) : '-' ∉ zeroFilled width value := by
  intro member
  exact absurd (isDigit_of_mem_zeroFilled member) (by decide)

theorem toList_plain (value : Int) :
    (plain value).toList = minusSign value ++ zeroFilled 0 value.natAbs := by
  unfold plain padded
  rw [String.toList_ofList, Nat.zero_sub]

theorem toList_signedPadded (width : Nat) (value : Int) :
    (signedPadded width value).toList = signMark value ++ zeroFilled (width - 1) value.natAbs :=
  String.toList_ofList

theorem minus_mem_plain_iff (value : Int) : '-' ∈ (plain value).toList ↔ value < 0 := by
  rw [toList_plain, List.mem_append, or_iff_left (minus_not_mem_zeroFilled _ _)]
  unfold minusSign
  by_cases negative : value < 0
  · rw [if_pos negative]
    exact iff_of_true List.mem_cons_self negative
  · rw [if_neg negative]
    exact iff_of_false List.not_mem_nil negative

theorem plain_injective : Function.Injective plain := by
  intro left right same
  have signs : left < 0 ↔ right < 0 := by
    rw [← minus_mem_plain_iff, same, minus_mem_plain_iff]
  have marks : minusSign left = minusSign right := if_congr signs rfl rfl
  have letters := congrArg String.toList same
  rw [toList_plain, toList_plain, marks, List.append_cancel_left_eq] at letters
  have sizes := zeroFilled_injective 0 letters
  omega

theorem signedPadded_injective (width : Nat) : Function.Injective (signedPadded width) := by
  intro left right same
  have letters := congrArg String.toList same
  rw [toList_signedPadded, toList_signedPadded] at letters
  obtain ⟨signs, digits⟩ := List.append_inj letters (by unfold signMark; split <;> split <;> rfl)
  have sizes := zeroFilled_injective _ digits
  unfold signMark at signs
  by_cases leftNegative : left < 0 <;> by_cases rightNegative : right < 0
  · omega
  · rw [if_pos leftNegative, if_neg rightNegative] at signs
    exact absurd signs (by decide)
  · rw [if_neg leftNegative, if_pos rightNegative] at signs
    exact absurd signs (by decide)
  · omega

theorem length_signedPadded {width : Nat} {value : Int} (wide : 1 < width)
    (fits : value.natAbs < 10 ^ (width - 1)) : (signedPadded width value).toList.length = width := by
  have sign : (signMark value).length = 1 := by
    unfold signMark
    split <;> rfl
  rw [toList_signedPadded, List.length_append, sign, length_zeroFilled (by omega) fits]
  omega

end MarsCalendar.Text

import MarsCalendar.Proofs.Scale.Quartic

set_option autoImplicit false

/-! The three steps from TT to UTC in the years from 1770 until 1972. Every step leaves a forty
millionth of the error of a guess, as long as the guess stays in the era. At its start a guess may
fall back into 1769 and is then half a minute late, so the last guess but one is in the era all
the same. At its end a date may be passed by the first of 1972, whose offset is nearly three
seconds less: a date that is not passed comes back to 1e-11 days, and one that is passed comes
back as the date in 1972 with the same TT. -/

namespace MarsCalendar.Scale

open Civil (YearMonth)
open Julian (year_eq_iff yearStart yearStart_add_year_le)

variable {date : Rat}

/-! ### The offset at the guesses -/

def InEra (date : Rat) : Prop :=
  yearStart 1770 ≤ date ∧ date < yearStart 1972

theorem InEra.inMiddle (inEra : InEra date) : InMiddle date :=
  ⟨inEra.1, inEra.2.le⟩

theorem InEra.ttMinusUtcAt_eq (inEra : InEra date) : ttMinusUtcAt date = middleSeconds date :=
  ttMinusUtcAt_middle inEra.1 inEra.2

theorem ttMinusUtcAt_1769 (first : yearStart 1770 - 1 ≤ date) (last : date < yearStart 1770) :
    ttMinusUtcAt date = -11.6768 := by
  have next : yearStart 1769 + 365 ≤ yearStart 1770 := yearStart_add_year_le (by decide)
  have year : (Julian.civilDate date).year = 1769 := by
    rw [year_eq_iff]
    exact ⟨by linarith, last⟩
  rw [ttMinusUtcAt_early (by decide) (by decide) year]
  unfold earlySeconds
  norm_num

theorem ttMinusUtcAt_1972 (first : yearStart 1972 ≤ date) (last : date < yearStart 1972 + 1) :
    ttMinusUtcAt date = 42.184 := by
  have later : yearStart 1972 + 365 ≤ yearStart 262144 := yearStart_add_year_le (by decide)
  have none : YearMonth.leapSeconds ⟨1972, 1⟩ = 0 := by decide
  rw [ttMinusUtcAt_eq_leapSeconds date first (by linarith), yearMonth_first_day first last, none,
    Nat.cast_zero, add_zero]

theorem ttOfUtc_eq (date : Rat) : ttOfUtc date = date + ttMinusUtcAt date / 86400 := by
  unfold ttOfUtc
  rw [daysOfSeconds_eq]

theorem ttOfUtc_1972 : ttOfUtc (yearStart 1972) = yearStart 1972 + 42.184 / 86400 := by
  rw [ttOfUtc_eq, ttMinusUtcAt_1972 (le_refl _) (by linarith)]

theorem utcOfTt_ttOfUtc_eq_guess (date : Rat) :
    utcOfTt (ttOfUtc date) = guess ttMinusUtcAt date 3 :=
  removeOffset_eq ttMinusUtcAt date

/-- A date with the same TT date is found if one of the first three guesses has its offset. -/
theorem utcOfTt_ttOfUtc_of_settled {other : Rat} (shared : ttOfUtc other = ttOfUtc date)
    {count : Nat} (settled : ttMinusUtcAt (guess ttMinusUtcAt date count) = ttMinusUtcAt other)
    (inTime : count < 3) : utcOfTt (ttOfUtc date) = other := by
  rw [ttOfUtc_eq, ttOfUtc_eq] at shared
  rw [utcOfTt_ttOfUtc_eq_guess]
  exact guess_of_settled shared settled inTime

/-! ### A step of the guesses -/

variable {count : Nat}

/-- A guess in the era is some forty million times closer after a step. -/
theorem guess_succ_close (inEra : InEra date) (placed : InEra (guess ttMinusUtcAt date count))
    {distance : Rat} (near : |guess ttMinusUtcAt date count - date| ≤ distance)
    (short : distance ≤ 1) :
    |guess ttMinusUtcAt date (count + 1) - date| ≤ distance / 39000000 := by
  have nonneg := abs_nonneg (guess ttMinusUtcAt date count - date)
  have within : |date - guess ttMinusUtcAt date count| ≤ distance := by
    rw [abs_sub_comm]
    exact near
  have close := middleSeconds_close inEra.inMiddle placed.inMiddle (within.trans short)
  rw [guess_succ, inEra.ttMinusUtcAt_eq, placed.ttMinusUtcAt_eq, add_sub_cancel_left, abs_div,
    abs_of_pos (by norm_num : (0 : Rat) < 86400)]
  linarith

theorem guess_zero_close (inEra : InEra date) :
    |guess ttMinusUtcAt date 0 - date| ≤ 60 / 86400 := by
  obtain ⟨low, high⟩ := middleSeconds_bounds inEra.inMiddle
  change |date + ttMinusUtcAt date / 86400 - date| ≤ _
  rw [inEra.ttMinusUtcAt_eq, abs_le]
  constructor <;> linarith

theorem close_of_placed (inEra : InEra date) (placed : InEra (guess ttMinusUtcAt date 2))
    (near : |guess ttMinusUtcAt date 2 - date| ≤ 30 / 86400) :
    |utcOfTt (ttOfUtc date) - date| ≤ 1 / 10 ^ 11 := by
  have close := guess_succ_close inEra placed near (by norm_num)
  rw [utcOfTt_ttOfUtc_eq_guess]
  exact close.trans (by norm_num)

/-! ### The first day of the era -/

/-- On the first day the guesses are late, early and late again; if the early one falls back into
1769, the next is half a minute late. -/
theorem utcOfTt_ttOfUtc_of_start (first : yearStart 1770 ≤ date)
    (last : date < yearStart 1770 + 1 / 2) : |utcOfTt (ttOfUtc date) - date| ≤ 1 / 10 ^ 11 := by
  have era := day_le_era
  have inEra : InEra date := ⟨first, by linarith⟩
  obtain ⟨low, high⟩ := middleSeconds_start first (by linarith)
  have zeroIs : guess ttMinusUtcAt date 0 = date + middleSeconds date / 86400 := by
    change date + ttMinusUtcAt date / 86400 = _
    rw [inEra.ttMinusUtcAt_eq]
  have zeroIn : InEra (guess ttMinusUtcAt date 0) := by
    rw [zeroIs]
    exact ⟨by linarith, by linarith⟩
  have oneIs := guess_succ ttMinusUtcAt date 0
  have oneClose := abs_le.mp (guess_succ_close inEra zeroIn (guess_zero_close inEra) (by norm_num))
  have oneEarly : guess ttMinusUtcAt date 1 ≤ date := by
    have zeroLate : date ≤ guess ttMinusUtcAt date 0 := by linarith
    have grown := middleSeconds_le_middleSeconds first zeroLate (by linarith)
    rw [inEra.ttMinusUtcAt_eq, zeroIn.ttMinusUtcAt_eq] at oneIs
    linarith
  have twoIs := guess_succ ttMinusUtcAt date 1
  rw [inEra.ttMinusUtcAt_eq] at twoIs
  have twoPlaced : date ≤ guess ttMinusUtcAt date 2 ∧
      guess ttMinusUtcAt date 2 ≤ date + 30 / 86400 := by
    by_cases inTime : yearStart 1770 ≤ guess ttMinusUtcAt date 1
    · have oneIn : InEra (guess ttMinusUtcAt date 1) := ⟨inTime, by linarith⟩
      have grown := middleSeconds_le_middleSeconds inTime oneEarly (by linarith)
      obtain ⟨oneLow, oneHigh⟩ := middleSeconds_start inTime (by linarith)
      rw [oneIn.ttMinusUtcAt_eq] at twoIs
      constructor <;> linarith
    · have lastDay : yearStart 1770 - 1 ≤ guess ttMinusUtcAt date 1 := by linarith
      have before := ttMinusUtcAt_1769 lastDay (not_le.mp inTime)
      rw [before] at twoIs
      norm_num at twoIs
      constructor <;> linarith
  refine close_of_placed inEra ⟨by linarith, by linarith⟩ ?_
  rw [abs_le]
  constructor <;> linarith

/-! ### The rest of the era -/

theorem utcOfTt_ttOfUtc_of_inside (first : yearStart 1770 + 1 / 2 ≤ date)
    (inside : guess ttMinusUtcAt date 0 < yearStart 1972) (inEra : InEra date) :
    |utcOfTt (ttOfUtc date) - date| ≤ 1 / 10 ^ 11 := by
  have zeroClose := guess_zero_close inEra
  obtain ⟨zeroLow, zeroHigh⟩ := abs_le.mp zeroClose
  have notLast : date < yearStart 1972 - 30 / 86400 := by
    by_contra late
    obtain ⟨low, -⟩ := middleSeconds_end (by linarith) inEra.2.le
    change date + ttMinusUtcAt date / 86400 < _ at inside
    rw [inEra.ttMinusUtcAt_eq] at inside
    linarith
  -- Each guess is closer than the one before and so still in the era, where the next step is as good.
  have oneClose := guess_succ_close inEra ⟨by linarith, inside⟩ zeroClose (by norm_num)
  obtain ⟨oneLow, oneHigh⟩ := abs_le.mp oneClose
  have twoClose := guess_succ_close inEra ⟨by linarith, by linarith⟩ oneClose (by norm_num)
  obtain ⟨twoLow, twoHigh⟩ := abs_le.mp twoClose
  exact close_of_placed inEra ⟨by linarith, by linarith⟩ (twoClose.trans (by norm_num))

/-- Where the first guess is in 1972 the second is three seconds late, for the offset is that
much less there. -/
theorem guess_one_of_end (inEra : InEra date) (late : yearStart 1972 ≤ guess ttMinusUtcAt date 0) :
    guess ttMinusUtcAt date 1 = date + (middleSeconds date - 42.184) / 86400 ∧
      45 ≤ middleSeconds date ∧ middleSeconds date ≤ 45.1 := by
  obtain ⟨zeroLow, zeroHigh⟩ := abs_le.mp (guess_zero_close inEra)
  have before := inEra.2
  rw [guess_succ, inEra.ttMinusUtcAt_eq, ttMinusUtcAt_1972 late (by linarith)]
  exact ⟨rfl, middleSeconds_end (by linarith) before.le⟩

theorem utcOfTt_ttOfUtc_of_unpassed (inEra : InEra date)
    (unpassed : ttOfUtc date < ttOfUtc (yearStart 1972)) :
    |utcOfTt (ttOfUtc date) - date| ≤ 1 / 10 ^ 11 := by
  have era := day_le_era
  by_cases start : date < yearStart 1770 + 1 / 2
  · exact utcOfTt_ttOfUtc_of_start inEra.1 start
  · by_cases inside : guess ttMinusUtcAt date 0 < yearStart 1972
    · exact utcOfTt_ttOfUtc_of_inside (not_lt.mp start) inside inEra
    · obtain ⟨oneIs, low, high⟩ := guess_one_of_end inEra (not_lt.mp inside)
      rw [ttOfUtc_1972, ttOfUtc_eq, inEra.ttMinusUtcAt_eq] at unpassed
      norm_num at oneIs high unpassed
      have oneClose : |guess ttMinusUtcAt date 1 - date| ≤ 3 / 86400 := by
        rw [oneIs, abs_le]
        constructor <;> linarith
      have twoClose := guess_succ_close inEra ⟨by linarith, by linarith⟩ oneClose (by norm_num)
      obtain ⟨twoLow, twoHigh⟩ := abs_le.mp twoClose
      exact close_of_placed inEra ⟨by linarith, by linarith⟩ (twoClose.trans (by norm_num))

/-- A date of the era that the first of 1972 has passed on TT comes back in 1972. -/
theorem utcOfTt_ttOfUtc_of_passed (inEra : InEra date)
    (passed : ttOfUtc (yearStart 1972) ≤ ttOfUtc date) :
    utcOfTt (ttOfUtc date) = date + (middleSeconds date - 42.184) / 86400 ∧
      ttOfUtc (date + (middleSeconds date - 42.184) / 86400) = ttOfUtc date ∧
      yearStart 1972 ≤ date + (middleSeconds date - 42.184) / 86400 ∧
      2 ≤ middleSeconds date - 42.184 ∧ middleSeconds date - 42.184 ≤ 3 := by
  rw [ttOfUtc_1972, ttOfUtc_eq, inEra.ttMinusUtcAt_eq] at passed
  have late : yearStart 1972 ≤ guess ttMinusUtcAt date 0 := by
    change yearStart 1972 ≤ date + ttMinusUtcAt date / 86400
    rw [inEra.ttMinusUtcAt_eq]
    norm_num at passed
    linarith
  obtain ⟨oneIs, low, high⟩ := guess_one_of_end inEra late
  have before := inEra.2
  have arrived : yearStart 1972 ≤ date + (middleSeconds date - 42.184) / 86400 := by
    linarith
  have otherIs : ttMinusUtcAt (date + (middleSeconds date - 42.184) / 86400) = 42.184 := by
    apply ttMinusUtcAt_1972 arrived
    norm_num at high ⊢
    linarith
  have settled : ttMinusUtcAt (guess ttMinusUtcAt date 0) =
      ttMinusUtcAt (date + (middleSeconds date - 42.184) / 86400) := by
    obtain ⟨zeroLow, zeroHigh⟩ := abs_le.mp (guess_zero_close inEra)
    rw [otherIs, ttMinusUtcAt_1972 late (by linarith)]
  have shared : ttOfUtc (date + (middleSeconds date - 42.184) / 86400) = ttOfUtc date := by
    rw [ttOfUtc_eq, ttOfUtc_eq, otherIs, inEra.ttMinusUtcAt_eq]
    ring
  refine ⟨utcOfTt_ttOfUtc_of_settled shared settled (by decide), shared, arrived, ?_, ?_⟩
  · norm_num
    linarith
  · norm_num at high ⊢
    linarith

end MarsCalendar.Scale

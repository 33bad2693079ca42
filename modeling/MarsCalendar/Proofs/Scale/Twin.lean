import MarsCalendar.Proofs.Scale.EarlyEra

set_option autoImplicit false

/-! What becomes of a UTC date by way of TT, in all the years that moments have. TT falls back at
every start of a year before 1770 and at the start of 1972, by as many seconds as the offset drops
there, and dates on both sides share a TT date. The three steps find only one of the two: the
later one until 1740 and in 1972, where the offset is positive, and the earlier one from 1741 on,
where it is negative. The other comes back as its twin, a quarter of a second away or more; every
date without such a twin comes back within 1e-11 days. -/

namespace MarsCalendar.Scale

open Julian (civilDate leapSeconds_of_near le_year_iff year_eq_iff year_lt_iff yearMonth yearStart
  yearStart_add_year_le yearStart_le_yearStart)

/-- The dates in the years that moments have. -/
def Supported (date : Rat) : Prop :=
  yearStart (-262143) ≤ date ∧ date < yearStart 262143

/-- The date shares its TT date with another, and the steps find that other. -/
def HasTwin (date : Rat) : Prop :=
  Passed date ∨ FallenBack date

/-- How a date comes back from TT as another. -/
inductive ComesBack (date other : Rat) : Prop
  | later (passed : Passed date) (shared : ttOfUtc other = ttOfUtc date)
      (far : date + 1 / 345600 ≤ other) (near : other ≤ date + 1)
  | earlier (fallen : FallenBack date) (shared : ttOfUtc other = ttOfUtc date)
      (near : date - 1 ≤ other) (far : other ≤ date - 1 / 345600)
  | kept (single : ¬ HasTwin date) (close : |other - date| ≤ 1 / 10 ^ 11)

variable {date left right : Rat} {year : Int}

theorem ComesBack.of_eq (single : ¬ HasTwin date) (same : utcOfTt (ttOfUtc date) = date) :
    ComesBack date (utcOfTt (ttOfUtc date)) := by
  apply ComesBack.kept single
  rw [same, sub_self, abs_zero]
  norm_num

/-! ### Before 1770 -/

theorem comesBack_until1740 (lowest : -262143 ≤ year) (early : year ≤ 1740)
    (inYear : (civilDate date).year = year) :
    ComesBack date (utcOfTt (ttOfUtc date)) ∧ date ≤ utcOfTt (ttOfUtc date) := by
  obtain ⟨first, last⟩ := year_eq_iff.mp inYear
  by_cases passed : Passed date
  · obtain ⟨low, high⟩ := laterTwin_bounds date lowest early
    obtain ⟨found, shared⟩ := utcOfTt_ttOfUtc_of_laterTwin lowest early inYear passed
    rw [found]
    exact ⟨.later passed shared low high.le, by linarith⟩
  · have notFallen : ¬ FallenBack date := by
      unfold FallenBack
      rw [inYear]
      rintro ⟨-, behind, -⟩
      have forth := (first_guess_later lowest early first last).1
      linarith
    have same := utcOfTt_ttOfUtc_of_early_unpassed lowest early inYear passed
    exact ⟨.of_eq (not_or.mpr ⟨passed, notFallen⟩) same, same.ge⟩

theorem comesBack_until1769 (late : 1741 ≤ year) (early : year ≤ 1769)
    (inYear : (civilDate date).year = year) : ComesBack date (utcOfTt (ttOfUtc date)) := by
  obtain ⟨first, last⟩ := year_eq_iff.mp inYear
  by_cases fallen : FallenBack date
  · obtain ⟨low, high⟩ := earlierTwin_bounds date late early
    obtain ⟨found, shared⟩ := utcOfTt_ttOfUtc_of_earlierTwin late early inYear fallen
    rw [found]
    exact .earlier fallen shared (by linarith) high
  · have unpassed : ¬ Passed date := by
      unfold Passed
      rw [inYear]
      rintro ⟨reached, -⟩
      have back := (first_guess_earlier late early first last).2
      linarith
    exact .of_eq (not_or.mpr ⟨unpassed, fallen⟩) (utcOfTt_ttOfUtc_of_kept late early inYear fallen)

/-! ### From 1770 until 1972 -/

theorem not_fallenBack_since1770 (first : yearStart 1770 ≤ date) : ¬ FallenBack date := by
  have late := le_year_iff.mpr first
  rintro ⟨early, -⟩
  omega

theorem InEra.ttOfUtc_lt (leftIn : InEra left) (rightIn : InEra right) (ordered : left < right) :
    ttOfUtc left < ttOfUtc right := by
  rw [ttOfUtc_eq, ttOfUtc_eq, leftIn.ttMinusUtcAt_eq, rightIn.ttMinusUtcAt_eq]
  by_cases near : right ≤ left + 1
  · have distance : |left - right| = right - left := by
      rw [abs_of_neg (by linarith), neg_sub]
    have close := middleSeconds_close leftIn.inMiddle rightIn.inMiddle (by linarith)
    rw [distance] at close
    have atMost := (abs_le.mp close).2
    linarith
  · obtain ⟨-, leftHigh⟩ := middleSeconds_bounds leftIn.inMiddle
    obtain ⟨rightLow, -⟩ := middleSeconds_bounds rightIn.inMiddle
    linarith

theorem InEra.passed_iff (inEra : InEra date) :
    Passed date ↔ ttOfUtc (yearStart 1972) ≤ ttOfUtc date := by
  have before : (civilDate date).year < 1972 := year_lt_iff.mpr inEra.2
  have since : 1770 ≤ (civilDate date).year := le_year_iff.mpr inEra.1
  unfold Passed
  by_cases lastYear : (civilDate date).year = 1971
  · have started := ttOfUtc_1972
    rw [lastYear]
    norm_num at started ⊢
    intro passed
    linarith
  · obtain ⟨-, notEnded⟩ := year_eq_iff.mp (rfl : (civilDate date).year = _)
    have nextBefore : yearStart ((civilDate date).year + 1) + 365 ≤ yearStart 1972 :=
      yearStart_add_year_le (by omega)
    have nextIn : InEra (yearStart ((civilDate date).year + 1)) :=
      ⟨yearStart_le_yearStart (by omega), by linarith⟩
    have forward := inEra.ttOfUtc_lt nextIn notEnded
    constructor
    · rintro ⟨-, passed⟩
      linarith
    · intro passed
      obtain ⟨-, -, arrived, -, high⟩ := utcOfTt_ttOfUtc_of_passed inEra passed
      linarith

theorem InEra.comesBack (inEra : InEra date) : ComesBack date (utcOfTt (ttOfUtc date)) := by
  by_cases passed : ttOfUtc (yearStart 1972) ≤ ttOfUtc date
  · obtain ⟨found, shared, arrived, low, high⟩ := utcOfTt_ttOfUtc_of_passed inEra passed
    rw [found]
    exact .later (inEra.passed_iff.mpr passed) shared (by linarith) (by linarith)
  · have single : ¬ HasTwin date :=
      not_or.mpr ⟨mt inEra.passed_iff.mp passed, not_fallenBack_since1770 inEra.1⟩
    exact .kept single (utcOfTt_ttOfUtc_of_unpassed inEra (not_le.mp passed))

/-! ### From 1972 on -/

theorem ttOfUtc_lt_of_atomic (first : yearStart 1972 ≤ left) (ordered : left < right)
    (last : right < yearStart 262144) : ttOfUtc left < ttOfUtc right := by
  rw [ttOfUtc_eq, ttOfUtc_eq]
  by_cases near : right < left + 1
  · have counted : (yearMonth left).leapSeconds ≤ (yearMonth right).leapSeconds := by
      have steps := leapSeconds_of_near left right ordered.le near
      omega
    have cast : ((yearMonth left).leapSeconds : Rat) ≤ (yearMonth right).leapSeconds := by
      exact_mod_cast counted
    rw [ttMinusUtcAt_eq_leapSeconds left first (by linarith),
      ttMinusUtcAt_eq_leapSeconds right (by linarith) last]
    linarith
  · obtain ⟨-, leftHigh⟩ := ttMinusUtcAt_bounds_atomic first (by linarith)
    obtain ⟨rightLow, -⟩ := ttMinusUtcAt_bounds_atomic (by linarith) last
    linarith

theorem not_hasTwin_since1972 (first : yearStart 1972 ≤ date) (last : date < yearStart 262143) :
    ¬ HasTwin date := by
  obtain ⟨-, notEnded⟩ := year_eq_iff.mp (rfl : (civilDate date).year = _)
  have before : (civilDate date).year < 262143 := year_lt_iff.mpr last
  have next : yearStart ((civilDate date).year + 1) + 365 ≤ yearStart 262144 :=
    yearStart_add_year_le (by omega)
  have forward := ttOfUtc_lt_of_atomic first notEnded (by linarith)
  have era := day_le_era
  rintro (⟨-, passed⟩ | fallen)
  · linarith
  · exact not_fallenBack_since1770 (by linarith) fallen

/-! ### All years -/

/-- A date of a supported year comes back as its twin if it has one that the steps find, and as
itself otherwise. -/
theorem comesBack (supported : Supported date) : ComesBack date (utcOfTt (ttOfUtc date)) := by
  obtain ⟨first, last⟩ := supported
  have lowest : -262143 ≤ (civilDate date).year := le_year_iff.mpr first
  by_cases until1740 : (civilDate date).year ≤ 1740
  · exact (comesBack_until1740 lowest until1740 rfl).1
  · by_cases until1769 : (civilDate date).year ≤ 1769
    · exact comesBack_until1769 (by omega) until1769 rfl
    · have since1770 : yearStart 1770 ≤ date := le_year_iff.mp (by omega)
      by_cases before1972 : date < yearStart 1972
      · exact InEra.comesBack ⟨since1770, before1972⟩
      · have atomic := not_lt.mp before1972
        exact .of_eq (not_hasTwin_since1972 atomic last) (utcOfTt_ttOfUtc_of_atomic atomic last)

theorem ComesBack.near {other : Rat} (back : ComesBack date other) :
    date - 1 ≤ other ∧ other ≤ date + 1 := by
  cases back with
  | later passed shared far near => exact ⟨by linarith, near⟩
  | earlier fallen shared near far => exact ⟨near, by linarith⟩
  | kept single close =>
      obtain ⟨low, high⟩ := abs_le.mp close
      norm_num at low high
      constructor <;> linarith

theorem Supported.utcOfTt_ttOfUtc (supported : Supported date) :
    Supported (utcOfTt (ttOfUtc date)) := by
  obtain ⟨first, last⟩ := supported
  obtain ⟨low, high⟩ := (comesBack ⟨first, last⟩).near
  by_cases atomic : yearStart 1972 ≤ date
  · rw [utcOfTt_ttOfUtc_of_atomic atomic last]
    exact ⟨first, last⟩
  · have upper : yearStart 1972 + 365 ≤ yearStart 262143 := yearStart_add_year_le (by decide)
    refine ⟨?_, by linarith⟩
    by_cases until1740 : (civilDate date).year ≤ 1740
    · exact first.trans (comesBack_until1740 (le_year_iff.mpr first) until1740 rfl).2
    · have since1741 : yearStart 1741 ≤ date := le_year_iff.mp (by omega)
      have lower : yearStart (-262143) + 365 ≤ yearStart 1741 := yearStart_add_year_le (by decide)
      linarith

end MarsCalendar.Scale

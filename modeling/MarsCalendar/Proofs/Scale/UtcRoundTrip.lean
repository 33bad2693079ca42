import MarsCalendar.Proofs.Scale.MiddleEra
import MarsCalendar.Scale.JulianDate

set_option autoImplicit false

/-! UTC by way of the other scales, from 1770 on. TT comes back to UTC within 1e-11 days, the
last three seconds of 1971 left out, where the first of 1972 comes too close; and from 1972 on
UTC, TAI and TT determine each other exactly, around inserted seconds too. -/

namespace MarsCalendar.Scale

open Julian (yearMonth yearStart yearStart_add_year_le)

variable {date : Rat}

theorem ttOfUtc_lt_of_clear (inEra : InEra date) (clear : date ≤ yearStart 1972 - 3 / 86400) :
    ttOfUtc date < ttOfUtc (yearStart 1972) := by
  obtain ⟨low, high⟩ := middleSeconds_bounds inEra.inMiddle
  rw [ttOfUtc_1972, ttOfUtc_eq, inEra.ttMinusUtcAt_eq]
  norm_num
  by_cases lastDay : yearStart 1972 - 1 ≤ date
  · have close := (middleSeconds_end lastDay inEra.2.le).2
    norm_num at close
    linarith
  · linarith

theorem utcOfTt_close (first : yearStart 1770 ≤ date) (last : date < yearStart 262143)
    (clear : date ≤ yearStart 1972 - 3 / 86400 ∨ yearStart 1972 ≤ date) :
    |utcOfTt (ttOfUtc date) - date| ≤ 1 / 10 ^ 11 := by
  rcases clear with before | after
  · have inEra : InEra date := ⟨first, by linarith⟩
    exact utcOfTt_ttOfUtc_of_unpassed inEra (ttOfUtc_lt_of_clear inEra before)
  · rw [utcOfTt_ttOfUtc_of_atomic after last, sub_self, abs_zero]
    norm_num

theorem taiOfUtc_eq (date : Rat) : taiOfUtc date = date + taiMinusUtc (yearMonth date) / 86400 := by
  unfold taiOfUtc
  rw [daysOfSeconds_eq, taiMinusUtcAt_eq, taiMinusUtc_eq]

theorem ttOfUtc_sub_taiOfUtc (first : yearStart 1972 ≤ date) (last : date < yearStart 262144) :
    ttOfUtc date - taiOfUtc date = 32.184 / 86400 := by
  rw [ttOfUtc_eq, taiOfUtc_eq, taiMinusUtc_eq, ttMinusUtcAt_eq_leapSeconds date first last]
  norm_num
  ring

/-- From 1770 until the end of the year 262142, the last three seconds of 1971 left out, a UTC
date comes back from TT within 1e-11 days. From 1972 on it comes back exactly, from TAI as well;
its TAI date is as many seconds later as the leap-second table says for its month, and its TT
date 32.184 seconds after that. -/
theorem utc_since1770_roundTrip (first : yearStart 1770 ≤ date) (last : date < yearStart 262143)
    (clear : date ≤ yearStart 1972 - 3 / 86400 ∨ yearStart 1972 ≤ date) :
    |utcOfTt (ttOfUtc date) - date| ≤ 1 / 10 ^ 11 ∧
    (yearStart 1972 ≤ date →
      let utc : JulianDate .utc Rat := ⟨date⟩
      utcOfTt (ttOfUtc date) = date ∧
      (utc.convert .tai).value = date + taiMinusUtc (yearMonth date) / 86400 ∧
      (utc.convert .tt).value - (utc.convert .tai).value = 32.184 / 86400 ∧
      (utc.convert .tt).convert .utc = utc ∧ (utc.convert .tai).convert .utc = utc) := by
  refine ⟨utcOfTt_close first last clear, ?_⟩
  intro atomic utc
  have back : utcOfTt (ttOfUtc date) = date := utcOfTt_ttOfUtc_of_atomic atomic last
  have tai : utc.convert .tai = ⟨taiOfUtc date⟩ := by
    change (⟨taiOfUtc (utcOfTt (ttOfUtc date))⟩ : JulianDate .tai Rat) = _
    rw [back]
  have tt : utc.convert .tt = ⟨ttOfUtc date⟩ := rfl
  refine ⟨back, ?_, ?_, ?_, ?_⟩
  · rw [tai]
    exact taiOfUtc_eq date
  · have next : yearStart 262143 + 365 ≤ yearStart 262144 := yearStart_add_year_le (by decide)
    rw [tai, tt]
    exact ttOfUtc_sub_taiOfUtc atomic (by linarith)
  · rw [tt]
    exact congrArg JulianDate.mk back
  · have here : utcOfTt (ttOfUtc (utcOfTai (taiOfUtc date))) = date := by
      rw [utcOfTai_taiOfUtc, back]
    rw [tai]
    exact congrArg JulianDate.mk here

/-- Half a second before the second inserted at the end of 2016, the start of 1970, and the start
of 1770, where the second guess falls back into 1769. -/
theorem utc_since1770_roundTrip_at_boundaries :
    (let utc : JulianDate .utc Rat := ⟨yearStart 2017 - 1 / 172800⟩
     yearStart 1972 ≤ utc.value ∧ utc.value < yearStart 262143 ∧
      (utc.convert .tai).value = utc.value + taiMinusUtc (yearMonth utc.value) / 86400 ∧
      (utc.convert .tai).convert .utc = utc) ∧
      |utcOfTt (ttOfUtc (yearStart 1970)) - yearStart 1970| ≤ 1 / 10 ^ 11 ∧
      |utcOfTt (ttOfUtc (yearStart 1770)) - yearStart 1770| ≤ 1 / 10 ^ 11 := by
  have since1770 : yearStart 1770 + 365 ≤ yearStart 1970 := yearStart_add_year_le (by decide)
  have until1972 : yearStart 1970 + 365 ≤ yearStart 1972 := yearStart_add_year_le (by decide)
  have since1972 : yearStart 1972 + 365 ≤ yearStart 2017 := yearStart_add_year_le (by decide)
  have until2017 : yearStart 2017 + 365 ≤ yearStart 262143 := yearStart_add_year_le (by decide)
  have first : yearStart 1770 ≤ yearStart 2017 - 1 / 172800 := by linarith
  have last : yearStart 2017 - 1 / 172800 < yearStart 262143 := by linarith
  have atomic : yearStart 1972 ≤ yearStart 2017 - 1 / 172800 := by linarith
  obtain ⟨-, kept⟩ := utc_since1770_roundTrip first last (.inr atomic)
  obtain ⟨-, tai, -, -, back⟩ := kept atomic
  exact ⟨⟨atomic, last, tai, back⟩,
    (utc_since1770_roundTrip (by linarith) (by linarith) (.inl (by linarith))).1,
    (utc_since1770_roundTrip (le_refl _) (by linarith) (.inl (by linarith))).1⟩

end MarsCalendar.Scale

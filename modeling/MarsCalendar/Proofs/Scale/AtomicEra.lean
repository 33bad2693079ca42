import MarsCalendar.Proofs.Scale.Solver

set_option autoImplicit false

/-! From 1972 on the offsets are whole steps of a second, up by one at every inserted second.
A later date within a day may have taken one step already, and is then a second too early for
a guess; that guess has the offset of the date itself, since two steps are never a day apart.
So TAI comes back to UTC everywhere, and TT from 1972 on. -/

namespace MarsCalendar.Scale

open Civil (YearMonth)
open Gregorian (Date daysBeforeYear)
open Julian (FitsYear civilDate le_year_iff leapSeconds_of_near midnightDay midnightDay_bounds
  year_lt_iff yearMonth yearStart yearStart_add_year_le yearStart_eq yearStart_le_yearStart)

variable {date : Rat}

theorem yearStart_1972 : yearStart 1972 = 2441317.5 := by
  have days : daysBeforeYear 1972 = 719892 := by decide
  rw [yearStart_eq, days]
  norm_num

theorem yearMonth_first_day (first : yearStart 1972 ≤ date) (last : date < yearStart 1972 + 1) :
    yearMonth date = ⟨1972, 1⟩ := by
  have day : midnightDay date = 2441318 := by
    obtain ⟨low, high⟩ := midnightDay_bounds date
    rw [yearStart_1972] at first last
    norm_num at first last
    have atLeast : ((2441317 : Int) : Rat) < midnightDay date := by
      push_cast
      linarith
    have atMost : (midnightDay date : Rat) < ((2441319 : Int) : Rat) := by
      push_cast
      linarith
    have lower := Rat.intCast_lt_intCast.mp atLeast
    have upper := Rat.intCast_lt_intCast.mp atMost
    omega
  have newYear : Date.ofDayNumber (2441318 - Julian.unixEpochDay) = ⟨1972, 1, 1⟩ := by decide
  unfold yearMonth civilDate
  rw [day, newYear]

/-! ### Leap seconds around a date -/

theorem leapSeconds_bounds (date : Rat) : ((yearMonth date).leapSeconds : Rat) ≤ 27 := by
  have few : (yearMonth date).leapSeconds ≤ 27 := YearMonth.leapSeconds_le _
  exact_mod_cast few

/-- If a leap second is inserted in a stretch of less than a day, none is in the second before
that stretch. -/
theorem leapSeconds_settled (date : Rat) {ahead : Rat} (nonneg : 0 ≤ ahead)
    (short : ahead < 86000 / 86400) :
    (yearMonth (date + ahead)).leapSeconds = (yearMonth date).leapSeconds ∨
      (yearMonth (date + ahead)).leapSeconds = (yearMonth date).leapSeconds + 1 ∧
        (yearMonth (date - 1 / 86400)).leapSeconds = (yearMonth date).leapSeconds := by
  have after := leapSeconds_of_near date (date + ahead) (by linarith) (by linarith)
  have before := leapSeconds_of_near (date - 1 / 86400) date (by linarith) (by linarith)
  have across := leapSeconds_of_near (date - 1 / 86400) (date + ahead) (by linarith) (by linarith)
  omega

/-- Where an offset counts leap seconds, the guesses come to the date by the third and stay there. -/
theorem guess_of_steps {offset : Rat → Rat} {base : Rat} (nonneg : 0 ≤ offset date)
    (short : offset date < 86000)
    (here : offset date = base + (yearMonth date).leapSeconds)
    (later : offset (date + offset date / 86400) =
      base + (yearMonth (date + offset date / 86400)).leapSeconds)
    (before : (yearMonth (date + offset date / 86400)).leapSeconds =
        (yearMonth date).leapSeconds + 1 →
      offset (date - 1 / 86400) = base + (yearMonth (date - 1 / 86400)).leapSeconds)
    (count : Nat) : guess offset date (count + 2) = date := by
  have ahead : 0 ≤ offset date / 86400 ∧ offset date / 86400 < 86000 / 86400 := by
    constructor <;> linarith
  rcases leapSeconds_settled date ahead.1 ahead.2 with same | ⟨stepped, unstepped⟩
  · have settled : offset (guess offset date 0) = offset date := by
      change offset (date + offset date / 86400) = offset date
      rw [later, same, here]
    exact guess_of_settled rfl settled (by omega)
  · have second : guess offset date 1 = date - 1 / 86400 := by
      change date + (offset date - offset (date + offset date / 86400)) / 86400 = _
      rw [later, stepped, here]
      push_cast
      ring
    have settled : offset (guess offset date 1) = offset date := by
      rw [second, before stepped, unstepped, here]
    exact guess_of_settled rfl settled (by omega)

/-! ### TAI -/

theorem guess_taiMinusUtcAt (date : Rat) (count : Nat) :
    guess taiMinusUtcAt date (count + 2) = date := by
  have few := leapSeconds_bounds date
  have counted : (0 : Rat) ≤ (yearMonth date).leapSeconds := Nat.cast_nonneg _
  have here := taiMinusUtcAt_eq date
  exact guess_of_steps (by linarith) (by linarith) here (taiMinusUtcAt_eq _)
    (fun _ => taiMinusUtcAt_eq _) count

theorem utcOfTai_taiOfUtc (date : Rat) : utcOfTai (taiOfUtc date) = date :=
  (removeOffset_eq taiMinusUtcAt date).trans (guess_taiMinusUtcAt date 1)

/-- At every date TAI - UTC is ten seconds and the leap seconds before the month of the date, also
where the year of the date cannot be told. As many seconds later the date is found again, by the
third guess at the latest, and all guesses after that keep to it. -/
theorem utcOfTai_inverts_table (date : Rat) :
    taiMinusUtcAt date = 10 + ((yearMonth date).leapSeconds : Rat) ∧
    utcOfTai (date + taiMinusUtcAt date / 86400) = date ∧
    ∀ count : Nat, guess taiMinusUtcAt date (count + 2) = date := by
  refine ⟨taiMinusUtcAt_eq date, ?_, guess_taiMinusUtcAt date⟩
  have tai : date + taiMinusUtcAt date / 86400 = taiOfUtc date := by
    unfold taiOfUtc
    rw [daysOfSeconds_eq]
  rw [tai]
  exact utcOfTai_taiOfUtc date

/-! ### TT -/

theorem fitsYear_of_between (first : yearStart (-262144) ≤ date) (last : date < yearStart 262144) :
    FitsYear (civilDate date).year := by
  have low := le_year_iff.mpr first
  have high := year_lt_iff.mpr last
  unfold FitsYear
  omega

theorem ttMinusUtcAt_eq_leapSeconds (date : Rat) (first : yearStart 1972 ≤ date)
    (last : date < yearStart 262144) :
    ttMinusUtcAt date = 42.184 + ((yearMonth date).leapSeconds : Rat) := by
  have begun : yearStart (-262144) ≤ yearStart 1972 := yearStart_le_yearStart (by decide)
  have fits := fitsYear_of_between (begun.trans first) last
  rw [ttMinusUtcAt_atomic first fits, taiMinusUtcAt_eq]
  norm_num
  ring

theorem yearStart_1972_le_of_leap {ahead : Rat} (first : yearStart 1972 ≤ date)
    (nonneg : 0 ≤ ahead) (short : ahead < 86000 / 86400)
    (stepped : (yearMonth (date + ahead)).leapSeconds = (yearMonth date).leapSeconds + 1) :
    yearStart 1972 ≤ date - 1 / 86400 := by
  by_contra before
  have none : (yearMonth (date + ahead)).leapSeconds = 0 := by
    rw [yearMonth_first_day (by linarith) (by linarith)]
    decide
  omega

theorem ttMinusUtcAt_bounds_atomic (first : yearStart 1972 ≤ date)
    (last : date < yearStart 262144) :
    42 ≤ ttMinusUtcAt date ∧ ttMinusUtcAt date ≤ 70 := by
  have few := leapSeconds_bounds date
  have counted : (0 : Rat) ≤ (yearMonth date).leapSeconds := Nat.cast_nonneg _
  rw [ttMinusUtcAt_eq_leapSeconds date first last]
  norm_num
  constructor <;> linarith

theorem utcOfTt_ttOfUtc_of_atomic (first : yearStart 1972 ≤ date)
    (last : date < yearStart 262143) : utcOfTt (ttOfUtc date) = date := by
  have next : yearStart 262143 + 365 ≤ yearStart 262144 := yearStart_add_year_le (by decide)
  obtain ⟨low, high⟩ := ttMinusUtcAt_bounds_atomic first (by linarith)
  have here := ttMinusUtcAt_eq_leapSeconds date first (by linarith)
  have later := ttMinusUtcAt_eq_leapSeconds (date + ttMinusUtcAt date / 86400)
    (by linarith) (by linarith)
  refine (removeOffset_eq _ _).trans
    (guess_of_steps (by linarith) (by linarith) here later ?_ 1)
  intro stepped
  have begun := yearStart_1972_le_of_leap first (by linarith) (by linarith) stepped
  exact ttMinusUtcAt_eq_leapSeconds _ begun (by linarith)

end MarsCalendar.Scale

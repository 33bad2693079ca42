import MarsCalendar.Proofs.Scale.MiddleEra

set_option autoImplicit false

/-! The three steps from TT to UTC before 1770, where the offset is the same throughout a year and
less in the next. At the end of a year the clock on TT falls back by the difference, so two dates
around the start of a year may share a TT date. Up to 1740 the guesses come from later dates, and
the later of the two is found; from 1741 on the offset is negative, the guesses come from earlier
dates, and the earlier one is found. A date without such a twin comes back exactly. -/

namespace MarsCalendar.Scale

open Julian (civilDate le_year_iff year_eq_iff year_lt_iff yearStart yearStart_add_year_le
  yearStart_le_yearStart yearStart_succ)

variable {date : Rat} {year : Int}

/-! ### The offset from year to year -/

theorem earlySeconds_sub (first last : Int) :
    earlySeconds first - earlySeconds last =
      32 / 10000 * ((last - first) * (3640 - first - last)) := by
  unfold earlySeconds
  ring

theorem earlySeconds_le {first last : Int} (ordered : first ≤ last)
    (early : first + last ≤ 3640) : earlySeconds last ≤ earlySeconds first := by
  have forward : (0 : Rat) ≤ last - first := by exact_mod_cast Int.sub_nonneg.mpr ordered
  have room : (0 : Rat) ≤ 3640 - first - last := by
    have cast : ((first + last : Int) : Rat) ≤ 3640 := by exact_mod_cast early
    push_cast at cast
    linarith
  have product := mul_nonneg forward room
  have difference := earlySeconds_sub first last
  linarith

theorem earlySeconds_sub_le {later : Int} (lowest : -262143 ≤ year) (forth : year ≤ later)
    (near : later ≤ year + 8) (early : year ≤ 1740) :
    earlySeconds year - earlySeconds later ≤ 14400 := by
  have forward : (0 : Rat) ≤ later - year := by exact_mod_cast Int.sub_nonneg.mpr forth
  have few : (later : Rat) - year ≤ 8 := by
    have cast : (later : Rat) ≤ ((year + 8 : Int) : Rat) := by exact_mod_cast near
    push_cast at cast
    linarith
  have low : (-262143 : Rat) ≤ year := by exact_mod_cast lowest
  have room : (0 : Rat) ≤ 3640 - year - later := by
    have cast : (year : Rat) ≤ 1740 := by exact_mod_cast early
    linarith
  rw [earlySeconds_sub]
  have product : ((later : Rat) - year) * (3640 - year - later) ≤ 8 * (3640 + 2 * 262143) := by
    apply mul_le_mul few _ room (by norm_num)
    linarith
  linarith

theorem earlySeconds_bounds (lowest : -262143 ≤ year) (early : year ≤ 1740) :
    0 ≤ earlySeconds year ∧ earlySeconds year ≤ 2581 * 86400 := by
  have low : (-262143 : Rat) ≤ year := by exact_mod_cast lowest
  have high : (year : Rat) ≤ 1740 := by exact_mod_cast early
  unfold earlySeconds
  constructor <;> nlinarith

theorem earlySeconds_negative (first : 1741 ≤ year) (last : year ≤ 1769) :
    -12 ≤ earlySeconds year ∧ earlySeconds year < 0 := by
  have low : (1741 : Rat) ≤ year := by exact_mod_cast first
  have high : (year : Rat) ≤ 1769 := by exact_mod_cast last
  unfold earlySeconds
  constructor <;> nlinarith

theorem yearStart_add_le (year : Int) (count : Nat) :
    yearStart year + 365 * count ≤ yearStart (year + count) := by
  induction count with
  | zero => simp
  | succ count ih =>
      have next := yearStart_succ (year + count)
      have place : year + (count : Int) + 1 = year + ((count + 1 : Nat) : Int) := by
        push_cast
        ring
      rw [place] at next
      push_cast at ih next ⊢
      linarith

theorem ttMinusUtcAt_inYear (lowest : -262143 ≤ year) (early : year < 1770)
    (first : yearStart year ≤ date) (last : date < yearStart (year + 1)) :
    ttMinusUtcAt date = earlySeconds year :=
  ttMinusUtcAt_early (by omega) early (year_eq_iff.mpr ⟨first, last⟩)

theorem guess_zero_eq (date : Rat) : guess ttMinusUtcAt date 0 = ttOfUtc date := by
  rw [ttOfUtc_eq]
  rfl

/-! ### Dates with a twin -/

/-- The start of the next year has passed a date on TT, and the TT date itself is in that year. -/
def Passed (date : Rat) : Prop :=
  let next := yearStart ((civilDate date).year + 1)
  next ≤ ttOfUtc date ∧ ttOfUtc next ≤ ttOfUtc date

/-- Before 1770, a date has fallen behind the end of the year before on TT, and the TT date itself
is in that year. -/
def FallenBack (date : Rat) : Prop :=
  let year := (civilDate date).year
  year < 1770 ∧ ttOfUtc date < yearStart year ∧
    ttOfUtc date < yearStart year + earlySeconds (year - 1) / 86400

/-! ### The years up to 1740 -/

def laterTwin (year : Int) (date : Rat) : Rat :=
  date + (earlySeconds year - earlySeconds (year + 1)) / 86400

theorem laterTwin_bounds (date : Rat) (lowest : -262143 ≤ year) (early : year ≤ 1740) :
    date + 1 / 345600 ≤ laterTwin year date ∧ laterTwin year date < date + 1 := by
  have fall := earlySeconds_sub_le lowest (Int.le_add_one (le_refl year)) (by omega) early
  have step := earlySeconds_sub year (year + 1)
  have high : (year : Rat) ≤ 1740 := by exact_mod_cast early
  push_cast at step
  unfold laterTwin
  constructor <;> linarith

/-- The first guess is later by up to seven years, in a year whose offset is known. -/
theorem first_guess_later (lowest : -262143 ≤ year) (early : year ≤ 1740)
    (first : yearStart year ≤ date) (last : date < yearStart (year + 1)) :
    date ≤ ttOfUtc date ∧ ∃ later, year ≤ later ∧ later ≤ year + 8 ∧
      yearStart later ≤ ttOfUtc date ∧ ttOfUtc date < yearStart (later + 1) := by
  obtain ⟨low, high⟩ := earlySeconds_bounds lowest early
  have here := ttMinusUtcAt_inYear lowest (by omega) first last
  have forth : date ≤ ttOfUtc date := by
    rw [ttOfUtc_eq, here]
    linarith
  have near : ttOfUtc date < yearStart (year + 9) := by
    have eight := yearStart_add_le (year + 1) 8
    have place : year + 1 + ((8 : Nat) : Int) = year + 9 := by omega
    rw [place] at eight
    rw [ttOfUtc_eq, here]
    push_cast at eight
    linarith
  have atLeast : year ≤ (civilDate (ttOfUtc date)).year := le_year_iff.mpr (first.trans forth)
  have atMost := year_lt_iff.mpr near
  obtain ⟨begun, notEnded⟩ := year_eq_iff.mp (rfl : (civilDate (ttOfUtc date)).year = _)
  exact ⟨forth, _, atLeast, by omega, begun, notEnded⟩

theorem second_guess_later (lowest : -262143 ≤ year) (early : year ≤ 1740)
    (first : yearStart year ≤ date) (last : date < yearStart (year + 1))
    (reached : yearStart (year + 1) ≤ ttOfUtc date) :
    laterTwin year date ≤ guess ttMinusUtcAt date 1 ∧ guess ttMinusUtcAt date 1 < date + 1 := by
  obtain ⟨-, later, -, near, begun, notEnded⟩ := first_guess_later lowest early first last
  have after : year + 1 ≤ later := by
    by_contra before
    have ended : yearStart (later + 1) ≤ yearStart (year + 1) :=
      yearStart_le_yearStart (by omega)
    linarith
  -- The offset of a later year is less, but within seven years by less than a day.
  have fall := earlySeconds_sub_le lowest (by omega) near early
  have least := earlySeconds_le after (by omega)
  have there := ttMinusUtcAt_inYear (by omega) (by omega) begun notEnded
  rw [guess_succ, guess_zero_eq, there, ttMinusUtcAt_inYear lowest (by omega) first last]
  unfold laterTwin
  constructor <;> linarith

theorem passed_iff_laterTwin (lowest : -262143 ≤ year) (early : year ≤ 1740)
    (inYear : (civilDate date).year = year) :
    Passed date ↔
      yearStart (year + 1) ≤ ttOfUtc date ∧ yearStart (year + 1) ≤ laterTwin year date := by
  obtain ⟨first, last⟩ := year_eq_iff.mp inYear
  have next := yearStart_succ (year + 1)
  have start : ttMinusUtcAt (yearStart (year + 1)) = earlySeconds (year + 1) :=
    ttMinusUtcAt_inYear (by omega) (by omega) (le_refl _) (by linarith)
  have here := ttMinusUtcAt_inYear lowest (by omega) first last
  have ahead : ttOfUtc (yearStart (year + 1)) ≤ ttOfUtc date ↔
      yearStart (year + 1) ≤ laterTwin year date := by
    rw [ttOfUtc_eq, ttOfUtc_eq, start, here]
    unfold laterTwin
    constructor <;> intro bound <;> linarith
  unfold Passed
  rw [inYear]
  exact and_congr_right fun _ => ahead

theorem utcOfTt_ttOfUtc_of_laterTwin (lowest : -262143 ≤ year) (early : year ≤ 1740)
    (inYear : (civilDate date).year = year) (passed : Passed date) :
    utcOfTt (ttOfUtc date) = laterTwin year date ∧
      ttOfUtc (laterTwin year date) = ttOfUtc date := by
  obtain ⟨first, last⟩ := year_eq_iff.mp inYear
  obtain ⟨reached, arrived⟩ := (passed_iff_laterTwin lowest early inYear).mp passed
  obtain ⟨oneLow, oneHigh⟩ := second_guess_later lowest early first last reached
  have twinHigh := (laterTwin_bounds date lowest early).2
  have next := yearStart_succ (year + 1)
  have here := ttMinusUtcAt_inYear lowest (by omega) first last
  have twin : ttMinusUtcAt (laterTwin year date) = earlySeconds (year + 1) :=
    ttMinusUtcAt_inYear (by omega) (by omega) arrived (by linarith)
  have settled : ttMinusUtcAt (guess ttMinusUtcAt date 1) = ttMinusUtcAt (laterTwin year date) := by
    rw [twin]
    exact ttMinusUtcAt_inYear (by omega) (by omega) (by linarith) (by linarith)
  have shared : ttOfUtc (laterTwin year date) = ttOfUtc date := by
    rw [ttOfUtc_eq, ttOfUtc_eq, twin, here]
    unfold laterTwin
    ring
  exact ⟨utcOfTt_ttOfUtc_of_settled shared settled (by decide), shared⟩

/-- A date that is not passed comes back. If the second guess is in the next year, the third is
where the twin would be, in the date's own year. -/
theorem utcOfTt_ttOfUtc_of_early_unpassed (lowest : -262143 ≤ year) (early : year ≤ 1740)
    (inYear : (civilDate date).year = year) (unpassed : ¬ Passed date) :
    utcOfTt (ttOfUtc date) = date := by
  obtain ⟨first, last⟩ := year_eq_iff.mp inYear
  have here := ttMinusUtcAt_inYear lowest (by omega) first last
  have same {other : Rat} (since : date ≤ other) (before : other < yearStart (year + 1)) :
      ttMinusUtcAt other = ttMinusUtcAt date := by
    rw [here]
    exact ttMinusUtcAt_inYear lowest (by omega) (first.trans since) before
  have twinLow := (laterTwin_bounds date lowest early).1
  by_cases reached : yearStart (year + 1) ≤ ttOfUtc date
  · have notArrived : laterTwin year date < yearStart (year + 1) := by
      by_contra arrived
      exact unpassed ((passed_iff_laterTwin lowest early inYear).mpr ⟨reached, not_lt.mp arrived⟩)
    obtain ⟨oneLow, oneHigh⟩ := second_guess_later lowest early first last reached
    by_cases beyond : yearStart (year + 1) ≤ guess ttMinusUtcAt date 1
    · have next := yearStart_succ (year + 1)
      have notEnded : guess ttMinusUtcAt date 1 < yearStart (year + 1 + 1) := by linarith
      have there := ttMinusUtcAt_inYear (by omega) (by omega) beyond notEnded
      have twoIs : guess ttMinusUtcAt date 2 = laterTwin year date := by
        rw [guess_succ, there, here]
        rfl
      have settled : ttMinusUtcAt (guess ttMinusUtcAt date 2) = ttMinusUtcAt date := by
        rw [twoIs]
        exact same (by linarith) notArrived
      exact utcOfTt_ttOfUtc_of_settled rfl settled (by decide)
    · have notBefore : date ≤ guess ttMinusUtcAt date 1 := by linarith
      have settled := same notBefore (not_le.mp beyond)
      exact utcOfTt_ttOfUtc_of_settled rfl settled (by decide)
  · have forth := (first_guess_later lowest early first last).1
    have settled : ttMinusUtcAt (guess ttMinusUtcAt date 0) = ttMinusUtcAt date := by
      rw [guess_zero_eq]
      exact same forth (not_le.mp reached)
    exact utcOfTt_ttOfUtc_of_settled rfl settled (by decide)

/-! ### The years from 1741 to 1769 -/

def earlierTwin (year : Int) (date : Rat) : Rat :=
  date + (earlySeconds year - earlySeconds (year - 1)) / 86400

theorem earlierTwin_bounds (date : Rat) (late : 1741 ≤ year) (early : year ≤ 1769) :
    date - 1 / 86400 ≤ earlierTwin year date ∧ earlierTwin year date ≤ date - 1 / 345600 := by
  have step := earlySeconds_sub year (year - 1)
  have low : (1741 : Rat) ≤ year := by exact_mod_cast late
  have high : (year : Rat) ≤ 1769 := by exact_mod_cast early
  push_cast at step
  unfold earlierTwin
  constructor <;> linarith

theorem first_guess_earlier (late : 1741 ≤ year) (early : year ≤ 1769)
    (first : yearStart year ≤ date) (last : date < yearStart (year + 1)) :
    yearStart (year - 1) ≤ ttOfUtc date ∧ ttOfUtc date ≤ date := by
  obtain ⟨low, high⟩ := earlySeconds_negative late early
  have before : yearStart (year - 1) + 365 ≤ yearStart year := yearStart_add_year_le (by omega)
  rw [ttOfUtc_eq, ttMinusUtcAt_inYear (by omega) (by omega) first last]
  constructor <;> linarith

theorem fallenBack_iff_earlierTwin (late : 1741 ≤ year) (early : year ≤ 1769)
    (inYear : (civilDate date).year = year) :
    FallenBack date ↔ ttOfUtc date < yearStart year ∧ earlierTwin year date < yearStart year := by
  obtain ⟨first, last⟩ := year_eq_iff.mp inYear
  have here := ttMinusUtcAt_inYear (by omega) (by omega) first last
  have behind : ttOfUtc date < yearStart year + earlySeconds (year - 1) / 86400 ↔
      earlierTwin year date < yearStart year := by
    rw [ttOfUtc_eq, here]
    unfold earlierTwin
    constructor <;> intro bound <;> linarith
  unfold FallenBack
  dsimp only
  rw [inYear, behind]
  exact and_iff_right (by omega)

theorem utcOfTt_ttOfUtc_of_earlierTwin (late : 1741 ≤ year) (early : year ≤ 1769)
    (inYear : (civilDate date).year = year) (fallen : FallenBack date) :
    utcOfTt (ttOfUtc date) = earlierTwin year date ∧
      ttOfUtc (earlierTwin year date) = ttOfUtc date := by
  obtain ⟨first, last⟩ := year_eq_iff.mp inYear
  obtain ⟨behind, arrived⟩ := (fallenBack_iff_earlierTwin late early inYear).mp fallen
  have firstLow := (first_guess_earlier late early first last).1
  have twinLow := (earlierTwin_bounds date late early).1
  have before : yearStart (year - 1) + 365 ≤ yearStart year := yearStart_add_year_le (by omega)
  have here := ttMinusUtcAt_inYear (by omega) (by omega) first last
  have there {other : Rat} (since : yearStart (year - 1) ≤ other)
      (earlier : other < yearStart year) : ttMinusUtcAt other = earlySeconds (year - 1) := by
    apply ttMinusUtcAt_inYear (by omega) (by omega) since
    rw [Int.sub_add_cancel]
    exact earlier
  have twin : ttMinusUtcAt (earlierTwin year date) = earlySeconds (year - 1) :=
    there (by linarith) arrived
  have settled : ttMinusUtcAt (guess ttMinusUtcAt date 0) =
      ttMinusUtcAt (earlierTwin year date) := by
    rw [guess_zero_eq, there firstLow behind, twin]
  have shared : ttOfUtc (earlierTwin year date) = ttOfUtc date := by
    rw [ttOfUtc_eq, ttOfUtc_eq, twin, here]
    unfold earlierTwin
    ring
  exact ⟨utcOfTt_ttOfUtc_of_settled shared settled (by decide), shared⟩

/-- A date that has not fallen back comes back. If the first guess is in the year before, the
second is where the twin would be, in the date's own year. -/
theorem utcOfTt_ttOfUtc_of_kept (late : 1741 ≤ year) (early : year ≤ 1769)
    (inYear : (civilDate date).year = year) (kept : ¬ FallenBack date) :
    utcOfTt (ttOfUtc date) = date := by
  obtain ⟨first, last⟩ := year_eq_iff.mp inYear
  obtain ⟨firstLow, firstHigh⟩ := first_guess_earlier late early first last
  have twinHigh := (earlierTwin_bounds date late early).2
  have here := ttMinusUtcAt_inYear (by omega) (by omega) first last
  have same {other : Rat} (since : yearStart year ≤ other) (notAfter : other ≤ date) :
      ttMinusUtcAt other = ttMinusUtcAt date := by
    rw [here]
    exact ttMinusUtcAt_inYear (by omega) (by omega) since (notAfter.trans_lt last)
  by_cases behind : ttOfUtc date < yearStart year
  · have notArrived : yearStart year ≤ earlierTwin year date := by
      by_contra arrived
      exact kept ((fallenBack_iff_earlierTwin late early inYear).mpr ⟨behind, not_le.mp arrived⟩)
    have there : ttMinusUtcAt (ttOfUtc date) = earlySeconds (year - 1) := by
      apply ttMinusUtcAt_inYear (by omega) (by omega) firstLow
      rw [Int.sub_add_cancel]
      exact behind
    have oneIs : guess ttMinusUtcAt date 1 = earlierTwin year date := by
      rw [guess_succ, guess_zero_eq, there, here]
      rfl
    have settled : ttMinusUtcAt (guess ttMinusUtcAt date 1) = ttMinusUtcAt date := by
      rw [oneIs]
      exact same notArrived (by linarith)
    exact utcOfTt_ttOfUtc_of_settled rfl settled (by decide)
  · have settled : ttMinusUtcAt (guess ttMinusUtcAt date 0) = ttMinusUtcAt date := by
      rw [guess_zero_eq]
      exact same (not_lt.mp behind) firstHigh
    exact utcOfTt_ttOfUtc_of_settled rfl settled (by decide)

end MarsCalendar.Scale

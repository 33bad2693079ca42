import MarsCalendar.Proofs.Earth.JulianDate
import MarsCalendar.Proofs.Scale.Twin

set_option autoImplicit false

/-! The two ways from a Julian date on a scale to a moment. One brings the date to UTC by the
scale's own offset and reads it; the other goes by way of TT whatever the scale, UTC itself
included. Both read a moment wherever the UTC date lies in the supported years, and the moments
differ by as much as the way by TT moves that date: by next to nothing, unless the date has a
twin that the steps from TT find. -/

namespace MarsCalendar

open Civil (Clock IsOffset Reading)
open Gregorian (Date InRange)
open Julian (civilDate clockOfFraction midnightDay unixEpochDay yearMonth yearStart
  yearStart_add_year_le)
open Scale (ComesBack HasTwin Supported ttOfUtc utcOfTai utcOfTt)

variable {date utc : Rat}

/-! ### The reading of a UTC date -/

namespace Julian

def readingAt (date : Rat) : Reading :=
  ⟨civilDate date, clockOfFraction (date + 1 / 2 - midnightDay date), none⟩

theorem clock_readingAt (date : Rat) :
    (readingAt date).clock.InDay ∧ (readingAt date).clock.second ≤ 59 ∧
      ((readingAt date).clock.microseconds : Rat) ≤
        (date + 1 / 2 - midnightDay date) * 86400000000 ∧
      (date + 1 / 2 - midnightDay date) * 86400000000 <
        (readingAt date).clock.microseconds + 1 := by
  obtain ⟨low, high⟩ := midnightDay_bounds date
  exact clockOfFraction_spec low high

theorem readingAt_valid (date : Rat) : (readingAt date).Valid := by
  obtain ⟨inDay, common, -⟩ := clock_readingAt date
  have utc : IsOffset 0 := by decide
  refine ⟨utc, civilDate_valid date, inDay, ?_⟩
  intro inserted
  omega

theorem unixSeconds_readingAt (date : Rat) :
    (readingAt date).unixSeconds =
      (midnightDay date - unixEpochDay) * 86400 + (readingAt date).clock.storedSeconds := by
  have number : (readingAt date).date.dayNumber = midnightDay date - unixEpochDay :=
    Date.dayNumber_ofDayNumber _
  have utc : (readingAt date).offsetSeconds = 0 := rfl
  unfold Reading.unixSeconds
  rw [number, utc, sub_zero]

theorem unixMicroseconds_readingAt (date : Rat) :
    (unixMicroseconds (readingAt date) : Rat) ≤ toTimestamp date * 1000000 ∧
      toTimestamp date * 1000000 < unixMicroseconds (readingAt date) + 1 := by
  obtain ⟨inDay, common, low, high⟩ := clock_readingAt date
  have stored : (readingAt date).clock.storedSeconds = (readingAt date).clock.seconds := by
    unfold Clock.storedSeconds Clock.seconds
    rw [Nat.min_eq_left common]
  have count : unixMicroseconds (readingAt date) =
      (midnightDay date - unixEpochDay) * 86400000000 + (readingAt date).clock.microseconds := by
    unfold unixMicroseconds Clock.microseconds
    rw [unixSeconds_readingAt, stored]
    push_cast
    ring
  have timestamp : toTimestamp date = (date - 4881175 / 2) * 86400 := by
    unfold toTimestamp unixEpoch secondsPerDay
    norm_num
  rw [timestamp, count]
  unfold unixEpochDay
  push_cast
  constructor <;> linarith

end Julian

/-! ### The moment of a UTC date -/

theorem Scale.Supported.civilDate_years (supported : Supported date) :
    -262143 ≤ (civilDate date).year ∧ (civilDate date).year ≤ 262142 := by
  obtain ⟨first, last⟩ := supported
  have low := Julian.le_year_iff.mpr first
  have high := Julian.year_lt_iff.mpr last
  omega

namespace Earth.Moment

variable {reading : Reading} {moment : Moment}

theorem unixMicroseconds_of_ofReading (valid : reading.Valid) (common : reading.clock.second ≤ 59)
    (made : ofReading reading = .ok moment) :
    moment.unixMicroseconds = Julian.unixMicroseconds reading := by
  obtain ⟨-, seconds, nanosecond, -⟩ := (ofReading_eq_ok_iff valid).mp made
  have stored : reading.clock.storedNanosecond = reading.clock.microsecond * 1000 := by
    unfold Clock.storedNanosecond
    rw [if_neg (by omega), Nat.add_zero]
  unfold unixMicroseconds subsecondMicroseconds Julian.unixMicroseconds
  rw [seconds, nanosecond, stored, Nat.mul_div_cancel _ (by decide)]

/-- The moment of a UTC date in the supported years is the last microsecond not after it. -/
theorem ofUtcJulian_of_supported (supported : Supported utc) :
    ∃ moment, ofUtcJulian utc = .ok moment ∧
      (moment.timestamp : Rat) ≤ Julian.toTimestamp utc ∧
      Julian.toTimestamp utc < moment.timestamp + 1 / 1000000 := by
  obtain ⟨low, high⟩ := supported.civilDate_years
  obtain ⟨inDay, common, -⟩ := Julian.clock_readingAt utc
  have valid := Julian.readingAt_valid utc
  have read : Julian.toReading utc = .ok (Julian.readingAt utc) :=
    (Julian.toReading_eq utc).trans (if_pos ⟨by omega, by omega⟩)
  have inRange : InRange (Julian.readingAt utc).date.dayNumber :=
    (Gregorian.inRange_dayNumber_iff valid.2.1).mpr ⟨low, high⟩
  have utcInRange : InRange ((Julian.readingAt utc).unixSeconds / 86400) := by
    have number : (Julian.readingAt utc).date.dayNumber = midnightDay utc - unixEpochDay :=
      Date.dayNumber_ofDayNumber _
    have ofDay := Clock.storedSeconds_lt _ inDay
    have day : (Julian.readingAt utc).unixSeconds / 86400 =
        (Julian.readingAt utc).date.dayNumber := by
      rw [Julian.unixSeconds_readingAt, number]
      omega
    rw [day]
    exact inRange
  obtain ⟨moment, made⟩ := ofReading_inRange valid inRange utcInRange
  obtain ⟨notAfter, last⟩ := Julian.unixMicroseconds_readingAt utc
  refine ⟨moment, ?_, ?_⟩
  · unfold ofUtcJulian
    rw [read]
    exact made
  · rw [timestamp_eq, unixMicroseconds_of_ofReading valid common made]
    constructor <;> linarith

end Earth.Moment

/-! ### The two ways -/

namespace Scale

def toUtc : Scale → Rat → Rat
  | .utc, date => date
  | .tai, date => utcOfTai date
  | .tt, date => utcOfTt date

variable {other bound : Rat}

/-- Whatever is told apart between 1e-11 days and a quarter of a second, the dates that do not
come back are those with a twin. -/
theorem ComesBack.close_iff (back : ComesBack date other) (least : 1 / 10 ^ 11 ≤ bound)
    (below : bound < 1 / 345600) : |other - date| ≤ bound ↔ ¬ HasTwin date := by
  cases back with
  | later passed shared far near =>
      refine ⟨fun close => ?_, fun single => absurd (.inl passed) single⟩
      have atMost := (abs_le.mp close).2
      linarith
  | earlier fallen shared near far =>
      refine ⟨fun close => ?_, fun single => absurd (.inr fallen) single⟩
      have atLeast := (abs_le.mp close).1
      linarith
  | kept single close => exact ⟨fun _ => single, fun _ => close.trans least⟩

end Scale

namespace Earth.Moment

theorem ofJulian_eq (scale : Scale) (date : Rat) :
    ofJulian date scale = ofUtcJulian (scale.toUtc date) := by
  cases scale <;> rfl

theorem ofJulianDate_eq (scale : Scale) (date : Rat) :
    ofJulianDate (⟨date⟩ : JulianDate scale Rat) =
      ofUtcJulian (if scale = .tt then scale.toUtc date
        else utcOfTt (ttOfUtc (scale.toUtc date))) := by
  cases scale <;> rfl

theorem ofUtcJulian_by_tt (supported : Supported utc) :
    ∃ direct back, ofUtcJulian utc = .ok direct ∧
      ofUtcJulian (utcOfTt (ttOfUtc utc)) = .ok back ∧
      (|(direct.timestamp : Rat) - back.timestamp| ≤ 1 / 1000 ↔ ¬ HasTwin utc) := by
  obtain ⟨direct, made, directLow, directHigh⟩ := ofUtcJulian_of_supported supported
  obtain ⟨back, madeBack, backLow, backHigh⟩ :=
    ofUtcJulian_of_supported supported.utcOfTt_ttOfUtc
  refine ⟨direct, back, made, madeBack, ?_⟩
  have comes := Scale.comesBack supported
  generalize utcOfTt (ttOfUtc utc) = other at *
  have difference : Julian.toTimestamp utc - Julian.toTimestamp other = (utc - other) * 86400 := by
    unfold Julian.toTimestamp Julian.secondsPerDay
    norm_num
    ring
  rw [abs_le]
  constructor
  · rintro ⟨low, high⟩
    have limit : (1 : Rat) / 10 ^ 11 ≤ 2 / 86400000 := by norm_num
    rw [← comes.close_iff limit (by norm_num), abs_le]
    constructor <;> linarith
  · intro single
    have close := (comes.close_iff (le_refl _) (by norm_num)).mpr single
    obtain ⟨low, high⟩ := abs_le.mp close
    norm_num at low high
    constructor <;> linarith

theorem convert_utc_close_iff (supported : Supported utc) :
    |((⟨utc⟩ : JulianDate .utc Rat).convert .utc).value - utc| * 86400 ≤ 1 / 1000 ↔
      ¬ HasTwin utc := by
  have comes := Scale.comesBack supported
  have limit : (1 : Rat) / 10 ^ 11 ≤ 1 / 86400000 := by norm_num
  rw [← comes.close_iff limit (by norm_num)]
  change |utcOfTt (ttOfUtc utc) - utc| * 86400 ≤ 1 / 1000 ↔ _
  constructor <;> intro close <;> linarith

/-- Both ways read a moment for every date on a scale whose UTC date lies in the supported years.
The moments are within a millisecond of each other always on TT, and on UTC and TAI unless the UTC
date has a twin; and the way from UTC to itself moves a date that much only if it has one. -/
theorem ofJulian_ofJulianDate_close_iff (scale : Scale) (date : Rat)
    (supported : Supported (scale.toUtc date)) :
    (∃ direct typed, ofJulian date scale = .ok direct ∧
      ofJulianDate (⟨date⟩ : JulianDate scale Rat) = .ok typed ∧
      (|(direct.timestamp : Rat) - typed.timestamp| ≤ 1 / 1000 ↔
        scale = .tt ∨ ¬ HasTwin (scale.toUtc date))) ∧
    (|((⟨scale.toUtc date⟩ : JulianDate .utc Rat).convert .utc).value - scale.toUtc date| * 86400
        ≤ 1 / 1000 ↔ ¬ HasTwin (scale.toUtc date)) := by
  refine ⟨?_, convert_utc_close_iff supported⟩
  rw [ofJulian_eq, ofJulianDate_eq]
  by_cases onTt : scale = .tt
  · obtain ⟨moment, made, -⟩ := ofUtcJulian_of_supported supported
    have near : |(moment.timestamp : Rat) - moment.timestamp| ≤ 1 / 1000 := by
      rw [sub_self, abs_zero]
      norm_num
    rw [if_pos onTt]
    exact ⟨moment, moment, made, made, fun _ => .inl onTt, fun _ => near⟩
  · obtain ⟨direct, back, made, madeBack, close⟩ := ofUtcJulian_by_tt supported
    rw [if_neg onTt]
    exact ⟨direct, back, made, madeBack, close.trans (or_iff_right onTt).symm⟩

/-- The second inserted at the end of 2016 is not in the way. -/
theorem ofJulian_ofJulianDate_close_at_2017 :
    Supported (Scale.toUtc .utc (yearStart 2017)) ∧
    ∃ direct typed, ofJulian (yearStart 2017) .utc = .ok direct ∧
      ofJulianDate (⟨yearStart 2017⟩ : JulianDate .utc Rat) = .ok typed ∧
      |(direct.timestamp : Rat) - typed.timestamp| ≤ 1 / 1000 := by
  have lower : yearStart (-262143) + 365 ≤ yearStart 2017 := yearStart_add_year_le (by decide)
  have since1972 : yearStart 1972 + 365 ≤ yearStart 2017 := yearStart_add_year_le (by decide)
  have upper : yearStart 2017 + 365 ≤ yearStart 262143 := yearStart_add_year_le (by decide)
  have supported : Supported (Scale.toUtc .utc (yearStart 2017)) := by
    change yearStart (-262143) ≤ yearStart 2017 ∧ yearStart 2017 < yearStart 262143
    constructor <;> linarith
  have single : ¬ HasTwin (yearStart 2017) :=
    Scale.not_hasTwin_since1972 (by linarith) (by linarith)
  obtain ⟨⟨direct, typed, made, madeTyped, close⟩, -⟩ :=
    ofJulian_ofJulianDate_close_iff .utc (yearStart 2017) supported
  exact ⟨supported, direct, typed, made, madeTyped, close.mpr (.inr single)⟩

/-- The last second and a third of 1971 comes back in 1972, where no second has been inserted
yet a minute later. -/
theorem ofJulian_ofJulianDate_apart_before1972 :
    let date : Rat := 2441317.4999847412109375
    Supported date ∧ (yearMonth (date + 1 / 1440)).leapSeconds = 0 ∧
    (∃ direct typed, ofJulian date .utc = .ok direct ∧
      ofJulianDate (⟨date⟩ : JulianDate .utc Rat) = .ok typed ∧
      ¬ |(direct.timestamp : Rat) - typed.timestamp| ≤ 1 / 1000) ∧
    ¬ |((⟨date⟩ : JulianDate .utc Rat).convert .utc).value - date| * 86400 ≤ 1 / 1000 := by
  intro date
  have place : date = yearStart 1972 - 1 / 65536 := by
    rw [Scale.yearStart_1972]
    norm_num [date]
  clear_value date
  have lower : yearStart (-262143) + 365 ≤ yearStart 1770 := yearStart_add_year_le (by decide)
  have upper : yearStart 1972 + 365 ≤ yearStart 262143 := yearStart_add_year_le (by decide)
  have era := Scale.day_le_era
  have inEra : Scale.InEra date := by
    rw [place]
    constructor <;> linarith
  have supported : Supported date := ⟨by linarith [inEra.1], by linarith [inEra.2]⟩
  have twin : HasTwin date := by
    have lastDay : yearStart 1972 - 1 ≤ date := by linarith
    have late := (Scale.middleSeconds_end lastDay inEra.2.le).1
    refine .inl (inEra.passed_iff.mpr ?_)
    rw [Scale.ttOfUtc_1972, Scale.ttOfUtc_eq, inEra.ttMinusUtcAt_eq]
    norm_num
    linarith
  have noneYet : (yearMonth (date + 1 / 1440)).leapSeconds = 0 := by
    rw [Scale.yearMonth_first_day (by linarith) (by linarith)]
    decide
  obtain ⟨direct, back, made, madeBack, close⟩ := ofUtcJulian_by_tt supported
  exact ⟨supported, noneYet, ⟨direct, back, made, madeBack, fun near => close.mp near twin⟩,
    fun near => (convert_utc_close_iff supported).mp near twin⟩

end Earth.Moment

end MarsCalendar

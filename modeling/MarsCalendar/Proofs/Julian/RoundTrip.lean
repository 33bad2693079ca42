import MarsCalendar.Proofs.Civil.Utc
import MarsCalendar.Proofs.Julian.Calendar

set_option autoImplicit false

/-! Julian dates and civil readings over the rationals. A reading is a whole number of
microseconds, counted from the start of 1970 in UTC; its Julian date is that count on
another scale, and the reading of a Julian date is the last one not after it. -/

namespace MarsCalendar.Julian

open Civil (Clock IsOffset Reading leapNanosecond)
open Gregorian (Date)

/-! ### The clock of a fraction of a day -/

theorem toCount_whole {value : Rat} {whole : Nat} (isWhole : value = whole)
    (fits : whole ≤ 9223372036854775807) : Scalar.toCount value = whole := by
  have word : truncateRat (whole : Rat) = whole := truncateRat_intCast whole
  change (clampWord (truncateRat value)).toNat = whole
  rw [isWhole, word, clampWord_of_fits, Int.toNat_natCast]
  unfold FitsWord
  omega

theorem floor_of_bounds (amount : Rat) (units : Nat) (low : 0 ≤ amount)
    (high : amount < units) (fits : units ≤ 1000000) :
    ∃ whole : Nat, (Scalar.floor amount : Rat) = whole ∧
      Scalar.toCount (Scalar.floor amount : Rat) = whole ∧ whole < units ∧
      0 ≤ amount - whole ∧ amount - whole < 1 := by
  obtain ⟨whole, wholeIs, below, above⟩ := exists_floor_eq low
  have isWhole : (Scalar.floor amount : Rat) = whole := by
    change ((amount.floor : Int) : Rat) = whole
    rw [wholeIs, Int.cast_natCast]
  have bounded : whole < units := by
    have cast : (whole : Rat) < units := lt_of_le_of_lt below high
    exact_mod_cast cast
  exact ⟨whole, isWhole, toCount_whole isWhole (by omega), bounded, by linarith, by linarith⟩

theorem clockOfFraction_spec {fraction : Rat} (low : 0 ≤ fraction) (high : fraction < 1) :
    (clockOfFraction fraction).InDay ∧ (clockOfFraction fraction).second ≤ 59 ∧
      ((clockOfFraction fraction).microseconds : Rat) ≤ fraction * 86400000000 ∧
      fraction * 86400000000 < (clockOfFraction fraction).microseconds + 1 := by
  obtain ⟨hour, hourIs, hourCount, hourHigh, hourRest, hourLess⟩ :=
    floor_of_bounds (fraction * 24.0) 24 (by norm_num; linarith)
      (by norm_num; linarith) (by decide)
  obtain ⟨minute, minuteIs, minuteCount, minuteHigh, minuteRest, minuteLess⟩ :=
    floor_of_bounds ((fraction * 24.0 - hour) * 60.0) 60
      (by norm_num at *; linarith) (by norm_num at *; linarith) (by decide)
  obtain ⟨second, secondIs, secondCount, secondHigh, secondRest, secondLess⟩ :=
    floor_of_bounds (((fraction * 24.0 - hour) * 60.0 - minute) * 60.0) 60
      (by norm_num at *; linarith) (by norm_num at *; linarith) (by decide)
  obtain ⟨micro, microIs, microCount, microHigh, microRest, microLess⟩ :=
    floor_of_bounds ((((fraction * 24.0 - hour) * 60.0 - minute) * 60.0 - second) * 1e6)
      1000000 (by norm_num at *; linarith) (by norm_num at *; linarith) (by decide)
  have clock : clockOfFraction fraction = ⟨hour, minute, second, micro⟩ := by
    simp only [clockOfFraction]
    rw [hourCount, hourIs, minuteCount, minuteIs, secondCount, secondIs, microCount]
  rw [clock]
  refine ⟨⟨by dsimp only; omega, by dsimp only; omega, by dsimp only; omega,
    by dsimp only; omega⟩, by dsimp only; omega, ?_⟩
  unfold Clock.microseconds Clock.seconds
  push_cast
  norm_num at *
  constructor <;> linarith

/-! ### The reading of a Julian date -/

/-- The day of a Julian date, which begins half a day before the Julian day does. -/
def midnightDay (date : Rat) : Int :=
  (date + 1 / 2).floor

def civilDate (date : Rat) : Date :=
  Date.ofDayNumber (midnightDay date - unixEpochDay)

def FitsYear (year : Int) : Prop :=
  -2147483648 ≤ year ∧ year ≤ 2147483647

instance (year : Int) : Decidable (FitsYear year) :=
  inferInstanceAs (Decidable (_ ∧ _))

theorem midnightDay_bounds (date : Rat) :
    0 ≤ date + 1 / 2 - midnightDay date ∧ date + 1 / 2 - midnightDay date < 1 :=
  floor_bounds (date + 1 / 2)

theorem midnightSplit_eq (date : Rat) :
    midnightSplit date = ((midnightDay date : Rat), date + 1 / 2 - midnightDay date) := by
  obtain ⟨below, above⟩ := floor_bounds date
  obtain ⟨dayBelow, dayAbove⟩ := midnightDay_bounds date
  have one : (1.0 : Rat) = 1 := by norm_num
  have half : (0.5 : Rat) = 1 / 2 := by norm_num
  simp only [midnightSplit]
  change (if (1.0 : Rat) ≤ date - (date.floor : Rat) + 0.5 then
    ((date.floor : Rat) + 1.0, date - (date.floor : Rat) + 0.5 - 1.0)
    else ((date.floor : Rat), date - (date.floor : Rat) + 0.5)) = _
  rw [one, half]
  split
  · rename_i afternoon
    -- Half a day past noon the next day has begun at midnight.
    have day : midnightDay date = date.floor + 1 := by
      have atLeast : (date.floor : Rat) < midnightDay date := by linarith
      have atMost : (midnightDay date : Rat) < ((date.floor + 2 : Int) : Rat) := by
        push_cast
        linarith
      have lower := Rat.intCast_lt_intCast.mp atLeast
      have upper := Rat.intCast_lt_intCast.mp atMost
      omega
    rw [day]
    push_cast
    congr 1
    ring
  · rename_i morning
    have day : midnightDay date = date.floor := by
      have atLeast : ((date.floor - 1 : Int) : Rat) < midnightDay date := by
        push_cast
        linarith
      have atMost : (midnightDay date : Rat) < ((date.floor + 1 : Int) : Rat) := by
        push_cast
        linarith
      have lower := Rat.intCast_lt_intCast.mp atLeast
      have upper := Rat.intCast_lt_intCast.mp atMost
      omega
    rw [day]
    congr 1
    ring

theorem calendarDay_midnightDay (date : Rat) :
    calendarDay (midnightDay date : Rat) =
      (((civilDate date).year : Rat), ((civilDate date).month : Rat),
        ((civilDate date).day : Rat)) := by
  have valid : (civilDate date).Valid := Date.ofDayNumber_valid _
  have number : (civilDate date).dayNumber + unixEpochDay = midnightDay date := by
    unfold civilDate
    rw [Date.dayNumber_ofDayNumber]
    omega
  rw [← number]
  exact calendarDay_dayNumber valid

theorem toReading_eq (date : Rat) :
    toReading date =
      if FitsYear (civilDate date).year then
        .ok ⟨civilDate date, clockOfFraction (date + 1 / 2 - midnightDay date), none⟩
      else .error .outOfRange := by
  have valid : (civilDate date).Valid := Date.ofDayNumber_valid _
  obtain ⟨⟨monthLow, monthHigh⟩, dayLow, dayHigh⟩ := valid
  have long := (Gregorian.daysInMonth_bounds (civilDate date).year _ ⟨monthLow, monthHigh⟩).2
  have month : Scalar.toCount ((civilDate date).month : Rat) = (civilDate date).month :=
    toCount_whole rfl (by omega)
  have day : Scalar.toCount ((civilDate date).day : Rat) = (civilDate date).day :=
    toCount_whole rfl (by omega)
  have outside : ((civilDate date).year : Rat) < -2147483648.0 ∨
      (2147483647.0 : Rat) < (civilDate date).year ↔ ¬ FitsYear (civilDate date).year := by
    have low : (-2147483648.0 : Rat) = ((-2147483648 : Int) : Rat) := by norm_num
    have high : (2147483647.0 : Rat) = ((2147483647 : Int) : Rat) := by norm_num
    rw [low, high, Rat.intCast_lt_intCast, Rat.intCast_lt_intCast]
    unfold FitsYear
    omega
  have finite : Scalar.isFinite date = true := rfl
  unfold toReading
  rw [if_pos finite, midnightSplit_eq]
  dsimp only
  rw [calendarDay_midnightDay]
  dsimp only
  rw [month, day]
  by_cases fits : FitsYear (civilDate date).year
  · have year : Scalar.toWord ((civilDate date).year : Rat) = (civilDate date).year := by
      change clampWord (truncateRat ((civilDate date).year : Rat)) = _
      rw [truncateRat_intCast, clampWord_of_fits]
      unfold FitsYear at fits
      unfold FitsWord
      omega
    rw [if_neg (fun beyond => outside.mp beyond fits), if_pos fits, year]
  · rw [if_pos (outside.mpr fits), if_neg fits]

/-! ### The Julian date of a reading -/

def unixMicroseconds (reading : Reading) : Int :=
  reading.unixSeconds * 1000000 + reading.clock.microsecond

theorem ofReading_eq {reading : Reading} (date : reading.date.Valid)
    (common : reading.clock.second ≤ 59) :
    (ofReading reading : Rat) = 4881175 / 2 + unixMicroseconds reading / 86400000000 := by
  have stored : reading.clock.storedSeconds = reading.clock.seconds := by
    unfold Clock.storedSeconds Clock.seconds
    rw [Nat.min_eq_left common]
  have integer (value : Int) : (Scalar.ofInt value : Rat) = value := rfl
  simp only [ofReading, Reading.secondsOfDay, secondsPerDay]
  rw [dayNumber_eq date.1, integer, integer, integer, integer]
  unfold unixMicroseconds Reading.unixSeconds unixEpochDay
  rw [stored]
  push_cast
  norm_num
  ring

theorem clock_eq_of_microseconds {left right : Clock} (leftInDay : left.InDay)
    (rightInDay : right.InDay) (leftCommon : left.second ≤ 59) (rightCommon : right.second ≤ 59)
    (same : left.microseconds = right.microseconds) : left = right := by
  obtain ⟨leftHour, leftMinute, -, leftMicrosecond⟩ := leftInDay
  obtain ⟨rightHour, rightMinute, -, rightMicrosecond⟩ := rightInDay
  unfold Clock.microseconds Clock.seconds at same
  ext <;> omega

variable {reading : Reading}

theorem midnightDay_ofReading (valid : reading.Valid) (common : reading.clock.second ≤ 59) :
    midnightDay (ofReading reading) = unixEpochDay + reading.unixSeconds / 86400 := by
  have inSecond : reading.clock.microsecond ≤ 999999 := valid.2.2.1.2.2.2
  have whole : (ofReading reading : Rat) + 1 / 2 =
      ((unixEpochDay * 86400000000 + unixMicroseconds reading : Int) : Rat) /
        ((86400000000 : Nat) : Rat) := by
    rw [ofReading_eq valid.2.1 common]
    unfold unixEpochDay
    push_cast
    ring
  unfold midnightDay
  rw [whole]
  refine (Rat.floor_intCast_div_natCast _ 86400000000).trans ?_
  unfold unixMicroseconds unixEpochDay
  omega

theorem civilDate_ofReading (valid : reading.Valid) (common : reading.clock.second ≤ 59) :
    civilDate (ofReading reading) = reading.toUtc.date := by
  have day : unixEpochDay + reading.unixSeconds / 86400 - unixEpochDay =
      reading.unixSeconds / 86400 := by omega
  unfold civilDate
  rw [midnightDay_ofReading valid common, Reading.toUtc_eq valid, day]

theorem clockOfFraction_eq {fraction : Rat} {clock : Clock} (inDay : clock.InDay)
    (common : clock.second ≤ 59) (low : 0 ≤ fraction) (high : fraction < 1)
    (count : fraction * 86400000000 = clock.microseconds) : clockOfFraction fraction = clock := by
  obtain ⟨readInDay, readCommon, below, above⟩ := clockOfFraction_spec low high
  rw [count] at below above
  have atMost : (clockOfFraction fraction).microseconds ≤ clock.microseconds := by
    exact_mod_cast below
  have atLeast : clock.microseconds < (clockOfFraction fraction).microseconds + 1 := by
    exact_mod_cast above
  exact clock_eq_of_microseconds readInDay inDay readCommon common (by omega)

theorem clock_ofReading (valid : reading.Valid) (common : reading.clock.second ≤ 59) :
    clockOfFraction ((ofReading reading : Rat) + 1 / 2 - midnightDay (ofReading reading)) =
      reading.toUtc.clock := by
  have inSecond : reading.clock.microsecond ≤ 999999 := valid.2.2.1.2.2.2
  have ofDay : (reading.unixSeconds % 86400).toNat < 86400 := by omega
  have stored : reading.clock.storedNanosecond = reading.clock.microsecond * 1000 := by
    unfold Clock.storedNanosecond
    rw [if_neg (by omega), Nat.add_zero]
  have notLeap : ¬ leapNanosecond ≤ reading.clock.storedNanosecond := by
    unfold leapNanosecond
    omega
  obtain ⟨low, high⟩ := midnightDay_bounds (ofReading reading)
  rw [Reading.toUtc_eq valid]
  refine clockOfFraction_eq (Clock.inDay_ofStored ofDay _) ?_ low high ?_
  · unfold Clock.ofStored
    rw [if_neg notLeap]
    dsimp only
    omega
  · have microseconds : ((Clock.ofStored (reading.unixSeconds % 86400).toNat
        reading.clock.storedNanosecond).microseconds : Int) =
        unixMicroseconds reading - reading.unixSeconds / 86400 * 86400000000 := by
      unfold Clock.ofStored
      rw [if_neg notLeap]
      unfold Clock.microseconds Clock.seconds leapNanosecond unixMicroseconds
      dsimp only
      omega
    rw [← Int.cast_natCast, microseconds, midnightDay_ofReading valid common,
      ofReading_eq valid.2.1 common]
    unfold unixEpochDay
    push_cast
    ring

/-! ### Decoding is the floor of encoding -/

/-- A Julian date is out of range exactly where its year has more than 32 bits. Otherwise its
reading is a valid one in UTC, the last microsecond not after it; so a reading comes back
from its Julian date as its reading in UTC. -/
theorem toReading_floor_inverse :
    (∀ date : Rat, toReading date = .error .outOfRange ↔ ¬ FitsYear (civilDate date).year) ∧
    (∀ date : Rat, FitsYear (civilDate date).year →
      ∃ reading, toReading date = .ok reading ∧ reading.Valid ∧ reading.offset = none ∧
        reading.clock.second ≤ 59 ∧ ofReading reading ≤ date ∧
        date < ofReading reading + 1 / 86400000000) ∧
    (∀ reading : Reading, reading.Valid → reading.clock.second ≤ 59 →
      FitsYear reading.toUtc.date.year →
      toReading (ofReading reading : Rat) = .ok reading.toUtc) := by
  refine ⟨?_, ?_, ?_⟩
  · intro date
    rw [toReading_eq]
    split
    · rename_i fits
      exact ⟨fun failed => (nomatch failed), fun outside => absurd fits outside⟩
    · rename_i outside
      exact ⟨fun _ => outside, fun _ => rfl⟩
  · intro date fits
    obtain ⟨low, high⟩ := midnightDay_bounds date
    obtain ⟨inDay, common, below, above⟩ := clockOfFraction_spec low high
    have real : (civilDate date).Valid := Date.ofDayNumber_valid _
    have utc : IsOffset 0 := by decide
    refine ⟨⟨civilDate date, clockOfFraction (date + 1 / 2 - midnightDay date), none⟩,
      (toReading_eq date).trans (if_pos fits), ⟨utc, real, inDay, ?_⟩, rfl, common, ?_⟩
    · intro inserted
      dsimp only at inserted
      omega
    · rw [ofReading_eq real common]
      generalize clockOfFraction (date + 1 / 2 - midnightDay date) = clock at *
      have count : unixMicroseconds ⟨civilDate date, clock, none⟩ =
          (midnightDay date - unixEpochDay) * 86400000000 + clock.microseconds := by
        have number : (civilDate date).dayNumber = midnightDay date - unixEpochDay :=
          Date.dayNumber_ofDayNumber _
        unfold unixMicroseconds Reading.unixSeconds Clock.microseconds Clock.seconds
          Clock.storedSeconds Reading.offsetSeconds
        dsimp only
        rw [number, Nat.min_eq_left common, Option.getD_none]
        omega
      rw [count]
      unfold unixEpochDay
      push_cast
      constructor <;> linarith
  · intro reading valid common fits
    rw [toReading_eq, civilDate_ofReading valid common, clock_ofReading valid common, if_pos fits]
    rfl

/-- The last microsecond of a short February of a century, read an hour to the east; noon of
a day before the first century; and a trillion days. -/
theorem toReading_floor_inverse_at_centuries :
    toReading (ofReading ⟨⟨1900, 3, 1⟩, ⟨0, 59, 59, 999999⟩, some 3600⟩ : Rat) =
        .ok ⟨⟨1900, 2, 28⟩, ⟨23, 59, 59, 999999⟩, none⟩ ∧
      toReading (ofReading ⟨⟨-100, 2, 28⟩, ⟨12, 0, 0, 0⟩, none⟩ : Rat) =
        .ok ⟨⟨-100, 2, 28⟩, ⟨12, 0, 0, 0⟩, none⟩ ∧
      toReading (1000000000000 : Rat) = .error .outOfRange := by
  obtain ⟨outOfRange, -, kept⟩ := toReading_floor_inverse
  have far : midnightDay 1000000000000 = 1000000000000 := by
    have half : (1000000000000 : Rat) + 1 / 2 = ((2000000000001 : Int) : Rat) / (2 : Nat) := by
      norm_num
    unfold midnightDay
    rw [half]
    exact Rat.floor_intCast_div_natCast 2000000000001 2
  have beyond : ¬ FitsYear (civilDate 1000000000000).year := by
    unfold civilDate
    rw [far]
    decide
  exact ⟨kept ⟨⟨1900, 3, 1⟩, ⟨0, 59, 59, 999999⟩, some 3600⟩ (by decide) (by decide) (by decide),
    kept ⟨⟨-100, 2, 28⟩, ⟨12, 0, 0, 0⟩, none⟩ (by decide) (by decide) (by decide),
    (outOfRange _).mpr beyond⟩

end MarsCalendar.Julian

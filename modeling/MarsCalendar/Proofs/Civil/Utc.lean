import MarsCalendar.Civil.Reading
import MarsCalendar.Gregorian.Lemmas

set_option autoImplicit false

/-! The UTC reading of a civil reading. Its offset is less than a day, so the date moves
by a day at most, over the end of a month or a year where it has to; counted in seconds,
date and clock together lose exactly the offset. An inserted second moves with the second
before it. -/

namespace MarsCalendar.Civil

open Gregorian (Date)

theorem Reading.shiftedDate_spec {date : Date} (valid : date.Valid) (days : Int)
    (back : -1 ≤ days) (forth : days ≤ 1) :
    (shiftedDate date days).Valid ∧ (shiftedDate date days).dayNumber = date.dayNumber + days := by
  obtain ⟨named, first, last⟩ := valid
  unfold shiftedDate
  dsimp only
  split
  · have number := Date.dayNumber_previousMonthEnd named.1
    exact ⟨Date.previousMonthEnd_valid ⟨named, first, last⟩, by omega⟩
  · split
    · have number := Date.dayNumber_nextMonth date
      exact ⟨Date.nextMonth_valid ⟨named, first, last⟩, by omega⟩
    · refine ⟨⟨named, ?_, ?_⟩, ?_⟩
      · dsimp only
        omega
      · dsimp only
        omega
      · simp only [Date.dayNumber]
        omega

theorem Clock.inDay_ofStored {seconds : Nat} (inDay : seconds < 86400) (nanosecond : Nat) :
    (ofStored seconds nanosecond).InDay := by
  unfold ofStored InDay leapNanosecond
  dsimp only
  refine ⟨by omega, by omega, ?_, by omega⟩
  split <;> omega

theorem Clock.stored_ofStored {seconds nanosecond : Nat} (fits : nanosecond < 2 * leapNanosecond)
    (microseconds : nanosecond % 1000 = 0)
    (last : leapNanosecond ≤ nanosecond → seconds % 60 = 59) :
    (ofStored seconds nanosecond).storedSeconds = seconds ∧
      (ofStored seconds nanosecond).storedNanosecond = nanosecond := by
  unfold ofStored storedSeconds storedNanosecond leapNanosecond at *
  dsimp only
  by_cases leap : 1000000000 ≤ nanosecond
  · have minute := last leap
    rw [if_pos leap, if_pos rfl]
    omega
  · rw [if_neg leap, if_neg (by omega)]
    omega

namespace Reading

def toUtc (reading : Reading) : Reading :=
  let seconds := (reading.clock.storedSeconds : Int) - reading.offsetSeconds
  ⟨shiftedDate reading.date (seconds / 86400),
    Clock.ofStored (seconds % 86400).toNat reading.clock.storedNanosecond, none⟩

def unixSeconds (reading : Reading) : Int :=
  reading.date.dayNumber * 86400 + reading.clock.storedSeconds - reading.offsetSeconds

variable {reading : Reading}

theorem toUtc_date (valid : reading.Valid) :
    reading.toUtc.date.Valid ∧ reading.toUtc.date.dayNumber = reading.unixSeconds / 86400 := by
  obtain ⟨⟨west, east⟩, date, clock, -⟩ := valid
  have stored := Clock.storedSeconds_lt _ clock
  obtain ⟨real, number⟩ := shiftedDate_spec date
    (((reading.clock.storedSeconds : Int) - reading.offsetSeconds) / 86400)
    (by omega) (by omega)
  refine ⟨real, ?_⟩
  unfold toUtc unixSeconds
  dsimp only
  omega

theorem toUtc_eq (valid : reading.Valid) :
    reading.toUtc = ⟨Date.ofDayNumber (reading.unixSeconds / 86400),
      Clock.ofStored (reading.unixSeconds % 86400).toNat reading.clock.storedNanosecond,
      none⟩ := by
  obtain ⟨real, number⟩ := toUtc_date valid
  have sameDate : Date.ofDayNumber (reading.unixSeconds / 86400) = reading.toUtc.date := by
    rw [← number, Date.ofDayNumber_dayNumber _ real]
  have sameClock : reading.unixSeconds % 86400 =
      ((reading.clock.storedSeconds : Int) - reading.offsetSeconds) % 86400 := by
    unfold unixSeconds
    omega
  rw [sameDate, sameClock]
  rfl

/-- With an offset of whole minutes, a reading falls in the last minute of a leap month where
its seconds of UTC do. -/
theorem inLeapMinute_iff (offset : IsOffset reading.offsetSeconds) (date : reading.date.Valid)
    (clock : reading.clock.InDay) (wholeMinutes : reading.offsetSeconds % 60 = 0) :
    reading.InLeapMinute ↔
      let utcDate := Date.ofDayNumber (reading.unixSeconds / 86400)
      reading.unixSeconds / 60 % 1440 = 1439 ∧ utcDate.IsMonthEnd ∧
        YearMonth.IsLeap ⟨utcDate.year, utcDate.month⟩ := by
  obtain ⟨west, east⟩ := offset
  obtain ⟨hour, minute, -, -⟩ := clock
  obtain ⟨minutes, minutesIs⟩ : ∃ minutes : Int, reading.offsetSeconds = minutes * 60 :=
    ⟨reading.offsetSeconds / 60, by omega⟩
  have quotient : reading.offsetSeconds.tdiv 60 = minutes := by
    rw [minutesIs]
    exact Int.mul_tdiv_cancel _ (by decide)
  obtain ⟨ofDay, ofDayIs⟩ : ∃ ofDay : Int, ofDay =
      (reading.clock.hour : Int) * 60 + reading.clock.minute - minutes := ⟨_, rfl⟩
  have second : reading.unixSeconds / 60 = reading.date.dayNumber * 1440 + ofDay := by
    unfold unixSeconds Clock.storedSeconds
    omega
  have day : reading.unixSeconds / 86400 = reading.date.dayNumber + ofDay / 1440 := by
    omega
  obtain ⟨real, number⟩ := shiftedDate_spec date (ofDay / 1440) (by omega) (by omega)
  have utcDate : Date.ofDayNumber (reading.unixSeconds / 86400) =
      shiftedDate reading.date (ofDay / 1440) := by
    rw [day, ← number, Date.ofDayNumber_dayNumber _ real]
  have minuteOfDay : reading.unixSeconds / 60 % 1440 = ofDay % 1440 := by omega
  rw [utcDate, minuteOfDay]
  unfold InLeapMinute
  rw [quotient, ← ofDayIs]

end Reading

end MarsCalendar.Civil

import MarsCalendar.Earth.Shift
import MarsCalendar.Proofs.Earth.Timestamp
import MarsCalendar.Proofs.Julian.ClockRounding

set_option autoImplicit false

/-! The moments that the library can reach. An inserted second comes into being only where a
reading names one; timestamps and Julian dates at binary64 never round into one, and
setting a field leaves it. So it stays the second after the last of a leap month of UTC,
whatever the offset, and every moment reads as a valid reading that makes it again. -/

namespace MarsCalendar.Earth

open Civil (Clock IsOffset Reading UtcOffset YearMonth leapNanosecond)
open Gregorian (Date InRange)

namespace Moment

/-- What every moment that is reached satisfies: whole microseconds, an offset of whole
minutes, a local date in the supported years, and an inserted second only after the last
one of a leap month of UTC. -/
structure Regular (moment : Moment) : Prop where
  microseconds : moment.nanosecond % 1000 = 0
  wholeMinutes : moment.offset.seconds % 60 = 0
  localInRange : moment.LocalInRange
  leap : moment.IsLeap → moment.seconds % secondsPerDay = 86399 ∧ moment.utcDate.IsMonthEnd ∧
    YearMonth.IsLeap ⟨moment.utcDate.year, moment.utcDate.month⟩

variable {moment next : Moment}

/-! ### Reading a regular moment -/

/-- The reading of a regular moment counts the moment's own seconds of UTC: an inserted second
is the last of its minute at every offset of whole minutes. -/
theorem Regular.localReading_stored (regular : moment.Regular) :
    moment.localReading.unixSeconds = moment.seconds ∧
      moment.localReading.clock.storedNanosecond = moment.nanosecond := by
  obtain ⟨microseconds, wholeMinutes, -, leap⟩ := regular
  have last : leapNanosecond ≤ moment.nanosecond →
      (moment.localSeconds % secondsPerDay).toNat % 60 = 59 := by
    intro inserted
    have ofDay := (leap inserted).1
    unfold localSeconds secondsPerDay at *
    omega
  obtain ⟨seconds, nanosecond⟩ := Clock.stored_ofStored moment.nanosecond_lt microseconds last
  refine ⟨?_, nanosecond⟩
  unfold Reading.unixSeconds
  rw [(localReading_date moment).2, localReading_offsetSeconds]
  change moment.localSeconds / secondsPerDay * 86400 + ((Clock.ofStored _ _).storedSeconds : Int) -
    _ = _
  rw [seconds]
  unfold localSeconds secondsPerDay
  omega

theorem Regular.localReading_valid (regular : moment.Regular) : moment.localReading.Valid := by
  obtain ⟨date, -⟩ := localReading_date moment
  obtain ⟨clock, inserted⟩ := localReading_clock moment
  have offset := localReading_offsetSeconds moment
  have isOffset : IsOffset moment.localReading.offsetSeconds := offset ▸ moment.offset.inDay
  refine ⟨isOffset, date, clock, fun full => ?_⟩
  have wholeMinutes : moment.localReading.offsetSeconds % 60 = 0 := offset ▸ regular.wholeMinutes
  obtain ⟨last, monthEnd, leapMonth⟩ := regular.leap (inserted.mp full)
  rw [Reading.inLeapMinute_iff isOffset date clock wholeMinutes, regular.localReading_stored.1]
  unfold secondsPerDay at last
  exact ⟨by omega, monthEnd, leapMonth⟩

theorem Regular.ofReading_localReading (regular : moment.Regular) :
    ofReading moment.localReading = .ok moment := by
  obtain ⟨seconds, nanosecond⟩ := regular.localReading_stored
  rw [ofReading_eq_ok_iff regular.localReading_valid, (localReading_date moment).2]
  exact ⟨regular.localInRange, seconds.symm, nanosecond.symm,
    (localReading_offsetSeconds moment).symm⟩

theorem Regular.withOffset (regular : moment.Regular) {offset : UtcOffset}
    (wholeMinutes : offset.seconds % 60 = 0)
    (inRange : (moment.withOffset offset).LocalInRange) : (moment.withOffset offset).Regular :=
  ⟨regular.microseconds, wholeMinutes, inRange, regular.leap⟩

theorem localSeconds_utc (moment : Moment) :
    (moment.withOffset .utc).localSeconds = moment.seconds :=
  Int.add_zero _

theorem utcCivil_eq (moment : Moment) :
    moment.utcCivil = (moment.withOffset .utc).localReading := by
  unfold localReading utcCivil
  rw [localSeconds_utc]
  rfl

theorem Regular.utcCivil_valid (regular : moment.Regular) : moment.utcCivil.Valid := by
  have inRange : (moment.withOffset .utc).LocalInRange := by
    unfold LocalInRange
    rw [localSeconds_utc]
    exact moment.inRange
  rw [utcCivil_eq]
  exact (regular.withOffset (by decide) inRange).localReading_valid

/-! ### What a moment is made of is regular -/

theorem regular_ofReading {reading : Reading} (valid : reading.Valid)
    (wholeMinutes : reading.offsetSeconds % 60 = 0) (made : ofReading reading = .ok moment) :
    moment.Regular := by
  obtain ⟨inRange, seconds, nanosecond, offset⟩ := (ofReading_eq_ok_iff valid).mp made
  obtain ⟨isOffset, date, clock, leap⟩ := valid
  have stored := Clock.storedSeconds_lt _ clock
  refine ⟨?_, by rwa [offset], ?_, fun inserted => ?_⟩
  · rw [nanosecond]
    unfold Clock.storedNanosecond leapNanosecond
    split <;> omega
  · have day : moment.localSeconds / secondsPerDay = reading.date.dayNumber := by
      unfold localSeconds secondsPerDay
      rw [seconds, offset]
      unfold Reading.unixSeconds
      omega
    unfold LocalInRange
    rwa [day]
  · unfold IsLeap at inserted
    rw [nanosecond, Clock.leap_stored _ clock] at inserted
    obtain ⟨lastMinute, monthEnd, leapMonth⟩ :=
      (Reading.inLeapMinute_iff isOffset date clock wholeMinutes).mp (leap inserted)
    have lastSecond : reading.unixSeconds % 60 = 59 := by
      unfold Reading.unixSeconds Clock.storedSeconds
      omega
    unfold utcDate secondsPerDay
    rw [seconds]
    exact ⟨by omega, monthEnd, leapMonth⟩

theorem regular_of_common (common : moment.nanosecond < leapNanosecond)
    (microseconds : moment.nanosecond % 1000 = 0) (wholeMinutes : moment.offset.seconds % 60 = 0)
    (inRange : moment.LocalInRange) : moment.Regular :=
  ⟨microseconds, wholeMinutes, inRange, fun leap => absurd leap (Nat.not_le.mpr common)⟩

theorem regular_ofTimestamp {timestamp : Float} (made : ofTimestamp timestamp = .ok moment) :
    moment.Regular := by
  obtain ⟨common, microseconds, utc⟩ := of_ofTimestamp made
  have noShift : moment.localSeconds = moment.seconds := by
    unfold localSeconds
    rw [utc]
    exact Int.add_zero _
  refine regular_of_common common microseconds ?_ ?_
  · rw [utc]
    decide
  · unfold LocalInRange
    rw [noShift]
    exact moment.inRange

theorem regular_ofUtcJulian {date : Float} (made : ofUtcJulian date = .ok moment) :
    moment.Regular := by
  unfold ofUtcJulian at made
  cases read : Julian.toReading date with
  | error fault =>
      rw [read] at made
      cases made
  | ok reading =>
      rw [read] at made
      obtain ⟨utc, common⟩ := Julian.toReading_common read
      obtain ⟨real, clock⟩ := real_of_ofReading made
      have noOffset : reading.offsetSeconds = 0 := by
        unfold Reading.offsetSeconds
        rw [utc]
        rfl
      have isOffset : IsOffset reading.offsetSeconds := by
        rw [noOffset]
        decide
      have valid : reading.Valid :=
        ⟨isOffset, real, clock, fun inserted => by omega⟩
      exact regular_ofReading valid (by rw [noOffset]; rfl) made

theorem regular_ofJulian {date : Float} {scale : Scale} (made : ofJulian date scale = .ok moment) :
    moment.Regular := by
  cases scale <;> exact regular_ofUtcJulian made

/-! ### What changes a moment keeps it regular -/

theorem Regular.set {field : Field} {value : Int} (regular : moment.Regular)
    (made : moment.set field value = some (.ok next)) : next.Regular := by
  obtain ⟨fields, -, rebuilt⟩ := Option.map_eq_some_iff.mp made
  unfold ofFields at rebuilt
  split at rebuilt
  · have inRange := localInRange_of_ofLocal rebuilt
    obtain ⟨-, -, nanosecond, offset⟩ := ofLocal_eq_ok_iff.mp rebuilt
    have wholeMinutes := regular.wholeMinutes
    rw [← offset] at wholeMinutes
    refine regular_of_common ?_ ?_ wholeMinutes inRange
    · unfold leapNanosecond
      omega
    · omega
  · cases rebuilt

theorem Regular.add {unit : TimeUnit} {amount : Int} (regular : moment.Regular)
    (made : moment.add unit amount = some (.ok next)) : next.Regular := by
  unfold Moment.add at made
  dsimp only at made
  split at made
  · obtain ⟨fields, -, changed⟩ := Option.bind_eq_some_iff.mp made
    split at changed
    · exact regular.set changed
    · cases changed
  · cases made

end Moment

/-! ### Reachable moments -/

/-- The moments that come from readings with no offset or one of whole minutes, from timestamps
and from Julian dates by setting fields, by adding and taking away, and by reading at other
offsets of whole minutes where the local date stays in the supported years. -/
inductive Reached : Moment → Prop
  | ofReading {reading : Reading} {moment : Moment} (valid : reading.Valid)
      (wholeMinutes : reading.offsetSeconds % 60 = 0)
      (made : Moment.ofReading reading = .ok moment) : Reached moment
  | ofTimestamp {timestamp : Float} {moment : Moment}
      (made : Moment.ofTimestamp timestamp = .ok moment) : Reached moment
  | ofJulian {date : Float} {scale : Scale} {moment : Moment}
      (made : Moment.ofJulian date scale = .ok moment) : Reached moment
  | ofJulianDate {scale : Scale} {date : JulianDate scale Float} {moment : Moment}
      (made : Moment.ofJulianDate date = .ok moment) : Reached moment
  | set {field : Field} {value : Int} {moment next : Moment} (before : Reached moment)
      (made : moment.set field value = some (.ok next)) : Reached next
  | add {unit : TimeUnit} {amount : Int} {moment next : Moment} (before : Reached moment)
      (made : moment.add unit amount = some (.ok next)) : Reached next
  | sub {unit : TimeUnit} {amount : Int} {moment next : Moment} (before : Reached moment)
      (made : moment.sub unit amount = some (.ok next)) : Reached next
  | withOffset {offset : UtcOffset} {moment : Moment} (before : Reached moment)
      (wholeMinutes : offset.seconds % 60 = 0)
      (inRange : (moment.withOffset offset).LocalInRange) : Reached (moment.withOffset offset)

theorem Reached.regular {moment : Moment} (reached : Reached moment) : moment.Regular := by
  -- Only a reading can name an inserted second: the other ways make none, or keep it.
  induction reached with
  | ofReading valid wholeMinutes made => exact Moment.regular_ofReading valid wholeMinutes made
  | ofTimestamp made => exact Moment.regular_ofTimestamp made
  | ofJulian made => exact Moment.regular_ofJulian made
  | ofJulianDate made => exact Moment.regular_ofUtcJulian made
  | set _ made regular => exact regular.set made
  | add _ made regular => exact regular.add made
  | sub _ made regular => exact regular.add made
  | withOffset _ wholeMinutes inRange regular => exact regular.withOffset wholeMinutes inRange

/-- Every moment that is reached has a reading at its own offset. This and the one in UTC are valid,
and it makes the same moment with the same offset. -/
theorem Reached.reads_back {moment : Moment} (reached : Reached moment) :
    ∃ reading, moment.civil = some reading ∧ reading.Valid ∧ moment.utcCivil.Valid ∧
      Moment.ofReading reading = .ok moment := by
  have regular := reached.regular
  exact ⟨moment.localReading, Moment.civil_inRange regular.localInRange,
    regular.localReading_valid, regular.utcCivil_valid, regular.ofReading_localReading⟩

/-- The second inserted at the end of 2016, given half past five hours to the east on the day
after and read twelve hours to the west, where it ends a minute before noon; with its
microseconds set it is noon. -/
theorem Reached.reads_back_at_inserted_second :
    ∃ moment next : Moment, Reached moment ∧ moment.set .microsecond 0 = some (.ok next) ∧
      moment.civil = some ⟨⟨2016, 12, 31⟩, ⟨11, 59, 60, 250000⟩, some (-43200)⟩ ∧
      next.civil = some ⟨⟨2016, 12, 31⟩, ⟨12, 0, 0, 0⟩, some (-43200)⟩ ∧
      (∃ reading, moment.civil = some reading ∧ reading.Valid ∧ moment.utcCivil.Valid ∧
        Moment.ofReading reading = .ok moment) ∧
      ∃ reading, next.civil = some reading ∧ reading.Valid ∧ next.utcCivil.Valid ∧
        Moment.ofReading reading = .ok next := by
  have valid : (⟨⟨2017, 1, 1⟩, ⟨5, 29, 60, 250000⟩, some 19800⟩ : Reading).Valid := by decide
  have made : Moment.ofReading ⟨⟨2017, 1, 1⟩, ⟨5, 29, 60, 250000⟩, some 19800⟩ =
      .ok ⟨1483228799, 1250000000, ⟨19800, by decide⟩, by decide, by decide⟩ := rfl
  have east := Reached.ofReading valid (by decide) made
  have west : Reached ⟨1483228799, 1250000000, ⟨-43200, by decide⟩, by decide, by decide⟩ :=
    east.withOffset (by decide) (by decide)
  have noon : Moment.set ⟨1483228799, 1250000000, ⟨-43200, by decide⟩, by decide, by decide⟩
      .microsecond 0 = some (.ok ⟨1483228800, 0, ⟨-43200, by decide⟩, by decide, by decide⟩) := rfl
  exact ⟨_, _, west, noon, by decide, by decide, west.reads_back, (west.set noon).reads_back⟩

end MarsCalendar.Earth

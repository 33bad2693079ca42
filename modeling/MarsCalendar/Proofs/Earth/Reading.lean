import MarsCalendar.Earth.Moment
import MarsCalendar.Proofs.Civil.Utc

set_option autoImplicit false

/-! Civil readings and moments. A moment is made of a reading exactly where the reading's
date and its date in UTC lie in the supported years, and reads back as it was given, an
inserted second included; an offset of nothing is told as no offset. -/

namespace MarsCalendar.Earth

open Civil (Clock Reading UtcOffset leapNanosecond)
open Gregorian (Date InRange)

/-! ### When a moment is made -/

namespace Moment

theorem ofSeconds_eq_ok_iff {seconds : Int} {nanosecond : Nat} {offset : UtcOffset}
    {moment : Moment} :
    ofSeconds seconds nanosecond offset = .ok moment ↔
      moment.seconds = seconds ∧ moment.nanosecond = nanosecond ∧ moment.offset = offset := by
  unfold ofSeconds
  constructor
  · intro made
    split at made
    · cases made
      exact ⟨rfl, rfl, rfl⟩
    · cases made
  · rintro ⟨rfl, rfl, rfl⟩
    rw [dif_pos ⟨moment.inRange, moment.nanosecond_lt⟩]

theorem ofSeconds_outOfRange {seconds : Int} (outside : ¬ InRange (seconds / secondsPerDay))
    (nanosecond : Nat) (offset : UtcOffset) :
    ofSeconds seconds nanosecond offset = .error .outOfRange :=
  dif_neg fun bounds => outside bounds.1

theorem ofLocal_eq_ok_iff {seconds : Int} {nanosecond : Nat} {offset : UtcOffset}
    {moment : Moment} :
    ofLocal seconds nanosecond offset = .ok moment ↔
      InRange (seconds / secondsPerDay) ∧ moment.localSeconds = seconds ∧
        moment.nanosecond = nanosecond ∧ moment.offset = offset := by
  unfold ofLocal localSeconds
  split
  · rename_i inRange
    rw [ofSeconds_eq_ok_iff]
    constructor
    · rintro ⟨seconds, nanosecond, rfl⟩
      exact ⟨inRange, by omega, nanosecond, rfl⟩
    · rintro ⟨-, seconds, nanosecond, rfl⟩
      exact ⟨by omega, nanosecond, rfl⟩
  · rename_i outside
    constructor
    · intro made
      cases made
    · rintro ⟨inRange, -⟩
      exact absurd inRange outside

theorem localInRange_of_ofLocal {seconds : Int} {nanosecond : Nat} {offset : UtcOffset}
    {moment : Moment} (made : ofLocal seconds nanosecond offset = .ok moment) :
    moment.LocalInRange := by
  obtain ⟨inRange, localIs, -⟩ := ofLocal_eq_ok_iff.mp made
  unfold LocalInRange
  rwa [localIs]

variable {reading : Reading} {moment : Moment}

theorem real_of_ofReading (made : ofReading reading = .ok moment) :
    reading.date.Valid ∧ reading.clock.InDay := by
  unfold ofReading at made
  split at made
  · split at made
    · assumption
    · cases made
  · cases made

private theorem ofReading_eq_ofLocal (valid : reading.Valid) :
    ∃ offset : UtcOffset, offset.seconds = reading.offsetSeconds ∧
      ofReading reading = ofLocal (reading.date.dayNumber * secondsPerDay
        + reading.clock.storedSeconds) reading.clock.storedNanosecond offset := by
  obtain ⟨inDay, date, clock, -⟩ := valid
  refine ⟨⟨reading.offsetSeconds, inDay⟩, rfl, ?_⟩
  have offset : UtcOffset.ofSeconds? reading.offsetSeconds = some ⟨_, inDay⟩ := dif_pos inDay
  unfold ofReading
  rw [offset]
  exact if_pos ⟨date, clock⟩

private theorem day_of_local (valid : reading.Valid) :
    (reading.date.dayNumber * secondsPerDay + reading.clock.storedSeconds) / secondsPerDay =
        reading.date.dayNumber ∧
      (reading.date.dayNumber * secondsPerDay + reading.clock.storedSeconds) % secondsPerDay =
        reading.clock.storedSeconds := by
  have stored := Clock.storedSeconds_lt _ valid.2.2.1
  unfold secondsPerDay
  omega

theorem ofReading_eq_ok_iff (valid : reading.Valid) :
    ofReading reading = .ok moment ↔
      InRange reading.date.dayNumber ∧ moment.seconds = reading.unixSeconds ∧
        moment.nanosecond = reading.clock.storedNanosecond ∧
        moment.offset.seconds = reading.offsetSeconds := by
  obtain ⟨offset, offsetIs, made⟩ := ofReading_eq_ofLocal valid
  rw [made, ofLocal_eq_ok_iff, (day_of_local valid).1]
  unfold localSeconds Reading.unixSeconds secondsPerDay
  rw [← offsetIs]
  constructor
  · rintro ⟨inRange, seconds, nanosecond, rfl⟩
    exact ⟨inRange, by omega, nanosecond, rfl⟩
  · rintro ⟨inRange, seconds, nanosecond, sameOffset⟩
    refine ⟨inRange, by omega, nanosecond, ?_⟩
    obtain ⟨shift, inDay, moved⟩ : ∃ shift inDay, moment.offset = ⟨shift, inDay⟩ := ⟨_, _, rfl⟩
    cases offset
    rw [moved] at sameOffset ⊢
    cases sameOffset
    rfl

theorem ofReading_inRange (valid : reading.Valid) (inRange : InRange reading.date.dayNumber)
    (utcInRange : InRange (reading.unixSeconds / 86400)) :
    ∃ moment, ofReading reading = .ok moment :=
  ⟨⟨reading.unixSeconds, reading.clock.storedNanosecond, ⟨reading.offsetSeconds, valid.1⟩,
    utcInRange, Clock.storedNanosecond_lt _ valid.2.2.1⟩,
    (ofReading_eq_ok_iff valid).mpr ⟨inRange, rfl, rfl, rfl⟩⟩

theorem ofReading_outOfRange (valid : reading.Valid)
    (outside : ¬ (InRange reading.date.dayNumber ∧ InRange (reading.unixSeconds / 86400))) :
    ofReading reading = .error .outOfRange := by
  obtain ⟨offset, offsetIs, made⟩ := ofReading_eq_ofLocal valid
  rw [made]
  unfold ofLocal
  rw [(day_of_local valid).1]
  split
  · rename_i inRange
    refine ofSeconds_outOfRange (fun utcInRange => outside ⟨inRange, ?_⟩) _ _
    rw [offsetIs] at utcInRange
    exact utcInRange
  · rfl

/-- A stored date, clock and offset read back, but for an offset of nothing. -/
theorem readingOf_stored (valid : reading.Valid) :
    readingOf (reading.date.dayNumber * secondsPerDay + reading.clock.storedSeconds)
        reading.clock.storedNanosecond reading.offsetSeconds =
      { reading with offset := reading.offset.filter (· ≠ 0) } := by
  obtain ⟨day, second⟩ := day_of_local valid
  obtain ⟨-, date, clock, -⟩ := valid
  unfold readingOf
  rw [day, second, Date.ofDayNumber_dayNumber _ date, Int.toNat_natCast,
    Clock.ofStored_stored _ clock]
  unfold Reading.offsetSeconds
  cases reading.offset with
  | none => rfl
  | some seconds =>
      by_cases nothing : seconds = 0
      · subst nothing
        rfl
      · have kept : Option.filter (fun offset => decide (offset ≠ 0)) (some seconds) =
            some seconds := Option.filter_some_pos (decide_eq_true nothing)
        rw [Option.getD_some, if_neg nothing, kept]

/-! ### The local reading -/

theorem localReading_offsetSeconds (moment : Moment) :
    moment.localReading.offsetSeconds = moment.offset.seconds := by
  unfold localReading readingOf Reading.offsetSeconds
  dsimp only
  split
  · rename_i utc
    exact utc.symm
  · rfl

theorem localReading_date (moment : Moment) :
    moment.localReading.date.Valid ∧
      moment.localReading.date.dayNumber = moment.localSeconds / secondsPerDay :=
  ⟨Date.ofDayNumber_valid _, Date.dayNumber_ofDayNumber _⟩

theorem localReading_clock (moment : Moment) :
    moment.localReading.clock.InDay ∧ (moment.localReading.clock.second = 60 ↔ moment.IsLeap) := by
  have ofDay : (moment.localSeconds % secondsPerDay).toNat < 86400 := by
    unfold secondsPerDay
    omega
  refine ⟨Clock.inDay_ofStored ofDay _, ?_⟩
  unfold localReading readingOf Clock.ofStored IsLeap
  dsimp only
  split
  · rename_i leap
    exact ⟨fun _ => leap, fun _ => rfl⟩
  · rename_i common
    exact ⟨fun full => by omega, fun leap => absurd leap common⟩

/-! ### Readings survive -/

/-- A valid reading makes a moment exactly where its date and its UTC date lie in the
supported years, and is out of range everywhere else. The moment reads back as the reading,
and in UTC as the reading with its offset taken off. -/
theorem ofReading_roundTrip (valid : reading.Valid) :
    ((∃ moment, ofReading reading = .ok moment) ↔
      (-262143 ≤ reading.date.year ∧ reading.date.year ≤ 262142) ∧
        -262143 ≤ reading.toUtc.date.year ∧ reading.toUtc.date.year ≤ 262142) ∧
    ((¬ ∃ moment, ofReading reading = .ok moment) → ofReading reading = .error .outOfRange) ∧
    (∀ moment, ofReading reading = .ok moment →
      moment.civil = some { reading with offset := reading.offset.filter (· ≠ 0) } ∧
        moment.utcCivil = reading.toUtc) := by
  obtain ⟨utcDate, utcDay⟩ := Reading.toUtc_date valid
  have years : (-262143 ≤ reading.date.year ∧ reading.date.year ≤ 262142) ∧
      (-262143 ≤ reading.toUtc.date.year ∧ reading.toUtc.date.year ≤ 262142) ↔
      InRange reading.date.dayNumber ∧ InRange (reading.unixSeconds / 86400) := by
    rw [← utcDay, Gregorian.inRange_dayNumber_iff valid.2.1,
      Gregorian.inRange_dayNumber_iff utcDate]
  rw [years]
  refine ⟨⟨?_, fun inRange => ofReading_inRange valid inRange.1 inRange.2⟩, ?_, ?_⟩
  · rintro ⟨moment, made⟩
    obtain ⟨inRange, seconds, -⟩ := (ofReading_eq_ok_iff valid).mp made
    exact ⟨inRange, seconds ▸ moment.inRange⟩
  · intro refused
    exact ofReading_outOfRange valid
      (fun inRange => refused (ofReading_inRange valid inRange.1 inRange.2))
  · intro moment made
    obtain ⟨inRange, seconds, nanosecond, offset⟩ := (ofReading_eq_ok_iff valid).mp made
    have localIs : moment.localSeconds =
        reading.date.dayNumber * secondsPerDay + reading.clock.storedSeconds := by
      unfold localSeconds secondsPerDay
      unfold Reading.unixSeconds at seconds
      omega
    have localInRange : moment.LocalInRange := by
      unfold LocalInRange
      rwa [localIs, (day_of_local valid).1]
    rw [civil_inRange localInRange]
    unfold localReading utcCivil
    rw [localIs, nanosecond, offset, seconds, readingOf_stored valid, Reading.toUtc_eq valid]
    exact ⟨rfl, rfl⟩

/-- The second inserted at the end of 2016, read half past five hours to the east on the
day after, and an evening of the last supported day that is the next year in UTC. -/
theorem ofReading_roundTrip_at_year_ends :
    ((⟨⟨2017, 1, 1⟩, ⟨5, 29, 60, 250000⟩, some 19800⟩ : Reading).Valid ∧
      ∃ moment, ofReading ⟨⟨2017, 1, 1⟩, ⟨5, 29, 60, 250000⟩, some 19800⟩ = .ok moment ∧
        moment.civil = some ⟨⟨2017, 1, 1⟩, ⟨5, 29, 60, 250000⟩, some 19800⟩ ∧
        moment.utcCivil = ⟨⟨2016, 12, 31⟩, ⟨23, 59, 60, 250000⟩, none⟩) ∧
    ((⟨⟨262142, 12, 31⟩, ⟨23, 0, 0, 0⟩, some (-7200)⟩ : Reading).Valid ∧
      ofReading ⟨⟨262142, 12, 31⟩, ⟨23, 0, 0, 0⟩, some (-7200)⟩ = .error .outOfRange) := by
  have leap : (⟨⟨2017, 1, 1⟩, ⟨5, 29, 60, 250000⟩, some 19800⟩ : Reading).Valid := by decide
  have late : (⟨⟨262142, 12, 31⟩, ⟨23, 0, 0, 0⟩, some (-7200)⟩ : Reading).Valid := by decide
  obtain ⟨accepted, -, kept⟩ := ofReading_roundTrip leap
  obtain ⟨moment, made⟩ := accepted.mpr (by decide)
  obtain ⟨refused, outOfRange, -⟩ := ofReading_roundTrip late
  exact ⟨⟨leap, moment, made, kept moment made⟩, late,
    outOfRange fun accepted => absurd (refused.mp accepted) (by decide)⟩

end Moment

end MarsCalendar.Earth

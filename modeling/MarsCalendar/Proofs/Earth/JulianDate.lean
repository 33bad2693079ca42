import MarsCalendar.Mars.Instant
import MarsCalendar.Proofs.Earth.Reading
import MarsCalendar.Proofs.Scale.Offset

set_option autoImplicit false

/-! The Julian dates of a moment over the rationals. A moment has a Julian date by its local
fields, its offset taken off, and one by its Unix timestamp; both count the same microseconds of
UTC, inserted seconds included where their fields can be told. Outside inserted seconds the date
falls in the moment's own month of UTC, so the offsets to the other scales are the same whether
they are looked up by the moment's fields or by its Julian date: Earth's side and the side of Mars
agree on every scale. All this needs local fields: at an offset that takes the local date out of
range a moment keeps its timestamp and has no Julian date. -/

namespace MarsCalendar

open Civil (Clock Reading UtcOffset leapNanosecond)
open Gregorian (Date InRange)
open Mars (Instant)

/-! ### Counting microseconds -/

theorem Civil.Clock.microseconds_ofStored {seconds nanosecond : Nat}
    (fits : nanosecond < 2 * leapNanosecond)
    (last : leapNanosecond ≤ nanosecond → seconds % 60 = 59) :
    (ofStored seconds nanosecond).microseconds = seconds * 1000000 + nanosecond / 1000 := by
  simp only [microseconds, Clock.seconds, ofStored]
  unfold leapNanosecond at *
  split
  · rename_i inserted
    have minute := last inserted
    omega
  · omega

theorem Julian.ofReading_eq_microseconds {reading : Reading} (valid : reading.date.Valid) :
    (ofReading reading : Rat) = 4881175 / 2 +
      (((reading.date.dayNumber * 86400 - reading.offsetSeconds) * 1000000 +
        reading.clock.microseconds : Int) : Rat) / 86400000000 := by
  have integer (value : Int) : (Scalar.ofInt value : Rat) = value := rfl
  simp only [ofReading, Reading.secondsOfDay, secondsPerDay, Clock.microseconds]
  rw [dayNumber_eq valid.1, integer, integer, integer, integer]
  unfold unixEpochDay
  push_cast
  norm_num
  ring

namespace Earth.Moment

variable {moment : Moment}

def unixMicroseconds (moment : Moment) : Int :=
  moment.seconds * 1000000 + moment.subsecondMicroseconds

theorem day_of_microseconds (count : Int) :
    count / 1000000 / secondsPerDay = count / 86400000000 := by
  unfold secondsPerDay
  omega

def WholeMicroseconds (moment : Moment) : Prop :=
  moment.nanosecond % 1000 = 0

instance (moment : Moment) : Decidable moment.WholeMicroseconds :=
  inferInstanceAs (Decidable (_ = _))

theorem timestamp_eq (moment : Moment) :
    (moment.timestamp : Rat) = moment.unixMicroseconds / 1000000 := by
  have integer (value : Int) : (Scalar.ofInt value : Rat) = value := rfl
  unfold timestamp unixMicroseconds
  rw [integer, integer]
  push_cast
  norm_num
  ring

theorem ofTimestamp_timestamp_eq (moment : Moment) :
    (Julian.ofTimestamp moment.timestamp : Rat) =
      4881175 / 2 + (moment.unixMicroseconds : Rat) / 86400000000 := by
  unfold Julian.ofTimestamp Julian.secondsPerDay Julian.unixEpoch
  rw [timestamp_eq]
  norm_num
  ring

/-- The fields of an inserted second can be told: it comes after the last second of a minute, and
the offset moves whole minutes. -/
def Told (moment : Moment) : Prop :=
  moment.IsLeap → moment.seconds % 60 = 59 ∧ moment.offset.seconds % 60 = 0

theorem told_of_common (common : ¬ moment.IsLeap) : moment.Told :=
  fun leap => absurd leap common

theorem Told.localReading_microseconds (told : moment.Told) :
    (moment.localReading.clock.microseconds : Int) =
      moment.localSeconds % 86400 * 1000000 + moment.subsecondMicroseconds := by
  have last : leapNanosecond ≤ moment.nanosecond →
      (moment.localSeconds % secondsPerDay).toNat % 60 = 59 := by
    intro inserted
    obtain ⟨minute, wholeMinutes⟩ := told inserted
    unfold localSeconds secondsPerDay
    omega
  have count := Clock.microseconds_ofStored moment.nanosecond_lt last
  change ((Clock.ofStored _ _).microseconds : Int) = _
  rw [count]
  unfold subsecondMicroseconds secondsPerDay
  omega

theorem Told.ofReading_localReading_eq (told : moment.Told) :
    (Julian.ofReading moment.localReading : Rat) = Julian.ofTimestamp moment.timestamp := by
  obtain ⟨valid, number⟩ := localReading_date moment
  have counted : (moment.localReading.date.dayNumber * 86400 -
      moment.localReading.offsetSeconds) * 1000000 +
      (moment.localReading.clock.microseconds : Int) = moment.unixMicroseconds := by
    rw [number, localReading_offsetSeconds, told.localReading_microseconds]
    unfold unixMicroseconds localSeconds secondsPerDay
    omega
  rw [Julian.ofReading_eq_microseconds valid, counted, ofTimestamp_timestamp_eq]

theorem toJulian_outside (outside : ¬ moment.LocalInRange) (scale : Scale) :
    (moment.toJulian scale : Option Rat) = none := by
  unfold toJulian
  rw [civil_outside outside]
  rfl

theorem Told.toJulian_utc (told : moment.Told) :
    (moment.toJulian .utc : Option Rat) =
      if moment.LocalInRange then some (Julian.ofTimestamp moment.timestamp) else none := by
  split
  · rename_i inRange
    unfold toJulian
    rw [civil_inRange inRange, ← told.ofReading_localReading_eq]
    rfl
  · rename_i outside
    exact toJulian_outside outside .utc

/-- The local fields of a moment and its Unix timestamp give the same Julian date, if the local
date is in range and there are fields at all. So the Julian date in UTC does not change with the
offset, unless one of the local dates is out of range and the other is not; in an inserted second
this needs offsets of whole minutes. -/
theorem ofReading_civil_eq_ofTimestamp (told : moment.Told) :
    (moment.civil.map Julian.ofReading : Option Rat) =
      (if moment.LocalInRange then some (Julian.ofTimestamp moment.timestamp) else none) ∧
    ∀ offset : UtcOffset, (moment.withOffset offset).Told →
      (((moment.withOffset offset).toJulian .utc : Option Rat) = moment.toJulian .utc ↔
        ((moment.withOffset offset).LocalInRange ↔ moment.LocalInRange)) := by
  constructor
  · rw [← told.toJulian_utc]
    unfold toJulian
    cases moment.civil <;> rfl
  · intro offset toldThere
    have sameTimestamp : ((moment.withOffset offset).timestamp : Rat) = moment.timestamp := rfl
    rw [toldThere.toJulian_utc, told.toJulian_utc, sameTimestamp]
    by_cases here : moment.LocalInRange <;>
      by_cases there : (moment.withOffset offset).LocalInRange <;> simp [here, there]

/-- The second inserted at the end of 2016, half past five hours to the east and twelve hours to
the west. -/
theorem ofReading_civil_eq_ofTimestamp_at_inserted_second :
    let moment : Moment := ⟨1483228799, 1250000000, ⟨19800, by decide⟩, by decide, by decide⟩
    let west : UtcOffset := ⟨-43200, by decide⟩
    moment.IsLeap ∧ moment.Told ∧ (moment.withOffset west).Told ∧
      (moment.civil.map Julian.ofReading : Option Rat) =
        some (Julian.ofTimestamp moment.timestamp) ∧
      ((moment.withOffset west).toJulian .utc : Option Rat) = moment.toJulian .utc := by
  intro moment west
  have told : moment.Told := fun _ => by decide
  have toldThere : (moment.withOffset west).Told := fun _ => by decide
  have here : moment.LocalInRange := by decide
  have there : (moment.withOffset west).LocalInRange := by decide
  obtain ⟨same, unchanged⟩ := ofReading_civil_eq_ofTimestamp told
  rw [if_pos here] at same
  exact ⟨by decide, told, toldThere, same,
    (unchanged west toldThere).mpr ⟨fun _ => here, fun _ => there⟩⟩

/-- The first midnight in range has a Julian date, and read an hour to the west it has none: the
local date is the last of the year before. -/
theorem ofReading_civil_lost_before_first_day :
    let midnight : Moment := ⟨-8334601228800, 0, .utc, by decide, by decide⟩
    let west : UtcOffset := ⟨-3600, by decide⟩
    ofTimestamp (-8334601228800 : Rat) = .ok midnight ∧ ¬ (midnight.withOffset west).IsLeap ∧
      (midnight.withOffset west).WholeMicroseconds ∧
      (midnight.toJulian .utc : Option Rat) = some (Julian.ofTimestamp midnight.timestamp) ∧
      (midnight.withOffset west).localDate = ⟨-262144, 12, 31⟩ ∧
      ((midnight.withOffset west).civil.map Julian.ofReading : Option Rat) ≠
        some (Julian.ofTimestamp (midnight.withOffset west).timestamp) ∧
      ((midnight.withOffset west).toJulian .utc : Option Rat) ≠ midnight.toJulian .utc := by
  intro midnight west
  have told : midnight.Told := told_of_common (by decide)
  have inRange : midnight.LocalInRange := by decide
  have outside : ¬ (midnight.withOffset west).LocalInRange := by decide
  have here : (midnight.toJulian .utc : Option Rat) =
      some (Julian.ofTimestamp midnight.timestamp) := by
    rw [told.toJulian_utc, if_pos inRange]
  refine ⟨by decide +kernel, by decide, by decide, here, by decide, ?_, ?_⟩
  · rw [civil_outside outside]
    nofun
  · rw [toJulian_outside outside, here]
    nofun

/-! ### The scales -/

theorem midnightDay_of_microseconds (count : Int) :
    Julian.midnightDay (4881175 / 2 + (count : Rat) / 86400000000) =
      Julian.unixEpochDay + count / 86400000000 := by
  have whole : 4881175 / 2 + (count : Rat) / 86400000000 + 1 / 2 =
      ((Julian.unixEpochDay * 86400000000 + count : Int) : Rat) / ((86400000000 : Nat) : Rat) := by
    unfold Julian.unixEpochDay
    push_cast
    ring
  unfold Julian.midnightDay
  rw [whole]
  refine (Rat.floor_intCast_div_natCast _ 86400000000).trans ?_
  unfold Julian.unixEpochDay
  omega

theorem civilDate_ofTimestamp (common : ¬ moment.IsLeap) :
    Julian.civilDate (Julian.ofTimestamp moment.timestamp) = moment.utcDate := by
  have short : moment.subsecondMicroseconds < 1000000 := by
    unfold IsLeap leapNanosecond at common
    unfold subsecondMicroseconds
    omega
  have day : Julian.unixEpochDay + moment.unixMicroseconds / 86400000000 - Julian.unixEpochDay =
      moment.seconds / secondsPerDay := by
    unfold unixMicroseconds secondsPerDay
    omega
  unfold Julian.civilDate utcDate
  rw [ofTimestamp_timestamp_eq, midnightDay_of_microseconds, day]

theorem utcDate_fitsYear (moment : Moment) : Julian.FitsYear moment.utcDate.year := by
  have valid : moment.utcDate.Valid := Date.ofDayNumber_valid _
  have inRange : InRange moment.utcDate.dayNumber := by
    unfold utcDate
    rw [Date.dayNumber_ofDayNumber]
    exact moment.inRange
  have years := (Gregorian.inRange_dayNumber_iff valid).mp inRange
  unfold Julian.FitsYear
  omega

/-- Outside inserted seconds the offsets looked up by the Julian date are the moment's own. -/
theorem offsets_of_common (common : ¬ moment.IsLeap) :
    Scale.taiMinusUtcAt (Julian.ofTimestamp moment.timestamp) = (moment.taiMinusUtc : Rat) ∧
      (moment.LocalInRange →
        (moment.ttMinusUtc : Option Rat) =
          some (Scale.ttMinusUtcAt (Julian.ofTimestamp moment.timestamp))) := by
  have told := told_of_common common
  have date := civilDate_ofTimestamp common
  have fits : Julian.FitsYear (Julian.civilDate (Julian.ofTimestamp moment.timestamp)).year := by
    rw [date]
    exact moment.utcDate_fitsYear
  have month : Julian.yearMonth (Julian.ofTimestamp moment.timestamp) = moment.utcMonth := by
    unfold Julian.yearMonth utcMonth
    rw [date]
  constructor
  · unfold taiMinusUtc
    rw [Scale.taiMinusUtcAt_eq, month, Scale.taiMinusUtc_eq]
  · intro inRange
    unfold ttMinusUtc
    rw [civil_inRange inRange, Scale.ttMinusUtcAt_eq fits, month,
      ← told.ofReading_localReading_eq]
    rfl

theorem toJulian_eq (common : ¬ moment.IsLeap) (inRange : moment.LocalInRange) :
    (moment.toJulian .utc : Option Rat) = some (Julian.ofTimestamp moment.timestamp) ∧
      (moment.toJulian .tai : Option Rat) =
        some (Scale.taiOfUtc (Julian.ofTimestamp moment.timestamp)) ∧
      (moment.toJulian .tt : Option Rat) =
        some (Scale.ttOfUtc (Julian.ofTimestamp moment.timestamp)) := by
  have told := told_of_common common
  have seconds : (Julian.secondsPerDay : Rat) = 86400 := by
    unfold Julian.secondsPerDay
    norm_num
  obtain ⟨tai, tt⟩ := offsets_of_common common
  refine ⟨?_, ?_, ?_⟩
  · rw [told.toJulian_utc, if_pos inRange]
  · unfold toJulian Scale.taiOfUtc
    rw [civil_inRange inRange, Scale.daysOfSeconds_eq, tai, ← seconds,
      ← told.ofReading_localReading_eq]
    rfl
  · unfold toJulian Scale.ttOfUtc
    rw [civil_inRange inRange, tt inRange, Scale.daysOfSeconds_eq, ← seconds,
      ← told.ofReading_localReading_eq]
    rfl

theorem timestamp_ofMoment (moment : Moment) :
    (Instant.ofMoment moment : Instant Rat).timestamp = moment.timestamp := by
  have long : (Mars.secondsPerSol : Rat) ≠ 0 := by
    unfold Mars.secondsPerSol
    norm_num
  unfold Instant.timestamp Instant.ofMoment Instant.ofTimestamp
  dsimp only
  rw [div_mul_cancel₀ _ long]
  ring

/-- Outside inserted seconds a moment has the same Julian date as the instant of Mars it is, on
every scale and at every offset that leaves its local date in range, and no Julian date at the
others. On TT it is also the converted UTC date. -/
theorem toJulian_eq_instant_toJulian (common : ¬ moment.IsLeap) :
    (∀ scale, (moment.toJulian scale : Option Rat) =
      if moment.LocalInRange then some ((Instant.ofMoment moment).toJulian scale) else none) ∧
    (moment.toJulian .tt : Option Rat) = (moment.toJulianDate .tt).map JulianDate.value := by
  by_cases inRange : moment.LocalInRange
  · obtain ⟨utc, tai, tt⟩ := toJulian_eq common inRange
    constructor
    · intro scale
      unfold Instant.toJulian
      rw [if_pos inRange, timestamp_ofMoment]
      cases scale with
      | utc => exact utc
      | tai => exact tai
      | tt => exact tt
    · unfold toJulianDate
      rw [utc, tt]
      rfl
  · constructor
    · intro scale
      rw [if_neg inRange, toJulian_outside inRange]
    · unfold toJulianDate
      rw [toJulian_outside inRange, toJulian_outside inRange]
      rfl

/-- The last microsecond of 1971 in UTC, read half past five hours to the east in 1972. -/
theorem toJulian_eq_instant_toJulian_at_year_end :
    let moment : Moment := ⟨63071999, 999999000, ⟨19800, by decide⟩, by decide, by decide⟩
    moment.localDate = ⟨1972, 1, 1⟩ ∧ moment.utcDate = ⟨1971, 12, 31⟩ ∧ ¬ moment.IsLeap ∧
      (moment.toJulian .tai : Option Rat) = some ((Instant.ofMoment moment).toJulian .tai) ∧
      (moment.toJulian .tt : Option Rat) = some ((Instant.ofMoment moment).toJulian .tt) ∧
      (moment.toJulian .tt : Option Rat) = (moment.toJulianDate .tt).map JulianDate.value := by
  intro moment
  have common : ¬ moment.IsLeap := by decide
  have inRange : moment.LocalInRange := by decide
  obtain ⟨agree, converted⟩ := toJulian_eq_instant_toJulian common
  simp only [if_pos inRange] at agree
  exact ⟨by decide, by decide, common, agree .tai, agree .tt, converted⟩

/-- An hour to the west of the first midnight in range the instant of Mars keeps its Julian dates,
and the moment that it is has none. -/
theorem toJulian_lost_before_first_day :
    let midnight : Moment := ⟨-8334601228800, 0, .utc, by decide, by decide⟩
    let moment := midnight.withOffset ⟨-3600, by decide⟩
    ofTimestamp (-8334601228800 : Rat) = .ok midnight ∧ ¬ moment.IsLeap ∧
      ∀ scale, (moment.toJulian scale : Option Rat) ≠
        some ((Instant.ofMoment moment).toJulian scale) := by
  intro midnight moment
  have outside : ¬ moment.LocalInRange := by decide
  refine ⟨by decide +kernel, by decide, fun scale => ?_⟩
  rw [toJulian_outside outside]
  nofun

end Earth.Moment

end MarsCalendar

import MarsCalendar.Proofs.Earth.Rollover

set_option autoImplicit false

/-! Setting a field to a value that it can read. No field is stored: the reading is counted anew from
the first of the month and its fields are told again at the offset. If they are those of a real date
and a time of day, they are told as they were counted; so the field that is set reads its value and
the others read what they did. Where there are no fields to read, none can be set. -/

namespace MarsCalendar.Earth

open Civil (Clock Reading UtcOffset)
open Gregorian (Date InRange)

/-! ### Fields of a reading -/

/-- A value that the field can read. Which days, months and years there are is told by the date that
they make together. -/
def Field.Reads (value : Int) : Field → Prop
  | .year => True
  | .month => True
  | .day => True
  | .hour => 0 ≤ value ∧ value ≤ 23
  | .minute => 0 ≤ value ∧ value ≤ 59
  | .second => 0 ≤ value ∧ value ≤ 59
  | .microsecond => 0 ≤ value ∧ value ≤ 999999

namespace Fields

variable {fields : Fields}

theorem get_set_same (fields : Fields) (value : Int) (field : Field) :
    (fields.set value field).get field = value := by
  cases field <;> rfl

theorem get_set_other (fields : Fields) (value : Int) {field other : Field}
    (different : other ≠ field) : (fields.set value field).get other = fields.get other := by
  cases field <;> cases other <;> first | rfl | exact absurd rfl different

def clock (fields : Fields) : Clock :=
  ⟨fields.hour.toNat, fields.minute.toNat, fields.second.toNat, fields.microsecond.toNat⟩

structure Real (fields : Fields) : Prop where
  date : fields.date.Valid
  hour : Field.Reads fields.hour .hour
  minute : Field.Reads fields.minute .minute
  second : Field.Reads fields.second .second
  microsecond : Field.Reads fields.microsecond .microsecond

theorem Real.set (real : fields.Real) {field : Field} {value : Int} (reads : field.Reads value)
    (valid : (fields.set value field).date.Valid) : (fields.set value field).Real := by
  obtain ⟨-, hour, minute, second, microsecond⟩ := real
  cases field with
  | year => exact ⟨valid, hour, minute, second, microsecond⟩
  | month => exact ⟨valid, hour, minute, second, microsecond⟩
  | day => exact ⟨valid, hour, minute, second, microsecond⟩
  | hour => exact ⟨valid, reads, minute, second, microsecond⟩
  | minute => exact ⟨valid, hour, reads, second, microsecond⟩
  | second => exact ⟨valid, hour, minute, reads, microsecond⟩
  | microsecond => exact ⟨valid, hour, minute, second, reads⟩

theorem Real.clock_common (real : fields.Real) : fields.clock.InDay ∧ fields.clock.second ≤ 59 := by
  obtain ⟨-, hour, minute, second, microsecond⟩ := real
  unfold Field.Reads at hour minute second microsecond
  unfold clock Clock.InDay
  dsimp only at *
  omega

theorem Real.timeOfDay_eq (real : fields.Real) :
    fields.timeOfDay = fields.clock.microseconds := by
  obtain ⟨-, hour, minute, second, microsecond⟩ := real
  unfold Field.Reads at hour minute second microsecond
  unfold timeOfDay clock Clock.microseconds Clock.seconds
  dsimp only at *
  omega

theorem Real.ofReading_eq (real : fields.Real) {reading : Reading}
    (date : reading.date = fields.date) (clockIs : reading.clock = fields.clock) :
    ofReading reading = fields := by
  obtain ⟨⟨⟨month, -⟩, day, -⟩, hour, minute, second, microsecond⟩ := real
  unfold Field.Reads at hour minute second microsecond
  unfold ofReading
  rw [date, clockIs]
  unfold Fields.date clock at *
  cases fields
  dsimp only at *
  congr 1 <;> omega

end Fields

namespace Moment

variable {moment next : Moment} {field : Field} {value : Int}

theorem localFields_real (common : ¬ moment.IsLeap) : moment.localFields.Real := by
  have second := localReading_second_le common
  obtain ⟨hour, minute, -, microsecond⟩ := (localReading_clock moment).1
  refine ⟨(localReading_date moment).1, ?_, ?_, ?_, ?_⟩ <;>
    unfold Field.Reads localFields Fields.ofReading <;> dsimp only <;> omega

/-! ### What setting a field changes -/

theorem ofFields_set_leadsTo_of_real (real : (moment.localFields.set value field).Real) :
    LeadsTo (ofFields (moment.localFields.set value field) moment.offset)
      ((moment.localFields.set value field).date.dayNumber * 86400000000 +
        (moment.localFields.set value field).timeOfDay) moment.offset := by
  by_cases begins : InRange (moment.localFields.set value field).monthStart.dayNumber
  · rw [← Fields.microseconds_of_valid real.date]
    exact ofFields_set_leadsTo field value begins
  · rw [ofFields_set_eq, if_neg begins]
    refine leadsTo_outOfRange fun readable => begins ?_
    obtain ⟨inDay, common⟩ := real.clock_common
    have short := Clock.microseconds_lt inDay common
    have day : ((moment.localFields.set value field).date.dayNumber * 86400000000 +
        (moment.localFields.set value field).timeOfDay) / 86400000000 =
        (moment.localFields.set value field).date.dayNumber := by
      rw [real.timeOfDay_eq]
      omega
    exact Fields.inRange_monthStart_of_valid real.date (day ▸ readable.1)

theorem fields_of_set (real : (moment.localFields.set value field).Real)
    (made : moment.set field value = some (.ok next)) :
    next.fields = some (moment.localFields.set value field) := by
  obtain ⟨⟨-, nextInRange⟩, stands⟩ := standsAt_of_set made
  rw [Fields.microseconds_of_valid real.date, real.timeOfDay_eq] at stands
  obtain ⟨inDay, common⟩ := real.clock_common
  obtain ⟨number, clock⟩ := stands.localReading_eq inDay common
  have date : next.localReading.date = (moment.localFields.set value field).date :=
    Date.eq_of_dayNumber_eq _ _ (localReading_date next).1 real.date number
  have same : next.localFields = moment.localFields.set value field :=
    real.ofReading_eq date clock
  rw [fields_inRange nextInRange, same]

/-- A field set to a value that it can read, where that makes a real date, reads the value; the
other fields read what they did, and the offset is kept. The moment is the one at the new reading,
out of range exactly where its local day or its day in UTC is. All this needs the fields that are
kept: where the local date is out of range there is no result, not even an error. -/
theorem set_changes_one_field (common : ¬ moment.IsLeap) (reads : field.Reads value)
    (valid : (moment.localFields.set value field).date.Valid) :
    (moment.LocalInRange → ∃ result, moment.set field value = some result ∧
      (∀ next, result = .ok next →
        ∃ before after, moment.fields = some before ∧ next.fields = some after ∧
          after.get field = value ∧
          (∀ other, other ≠ field → after.get other = before.get other) ∧
          next.offset = moment.offset) ∧
      LeadsTo result ((moment.localFields.set value field).date.dayNumber * 86400000000 +
        (moment.localFields.set value field).timeOfDay) moment.offset) ∧
    (¬ moment.LocalInRange → moment.set field value = none) := by
  have real := (localFields_real common).set reads valid
  have leads := ofFields_set_leadsTo_of_real real
  refine ⟨fun inRange => ?_, fun outside => set_outside outside field value⟩
  have answered := set_inRange inRange field value
  refine ⟨_, answered, fun next made => ?_, leads⟩
  rw [made] at answered
  exact ⟨_, _, fields_inRange inRange, fields_of_set real answered, Fields.get_set_same _ _ _,
    fun other different => Fields.get_set_other _ _ different, (leads.standsAt next made).offset⟩

/-- The tenth of a long February made its last day, a quarter of an hour before midnight and half
past five hours to the east; the last evening of all, whose last hour is out of range an hour to the
west; and the first midnight, which has no fields there. -/
theorem set_changes_one_field_at_ends :
    let february : Moment := ⟨1455128100, 250000000, ⟨19800, by decide⟩, by decide, by decide⟩
    let last : Moment := ⟨8210266866000, 0, ⟨-3600, by decide⟩, by decide, by decide⟩
    let first : Moment := ⟨-8334601228800, 0, ⟨-3600, by decide⟩, by decide, by decide⟩
    ¬ february.IsLeap ∧ february.fields = some ⟨2016, 2, 10, 23, 45, 0, 250000⟩ ∧
      (∃ next before after, february.set .day 29 = some (.ok next) ∧
        february.fields = some before ∧ next.fields = some after ∧ after.get .day = 29 ∧
        after.get .hour = before.get .hour ∧ next.offset = february.offset) ∧
      ¬ last.IsLeap ∧ last.fields = some ⟨262142, 12, 31, 20, 0, 0, 0⟩ ∧
      last.set .hour 23 = some (.error .outOfRange) ∧
      ¬ first.IsLeap ∧ ¬ first.LocalInRange ∧ first.set .hour 23 = none := by
  intro february last first
  have februaryCommon : ¬ february.IsLeap := by decide
  have lastCommon : ¬ last.IsLeap := by decide
  have firstCommon : ¬ first.IsLeap := by decide
  have outside : ¬ first.LocalInRange := by decide
  have day : Field.Reads 29 .day := trivial
  have hour : Field.Reads 23 .hour := ⟨by decide, by decide⟩
  have made : february.set .day 29 =
      some (.ok ⟨1456769700, 250000000, ⟨19800, by decide⟩, by decide, by decide⟩) := by decide
  obtain ⟨changed, -⟩ := set_changes_one_field februaryCommon day (by decide)
  obtain ⟨lastChanged, -⟩ := set_changes_one_field lastCommon hour (by decide)
  obtain ⟨-, lost⟩ := set_changes_one_field firstCommon hour (by decide)
  obtain ⟨result, answered, kept, -⟩ := changed (by decide)
  obtain ⟨before, after, fields, nextFields, same, others, offset⟩ :=
    kept _ (Option.some.inj (answered.symm.trans made))
  obtain ⟨refusal, refused, -, leads⟩ := lastChanged (by decide)
  have outOfRange := leads.refused (mt leads.ok_iff.mp (by decide))
  exact ⟨februaryCommon, by decide, ⟨_, before, after, made, fields, nextFields, same,
    others .hour (by decide), offset⟩, lastCommon, by decide, outOfRange ▸ refused, firstCommon,
    outside, lost outside⟩

/-- The last day of the year before the first, eleven in the evening an hour to the west, keeps its
day in the year 2000; but its year cannot be set. -/
theorem set_lost_before_first_day :
    let midnight : Moment := ⟨-8334601228800, 0, .utc, by decide, by decide⟩
    let moment := midnight.withOffset ⟨-3600, by decide⟩
    ofTimestamp (-8334601228800 : Rat) = .ok midnight ∧ ¬ moment.IsLeap ∧
      moment.WholeMicroseconds ∧ moment.localDate = ⟨-262144, 12, 31⟩ ∧
      (⟨2000, 12, 31⟩ : Date).Valid ∧
      (∃ next, ofReading ⟨⟨2000, 12, 31⟩, ⟨23, 0, 0, 0⟩, some (-3600)⟩ = .ok next) ∧
      ¬ ∃ result, moment.set .year 2000 = some result := by
  intro midnight moment
  have lost : moment.set .year 2000 = none := by decide
  refine ⟨by decide +kernel, by decide, by decide, by decide, by decide, ⟨_, rfl⟩, ?_⟩
  rintro ⟨result, answered⟩
  rw [lost] at answered
  cases answered

end Moment

end MarsCalendar.Earth

import MarsCalendar.Earth.Shift
import MarsCalendar.Proofs.Earth.JulianDate

set_option autoImplicit false

/-! The local reading of a moment as one number: the microseconds since the start of 1970 at its own
offset. With the offset it determines a moment of whole microseconds outside inserted seconds, and
every such number whose day is in range, at its offset and in UTC, is the reading of one. So a
change of a moment is told by the number it leads to. -/

namespace MarsCalendar

theorem Civil.Clock.microseconds_lt {clock : Clock} (inDay : clock.InDay)
    (common : clock.second ≤ 59) : clock.microseconds < 86400000000 := by
  obtain ⟨hour, minute, -, microsecond⟩ := inDay
  unfold microseconds seconds
  omega

namespace Earth

open Civil (Clock Reading UtcOffset leapNanosecond)
open Gregorian (Date InRange)

def Readable (microseconds : Int) (offset : UtcOffset) : Prop :=
  InRange (microseconds / 86400000000) ∧
    InRange ((microseconds - offset.seconds * 1000000) / 86400000000)

instance (microseconds : Int) (offset : UtcOffset) : Decidable (Readable microseconds offset) :=
  inferInstanceAs (Decidable (_ ∧ _))

namespace Moment

variable {moment other : Moment} {microseconds : Int} {offset : UtcOffset}

/-- The microseconds of the local fields; an inserted second is the one that is sixty seconds past
its minute. -/
def localMicroseconds (moment : Moment) : Int :=
  moment.localReading.date.dayNumber * 86400000000 + moment.localReading.clock.microseconds

theorem localMicroseconds_eq (common : ¬ moment.IsLeap) :
    moment.localMicroseconds = moment.localSeconds * 1000000 + moment.subsecondMicroseconds := by
  have told := told_of_common common
  unfold localMicroseconds
  rw [(localReading_date moment).2, told.localReading_microseconds]
  unfold secondsPerDay
  omega

theorem localReading_second_le (common : ¬ moment.IsLeap) :
    moment.localReading.clock.second ≤ 59 := by
  obtain ⟨⟨-, -, second, -⟩, inserted⟩ := localReading_clock moment
  have notInserted := mt inserted.mp common
  omega

/-! ### Standing at a reading -/

structure StandsAt (moment : Moment) (microseconds : Int) (offset : UtcOffset) : Prop where
  reading : moment.localMicroseconds = microseconds
  offset : moment.offset = offset
  whole : moment.WholeMicroseconds
  common : ¬ moment.IsLeap

theorem standsAt_self (whole : moment.WholeMicroseconds) (common : ¬ moment.IsLeap) :
    moment.StandsAt moment.localMicroseconds moment.offset :=
  ⟨rfl, rfl, whole, common⟩

theorem standsAt_iff : moment.StandsAt microseconds offset ↔
    moment.localSeconds = microseconds / 1000000 ∧
      moment.nanosecond = (microseconds % 1000000).toNat * 1000 ∧ moment.offset = offset := by
  constructor
  · rintro ⟨reading, same, whole, common⟩
    rw [localMicroseconds_eq common] at reading
    unfold subsecondMicroseconds at reading
    unfold WholeMicroseconds at whole
    unfold IsLeap leapNanosecond at common
    exact ⟨by omega, by omega, same⟩
  · rintro ⟨seconds, nanosecond, same⟩
    have common : ¬ moment.IsLeap := by
      unfold IsLeap leapNanosecond
      omega
    refine ⟨?_, same, ?_, common⟩
    · rw [localMicroseconds_eq common]
      unfold subsecondMicroseconds
      omega
    · unfold WholeMicroseconds
      omega

theorem StandsAt.unique (first : moment.StandsAt microseconds offset)
    (second : other.StandsAt microseconds offset) : moment = other := by
  obtain ⟨seconds, nanosecond, sameOffset⟩ := standsAt_iff.mp first
  obtain ⟨otherSeconds, otherNanosecond, otherOffset⟩ := standsAt_iff.mp second
  unfold localSeconds at seconds otherSeconds
  rw [sameOffset] at seconds
  rw [otherOffset] at otherSeconds
  have same : moment.seconds = other.seconds := by omega
  cases moment
  cases other
  dsimp only at *
  subst same nanosecond otherNanosecond sameOffset otherOffset
  rfl

theorem StandsAt.localReading_eq {day : Int} {clock : Clock} (inDay : clock.InDay)
    (common : clock.second ≤ 59)
    (stands : moment.StandsAt (day * 86400000000 + clock.microseconds) offset) :
    moment.localReading.date.dayNumber = day ∧ moment.localReading.clock = clock := by
  have momentInDay := (localReading_clock moment).1
  have momentCommon := localReading_second_le stands.common
  have reading := stands.reading
  have clockBound := Clock.microseconds_lt inDay common
  have momentBound := Clock.microseconds_lt momentInDay momentCommon
  unfold localMicroseconds at reading
  refine ⟨by omega, ?_⟩
  exact Julian.clock_eq_of_microseconds momentInDay inDay momentCommon common (by omega)

/-! ### Leading to a reading -/

/-- What leads to a reading: the moment that stands at it, if its days are in range, and out of
range elsewhere. -/
structure LeadsTo (result : Except Error Moment) (microseconds : Int) (offset : UtcOffset) :
    Prop where
  ok_iff : (∃ next, result = .ok next) ↔ Readable microseconds offset
  refused : (¬ ∃ next, result = .ok next) → result = .error .outOfRange
  standsAt : ∀ next, result = .ok next → next.StandsAt microseconds offset

theorem leadsTo_outOfRange (outside : ¬ Readable microseconds offset) :
    LeadsTo (.error .outOfRange) microseconds offset := by
  refine ⟨⟨?_, fun readable => absurd readable outside⟩, fun _ => rfl, ?_⟩
  · rintro ⟨next, impossible⟩
    cases impossible
  · intro next impossible
    cases impossible

theorem ofLocalMicroseconds_eq_ok_iff :
    ofLocalMicroseconds microseconds offset = .ok moment ↔
      InRange (microseconds / 86400000000) ∧ moment.StandsAt microseconds offset := by
  unfold ofLocalMicroseconds
  rw [ofLocal_eq_ok_iff, day_of_microseconds, standsAt_iff]

theorem ofLocalMicroseconds_leadsTo (microseconds : Int) (offset : UtcOffset) :
    LeadsTo (ofLocalMicroseconds microseconds offset) microseconds offset := by
  have utcDay : (microseconds / 1000000 - offset.seconds) / secondsPerDay =
      (microseconds - offset.seconds * 1000000) / 86400000000 := by
    unfold secondsPerDay
    omega
  have fits : (microseconds % 1000000).toNat * 1000 < 2 * leapNanosecond := by
    unfold leapNanosecond
    omega
  refine ⟨⟨?_, ?_⟩, ?_, ?_⟩
  · rintro ⟨next, made⟩
    obtain ⟨inRange, stands⟩ := ofLocalMicroseconds_eq_ok_iff.mp made
    obtain ⟨seconds, -, same⟩ := standsAt_iff.mp stands
    have utcInRange := next.inRange
    unfold localSeconds at seconds
    rw [same] at seconds
    rw [show next.seconds = microseconds / 1000000 - offset.seconds by omega, utcDay] at utcInRange
    exact ⟨inRange, utcInRange⟩
  · rintro ⟨inRange, utcInRange⟩
    rw [← utcDay] at utcInRange
    refine ⟨⟨_, _, offset, utcInRange, fits⟩, ofLocalMicroseconds_eq_ok_iff.mpr ⟨inRange, ?_⟩⟩
    exact standsAt_iff.mpr ⟨Int.sub_add_cancel _ _, rfl, rfl⟩
  · intro refused
    unfold ofLocalMicroseconds ofLocal at refused ⊢
    by_cases inRange : InRange (microseconds / 1000000 / secondsPerDay)
    · rw [if_pos inRange] at refused ⊢
      unfold ofSeconds at refused ⊢
      split
      · rename_i bounds
        rw [dif_pos bounds] at refused
        exact absurd ⟨_, rfl⟩ refused
      · rfl
    · rw [if_neg inRange]
  · intro next made
    exact (ofLocalMicroseconds_eq_ok_iff.mp made).2

end Moment

end Earth

end MarsCalendar

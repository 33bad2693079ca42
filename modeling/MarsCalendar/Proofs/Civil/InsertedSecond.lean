import MarsCalendar.Proofs.Civil.Utc

set_option autoImplicit false

/-! Where an inserted second is accepted. A second is inserted after the last one of a leap
month of UTC, so a reading of it should be accepted where the second before it is that one once
the whole offset is taken off. The check takes off the whole minutes of the offset alone. At
offsets of whole minutes that is the same; at any other offset no reading is that of an inserted
second, but the check accepts some all the same. -/

namespace MarsCalendar.Civil

open Gregorian (Date)

/-- The second of UTC is the last of a leap month, after which one was inserted. -/
def EndsLeapMonth (seconds : Int) : Prop :=
  let date := Date.ofDayNumber (seconds / 86400)
  seconds % 86400 = 86399 ∧ date.IsMonthEnd ∧ YearMonth.IsLeap ⟨date.year, date.month⟩

instance (seconds : Int) : Decidable (EndsLeapMonth seconds) :=
  inferInstanceAs (Decidable (_ ∧ _))

namespace Reading

variable {reading : Reading}

/-! ### Whole minutes of the offset -/

def withWholeMinutes (reading : Reading) : Reading :=
  { reading with offset := some (reading.offsetSeconds.tdiv 60 * 60) }

theorem withWholeMinutes_offset (offset : IsOffset reading.offsetSeconds) :
    IsOffset reading.withWholeMinutes.offsetSeconds ∧
      reading.withWholeMinutes.offsetSeconds % 60 = 0 := by
  obtain ⟨west, east⟩ := offset
  have size : (reading.offsetSeconds.tdiv 60).natAbs = reading.offsetSeconds.natAbs / 60 :=
    Int.natAbs_tdiv _ _
  change IsOffset (reading.offsetSeconds.tdiv 60 * 60) ∧
    reading.offsetSeconds.tdiv 60 * 60 % 60 = 0
  refine ⟨⟨?_, ?_⟩, Int.mul_emod_left _ _⟩ <;> omega

theorem unixSeconds_withWholeMinutes (reading : Reading) :
    reading.withWholeMinutes.unixSeconds =
      reading.unixSeconds + reading.offsetSeconds.tmod 60 := by
  have parts := Int.mul_tdiv_add_tmod reading.offsetSeconds 60
  change reading.date.dayNumber * 86400 + reading.clock.storedSeconds -
    reading.offsetSeconds.tdiv 60 * 60 = _
  unfold unixSeconds
  omega

theorem inLeapMinute_withWholeMinutes (reading : Reading) :
    reading.withWholeMinutes.InLeapMinute ↔ reading.InLeapMinute := by
  have minutes : reading.withWholeMinutes.offsetSeconds.tdiv 60 =
      reading.offsetSeconds.tdiv 60 := Int.mul_tdiv_cancel _ (by decide)
  unfold InLeapMinute
  rw [minutes]
  rfl

/-! ### Readings of an inserted second -/

theorem unixSeconds_of_inserted (inserted : reading.clock.second = 60) :
    (reading.unixSeconds + reading.offsetSeconds) % 60 = 59 := by
  unfold unixSeconds Clock.storedSeconds
  omega

/-- At an offset with odd seconds no second 60 follows the last second of a minute of UTC. -/
theorem not_endsLeapMonth_of_odd (inserted : reading.clock.second = 60)
    (odd : reading.offsetSeconds % 60 ≠ 0) : ¬ EndsLeapMonth reading.unixSeconds := by
  have minute := unixSeconds_of_inserted inserted
  rintro ⟨last, -⟩
  omega

theorem inLeapMinute_iff_endsLeapMonth (offset : IsOffset reading.offsetSeconds)
    (date : reading.date.Valid) (clock : reading.clock.InDay)
    (inserted : reading.clock.second = 60) :
    reading.InLeapMinute ↔
      EndsLeapMonth (reading.unixSeconds + reading.offsetSeconds.tmod 60) := by
  obtain ⟨isOffset, wholeMinutes⟩ := withWholeMinutes_offset offset
  have minute : (reading.withWholeMinutes.unixSeconds +
      reading.withWholeMinutes.offsetSeconds) % 60 = 59 := unixSeconds_of_inserted inserted
  have lastSecond : reading.withWholeMinutes.unixSeconds / 60 % 1440 = 1439 ↔
      reading.withWholeMinutes.unixSeconds % 86400 = 86399 := by omega
  rw [← inLeapMinute_withWholeMinutes, ← unixSeconds_withWholeMinutes,
    inLeapMinute_iff isOffset date clock wholeMinutes]
  unfold EndsLeapMonth
  rw [lastSecond]

/-- A reading of second 60 with its other fields in order is accepted where the second before
it, with the whole minutes of the offset taken off, ends a leap month of UTC; elsewhere its
second is refused. With the whole offset taken off this is the same, if the offset is one of
whole minutes or the reading is refused, and only then. -/
theorem check_inserted_iff (offset : IsOffset reading.offsetSeconds) (date : reading.date.Valid)
    (clock : reading.clock.InDay) (inserted : reading.clock.second = 60) :
    (reading.check = .ok reading ↔
      EndsLeapMonth (reading.unixSeconds + reading.offsetSeconds.tmod 60)) ∧
    (reading.check ≠ .ok reading → reading.check = .error (reading.invalid .second)) ∧
    ((reading.check = .ok reading ↔ EndsLeapMonth reading.unixSeconds) ↔
      reading.offsetSeconds % 60 = 0 ∨ reading.check ≠ .ok reading) := by
  have leapMinute := inLeapMinute_iff_endsLeapMonth offset date clock inserted
  have accepted : reading.check = .ok reading ↔ reading.InLeapMinute := by
    rw [check_eq_ok_iff]
    exact ⟨fun both => both.1.2.2.2 inserted,
      fun leap => ⟨⟨offset, date, clock, fun _ => leap⟩, rfl⟩⟩
  refine ⟨accepted.trans leapMinute, fun refused => ?_, ?_⟩
  · have outside := mt accepted.mpr refused
    obtain ⟨hour, minute, second, -⟩ := clock
    unfold check fault?
    rw [if_neg (not_not_intro offset), if_neg (not_not_intro date.1), if_neg (not_not_intro date),
      if_neg (Nat.not_lt.mpr hour), if_neg (Nat.not_lt.mpr minute), if_pos (.inr ⟨inserted, outside⟩)]
  · by_cases wholeMinutes : reading.offsetSeconds % 60 = 0
    · have noRest : reading.offsetSeconds.tmod 60 = 0 :=
        Int.tmod_eq_zero_of_dvd (Int.dvd_of_emod_eq_zero wholeMinutes)
      rw [noRest, Int.add_zero] at leapMinute
      exact ⟨fun _ => .inl wholeMinutes, fun _ => accepted.trans leapMinute⟩
    · have never := not_endsLeapMonth_of_odd inserted wholeMinutes
      constructor
      · intro same
        exact .inr (mt same.mp never)
      · intro either
        have refused := either.resolve_left wholeMinutes
        exact ⟨fun ok => absurd ok refused, fun ends => absurd ends never⟩

/-- The second inserted at the end of 2016, read half past five hours to the east on the day
after. -/
theorem check_inserted_iff_at_2017 :
    let reading : Reading := ⟨⟨2017, 1, 1⟩, ⟨5, 29, 60, 250000⟩, some 19800⟩
    reading.unixSeconds = 1483228799 ∧ reading.check = .ok reading := by
  intro reading
  have inserted : reading.clock.second = 60 := rfl
  obtain ⟨accepted, -, -⟩ := check_inserted_iff (by decide) (by decide) (by decide) inserted
  exact ⟨by decide, accepted.mpr (by decide)⟩

/-- Half a minute to the west, the inserted second is accepted where the second before it is
29 seconds past midnight of UTC. -/
theorem check_accepts_odd_offset :
    let reading : Reading := ⟨⟨2016, 12, 31⟩, ⟨23, 59, 60, 0⟩, some (-30)⟩
    reading.check = .ok reading ∧ reading.unixSeconds % 86400 = 29 ∧
      ¬ (reading.check = .ok reading ↔ EndsLeapMonth reading.unixSeconds) := by
  intro reading
  have accepted : reading.check = .ok reading :=
    (check_eq_ok_iff _ _).mpr ⟨by decide, rfl⟩
  have never : ¬ EndsLeapMonth reading.unixSeconds :=
    not_endsLeapMonth_of_odd rfl (by decide)
  exact ⟨accepted, by decide, fun same => never (same.mp accepted)⟩

end Reading

end MarsCalendar.Civil

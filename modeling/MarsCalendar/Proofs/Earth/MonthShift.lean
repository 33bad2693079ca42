import MarsCalendar.Proofs.Earth.Rollover

set_option autoImplicit false

/-! Months and years later. The month that is so many months away is begun at its first day, and the
day of the month is counted on from there: where the month is too short, the days left over fall in
the month after it, three of them at most. A year is twelve months, and a day that every month has
comes back when the months are taken away again. -/

namespace MarsCalendar

open Gregorian (Date daysInMonth)

/-! ### Counting days from the first of a month -/

namespace Gregorian.Date

def monthAfter (date : Date) (months : Int) : Date :=
  let index := 12 * date.year + ((date.month : Int) - 1) + months
  ⟨index / 12, (index % 12).toNat + 1, 1⟩

theorem monthAfter_named (date : Date) (months : Int) :
    1 ≤ (date.monthAfter months).month ∧ (date.monthAfter months).month ≤ 12 := by
  unfold monthAfter
  dsimp only
  omega

theorem eq_of_days_after_first {first date : Date} {day : Nat}
    (named : 1 ≤ first.month ∧ first.month ≤ 12) (begins : first.day = 1) (valid : date.Valid)
    (counted : 1 ≤ day ∧ day ≤ 31)
    (number : date.dayNumber = first.dayNumber + ((day : Int) - 1)) :
    (day ≤ daysInMonth first.year first.month → date = { first with day := day }) ∧
    (daysInMonth first.year first.month < day →
      date = { first.nextMonth with day := day - daysInMonth first.year first.month } ∧
        day - daysInMonth first.year first.month ≤ 3) := by
  obtain ⟨long, -⟩ := daysInMonth_bounds first.year first.month named
  -- A real date is known by its day number, which goes on counting past the end of the month.
  constructor
  · intro inMonth
    refine eq_of_dayNumber_eq _ _ valid ⟨named, counted.1, inMonth⟩ ?_
    rw [number]
    unfold dayNumber
    dsimp only
    omega
  · intro beyond
    have firstValid : first.Valid := ⟨named, by omega, by omega⟩
    have nextNamed := (nextMonth_valid firstValid).1
    obtain ⟨nextLong, -⟩ := daysInMonth_bounds first.nextMonth.year _ nextNamed
    have nextNumber := dayNumber_nextMonth first
    have nextBegins : first.nextMonth.day = 1 := by
      unfold nextMonth
      split <;> rfl
    refine ⟨eq_of_dayNumber_eq _ _ valid ⟨nextNamed, ?_, ?_⟩ ?_, by omega⟩
    · dsimp only
      omega
    · dsimp only
      omega
    · rw [number]
      unfold dayNumber at nextNumber ⊢
      dsimp only
      omega

end Gregorian.Date

namespace Earth.Moment

variable {moment next back : Moment} {amount : Int}

theorem monthStart_of_months (moment : Moment) (amount : Int) :
    (moment.localFields.set (moment.localFields.month + amount) .month).monthStart =
      moment.localReading.date.monthAfter amount := by
  have index : (moment.localFields.set (moment.localFields.month + amount) .month).monthIndex =
      12 * moment.localReading.date.year + ((moment.localReading.date.month : Int) - 1) +
        amount := by
    unfold Fields.monthIndex
    dsimp only [Fields.set, localFields, Fields.ofReading]
    omega
  unfold Fields.monthStart Date.monthAfter
  rw [index]

theorem localReading_of_add_months (common : ¬ moment.IsLeap)
    (added : moment.add .months amount = some (.ok next)) :
    next.offset = moment.offset ∧ next.localReading.clock = moment.localReading.clock ∧
      next.localReading.date.dayNumber =
        (moment.localReading.date.monthAfter amount).dayNumber +
          ((moment.localReading.date.day : Int) - 1) := by
  have made := set_of_add added
  simp only [TimeUnit.field, TimeUnit.steps, Fields.get, Int.one_mul] at made
  obtain ⟨-, stands⟩ := standsAt_of_set made
  have sameTime : (moment.localFields.set (moment.localFields.month + amount) .month).timeOfDay =
      moment.localReading.clock.microseconds := localFields_timeOfDay moment
  have sameDay : (moment.localFields.set (moment.localFields.month + amount) .month).day =
      moment.localReading.date.day := rfl
  unfold Fields.microseconds at stands
  rw [sameTime, sameDay, monthStart_of_months] at stands
  obtain ⟨day, clock⟩ :=
    stands.localReading_eq (localReading_clock moment).1 (localReading_second_le common)
  exact ⟨stands.offset, clock, day⟩

/-! ### Years -/

theorem ofFields_set_year_eq_set_month (moment : Moment) (amount : Int) :
    ofFields (moment.localFields.set (moment.localFields.year + amount) .year) moment.offset =
      ofFields (moment.localFields.set (moment.localFields.month + 12 * amount) .month)
        moment.offset := by
  have index : (moment.localFields.set (moment.localFields.year + amount) .year).monthIndex =
      (moment.localFields.set (moment.localFields.month + 12 * amount) .month).monthIndex := by
    unfold Fields.monthIndex
    dsimp only [Fields.set]
    omega
  have start : (moment.localFields.set (moment.localFields.year + amount) .year).monthStart =
      (moment.localFields.set (moment.localFields.month + 12 * amount) .month).monthStart := by
    unfold Fields.monthStart
    rw [index]
  have reading : (moment.localFields.set (moment.localFields.year + amount) .year).microseconds =
      (moment.localFields.set (moment.localFields.month + 12 * amount) .month).microseconds := by
    unfold Fields.microseconds
    rw [start]
    rfl
  rw [ofFields_set_eq, ofFields_set_eq, start, reading]

theorem add_years_eq_add_months (inRange : moment.LocalInRange) (amount : Int) :
    moment.add .years amount = moment.add .months (12 * amount) := by
  have same := ofFields_set_year_eq_set_month moment amount
  have ordinary := localFields_ordinary moment
  unfold add TimeUnit.steps TimeUnit.field
  dsimp only
  rw [fields_inRange inRange, Int.one_mul, Int.one_mul, Option.bind_some, Option.bind_some,
    set_inRange inRange, set_inRange inRange]
  unfold Fields.get
  dsimp only
  rw [same]
  -- If the month begins in range, none of the sums leaves a word; otherwise both are refused.
  by_cases begins : Gregorian.InRange
      (moment.localFields.set (moment.localFields.year + amount) .year).monthStart.dayNumber
  · have bounds := Fields.monthIndex_bounds begins
    obtain ⟨year, month, -, -, -, -, -⟩ := ordinary
    unfold Fields.monthIndex at bounds
    dsimp only [Fields.set] at bounds
    have years : (FitsWord amount ∧ FitsWord amount) ∧
        FitsWord (moment.localFields.year + amount) := by
      unfold FitsWord
      omega
    have months : (FitsWord (12 * amount) ∧ FitsWord (12 * amount)) ∧
        FitsWord (moment.localFields.month + 12 * amount) := by
      unfold FitsWord
      omega
    rw [if_pos years.1, if_pos years.2, if_pos months.1, if_pos months.2]
  · have refused :
        ofFields (moment.localFields.set (moment.localFields.month + 12 * amount) .month)
          moment.offset = .error .outOfRange := by
      rw [← same, ofFields_set_eq, if_neg begins]
    rw [refused, ite_self, ite_self, ite_self, ite_self]

/-! ### There and back -/

theorem back_of_add_months (common : ¬ moment.IsLeap) (whole : moment.WholeMicroseconds)
    (added : moment.add .months amount = some (.ok next))
    (taken : next.sub .months amount = some (.ok back))
    (kept : next.localReading.date =
      { moment.localReading.date.monthAfter amount with day := moment.localReading.date.day }) :
    back = moment := by
  obtain ⟨offset, clock, -⟩ := localReading_of_add_months common added
  have made := set_of_add taken
  simp only [TimeUnit.field, TimeUnit.steps, Fields.get, Int.one_mul] at made
  obtain ⟨-, stands⟩ := standsAt_of_set made
  have start : next.localReading.date.monthAfter (-amount) = moment.localFields.monthStart := by
    have same : moment.localFields.monthIndex = 12 * moment.localReading.date.year +
        ((moment.localReading.date.month : Int) - 1) := rfl
    rw [kept]
    unfold Date.monthAfter Fields.monthStart
    rw [same]
    dsimp only
    congr 1 <;> omega
  have sameTime : (next.localFields.set (next.localFields.month + -amount) .month).timeOfDay =
      moment.localFields.timeOfDay := by
    rw [localFields_timeOfDay, ← clock]
    exact localFields_timeOfDay next
  have sameDay : (next.localFields.set (next.localFields.month + -amount) .month).day =
      moment.localFields.day := by
    change (next.localReading.date.day : Int) = moment.localReading.date.day
    rw [kept]
  unfold Fields.microseconds at stands
  rw [monthStart_of_months, start, sameTime, sameDay, offset] at stands
  change back.StandsAt moment.localFields.microseconds moment.offset at stands
  rw [localFields_microseconds] at stands
  exact stands.unique (standsAt_self whole common)

/-- Adding months keeps the offset and the time of day. The day of the month is counted from the
first of the month so many months away; it is the same if that month has it, and falls in the month
after by as much as it is too long, three days at most. A year is twelve months, in every result, if
so many months fit a word or the local date is in range. A day of the month up to the 28th comes
back. -/
theorem add_months_exact (common : ¬ moment.IsLeap) (amount : Int) :
    (∀ next, moment.add .months amount = some (.ok next) →
      ∃ before after, moment.civil = some before ∧ next.civil = some after ∧
        let first := before.date.monthAfter amount
        let length := daysInMonth first.year first.month
        let day := before.date.day
        next.offset = moment.offset ∧ after.clock = before.clock ∧
          after.date.dayNumber = first.dayNumber + ((day : Int) - 1) ∧
          (day ≤ length → after.date = { first with day := day }) ∧
          (length < day → after.date = { first.nextMonth with day := day - length } ∧
            day - length ≤ 3)) ∧
    (moment.LocalInRange ∨ FitsWord (12 * amount) →
      moment.add .years amount = moment.add .months (12 * amount)) ∧
    (moment.WholeMicroseconds → moment.localReading.date.day ≤ 28 → ∀ next back,
      moment.add .months amount = some (.ok next) → next.sub .months amount = some (.ok back) →
        back = moment) := by
  have named := Date.monthAfter_named moment.localReading.date amount
  have counted : 1 ≤ moment.localReading.date.day ∧ moment.localReading.date.day ≤ 31 := by
    obtain ⟨valid, -⟩ := localReading_date moment
    have long := (Gregorian.daysInMonth_bounds moment.localReading.date.year _ valid.1).2
    exact ⟨valid.2.1, valid.2.2.trans long⟩
  refine ⟨?_, ?_, ?_⟩
  · intro next added
    obtain ⟨⟨inRange, nextInRange⟩, -⟩ := standsAt_of_set (set_of_add added)
    obtain ⟨offset, clock, number⟩ := localReading_of_add_months common added
    obtain ⟨inMonth, beyond⟩ :=
      Date.eq_of_days_after_first named rfl (localReading_date next).1 counted number
    exact ⟨_, _, civil_inRange inRange, civil_inRange nextInRange, offset, clock, number, inMonth,
      beyond⟩
  · intro fits
    by_cases inRange : moment.LocalInRange
    · exact add_years_eq_add_months inRange amount
    · have months := fits.resolve_left inRange
      have years : FitsWord amount := by
        unfold FitsWord at months ⊢
        omega
      have yearSteps : TimeUnit.years.steps * amount = amount := Int.one_mul _
      have monthSteps : TimeUnit.months.steps * (12 * amount) = 12 * amount := Int.one_mul _
      rw [add_outside inRange years (yearSteps.symm ▸ years),
        add_outside inRange months (monthSteps.symm ▸ months)]
  · intro whole short next back added taken
    obtain ⟨-, -, number⟩ := localReading_of_add_months common added
    have long :=
      (Gregorian.daysInMonth_bounds (moment.localReading.date.monthAfter amount).year _ named).1
    have kept := (Date.eq_of_days_after_first named rfl (localReading_date next).1 counted
      number).1 (short.trans long)
    exact back_of_add_months common whole added taken kept

/-- A month after the last of January 2017, at noon, it is the third of March; from there eleven
months and back; and a year that is out of range as its twelve months are. -/
theorem add_months_exact_after_january :
    let january : Moment := ⟨1485864000, 0, .utc, by decide, by decide⟩
    let march : Moment := ⟨1488542400, 0, .utc, by decide, by decide⟩
    ¬ january.IsLeap ∧ january.add .months 1 = some (.ok march) ∧
      (∃ before after, january.civil = some before ∧ march.civil = some after ∧
        before.date = ⟨2017, 1, 31⟩ ∧ after.date = ⟨2017, 3, 3⟩ ∧ after.clock = before.clock) ∧
      (∃ next back, march.add .months 11 = some (.ok next) ∧
        next.sub .months 11 = some (.ok back) ∧ back = march) ∧
      march.add .years (-300000) = march.add .months (12 * -300000) := by
  intro january march
  have januaryCommon : ¬ january.IsLeap := by decide
  have marchCommon : ¬ march.IsLeap := by decide
  have added : january.add .months 1 = some (.ok march) := by decide
  have there : march.add .months 11 =
      some (.ok ⟨1517659200, 0, .utc, by decide, by decide⟩) := by decide
  have again : Moment.sub ⟨1517659200, 0, .utc, by decide, by decide⟩ .months 11 =
      some (.ok march) := by decide
  obtain ⟨before, after, civil, nextCivil, -, clock, -, -, beyond⟩ :=
    (add_months_exact januaryCommon 1).1 march added
  have january31 : before = ⟨⟨2017, 1, 31⟩, ⟨12, 0, 0, 0⟩, none⟩ :=
    Option.some.inj (civil.symm.trans (by decide))
  rw [january31] at beyond
  obtain ⟨-, -, comesBack⟩ := add_months_exact marchCommon 11
  obtain ⟨-, years, -⟩ := add_months_exact marchCommon (-300000)
  exact ⟨januaryCommon, added, ⟨before, after, civil, nextCivil, by rw [january31],
    (beyond (by decide)).1.trans (by decide), clock⟩,
    ⟨_, march, there, again, comesBack (by decide) (by decide) _ march there again⟩,
    years (.inl (by decide))⟩

end Earth.Moment

end MarsCalendar

import MarsCalendar.Proofs.Earth.LocalReading

set_option autoImplicit false

/-! Fields that roll over. The reading that fields lead to is counted from the first of their month,
and it depends on each field alone by its own length. All but one of the fields are those of a
moment, so no number on the way passes its limits unless the reading is out of range anyway: the
moment is made exactly where the month begins in range and the reading's days are. Units of a fixed
length therefore move the reading by as many times their length, and back again. A moment whose own
local date is out of range has no fields to change, and nothing is made of it. -/

namespace MarsCalendar.Earth

open Civil (Clock)
open Gregorian (Date InRange daysBeforeYear)

/-! ### Sums of spans -/

theorem total_of_foldlM {spans : List Int} {start total : Int}
    (summed : spans.foldlM addSpan? start = some total) : total = start + spans.sum := by
  induction spans generalizing start with
  | nil =>
      cases summed
      exact (Int.add_zero _).symm
  | cons span later ih =>
      rw [List.foldlM_cons] at summed
      obtain ⟨next, added, rest⟩ := Option.bind_eq_some_iff.mp summed
      unfold addSpan? at added
      split at added
      · cases added
        rw [ih rest, List.sum_cons]
        omega
      · cases added

theorem foldlM_of_short {bound : Nat} {spans : List Int} {start : Int}
    (short : ∀ span ∈ spans, span.natAbs ≤ bound)
    (room : start.natAbs + spans.length * bound ≤ 9223372036854775807000) :
    spans.foldlM addSpan? start = some (start + spans.sum) := by
  induction spans generalizing start with
  | nil =>
      rw [List.sum_nil, Int.add_zero]
      rfl
  | cons span later ih =>
      have first := short span List.mem_cons_self
      rw [List.length_cons, Nat.succ_mul] at room
      have added : addSpan? start span = some (start + span) := by
        refine if_pos ⟨?_, ?_⟩ <;> unfold IsSpan <;> omega
      have rest : later.foldlM addSpan? (start + span) = some (start + span + later.sum) :=
        ih (fun other member => short other (List.mem_cons_of_mem span member)) (by omega)
      rw [List.foldlM_cons, added, List.sum_cons, ← Int.add_assoc]
      exact rest

/-! ### The reading that fields lead to -/

namespace Fields

variable {fields : Fields}

def date (fields : Fields) : Date :=
  ⟨fields.year, fields.month.toNat, fields.day.toNat⟩

def timeOfDay (fields : Fields) : Int :=
  fields.hour * 3600000000 + fields.minute * 60000000 + fields.second * 1000000
    + fields.microsecond

def microseconds (fields : Fields) : Int :=
  (fields.monthStart.dayNumber + (fields.day - 1)) * 86400000000 + fields.timeOfDay

theorem microseconds_eq_sum (fields : Fields) :
    fields.microseconds = fields.monthStart.dayNumber * 86400000000 + fields.spans.sum := by
  unfold microseconds timeOfDay spans
  simp only [List.sum_cons, List.sum_nil]
  omega

theorem monthStart_valid (fields : Fields) : fields.monthStart.Valid :=
  Date.first_valid _ ⟨by omega, by omega⟩

theorem monthStart_of_valid (valid : fields.date.Valid) :
    fields.monthStart = ⟨fields.year, fields.month.toNat, 1⟩ := by
  obtain ⟨⟨first, last⟩, -⟩ := valid
  unfold date at first last
  dsimp only at first last
  have year : fields.monthIndex / 12 = fields.year := by
    unfold monthIndex
    omega
  have month : (fields.monthIndex % 12).toNat + 1 = fields.month.toNat := by
    unfold monthIndex
    omega
  unfold monthStart
  rw [year, month]

theorem microseconds_of_valid (valid : fields.date.Valid) :
    fields.microseconds = fields.date.dayNumber * 86400000000 + fields.timeOfDay := by
  have start := monthStart_of_valid valid
  obtain ⟨-, day, -⟩ := valid
  unfold microseconds
  rw [start]
  unfold date at day ⊢
  unfold Date.dayNumber
  dsimp only at day ⊢
  omega

theorem inRange_monthStart_of_valid (valid : fields.date.Valid)
    (inRange : InRange fields.date.dayNumber) : InRange fields.monthStart.dayNumber := by
  rw [Gregorian.inRange_dayNumber_iff valid] at inRange
  rw [Gregorian.inRange_dayNumber_iff (monthStart_valid fields), monthStart_of_valid valid]
  exact inRange

/-! ### Limits on the way -/

structure Ordinary (fields : Fields) : Prop where
  year : -1000000 ≤ fields.year ∧ fields.year ≤ 1000000
  month : 1 ≤ fields.month ∧ fields.month ≤ 12
  day : 1 ≤ fields.day ∧ fields.day ≤ 31
  hour : 0 ≤ fields.hour ∧ fields.hour ≤ 23
  minute : 0 ≤ fields.minute ∧ fields.minute ≤ 59
  second : 0 ≤ fields.second ∧ fields.second ≤ 60
  microsecond : 0 ≤ fields.microsecond ∧ fields.microsecond ≤ 999999

theorem monthIndex_bounds (begins : InRange fields.monthStart.dayNumber) :
    -262143 ≤ fields.monthIndex / 12 ∧ fields.monthIndex / 12 ≤ 262142 :=
  (Gregorian.inRange_dayNumber_iff (monthStart_valid fields)).mp begins

theorem Ordinary.monthStart?_set (ordinary : fields.Ordinary) (field : Field) (value : Int)
    (begins : InRange (fields.set value field).monthStart.dayNumber) :
    (fields.set value field).monthStart? = some (fields.set value field).monthStart := by
  have bounds := monthIndex_bounds begins
  have months : FitsWord (12 * (fields.set value field).year) := by
    obtain ⟨year, month, -, -, -, -, -⟩ := ordinary
    unfold monthIndex at bounds
    unfold FitsWord
    cases field <;> dsimp only [set] at bounds ⊢ <;> omega
  have index : FitsWord (fields.set value field).monthIndex := by
    unfold FitsWord
    omega
  exact if_pos ⟨months, index, by omega, begins⟩

/-- With one field changed, no span is too long if the reading's day is in range. -/
theorem Ordinary.sumOfSpans?_set (ordinary : fields.Ordinary) (field : Field) (value : Int)
    (begins : InRange (fields.set value field).monthStart.dayNumber)
    (inRange : InRange ((fields.set value field).microseconds / 86400000000)) :
    sumOfSpans? (fields.set value field).spans = some (fields.set value field).spans.sum := by
  have beginning := begins.near
  have reading := inRange.near
  unfold microseconds timeOfDay at reading
  generalize (fields.set value field).monthStart.dayNumber = start at beginning reading
  have short : ∀ span ∈ (fields.set value field).spans,
      span.natAbs ≤ 1000000000000000000000 := by
    obtain ⟨-, -, day, hour, minute, second, microsecond⟩ := ordinary
    unfold spans
    simp only [List.forall_mem_cons]
    cases field <;> dsimp only [set] at reading ⊢ <;>
      exact ⟨by omega, by omega, by omega, by omega, by omega, fun _ => nofun⟩
  have count : (fields.set value field).spans.length = 5 := rfl
  have summed : sumOfSpans? (fields.set value field).spans =
      some (0 + (fields.set value field).spans.sum) :=
    foldlM_of_short short (by rw [count]; decide)
  rwa [Int.zero_add] at summed

end Fields

/-- The words that can be taken away, and that a field may be changed to: from the least word no day
is counted. -/
def AboveLeast (value : Int) : Prop :=
  -9223372036854775808 < value ∧ value ≤ 9223372036854775807

instance (value : Int) : Decidable (AboveLeast value) :=
  inferInstanceAs (Decidable (_ ∧ _))

theorem AboveLeast.fitsWord {value : Int} (above : AboveLeast value) : FitsWord value :=
  ⟨above.1.le, above.2⟩

theorem AboveLeast.fitsWord_neg {value : Int} (above : AboveLeast value) : FitsWord (-value) := by
  obtain ⟨low, high⟩ := above
  unfold FitsWord
  omega

def TimeUnit.length? : TimeUnit → Option Int
  | .years => none
  | .months => none
  | .weeks => some 604800000000
  | .days => some 86400000000
  | .hours => some 3600000000
  | .minutes => some 60000000
  | .seconds => some 1000000
  | .microseconds => some 1

namespace Moment

variable {moment next : Moment} {unit : TimeUnit} {length amount : Int}

/-- The fields of the local reading, which the moment tells if its local date is in range. -/
def localFields (moment : Moment) : Fields :=
  Fields.ofReading moment.localReading

theorem fields_inRange (inRange : moment.LocalInRange) :
    moment.fields = some moment.localFields := by
  unfold fields
  rw [civil_inRange inRange]
  rfl

theorem fields_outside (outside : ¬ moment.LocalInRange) : moment.fields = none := by
  unfold fields
  rw [civil_outside outside]
  rfl

theorem localFields_date (moment : Moment) :
    moment.localFields.date = moment.localReading.date := rfl

theorem localFields_timeOfDay (moment : Moment) :
    moment.localFields.timeOfDay = moment.localReading.clock.microseconds := by
  unfold Fields.timeOfDay localFields Fields.ofReading Clock.microseconds Clock.seconds
  dsimp only
  omega

theorem localFields_microseconds (moment : Moment) :
    moment.localFields.microseconds = moment.localMicroseconds := by
  have valid : moment.localFields.date.Valid := (localReading_date moment).1
  rw [Fields.microseconds_of_valid valid, localFields_date, localFields_timeOfDay]
  rfl

theorem localFields_ordinary (moment : Moment) : moment.localFields.Ordinary := by
  obtain ⟨valid, number⟩ := localReading_date moment
  obtain ⟨hour, minute, second, microsecond⟩ := (localReading_clock moment).1
  have year := Date.dayNumber_inYear _ valid
  have near := moment.inRange.near
  obtain ⟨west, east⟩ := moment.offset.inDay
  have day := Gregorian.daysInMonth_bounds moment.localReading.date.year _ valid.1
  rw [number] at year
  simp only [localSeconds, daysBeforeYear, Gregorian.epochOffset] at year
  unfold secondsPerDay at near year
  obtain ⟨named, dayLow, dayHigh⟩ := valid
  unfold localFields Fields.ofReading
  constructor <;> dsimp only <;> omega

/-! ### Setting a field -/

theorem ofFields_set_eq (moment : Moment) (field : Field) (value : Int) :
    ofFields (moment.localFields.set value field) moment.offset =
      if InRange (moment.localFields.set value field).monthStart.dayNumber then
        ofLocalMicroseconds (moment.localFields.set value field).microseconds moment.offset
      else .error .outOfRange := by
  have ordinary := localFields_ordinary moment
  unfold ofFields
  by_cases begins : InRange (moment.localFields.set value field).monthStart.dayNumber
  · rw [if_pos begins, ordinary.monthStart?_set field value begins, Fields.microseconds_eq_sum]
    cases summed : sumOfSpans? (moment.localFields.set value field).spans with
    | some elapsed =>
        have total := total_of_foldlM summed
        rw [Int.zero_add] at total
        rw [total]
    | none =>
        -- A span is too long for the sum only if the reading is out of range anyway.
        have outside :
            ¬ InRange ((moment.localFields.set value field).microseconds / 86400000000) := by
          intro inRange
          rw [ordinary.sumOfSpans?_set field value begins inRange] at summed
          cases summed
        have leads := ofLocalMicroseconds_leadsTo
          (moment.localFields.set value field).microseconds moment.offset
        rw [← Fields.microseconds_eq_sum, leads.refused]
        exact fun made => outside (leads.ok_iff.mp made).1
  · have none : (moment.localFields.set value field).monthStart? = none :=
      if_neg fun all => begins all.2.2.2
    rw [if_neg begins, none]

theorem ofFields_set_leadsTo (field : Field) (value : Int)
    (begins : InRange (moment.localFields.set value field).monthStart.dayNumber) :
    LeadsTo (ofFields (moment.localFields.set value field) moment.offset)
      (moment.localFields.set value field).microseconds moment.offset := by
  rw [ofFields_set_eq, if_pos begins]
  exact ofLocalMicroseconds_leadsTo _ _

theorem set_inRange (inRange : moment.LocalInRange) (field : Field) (value : Int) :
    moment.set field value =
      some (ofFields (moment.localFields.set value field) moment.offset) := by
  unfold set
  rw [fields_inRange inRange]
  rfl

theorem set_outside (outside : ¬ moment.LocalInRange) (field : Field) (value : Int) :
    moment.set field value = none := by
  unfold set
  rw [fields_outside outside]
  rfl

/-- What is made by setting a field stands at the reading of the fields, and both it and the moment
that it is made from can be read. -/
theorem standsAt_of_set {field : Field} {value : Int}
    (made : moment.set field value = some (.ok next)) :
    (moment.LocalInRange ∧ next.LocalInRange) ∧
      next.StandsAt (moment.localFields.set value field).microseconds moment.offset := by
  by_cases inRange : moment.LocalInRange
  · rw [set_inRange inRange] at made
    have rebuilt := Option.some.inj made
    rw [ofFields_set_eq] at rebuilt
    split at rebuilt
    · exact ⟨⟨inRange, localInRange_of_ofLocal rebuilt⟩,
        (ofLocalMicroseconds_eq_ok_iff.mp rebuilt).2⟩
    · cases rebuilt
  · rw [set_outside inRange] at made
    cases made

theorem add_inRange (inRange : moment.LocalInRange) (word : FitsWord amount)
    (steps : FitsWord (unit.steps * amount)) :
    moment.add unit amount =
      if FitsWord (moment.localFields.get unit.field + unit.steps * amount) then
        moment.set unit.field (moment.localFields.get unit.field + unit.steps * amount)
      else some (.error .outOfRange) := by
  unfold add
  dsimp only
  rw [if_pos ⟨word, steps⟩, fields_inRange inRange]
  rfl

theorem add_outside (outside : ¬ moment.LocalInRange) (word : FitsWord amount)
    (steps : FitsWord (unit.steps * amount)) : moment.add unit amount = none := by
  unfold add
  dsimp only
  rw [if_pos ⟨word, steps⟩, fields_outside outside]
  rfl

theorem add_of_long (long : ¬ (FitsWord amount ∧ FitsWord (unit.steps * amount))) :
    moment.add unit amount = some (.error .outOfRange) :=
  if_neg long

theorem set_of_add (made : moment.add unit amount = some (.ok next)) :
    moment.set unit.field (moment.localFields.get unit.field + unit.steps * amount) =
      some (.ok next) := by
  by_cases fits : FitsWord amount ∧ FitsWord (unit.steps * amount)
  · by_cases inRange : moment.LocalInRange
    · rw [add_inRange inRange fits.1 fits.2] at made
      split at made
      · exact made
      · cases made
    · rw [add_outside inRange fits.1 fits.2] at made
      cases made
  · rw [add_of_long fits] at made
    cases made

/-! ### Units of a fixed length -/

theorem fields_moved (fixed : unit.length? = some length) (fields : Fields) (amount : Int) :
    let moved := fields.set (fields.get unit.field + unit.steps * amount) unit.field
    moved.monthStart = fields.monthStart ∧
      moved.microseconds = fields.microseconds + amount * length := by
  cases unit <;> cases fixed <;> refine ⟨rfl, ?_⟩ <;>
    unfold Fields.microseconds Fields.timeOfDay TimeUnit.field TimeUnit.steps <;>
    dsimp only [Fields.set, Fields.get, Fields.monthStart, Fields.monthIndex] <;> omega

theorem standsAt_of_add (fixed : unit.length? = some length)
    (made : moment.add unit amount = some (.ok next)) :
    next.StandsAt (moment.localMicroseconds + amount * length) moment.offset := by
  obtain ⟨-, stands⟩ := standsAt_of_set (set_of_add made)
  rwa [(fields_moved fixed moment.localFields amount).2, localFields_microseconds] at stands

theorem add_leadsTo (fixed : unit.length? = some length) (inRange : moment.LocalInRange)
    (word : FitsWord amount)
    (fits : FitsWord (moment.localFields.get unit.field + unit.steps * amount)) :
    ∃ result, moment.add unit amount = some result ∧
      LeadsTo result (moment.localMicroseconds + amount * length) moment.offset := by
  obtain ⟨valid, number⟩ := localReading_date moment
  by_cases steps : FitsWord (unit.steps * amount)
  · obtain ⟨start, moved⟩ := fields_moved fixed moment.localFields amount
    have begins : InRange moment.localFields.monthStart.dayNumber :=
      Fields.inRange_monthStart_of_valid valid (number ▸ inRange)
    rw [← start] at begins
    rw [add_inRange inRange word steps, if_pos fits, set_inRange inRange,
      ← localFields_microseconds, ← moved]
    exact ⟨_, rfl, ofFields_set_leadsTo _ _ begins⟩
  · -- Only weeks have more than one step each; so many days lead out of range.
    refine ⟨_, add_of_long fun all => steps all.2, leadsTo_outOfRange fun reached => ?_⟩
    obtain ⟨hour, minute, second, microsecond⟩ := (localReading_clock moment).1
    have near := reached.1.near
    have here := InRange.near inRange
    rw [← number] at here
    unfold localMicroseconds Clock.microseconds Clock.seconds at near
    unfold FitsWord TimeUnit.steps at *
    cases unit <;> cases fixed <;> dsimp only at * <;> omega

/-- From a moment whose local date is in range, a fixed unit added so many times leads to the reading
that is as many times its length later, and taken away to the one that is as much earlier, with the
offset kept, if the field that is changed fits a word above the least one. From another moment there
is no result, not even an error, unless the steps do not fit a word. The least word cannot be taken
away from any moment, and what was added can be taken away again. -/
theorem add_sub_fixed_exact (fixed : unit.length? = some length) (moment : Moment) :
    (moment.LocalInRange → ∀ amount,
      (FitsWord amount → AboveLeast (moment.localFields.get unit.field + unit.steps * amount) →
        ∃ result, moment.add unit amount = some result ∧
          LeadsTo result (moment.localMicroseconds + amount * length) moment.offset) ∧
      (AboveLeast amount →
        AboveLeast (moment.localFields.get unit.field - unit.steps * amount) →
        ∃ result, moment.sub unit amount = some result ∧
          LeadsTo result (moment.localMicroseconds - amount * length) moment.offset)) ∧
    (¬ moment.LocalInRange → ∀ amount,
      (FitsWord amount → FitsWord (unit.steps * amount) → moment.add unit amount = none) ∧
      (AboveLeast amount → AboveLeast (unit.steps * amount) →
        moment.sub unit amount = none)) ∧
    moment.sub unit (-9223372036854775808) = some (.error .outOfRange) ∧
    (moment.WholeMicroseconds → ¬ moment.IsLeap → ∀ amount next back,
      moment.add unit amount = some (.ok next) → next.sub unit amount = some (.ok back) →
        back = moment) := by
  refine ⟨?_, ?_, ?_, ?_⟩
  · intro inRange amount
    refine ⟨fun word fits => add_leadsTo fixed inRange word fits.fitsWord, fun word fits => ?_⟩
    rw [Int.sub_eq_add_neg, ← Int.mul_neg] at fits
    rw [Int.sub_eq_add_neg, ← Int.neg_mul]
    exact add_leadsTo fixed inRange word.fitsWord_neg fits.fitsWord
  · intro outside amount
    refine ⟨add_outside outside, fun word steps => add_outside outside word.fitsWord_neg ?_⟩
    rw [Int.mul_neg]
    exact steps.fitsWord_neg
  · exact add_of_long fun all => absurd all.1 (by decide)
  · intro whole common amount next back added taken
    have there := standsAt_of_add fixed added
    have again := standsAt_of_add fixed taken
    rw [there.reading, there.offset, Int.neg_mul, Int.add_neg_cancel_right] at again
    exact again.unique (standsAt_self whole common)

/-- A second after the one inserted at the end of 2016, read half past five hours to the east, it is
one second past the half hour; three weeks from there and back; a week past the last day; and a day
from the first midnight in range, read an hour to the west of it. -/
theorem add_sub_fixed_exact_at_ends :
    let inserted : Moment := ⟨1483228799, 1250000000, ⟨19800, by decide⟩, by decide, by decide⟩
    let past : Moment := ⟨1483228801, 250000000, ⟨19800, by decide⟩, by decide, by decide⟩
    let last : Moment := ⟨8210266790400, 0, ⟨-3600, by decide⟩, by decide, by decide⟩
    let before : Moment := ⟨-8334601228800, 0, ⟨-3600, by decide⟩, by decide, by decide⟩
    inserted.IsLeap ∧ inserted.localMicroseconds = 1483248600250000 ∧
      (∃ result, inserted.add .seconds 1 = some result ∧
        LeadsTo result (inserted.localMicroseconds + 1 * 1000000) inserted.offset) ∧
      inserted.add .seconds 1 = some (.ok past) ∧
      (∃ next back, past.add .weeks 3 = some (.ok next) ∧ next.sub .weeks 3 = some (.ok back) ∧
        back = past) ∧
      ¬ Readable (last.localMicroseconds + 1 * 604800000000) last.offset ∧
      (∃ result, last.add .weeks 1 = some result ∧
        LeadsTo result (last.localMicroseconds + 1 * 604800000000) last.offset) ∧
      last.sub .weeks (-9223372036854775808) = some (.error .outOfRange) ∧
      ¬ before.LocalInRange ∧ before.add .days 1 = none := by
  intro inserted past last before
  have second : TimeUnit.length? .seconds = some 1000000 := rfl
  have day : TimeUnit.length? .days = some 86400000000 := rfl
  have week : TimeUnit.length? .weeks = some 604800000000 := rfl
  obtain ⟨shifted, -, -, -⟩ := add_sub_fixed_exact second inserted
  obtain ⟨-, -, -, comesBack⟩ := add_sub_fixed_exact week past
  obtain ⟨lastShifted, -, least, -⟩ := add_sub_fixed_exact week last
  obtain ⟨-, unread, -, -⟩ := add_sub_fixed_exact day before
  have there : past.add .weeks 3 =
      some (.ok ⟨1485043201, 250000000, ⟨19800, by decide⟩, by decide, by decide⟩) := by decide
  have again : Moment.sub ⟨1485043201, 250000000, ⟨19800, by decide⟩, by decide, by decide⟩
      .weeks 3 = some (.ok past) := by decide
  exact ⟨by decide, by decide, (shifted (by decide) 1).1 (by decide) (by decide), by decide,
    ⟨_, past, there, again, comesBack (by decide) (by decide) 3 _ past there again⟩, by decide,
    (lastShifted (by decide) 1).1 (by decide) (by decide), least, by decide,
    (unread (by decide) 1).1 (by decide) (by decide)⟩

/-- A day after the first midnight in range, read an hour to the west, it is eleven in the evening of
the first day there; but no day can be added. -/
theorem add_lost_before_first_day :
    let midnight : Moment := ⟨-8334601228800, 0, .utc, by decide, by decide⟩
    let moment := midnight.withOffset ⟨-3600, by decide⟩
    ofTimestamp (-8334601228800 : Rat) = .ok midnight ∧
      AboveLeast (moment.localFields.get .day + 1) ∧
      Readable (moment.localMicroseconds + 1 * 86400000000) moment.offset ∧
      ¬ ∃ result, moment.add .days 1 = some result ∧
        LeadsTo result (moment.localMicroseconds + 1 * 86400000000) moment.offset := by
  intro midnight moment
  refine ⟨by decide +kernel, by decide, by decide, ?_⟩
  rintro ⟨result, added, -⟩
  have none : moment.add .days 1 = none := by decide
  rw [none] at added
  cases added

end Moment

end MarsCalendar.Earth

import MarsCalendar.Mars.Name
import MarsCalendar.Proofs.Mars.DateInstant
import MarsCalendar.Wire.Reader

set_option autoImplicit false

/-! What holds of every date over the rationals, however it came about and whatever was
changed on it. Dates are made from fields, read from instants or read from their wire
form; they are changed field by field or read in another zone. The checked ways and the
unchecked ones lead to valid dates alike, so that no field leaves its bounds and no name
is looked up outside its table. -/

namespace MarsCalendar

/-! ### Reading the wire form -/

private theorem bind_eq_ok {ε α β : Type} {step : Except ε α} {next : α → Except ε β} {result : β}
    (accepted : step >>= next = .ok result) : ∃ value, step = .ok value ∧ next value = .ok result := by
  cases step with
  | error fault => cases accepted
  | ok value => exact ⟨value, rfl, accepted⟩

private theorem refusing_eq_ok {β : Type} {outcome : Except Error β} {value : β}
    (accepted : Wire.refusing outcome = .ok value) : outcome = .ok value := by
  cases outcome with
  | error fault => cases accepted
  | ok found => cases accepted; rfl

private theorem eq_ok_of_toOption {ε β : Type} {outcome : Except ε β} {value : β}
    (accepted : outcome.toOption = some value) : outcome = .ok value := by
  cases outcome with
  | error fault => cases accepted
  | ok found => cases accepted; rfl

theorem Wire.Value.make_of_toMarsDate {value : Wire.Value Rat} {date : Mars.Date Rat}
    (read : value.toMarsDate = .ok date) :
    ∃ mir month sol millisols zone, Mars.Date.make mir month sol millisols zone = .ok date := by
  unfold toMarsDate at read
  obtain ⟨parts, -, read⟩ := bind_eq_ok read
  obtain ⟨mirPart, -, read⟩ := bind_eq_ok read
  obtain ⟨monthPart, -, read⟩ := bind_eq_ok read
  obtain ⟨solPart, -, read⟩ := bind_eq_ok read
  obtain ⟨millisolsPart, -, read⟩ := bind_eq_ok read
  obtain ⟨zonePart, -, read⟩ := bind_eq_ok read
  obtain ⟨-, -, read⟩ := bind_eq_ok read
  obtain ⟨mir, -, read⟩ := bind_eq_ok read
  obtain ⟨month, -, read⟩ := bind_eq_ok read
  obtain ⟨sol, -, read⟩ := bind_eq_ok read
  obtain ⟨millisols, -, read⟩ := bind_eq_ok read
  obtain ⟨zone, -, read⟩ := bind_eq_ok read
  exact ⟨mir, month, sol, millisols, zone, refusing_eq_ok read⟩

namespace Mars

/-! ### Names -/

theorem entry?_of_bounds {α : Type} (entries : List α) {place : Nat} (first : 1 ≤ place)
    (last : place ≤ entries.length) : ∃ entry ∈ entries, entry? entries place = some entry := by
  obtain ⟨before, rfl⟩ := Nat.exists_eq_add_of_le' first
  have within : before < entries.length := last
  exact ⟨entries[before], List.getElem_mem within, List.getElem?_eq_getElem within⟩

theorem abbreviation_of_solName :
    ∀ name ∈ solNames, (String.ofList (name.toList.take 3)).utf8ByteSize = 3 := by
  decide

namespace Date

/-! ### Origins and changes -/

inductive Origin where
  | fields (mir : Int) (month sol : Nat) (millisols : Rat) (zone : Zone)
  | first
  | timestamp (seconds : Rat) (zone : Zone)
  | instant (moment : Instant Rat) (zone : Zone)
  | wire (value : Wire.Value Rat)

def Origin.date? : Origin → Option (Date Rat)
  | .fields mir month sol millisols zone => (make mir month sol millisols zone).toOption
  | .first => some Date.first
  | .timestamp seconds zone => some (ofTimestamp seconds zone)
  | .instant moment zone => some (moment.toDate zone)
  | .wire value => value.toMarsDate.toOption

inductive Change where
  | mir (mir : Int)
  | month (month : Nat)
  | sol (sol : Nat)
  | millisols (millisols : Rat)
  | zone (zone : Zone)
  | inZone (zone : Zone)

def change (date : Date Rat) : Change → Except Error (Date Rat)
  | .mir mir => date.withMir mir
  | .month month => date.withMonth month
  | .sol sol => date.withSol sol
  | .millisols millisols => date.withMillisols millisols
  | .zone zone => .ok (date.withZone zone)
  | .inZone zone => .ok (date.inZone zone)

/-- The date after a change. A refused change leaves it as it was. -/
def after (date : Date Rat) (change : Change) : Date Rat :=
  match date.change change with
  | .ok changed => changed
  | .error _ => date

def run (date : Date Rat) : List Change → Date Rat
  | [] => date
  | change :: later => (date.after change).run later

/-! ### Every run keeps to valid dates -/

theorem valid_of_check {date checked : Date Rat} (accepted : date.check = .ok checked) :
    checked.Valid := by
  obtain ⟨-, valid, same⟩ := (check_eq_ok_iff date checked).mp accepted
  rw [same]
  exact valid

theorem Origin.valid {origin : Origin} {date : Date Rat} (begun : origin.date? = some date) :
    date.Valid := by
  cases origin with
  | fields mir month sol millisols zone =>
      exact valid_of_check (eq_ok_of_toOption begun)
  | first =>
      cases begun
      exact Instant.toDate_valid Instant.origin Zone.mtc
  | timestamp seconds zone =>
      cases begun
      exact Instant.toDate_valid (Instant.ofTimestamp seconds) zone
  | instant moment zone =>
      cases begun
      exact moment.toDate_valid zone
  | wire value =>
      obtain ⟨mir, month, sol, millisols, zone, made⟩ :=
        Wire.Value.make_of_toMarsDate (eq_ok_of_toOption begun)
      exact valid_of_check made

theorem change_valid {date changed : Date Rat} (valid : date.Valid) {change : Change}
    (accepted : date.change change = .ok changed) : changed.Valid := by
  cases change with
  | mir mir => exact valid_of_check accepted
  | month month => exact valid_of_check accepted
  | sol sol => exact valid_of_check accepted
  | millisols millisols => exact valid_of_check accepted
  | zone zone =>
      cases accepted
      exact valid
  | inZone zone =>
      cases accepted
      exact date.toInstant.toDate_valid zone

theorem after_valid {date : Date Rat} (valid : date.Valid) (change : Change) :
    (date.after change).Valid := by
  unfold after
  split
  · rename_i changed accepted
    exact change_valid valid accepted
  · exact valid

theorem run_valid {date : Date Rat} (valid : date.Valid) (changes : List Change) :
    (date.run changes).Valid := by
  induction changes generalizing date with
  | nil => exact valid
  | cons change later ih => exact ih (after_valid valid change)

/-! ### What a valid date promises -/

/-- Every field of a date is in bounds, and so is every place that is looked up. -/
structure InBounds (date : Date Rat) : Prop where
  month : 1 ≤ date.month ∧ date.month ≤ 24
  sol : 1 ≤ date.sol ∧ date.sol ≤ Month.length date.mir date.month
  millisols : 0 ≤ date.millisols ∧ date.millisols < 1000
  slot : -5 ≤ date.zone.slot ∧ date.zone.slot ≤ 5
  solOfMir : 1 ≤ date.solOfMir ∧ (date.solOfMir : Int) ≤ Mir.length date.mir
  solOfWeek : 1 ≤ date.solOfWeek ∧ date.solOfWeek ≤ 7
  monthName : ∃ name ∈ monthNames, date.monthName? = some name
  solName : ∃ name ∈ solNames, date.solName? = some name
  solAbbreviation : ∃ name abbreviation, date.solName? = some name ∧
    date.solAbbreviation? = some abbreviation ∧ abbreviation.utf8ByteSize = 3 ∧
    abbreviation.toList <+: name.toList

theorem inBounds_of_valid {date : Date Rat} (valid : date.Valid) : date.InBounds := by
  obtain ⟨real, low, high⟩ := (valid_iff date).mp valid
  have week : 1 ≤ date.solOfWeek ∧ date.solOfWeek ≤ 7 := by
    unfold solOfWeek solsPerLongWeek
    omega
  obtain ⟨name, listed, named⟩ := entry?_of_bounds solNames week.1 week.2
  refine
    { month := real.1
      sol := real.2
      millisols := ⟨low, high⟩
      slot := date.zone.isSlot
      solOfMir := SolDate.solOfMir_bounds real
      solOfWeek := week
      monthName := entry?_of_bounds monthNames real.1.1 real.1.2
      solName := ⟨name, listed, named⟩
      solAbbreviation := ⟨name, String.ofList (name.toList.take 3), named, ?_, ?_, ?_⟩ }
  · unfold solAbbreviation? solName? Mars.solName?
    rw [named]
    rfl
  · exact abbreviation_of_solName name listed
  · rw [String.toList_ofList]
    exact List.take_prefix 3 name.toList

/-- However a date came about, and whatever was then changed on it or refused, its fields
are in bounds and so are the places looked up for it. -/
theorem run_inBounds {origin : Origin} {date : Date Rat} (begun : origin.date? = some date)
    (changes : List Change) : (date.run changes).InBounds :=
  inBounds_of_valid (run_valid (Origin.valid begun) changes)

/-- The last sol of a long mir, which the short mir after it has not. Reading it far
enough to the east leads into that mir all the same, and labelling it anew and reading it
again leads on by a sol. -/
theorem run_inBounds_past_long_mir :
    (Origin.fields 1 24 28 (1 / 2) Zone.westernmost).date? =
        some ⟨1, 24, 28, 1 / 2, Zone.westernmost⟩ ∧
      (⟨1, 24, 28, 1 / 2, Zone.westernmost⟩ : Date Rat).run
          [.mir 2, .inZone Zone.easternmost, .zone Zone.westernmost, .inZone Zone.easternmost,
            .month 25, .millisols 1000] = ⟨2, 1, 2, 1 / 2, Zone.easternmost⟩ ∧
      (⟨2, 1, 2, 1 / 2, Zone.easternmost⟩ : Date Rat).InBounds := by
  have begun : (Origin.fields 1 24 28 (1 / 2) Zone.westernmost).date? =
      some ⟨1, 24, 28, 1 / 2, Zone.westernmost⟩ := by
    decide +kernel
  have ran : (⟨1, 24, 28, 1 / 2, Zone.westernmost⟩ : Date Rat).run
      [.mir 2, .inZone Zone.easternmost, .zone Zone.westernmost, .inZone Zone.easternmost,
        .month 25, .millisols 1000] = ⟨2, 1, 2, 1 / 2, Zone.easternmost⟩ := by
    decide +kernel
  refine ⟨begun, ran, ?_⟩
  rw [← ran]
  exact run_inBounds begun _

end Date

end Mars

end MarsCalendar

import MarsCalendar.Proofs.Mars.SolCount
import MarsCalendar.Proofs.Mars.TimeOfSol
import MarsCalendar.Wire.Writer

set_option autoImplicit false

/-! Which dates pass their own check at binary64. Dates are made from fields, read from
instants or in other zones, and changed field by field; only the first and the last way
are checked. All the same every date has real fields and a time within its sol, so the
checked constructor gives it back, and so does its wire form, as long as its mir is in
bounds. Instants far from the epoch lie in mirs that are not. -/

namespace MarsCalendar

/-! ### The wire form -/

namespace Wire.Value

variable {α : Type}

theorem toInteger_integer {low high value : Int} (above : low ≤ value) (below : value ≤ high) :
    toInteger low high (.integer value : Value α) = .ok value :=
  if_pos ⟨above, below⟩

theorem toCount_integer {count : Nat} (small : count ≤ 4294967295) :
    toCount (.integer count : Value α) = .ok count := by
  unfold toCount
  rw [toInteger_integer (Int.natCast_nonneg count) (by omega)]
  rfl

theorem toZone_ofZone (zone : Mars.Zone) : (ofZone zone : Value α).toZone = .ok zone := by
  obtain ⟨low, high⟩ := zone.isSlot
  have found : Mars.Zone.ofSlot zone.slot = .ok zone := dif_pos zone.isSlot
  change (do refusing (Mars.Zone.ofSlot (← toInteger _ _ (.integer zone.slot : Value α)))) = _
  rw [toInteger_integer (by omega) (by omega)]
  change refusing (Mars.Zone.ofSlot zone.slot) = _
  rw [found]
  rfl

private theorem read_of_once {β : Type} {parts : Parts α} {name : String} {value : Value α}
    {reader : Value α → Result β} {result : β}
    (once : parts.fields.filter (fun field => field.1 == name) = [(name, value)])
    (read : reader value = .ok result) : parts.read name reader = .ok (some result) := by
  unfold Parts.read
  rw [once]
  change (reader value).map some = _
  rw [read]
  rfl

theorem toMarsDate_ofMarsDate [Scalar α] {date : Mars.Date α} (fits : FitsWord date.mir)
    (month : date.month ≤ 4294967295) (sol : date.sol ≤ 4294967295) :
    (ofMarsDate date).toMarsDate = refusing date.check := by
  obtain ⟨parts, isParts, finished, mirRead, monthRead, solRead, millisolsRead, zoneRead⟩ : ∃ parts : Parts α,
      Parts.ofValue marsDateNames (ofMarsDate date) = .ok parts ∧ parts.finish = .ok () ∧
      parts.read "mir" toWord = .ok (some date.mir) ∧
      parts.read "month" toCount = .ok (some date.month) ∧
      parts.read "sol" toCount = .ok (some date.sol) ∧
      parts.read "millisols" toReal = .ok (some date.millisols) ∧
      parts.read "time_zone" toZone = .ok (some date.zone) :=
    ⟨_, rfl, rfl, read_of_once rfl (toInteger_integer fits.1 fits.2),
      read_of_once rfl (toCount_integer month), read_of_once rfl (toCount_integer sol),
      read_of_once rfl rfl, read_of_once rfl (toZone_ofZone date.zone)⟩
  simp only [toMarsDate, isParts, mirRead, monthRead, solRead, millisolsRead, zoneRead, finished,
    bind, Except.bind]
  rfl

end Wire.Value

namespace Mars

open Binary64

/-! ### Dates that are read from instants -/

theorem SolDate.mir_fitsWord {whole : Int} (fits : FitsWord whole) :
    FitsWord (ofCount whole).mir := by
  obtain ⟨real, counted⟩ := ofCount_spec whole
  obtain ⟨low, high⟩ := fits
  have place := solOfMir_bounds real
  have length := Mir.length_bounds (ofCount whole).mir
  have drift := Mir.freeStart_drift (ofCount whole).mir
  unfold freeCount at counted
  unfold solsPerKilomir at drift
  constructor <;> omega

theorem Instant.wholeSol_fitsWord (instant : Instant Float) (zone : Zone) :
    FitsWord (instant.wholeSol zone) :=
  ⟨Int64.le_toInt _, Int64.toInt_le _⟩

theorem Date.timeInSol_iff {date : Date Float} {time : Rat}
    (isTime : value? date.millisols = some time) :
    date.TimeInSol ↔ 0 ≤ time ∧ time < 1000 :=
  and_congr (le_iff value?_zero isTime) (lt_iff isTime value?_thousandTenths)

theorem Date.within_millisols {date : Date Float} (inSol : date.TimeInSol) :
    Within 64 (date.millisols / 1000.0) := by
  obtain ⟨time, isTime, low, high⟩ :=
    value?_between value?_zero value?_thousandTenths inSol.1 (le_of_lt inSol.2)
  have fraction : |time / 1000| ≤ 2 ^ 64 := by
    rw [abs_of_nonneg (by positivity)]
    norm_num
    linarith
  obtain ⟨result, isResult, nearest⟩ := value?_div isTime value?_thousandTenths (by norm_num)
    (fraction.trans_lt (by norm_num))
  exact ⟨result, isResult, nearest.abs_result_le fraction⟩

theorem Date.within_start (date : Date Float) :
    Within 63 (Float.ofInt (Mir.start date.mir)) := by
  refine within_ofInt ?_ (by decide)
  rw [Mir.start_eq_clamp]
  unfold Mir.maxWord
  exact abs_le.mpr ⟨by omega, by omega⟩

namespace Date

structure Sound (date : Date Float) : Prop where
  valid : date.Valid
  mir : FitsWord date.mir

theorem sound_of_check {date checked : Date Float} (accepted : date.check = .ok checked) :
    checked.Sound := by
  obtain ⟨inBounds, valid, rfl⟩ := (check_eq_ok_iff date checked).mp accepted
  unfold maxMir at inBounds
  exact ⟨valid, by constructor <;> omega⟩

theorem sound_toDate {instant : Instant Float} (bounded : Within 66 instant.sols) (zone : Zone) :
    (instant.toDate zone).Sound := by
  obtain ⟨-, time, isTime, -, inSol⟩ := instant.value?_millisols bounded zone
  have real := (SolDate.ofCount_spec (instant.wholeSol zone)).1
  have mir := SolDate.mir_fitsWord (instant.wholeSol_fitsWord zone)
  unfold Instant.toDate
  generalize SolDate.ofCount (instant.wholeSol zone) = found at *
  have isTime : value? (instant.dateOn zone found).millisols = some time := isTime
  exact ⟨⟨real, (timeInSol_iff isTime).mpr inSol⟩, mir⟩

/-- A date leads back to an instant within bounds, for the start of its mir is a word. -/
theorem within_toInstant {date : Date Float} (valid : date.Valid) :
    Within 66 date.toInstant.sols := by
  obtain ⟨real, inSol⟩ := valid
  have place := SolDate.solOfMir_bounds real
  have length := Mir.length_bounds date.solDate.mir
  have before : Within 63 (Float.ofInt (date.solOfMir - 1 : Nat)) := by
    refine within_ofInt ?_ (by decide)
    unfold solOfMir
    exact abs_le.mpr ⟨by omega, by omega⟩
  change Within 66 (Float.ofInt (Mir.start date.mir) + Float.ofInt (date.solOfMir - 1 : Nat)
    + date.millisols / 1000.0 - date.zone.offsetSols)
  have sum := (date.within_start.add before (by decide)).add (within_millisols inSol) (by decide)
  exact sum.sub (date.zone.within_offsetSols.mono (by decide)) (by decide)

/-! ### Every date that is obtained -/

private theorem value?_farthest : value? (9.2e18 : Float) = some 9200000000000000000 := by
  have unpacked : (9.2e18 : Float).toModel.unpack =
      .finite .positive 8984375000000000 10 (by decide) := rfl
  rw [value?_of_unpack unpacked]
  norm_num [Float.Model.UnpackedFloat.Sign.apply]

theorem within_of_range {sols : Float} (low : -9.2e18 ≤ sols) (high : sols ≤ 9.2e18) :
    Within 66 sols := by
  obtain ⟨value, isValue, above, below⟩ :=
    value?_between (value?_neg value?_farthest) value?_farthest low high
  refine ⟨value, isValue, abs_le.mpr ?_⟩
  constructor <;> norm_num <;> linarith

/-- The dates that come of the checked constructor, of an instant, of reading a date in
another zone and of changing a field. -/
inductive Obtained : Date Float → Prop where
  | make {date : Date Float} {mir : Int} {month sol : Nat} {millisols : Float} {zone : Zone}
      (accepted : make mir month sol millisols zone = .ok date) : Obtained date
  | toDate (instant : Instant Float) (zone : Zone) (low : -9.2e18 ≤ instant.sols)
      (high : instant.sols ≤ 9.2e18) : Obtained (instant.toDate zone)
  | inZone {date : Date Float} (before : Obtained date) (zone : Zone) : Obtained (date.inZone zone)
  | withMir {date changed : Date Float} (before : Obtained date) (mir : Int)
      (accepted : date.withMir mir = .ok changed) : Obtained changed
  | withMonth {date changed : Date Float} (before : Obtained date) (month : Nat)
      (accepted : date.withMonth month = .ok changed) : Obtained changed
  | withSol {date changed : Date Float} (before : Obtained date) (sol : Nat)
      (accepted : date.withSol sol = .ok changed) : Obtained changed
  | withMillisols {date changed : Date Float} (before : Obtained date) (millisols : Float)
      (accepted : date.withMillisols millisols = .ok changed) : Obtained changed
  | withZone {date : Date Float} (before : Obtained date) (zone : Zone) :
      Obtained (date.withZone zone)

theorem Obtained.sound {date : Date Float} (obtained : Obtained date) : date.Sound := by
  induction obtained with
  | make accepted => exact sound_of_check accepted
  | toDate instant zone low high => exact sound_toDate (within_of_range low high) zone
  | inZone before zone ih => exact sound_toDate (within_toInstant ih.valid) zone
  | withMir before mir accepted => exact sound_of_check accepted
  | withMonth before month accepted => exact sound_of_check accepted
  | withSol before sol accepted => exact sound_of_check accepted
  | withMillisols before millisols accepted => exact sound_of_check accepted
  | withZone before zone ih => exact ⟨ih.valid, ih.mir⟩

theorem Sound.check {date : Date Float} (sound : date.Sound) :
    date.check = if maxMir < date.mir.natAbs then .error .outOfRange else .ok date := by
  split
  · rename_i beyond
    unfold Date.check
    rw [if_pos beyond]
  · rename_i inBounds
    exact (check_eq_ok_iff date date).mpr ⟨not_lt.mp inBounds, sound.valid, rfl⟩

theorem Sound.toMarsDate {date : Date Float} (sound : date.Sound) :
    (Wire.Value.ofMarsDate date).toMarsDate = Wire.refusing date.check := by
  obtain ⟨⟨-, lastMonth⟩, -, lastSol⟩ := sound.valid.1
  have long := Month.length_le date.solDate.mir date.solDate.month
  have monthIs : date.solDate.month = date.month := rfl
  have solIs : date.solDate.sol = date.sol := rfl
  unfold monthsPerMir at lastMonth
  unfold solsPerLongMonth at long
  exact Wire.Value.toMarsDate_ofMarsDate sound.mir (by omega) (by omega)

/-- A date that is obtained in any way passes its own check, as it is and by its wire form,
if its mir is in bounds; else it is refused for that alone. -/
theorem Obtained.passes_check {date : Date Float} (obtained : Obtained date) :
    (date.mir.natAbs ≤ maxMir →
      Date.make date.mir date.month date.sol date.millisols date.zone = .ok date ∧
        (Wire.Value.ofMarsDate date).toMarsDate = .ok date) ∧
    (maxMir < date.mir.natAbs →
      Date.make date.mir date.month date.sol date.millisols date.zone = .error .outOfRange ∧
        (Wire.Value.ofMarsDate date).toMarsDate = .error (.refused .outOfRange)) := by
  have sound := obtained.sound
  have checked := sound.check
  rw [sound.toMarsDate]
  change (_ → date.check = _ ∧ _) ∧ (_ → date.check = _ ∧ _)
  constructor
  · intro inBounds
    rw [checked, if_neg (not_lt.mpr inBounds)]
    exact ⟨rfl, rfl⟩
  · intro beyond
    rw [checked, if_pos beyond]
    exact ⟨rfl, rfl⟩

private theorem obtained_before_epoch : Obtained ⟨-1, 24, 28, 750.0, Zone.mtc⟩ := by
  have date : (⟨-0.25⟩ : Instant Float).toDate Zone.mtc = ⟨-1, 24, 28, 750.0, Zone.mtc⟩ := by
    decide +kernel
  rw [← date]
  exact .toDate ⟨-0.25⟩ Zone.mtc (by decide +kernel) (by decide +kernel)

private theorem obtained_far : Obtained ⟨1495682711852, 6, 20, 500.0, Zone.mtc⟩ := by
  have date : (⟨1000000000000000.5⟩ : Instant Float).toDate Zone.mtc =
      ⟨1495682711852, 6, 20, 500.0, Zone.mtc⟩ := by
    decide +kernel
  rw [← date]
  exact .toDate ⟨1000000000000000.5⟩ Zone.mtc (by decide +kernel) (by decide +kernel)

theorem Obtained.passes_check_near_and_far :
    (Date.make (-1) 24 28 750.0 Zone.mtc = .ok (⟨-1, 24, 28, 750.0, Zone.mtc⟩ : Date Float) ∧
      (Wire.Value.ofMarsDate ⟨-1, 24, 28, 750.0, Zone.mtc⟩).toMarsDate =
        .ok (⟨-1, 24, 28, 750.0, Zone.mtc⟩ : Date Float)) ∧
    Date.make 1495682711852 6 20 (500.0 : Float) Zone.mtc = .error .outOfRange ∧
      (Wire.Value.ofMarsDate (⟨1495682711852, 6, 20, 500.0, Zone.mtc⟩ : Date Float)).toMarsDate =
        .error (.refused .outOfRange) :=
  ⟨obtained_before_epoch.passes_check.1 (by decide), obtained_far.passes_check.2 (by decide)⟩

/-- Not every date that is read from an instant passes its own check. -/
theorem Obtained.refused_far :
    Obtained ⟨1495682711852, 6, 20, 500.0, Zone.mtc⟩ ∧
      Date.make 1495682711852 6 20 500.0 Zone.mtc ≠
        .ok (⟨1495682711852, 6, 20, 500.0, Zone.mtc⟩ : Date Float) ∧
      (Wire.Value.ofMarsDate ⟨1495682711852, 6, 20, 500.0, Zone.mtc⟩).toMarsDate ≠
        .ok (⟨1495682711852, 6, 20, 500.0, Zone.mtc⟩ : Date Float) := by
  have refused := obtained_far.sound.check.trans (if_pos (by decide))
  refine ⟨obtained_far, ?_, ?_⟩
  · change Date.check _ ≠ _
    rw [refused]
    nofun
  · rw [obtained_far.sound.toMarsDate, refused]
    nofun

end Date

end Mars

end MarsCalendar

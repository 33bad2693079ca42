import MarsCalendar.Mars.Instant
import MarsCalendar.Proofs.Mars.SolCount
import MarsCalendar.Proofs.Scalar.Rational
import Mathlib.Tactic.NormNum

set_option autoImplicit false

/-! Dates and instants over the rationals. Reading an instant in a zone is integer
arithmetic on microsols: the count is rounded to a whole number of them, the zone adds a
whole number more, and the sol and the time of sol are quotient and remainder. What is
lost is the rounding alone, so a date whose time is a whole number of thousandths is
found again in its zone, by way of any other. -/

namespace MarsCalendar.Mars

def Zone.westernmost : Zone := ⟨minSlot, by decide⟩

def Zone.easternmost : Zone := ⟨maxSlot, by decide⟩

/-- The instant is far enough inside the words for its date to be found in any zone. -/
def Instant.InRange (instant : Instant Rat) : Prop :=
  -9200000000000000000 ≤ instant.sols ∧ instant.sols ≤ 9200000000000000000

def Date.WholeThousandths (date : Date Rat) : Prop :=
  ∃ thousandths : Int, date.millisols * 1000 = thousandths

theorem Date.valid_iff (date : Date Rat) :
    date.Valid ↔ date.solDate.Valid ∧ 0 ≤ date.millisols ∧ date.millisols < 1000 := by
  change _ ∧ (0.0 : Rat) ≤ _ ∧ _ < (1000.0 : Rat) ↔ _
  have zero : (0.0 : Rat) = 0 := by norm_num
  have thousand : (1000.0 : Rat) = 1000 := by norm_num
  rw [zero, thousand]

namespace Instant

variable (instant : Instant Rat) (zone : Zone)

def microsols : Int :=
  roundRat (instant.sols * 1000000)

/-- The instant in whole microsols of a zone, whose offset is a tenth of a sol for each slot. -/
def zoneMicrosols : Int :=
  instant.microsols + zone.slot * 100000

theorem zoneSols_eq : instant.zoneSols zone = (instant.zoneMicrosols zone : Rat) / 1000000 := by
  change (roundRat (instant.sols * (1e6 : Rat)) : Rat) / (1e6 : Rat)
    + (zone.slot : Rat) / (10.0 : Rat) = _
  have million : (1e6 : Rat) = 1000000 := by norm_num
  have ten : (10.0 : Rat) = 10 := by norm_num
  unfold zoneMicrosols microsols
  rw [million, ten]
  push_cast
  ring

def zoneSol : Int :=
  instant.zoneMicrosols zone / 1000000

theorem floor_zoneSols : (instant.zoneSols zone).floor = instant.zoneSol zone := by
  rw [zoneSols_eq]
  exact floor_div_million (instant.zoneMicrosols zone)

theorem millisols_eq :
    instant.millisols zone = ((instant.zoneMicrosols zone % 1000000 : Int) : Rat) / 1000 := by
  change (((instant.zoneSols zone - ((instant.zoneSols zone).floor : Rat)) * (1e6 : Rat)).floor : Rat)
    / (1e3 : Rat) = _
  have split := Int.emod_add_mul_ediv (instant.zoneMicrosols zone) 1000000
  have rest : (instant.zoneSols zone - ((instant.zoneSols zone).floor : Rat)) * (1e6 : Rat)
      = ((instant.zoneMicrosols zone % 1000000 : Int) : Rat) := by
    rw [floor_zoneSols, zoneSols_eq]
    unfold zoneSol
    have cast := congrArg (Int.cast : Int → Rat) split
    push_cast at cast
    norm_num
    linarith
  rw [rest, Rat.floor_intCast]
  norm_num

variable {instant} in
theorem zoneSol_bounds (inRange : instant.InRange) :
    -9220000000000000000 ≤ instant.zoneSol zone ∧ instant.zoneSol zone ≤ 9220000000000000000 := by
  obtain ⟨low, high⟩ := inRange
  obtain ⟨below, above⟩ := roundRat_close (instant.sols * 1000000)
  have least : (-9200000000000000000000001 : Int) ≤ instant.microsols := by
    have bound : ((-9200000000000000000000001 : Int) : Rat) ≤ instant.microsols := by
      unfold microsols
      push_cast
      linarith
    exact Rat.intCast_le_intCast.mp bound
  have most : instant.microsols ≤ (9200000000000000000000001 : Int) := by
    have bound : (instant.microsols : Rat) ≤ ((9200000000000000000000001 : Int) : Rat) := by
      unfold microsols
      push_cast
      linarith
    exact Rat.intCast_le_intCast.mp bound
  have slot := zone.isSlot
  unfold IsSlot at slot
  unfold zoneSol zoneMicrosols
  omega

variable {instant} in
theorem wholeSol_eq (inRange : instant.InRange) :
    instant.wholeSol zone = instant.zoneSol zone := by
  obtain ⟨low, high⟩ := zoneSol_bounds zone inRange
  change clampWord (truncateRat ((instant.zoneSols zone).floor : Rat)) = _
  rw [truncateRat_intCast, floor_zoneSols]
  apply clampWord_of_fits
  unfold FitsWord
  omega

variable {instant} in
/-- The date of an instant: quotient and remainder of its microsols in the zone. -/
theorem toDate_eq (inRange : instant.InRange) :
    instant.toDate zone =
      ⟨(SolDate.ofCount (instant.zoneSol zone)).mir,
        (SolDate.ofCount (instant.zoneSol zone)).month,
        (SolDate.ofCount (instant.zoneSol zone)).sol,
        ((instant.zoneMicrosols zone % 1000000 : Int) : Rat) / 1000, zone⟩ := by
  unfold toDate dateOn
  rw [wholeSol_eq zone inRange, millisols_eq]

/-- The date of an instant is a real one, and its time lies inside the sol. This needs no
range: where the sol is stopped at the end of a word, the sol it stops at is real too. -/
theorem toDate_valid : (instant.toDate zone).Valid := by
  have real := (SolDate.ofCount_spec (instant.wholeSol zone)).1
  have low := Int.emod_nonneg (instant.zoneMicrosols zone) (b := 1000000) (by decide)
  have high := Int.emod_lt_of_pos (instant.zoneMicrosols zone) (b := 1000000) (by decide)
  have lowCast := Rat.intCast_le_intCast.mpr low
  have highCast := Rat.intCast_lt_intCast.mpr high
  push_cast at lowCast highCast
  rw [Date.valid_iff]
  refine ⟨real, ?_, ?_⟩
  · change 0 ≤ instant.millisols zone
    rw [millisols_eq]
    linarith
  · change instant.millisols zone < 1000
    rw [millisols_eq]
    linarith

end Instant

namespace Date

variable {date : Date Rat}

theorem toInstant_sols (valid : date.solDate.Valid) :
    date.toInstant.sols =
      (date.solDate.count : Rat) + date.millisols / 1000 - (date.zone.slot : Rat) / 10 := by
  have place := (SolDate.solOfMir_bounds valid).1
  change ((Mir.start date.mir : Int) : Rat) + (((date.solDate.solOfMir - 1 : Nat) : Int) : Rat)
    + date.millisols / (1000.0 : Rat) - (date.zone.slot : Rat) / (10.0 : Rat) = _
  have thousand : (1000.0 : Rat) = 1000 := by norm_num
  have ten : (10.0 : Rat) = 10 := by norm_num
  have cast : ((date.solDate.solOfMir - 1 : Nat) : Int) = (date.solDate.solOfMir : Int) - 1 := by
    omega
  have sameMir : date.solDate.mir = date.mir := rfl
  unfold SolDate.count
  rw [thousand, ten, cast, sameMir]
  push_cast
  ring

end Date

theorem Instant.toInstant_toDate {instant : Instant Rat} (inRange : instant.InRange)
    (zone : Zone) : (instant.toDate zone).toInstant.sols = (instant.microsols : Rat) / 1000000 := by
  obtain ⟨low, high⟩ := instant.zoneSol_bounds zone inRange
  obtain ⟨real, found⟩ := SolDate.ofCount_spec (instant.zoneSol zone)
  have counted : (SolDate.ofCount (instant.zoneSol zone)).count = instant.zoneSol zone := by
    rw [SolDate.count_eq_freeCount real (by omega) (by unfold Mir.maxWord; omega), found]
  have split := congrArg (Int.cast : Int → Rat)
    (Int.emod_add_mul_ediv (instant.zoneMicrosols zone) 1000000)
  rw [Date.toInstant_sols (instant.toDate_valid zone).1, instant.toDate_eq zone inRange]
  change ((SolDate.ofCount (instant.zoneSol zone)).count : Rat) + _ - _ = _
  rw [counted]
  dsimp only
  unfold Instant.zoneSol Instant.zoneMicrosols at *
  push_cast at split
  linarith

theorem Instant.microsols_close (instant : Instant Rat) :
    |(instant.microsols : Rat) / 1000000 - instant.sols| ≤ 1 / 2000000 := by
  obtain ⟨below, above⟩ := roundRat_close (instant.sols * 1000000)
  unfold microsols
  rw [abs_le]
  constructor <;> linarith

namespace Date

variable {date : Date Rat}

theorem toInstant_inRange (valid : date.Valid) (inBounds : date.mir.natAbs ≤ maxMir) :
    date.toInstant.InRange := by
  obtain ⟨real, low, high⟩ := (valid_iff date).mp valid
  obtain ⟨countLow, countHigh⟩ := SolDate.freeCount_of_maxMir real inBounds
  have counted := SolDate.count_eq_freeCount real (by omega) (by unfold Mir.maxWord; omega)
  have slot := date.zone.isSlot
  have countLowCast := Rat.intCast_le_intCast.mpr countLow
  have countHighCast := Rat.intCast_le_intCast.mpr countHigh
  have slotLowCast := Rat.intCast_le_intCast.mpr slot.1
  have slotHighCast := Rat.intCast_le_intCast.mpr slot.2
  push_cast at countLowCast countHighCast slotLowCast slotHighCast
  unfold Instant.InRange
  rw [toInstant_sols real, counted]
  constructor <;> linarith

theorem microsols_toInstant (real : date.solDate.Valid) {thousandths : Int}
    (whole : date.millisols * 1000 = thousandths) :
    date.toInstant.microsols =
        date.solDate.count * 1000000 + thousandths - date.zone.slot * 100000 ∧
      (date.toInstant.microsols : Rat) / 1000000 = date.toInstant.sols := by
  have scaled : date.toInstant.sols * 1000000 =
      ((date.solDate.count * 1000000 + thousandths - date.zone.slot * 100000 : Int) : Rat) := by
    rw [toInstant_sols real]
    push_cast
    linarith
  unfold Instant.microsols
  rw [scaled, roundRat_intCast]
  refine ⟨rfl, ?_⟩
  rw [← scaled]
  ring

theorem toDate_toInstant (valid : date.Valid) (inBounds : date.mir.natAbs ≤ maxMir)
    (whole : date.WholeThousandths) : date.toInstant.toDate date.zone = date := by
  obtain ⟨thousandths, wholeIs⟩ := whole
  obtain ⟨real, low, high⟩ := (valid_iff date).mp valid
  have restLow : 0 ≤ thousandths := by
    have cast : ((0 : Int) : Rat) ≤ thousandths := by
      rw [← wholeIs]
      push_cast
      linarith
    exact Rat.intCast_le_intCast.mp cast
  have restHigh : thousandths < 1000000 := by
    have cast : (thousandths : Rat) < ((1000000 : Int) : Rat) := by
      rw [← wholeIs]
      push_cast
      linarith
    exact Rat.intCast_lt_intCast.mp cast
  have micros := (microsols_toInstant real wholeIs).1
  obtain ⟨countLow, countHigh⟩ := SolDate.freeCount_of_maxMir real inBounds
  have counted := SolDate.count_eq_freeCount real (by omega) (by unfold Mir.maxWord; omega)
  have sol : date.toInstant.zoneSol date.zone = date.solDate.freeCount := by
    unfold Instant.zoneSol Instant.zoneMicrosols
    omega
  have rest : date.toInstant.zoneMicrosols date.zone % 1000000 = thousandths := by
    unfold Instant.zoneMicrosols
    omega
  have time : (thousandths : Rat) / 1000 = date.millisols := by
    rw [← wholeIs]
    ring
  rw [Instant.toDate_eq date.zone (toInstant_inRange valid inBounds), sol, rest,
    SolDate.ofCount_freeCount real, time]
  rfl

/-- Reading a date in another zone keeps its instant to half a microsol. It keeps the
instant itself, and the way back to the date, where the time is whole thousandths. -/
theorem inZone_roundTrip {mir : Int} {month sol : Nat} {millisols : Rat} {zone : Zone}
    (made : make mir month sol millisols zone = .ok date) (other : Zone) :
    |(date.inZone other).toInstant.sols - date.toInstant.sols| ≤ 1 / 2000000 ∧
      (date.WholeThousandths →
        (date.inZone other).toInstant.sols = date.toInstant.sols ∧
          date.toInstant.toDate date.zone = date ∧
          (date.inZone other).inZone date.zone = date) := by
  obtain ⟨inBounds, valid, rfl⟩ := (check_eq_ok_iff _ date).mp made
  have inRange := toInstant_inRange valid inBounds
  have kept := Instant.toInstant_toDate inRange other
  unfold inZone
  rw [kept]
  refine ⟨Instant.microsols_close _, fun whole => ?_⟩
  obtain ⟨thousandths, wholeIs⟩ := whole
  have exact := (microsols_toInstant valid.1 wholeIs).2
  have back := toDate_toInstant valid inBounds ⟨thousandths, wholeIs⟩
  rw [exact] at kept ⊢
  have sameInstant := congrArg Instant.mk kept
  refine ⟨rfl, back, ?_⟩
  exact (congrArg (Instant.toDate · _) sameInstant).trans back

/-- Just after midnight of the epoch's sol in the easternmost zone, which is the last sol
of the mir before in the westernmost. -/
theorem inZone_roundTrip_across_epoch :
    make 0 1 1 (1 / 1000 : Rat) Zone.easternmost = .ok ⟨0, 1, 1, 1 / 1000, Zone.easternmost⟩ ∧
      (⟨0, 1, 1, 1 / 1000, Zone.easternmost⟩ : Date Rat).inZone Zone.westernmost =
        ⟨-1, 24, 28, 1 / 1000, Zone.westernmost⟩ ∧
      ((⟨0, 1, 1, 1 / 1000, Zone.easternmost⟩ : Date Rat).inZone Zone.westernmost).inZone
        Zone.easternmost = ⟨0, 1, 1, 1 / 1000, Zone.easternmost⟩ := by
  have made : make 0 1 1 (1 / 1000 : Rat) Zone.easternmost =
      .ok ⟨0, 1, 1, 1 / 1000, Zone.easternmost⟩ := by
    decide +kernel
  have read : (⟨0, 1, 1, 1 / 1000, Zone.easternmost⟩ : Date Rat).inZone Zone.westernmost =
      ⟨-1, 24, 28, 1 / 1000, Zone.westernmost⟩ := by
    decide +kernel
  have way := inZone_roundTrip made Zone.westernmost
  exact ⟨made, read, (way.2 ⟨1, by norm_num⟩).2.2⟩

end Date

end MarsCalendar.Mars

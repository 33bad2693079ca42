import MarsCalendar.Proofs.Mars.DateInstant
import MarsCalendar.Proofs.Mars.SolOrder

set_option autoImplicit false

/-! Later instants have later dates, over the rationals. Rounding keeps the order, though it goes
away from zero on either side of the epoch; the zone moves both instants alike; and of two numbers
of microsols the lesser has the lesser sol, or the same sol and no later time in it. Where rounding
carries the time into the next sol, it carries every later time at least as far. -/

namespace MarsCalendar.Mars

def Date.NotAfter (left right : Date Rat) : Prop :=
  left.solDate.Before right.solDate ∨
    (left.solDate = right.solDate ∧ left.millisols ≤ right.millisols)

namespace Instant

variable {earlier later : Instant Rat}

theorem microsols_mono (ordered : earlier.sols ≤ later.sols) :
    earlier.microsols ≤ later.microsols := by
  unfold microsols
  exact roundRat_mono (by linarith)

theorem zoneMicrosols_mono (ordered : earlier.sols ≤ later.sols) (zone : Zone) :
    earlier.zoneMicrosols zone ≤ later.zoneMicrosols zone :=
  Int.add_le_add_right (microsols_mono ordered) _

/-- Of two instants the earlier is read on an earlier sol, or on the same sol at no later time. -/
theorem zoneSol_lt_or_eq (ordered : earlier.sols ≤ later.sols) (zone : Zone) :
    earlier.zoneSol zone < later.zoneSol zone ∨
      (earlier.zoneSol zone = later.zoneSol zone ∧
        earlier.zoneMicrosols zone % 1000000 ≤ later.zoneMicrosols zone % 1000000) := by
  have microsols := zoneMicrosols_mono ordered zone
  unfold zoneSol
  omega

theorem toDate_notAfter (inRange : earlier.InRange) (laterInRange : later.InRange)
    (ordered : earlier.sols ≤ later.sols) (zone : Zone) :
    (earlier.toDate zone).NotAfter (later.toDate zone) := by
  rw [toDate_eq zone inRange, toDate_eq zone laterInRange]
  rcases zoneSol_lt_or_eq ordered zone with before | ⟨same, time⟩
  · left
    exact (SolDate.lt_iff_ofCount_before _ _).mp before
  · right
    have millisols := Rat.intCast_le_intCast.mpr time
    rw [same]
    refine ⟨rfl, ?_⟩
    dsimp only
    linarith

/-- In every zone a later instant never reads as an earlier date, and the instant that a date names
is at most half a microsol from the one that it was read from. -/
theorem toDate_ordered (zone : Zone) :
    (∀ earlier later : Instant Rat, earlier.InRange → later.InRange →
      earlier.sols ≤ later.sols → (earlier.toDate zone).NotAfter (later.toDate zone)) ∧
    (∀ instant : Instant Rat, instant.InRange →
      |(instant.toDate zone).toInstant.sols - instant.sols| ≤ 1 / 2000000) := by
  refine ⟨fun earlier later inRange laterInRange ordered =>
    toDate_notAfter inRange laterInRange ordered zone, fun instant inRange => ?_⟩
  rw [toInstant_toDate inRange]
  exact instant.microsols_close

/-- Half a microsol before the epoch, where rounding goes away from it, and a quarter of one before it,
where rounding carries the time into the first sol of mir 0. -/
theorem toDate_ordered_around_epoch :
    let half : Instant Rat := ⟨-1 / 2000000⟩
    let less : Instant Rat := ⟨-1 / 4000000⟩
    half.InRange ∧ less.InRange ∧
      half.toDate Zone.mtc = ⟨-1, 24, 28, 999999 / 1000, Zone.mtc⟩ ∧
      less.toDate Zone.mtc = ⟨0, 1, 1, 0, Zone.mtc⟩ ∧
      (half.toDate Zone.mtc).NotAfter (less.toDate Zone.mtc) ∧
      |(less.toDate Zone.mtc).toInstant.sols - less.sols| ≤ 1 / 2000000 := by
  intro half less
  have halfInRange : half.InRange := by
    constructor <;> norm_num [half]
  have lessInRange : less.InRange := by
    constructor <;> norm_num [less]
  have ordered : half.sols ≤ less.sols := by norm_num [half, less]
  obtain ⟨notAfter, close⟩ := toDate_ordered Zone.mtc
  exact ⟨halfInRange, lessInRange, by decide +kernel, by decide +kernel,
    notAfter half less halfInRange lessInRange ordered, close less lessInRange⟩

end Instant

end MarsCalendar.Mars

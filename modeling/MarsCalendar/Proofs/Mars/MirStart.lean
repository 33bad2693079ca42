import MarsCalendar.Mars.Mir

set_option autoImplicit false

/-! Where the mirs begin. Without the limit of a word, the sols before a mir are one
closed form for mirs on either side of mir 0: it grows by the length of each mir, begins
anew every thousand mirs, and stays within two sols of the mean. The start of a mir is
that form, stopped at the largest word in either direction. -/

namespace MarsCalendar.Mars.Mir

/-- Sols from the start of mir 0 to the start of a mir, without a limit. -/
def freeStart (mir : Int) : Int :=
  mir * solsPerShortMir + mir / 2 + (mir + 9) / 10 - (mir + 99) / 100 + (mir + 999) / 1000

theorem freeStart_zero : freeStart 0 = 0 := by
  decide

theorem freeStart_succ (mir : Int) : freeStart (mir + 1) = freeStart mir + length mir := by
  have half : (mir + 1) / 2 = mir / 2 + if mir % 2 = 0 then 0 else 1 := by omega
  have tenth : (mir + 1 + 9) / 10 = (mir + 9) / 10 + if mir % 10 = 0 then 1 else 0 := by omega
  have hundredth : (mir + 1 + 99) / 100 = (mir + 99) / 100 + if mir % 100 = 0 then 1 else 0 := by
    omega
  have thousandth :
      (mir + 1 + 999) / 1000 = (mir + 999) / 1000 + if mir % 1000 = 0 then 1 else 0 := by
    omega
  simp only [freeStart, length_eq_sum, half, tenth, hundredth, thousandth, Int.add_mul]
  omega

theorem freeStart_add_thousand (mir blocks : Int) :
    freeStart (mir + 1000 * blocks) = freeStart mir + solsPerKilomir * blocks := by
  unfold freeStart solsPerShortMir solsPerKilomir
  omega

/-- The start of a mir stays close to the mean: less than two sols before it or after. -/
theorem freeStart_drift (mir : Int) :
    solsPerKilomir * mir - 2000 < 1000 * freeStart mir ∧
      1000 * freeStart mir < solsPerKilomir * mir + 2000 := by
  unfold freeStart solsPerShortMir solsPerKilomir
  omega

theorem freeStart_lt_succ (mir : Int) : freeStart mir < freeStart (mir + 1) := by
  have grown := freeStart_succ mir
  have long := (length_bounds mir).1
  omega

theorem freeStart_strictMono {earlier later : Int} (before : earlier < later) :
    freeStart earlier + length earlier ≤ freeStart later := by
  rw [← freeStart_succ]
  obtain ⟨gap, gapIs⟩ := Int.le.dest (Int.add_one_le_of_lt before)
  rw [← gapIs]
  clear gapIs
  induction gap with
  | zero => simp
  | succ gap ih =>
      have next := freeStart_lt_succ (earlier + 1 + gap)
      rw [Int.natCast_succ, ← Int.add_assoc]
      omega

theorem freeStart_mono {earlier later : Int} (ordered : earlier ≤ later) :
    freeStart earlier ≤ freeStart later := by
  rcases Int.lt_or_eq_of_le ordered with before | rfl
  · have grown := freeStart_strictMono before
    have long := (length_bounds earlier).1
    omega
  · exact Int.le_refl _

theorem mir_unique {first second sols : Int}
    (inFirst : freeStart first ≤ sols ∧ sols < freeStart first + length first)
    (inSecond : freeStart second ≤ sols ∧ sols < freeStart second + length second) :
    first = second := by
  rcases Int.lt_trichotomy first second with before | same | after
  · have apart := freeStart_strictMono before
    omega
  · exact same
  · have apart := freeStart_strictMono after
    omega

theorem sumTo_eq_freeStart_succ (mirs : Nat) : sumTo mirs + length 0 = freeStart (mirs + 1) := by
  have zero : length 0 = 669 := by decide
  simp only [zero, sumTo, freeStart, solsPerShortMir]
  omega

/-- Mirroring at mir 0 turns a sum from mir 1 into the sols before the negative mir. -/
theorem sumTo_eq_neg_freeStart (mirs : Nat) : sumTo mirs = -freeStart (-mirs) := by
  simp only [sumTo, freeStart, solsPerShortMir]
  omega

theorem sumTo_nonneg (mirs : Nat) : 0 ≤ sumTo mirs := by
  simp only [sumTo, solsPerShortMir]
  omega

theorem start_of_positive {mir : Int} (positive : 0 < mir) :
    start mir = min (freeStart mir) maxWord := by
  obtain ⟨before, beforeIs⟩ := Int.eq_ofNat_of_zero_le (a := mir - 1) (by omega)
  have mirIs : mir = before + 1 := by omega
  have zero : length 0 = 669 := by decide
  have free := sumTo_eq_freeStart_succ before
  have nonneg := sumTo_nonneg before
  unfold start sumBetween orderedSum
  rw [if_neg (by omega), if_pos positive, if_neg (by omega), beforeIs]
  by_cases first : (0 : Int) = before
  · obtain rfl : before = 0 := by omega
    subst mirIs
    decide
  · rw [if_neg first, if_neg (by omega), if_neg (by omega), if_pos rfl, mirIs, ← free]
    unfold cappedAdd cappedSumTo
    rw [Int.natAbs_natCast]
    omega

theorem start_of_negative {mir : Int} (negative : mir < 0) :
    start mir = max (freeStart mir) (-maxWord) := by
  have free := sumTo_eq_neg_freeStart mir.natAbs
  have back : -(mir.natAbs : Int) = mir := by omega
  rw [back] at free
  unfold start sumBetween orderedSum
  rw [if_neg (by omega), if_neg (by omega), if_neg (by omega)]
  by_cases first : mir = -1
  · subst first
    decide
  · rw [if_neg first, if_pos (by decide)]
    have none : cappedSumTo 0 = 0 := by decide
    unfold positiveSum
    rw [show Int.natAbs (-1) - 1 = 0 from rfl, none, cappedSumTo, free]
    omega

theorem start_eq_clamp (mir : Int) :
    start mir = max (-maxWord) (min (freeStart mir) maxWord) := by
  have word : (0 : Int) ≤ maxWord := by decide
  rcases Int.lt_trichotomy mir 0 with negative | zero | positive
  · have before := freeStart_strictMono negative
    have long := (length_bounds mir).1
    rw [freeStart_zero] at before
    rw [start_of_negative negative]
    omega
  · subst zero
    decide
  · have after := freeStart_strictMono positive
    have long := (length_bounds 0).1
    rw [freeStart_zero] at after
    rw [start_of_positive positive]
    omega

theorem start_eq_freeStart {mir : Int} (low : -maxWord ≤ freeStart mir)
    (high : freeStart mir ≤ maxWord) : start mir = freeStart mir := by
  rw [start_eq_clamp, Int.min_eq_left high, Int.max_eq_right low]

theorem start_of_near {mir : Int} (near : mir.natAbs ≤ 10000000000000000) :
    start mir = freeStart mir := by
  have drift := freeStart_drift mir
  unfold solsPerKilomir at drift
  apply start_eq_freeStart
  · unfold maxWord
    omega
  · unfold maxWord
    omega

end MarsCalendar.Mars.Mir

import MarsCalendar.Mars.Date
import MarsCalendar.Proofs.Mars.Guess
import MarsCalendar.Proofs.Mars.MirStart

set_option autoImplicit false

/-! Counts of sols and dates of the calendar are the same thing in two forms. A date is
found from its count by a guess in binary64 and one step of correction; the module shows
that one step is enough, that the fields found name a real sol, and that counting sols
and finding dates undo each other. -/

namespace MarsCalendar.Mars

theorem Month.start_add_length_le (mir : Int) {month later : Nat} (named : 1 ≤ month)
    (before : month < later) (inMir : later ≤ monthsPerMir) :
    Month.start month + Month.length mir month ≤ Month.start later := by
  rw [Month.length_of_lt mir month named (Nat.lt_of_lt_of_le before inMir)]
  unfold monthsPerMir at inMir
  unfold Month.start monthsPerQuarter solsPerShortQuarter solsPerLongMonth solsPerShortMonth
  split <;> omega

namespace SolDate

/-! ### Months and sols of one mir -/

theorem solOfMir_bounds {date : SolDate} (valid : date.Valid) :
    1 ≤ date.solOfMir ∧ (date.solOfMir : Int) ≤ Mir.length date.mir := by
  obtain ⟨⟨named, inMir⟩, first, last⟩ := valid
  have whole := Month.start_add_length_last date.mir
  unfold solOfMir
  unfold monthsPerMir at inMir
  rcases Nat.lt_or_eq_of_le inMir with before | final
  · have later := Month.start_add_length_le date.mir named before (Nat.le_refl _)
    omega
  · rw [final] at last ⊢
    omega

theorem eq_of_solOfMir_eq {left right : SolDate} (leftValid : left.Valid)
    (rightValid : right.Valid) (sameMir : left.mir = right.mir)
    (samePlace : left.solOfMir = right.solOfMir) : left = right := by
  obtain ⟨mir, month, sol⟩ := left
  obtain ⟨otherMir, otherMonth, otherSol⟩ := right
  obtain rfl : mir = otherMir := sameMir
  obtain ⟨⟨named, inMir⟩, first, last⟩ := leftValid
  obtain ⟨⟨otherNamed, otherInMir⟩, otherFirst, otherLast⟩ := rightValid
  change Month.start month + sol = Month.start otherMonth + otherSol at samePlace
  dsimp only at *
  rcases Nat.lt_trichotomy month otherMonth with before | same | after
  · have apart := Month.start_add_length_le mir named before otherInMir
    omega
  · subst same
    obtain rfl : sol = otherSol := by omega
    rfl
  · have apart := Month.start_add_length_le mir otherNamed after inMir
    omega

/-- The month and sol found within a mir are real ones. The last sol of the fourth
quarter is reached in a long mir only. -/
theorem monthAndSol_valid {mir : Int} {elapsed : Nat} (inMir : (elapsed : Int) < Mir.length mir) :
    Valid ⟨mir, (monthAndSol elapsed).1, (monthAndSol elapsed).2⟩ := by
  obtain ⟨month, sol, found⟩ : ∃ month sol, monthAndSol elapsed = (month, sol) := ⟨_, _, rfl⟩
  have bounds := Mir.length_bounds mir
  have whole := Month.start_add_length_last mir
  rw [found]
  simp only [monthAndSol, solsPerShortQuarter, solsPerLongMonth, monthsPerQuarter,
    Prod.mk.injEq] at found
  obtain ⟨monthIs, solIs⟩ := found
  have named : 1 ≤ month := by omega
  have last : month ≤ 24 := by omega
  have first : 1 ≤ sol := by omega
  refine ⟨⟨named, last⟩, first, ?_⟩
  dsimp only
  rcases Nat.lt_or_eq_of_le last with before | final
  · rw [Month.length_of_lt mir month named before]
    unfold monthsPerQuarter solsPerShortMonth solsPerLongMonth
    split <;> omega
  · have start : Month.start 24 = 641 := by decide
    rw [final]
    rw [start] at whole
    omega

/-! ### The mir of a sol -/

theorem settle_spec {guess sol : Int} (exact : Mir.start guess = Mir.freeStart guess)
    (notAbove : Mir.freeStart (guess - 1) ≤ sol) (notBelow : sol < Mir.freeStart (guess + 2)) :
    (guess - 1 ≤ (settle guess sol).1 ∧ (settle guess sol).1 ≤ guess + 1) ∧
      Mir.freeStart (settle guess sol).1 + (settle guess sol).2 = sol ∧
      0 ≤ (settle guess sol).2 ∧ (settle guess sol).2 < Mir.length (settle guess sol).1 := by
  have before := Mir.freeStart_succ (guess - 1)
  have here := Mir.freeStart_succ guess
  have after := Mir.freeStart_succ (guess + 1)
  rw [Int.sub_add_cancel] at before
  rw [Int.add_assoc, show (1 : Int) + 1 = 2 from rfl] at after
  unfold settle
  rw [exact]
  dsimp only
  split
  · dsimp only
    omega
  · split <;> dsimp only <;> omega

theorem guess_close {sol : Int} (low : 0 ≤ sol) (inBlock : sol < solsPerKilomir) :
    Mir.freeStart (guess sol.toNat - 1) ≤ sol ∧ sol < Mir.freeStart (guess sol.toNat + 2) := by
  unfold solsPerKilomir at inBlock
  have exact : guess sol.toNat = sol.toNat * 1000 / 668591 := guess_eq (by omega)
  have before := Mir.freeStart_drift (guess sol.toNat - 1)
  have after := Mir.freeStart_drift (guess sol.toNat + 2)
  unfold solsPerKilomir at before after
  omega

theorem mirOfSol_spec {sol : Int} (low : 0 ≤ sol) (inBlock : sol < solsPerKilomir) :
    (guess sol.toNat - 1 ≤ (mirOfSol sol).1 ∧ (mirOfSol sol).1 ≤ guess sol.toNat + 1) ∧
      Mir.freeStart (mirOfSol sol).1 + (mirOfSol sol).2 = sol ∧
      0 ≤ (mirOfSol sol).2 ∧ (mirOfSol sol).2 < Mir.length (mirOfSol sol).1 := by
  obtain ⟨notAbove, notBelow⟩ := guess_close low inBlock
  unfold solsPerKilomir at inBlock
  have exact : guess sol.toNat = sol.toNat * 1000 / 668591 := guess_eq (by omega)
  apply settle_spec _ notAbove notBelow
  apply Mir.start_of_near
  omega

theorem mirOfSol_inBlock {sol : Int} (low : 0 ≤ sol) (inBlock : sol < solsPerKilomir) :
    0 ≤ (mirOfSol sol).1 ∧ (mirOfSol sol).1 < 1000 := by
  obtain ⟨-, found, elapsedLow, elapsedHigh⟩ := mirOfSol_spec low inBlock
  have blockEnd : Mir.freeStart 1000 = solsPerKilomir := by decide
  constructor
  · by_contra! negative
    have before := Mir.freeStart_strictMono negative
    rw [Mir.freeStart_zero] at before
    omega
  · by_contra! beyond
    have after := Mir.freeStart_mono beyond
    omega

theorem mirOfSol_of_start {sol : Int} (low : 0 ≤ sol) (inBlock : sol < solsPerKilomir) :
    (mirOfSol sol).2 = sol - Mir.start (mirOfSol sol).1 := by
  obtain ⟨-, found, -, -⟩ := mirOfSol_spec low inBlock
  obtain ⟨first, last⟩ := mirOfSol_inBlock low inBlock
  rw [Mir.start_of_near (by omega)]
  omega

/-! ### Counting and finding -/

def freeCount (date : SolDate) : Int :=
  Mir.freeStart date.mir + date.solOfMir - 1

theorem rest_inBlock (whole : Int) :
    0 ≤ whole % solsPerKilomir ∧ whole % solsPerKilomir < solsPerKilomir :=
  ⟨Int.emod_nonneg whole (by decide), Int.emod_lt_of_pos whole (by decide)⟩

/-- Every integer is the count of the date found for it, and that date is a real one. -/
theorem ofCount_spec (whole : Int) :
    (ofCount whole).Valid ∧ (ofCount whole).freeCount = whole := by
  obtain ⟨restLow, inBlock⟩ := rest_inBlock whole
  obtain ⟨-, found, low, high⟩ := mirOfSol_spec restLow inBlock
  have blocks := Int.emod_add_mul_ediv whole solsPerKilomir
  unfold ofCount freeCount
  obtain ⟨mir, elapsed, mirIs⟩ : ∃ mir elapsed,
    mirOfSol (whole % solsPerKilomir) = (mir, elapsed) := ⟨_, _, rfl⟩
  rw [mirIs] at found low high ⊢
  obtain ⟨place, rfl⟩ := Int.eq_ofNat_of_zero_le low
  have moved := Mir.freeStart_add_thousand mir (whole / solsPerKilomir)
  have sameLength := Mir.length_add_thousand mir (whole / solsPerKilomir)
  rw [Int.add_comm, Int.mul_comm] at moved sameLength
  dsimp only at found high ⊢
  constructor
  · apply monthAndSol_valid
    rw [sameLength]
    exact high
  · have inMir := (Mir.length_bounds mir).2
    have back := start_monthAndSol place (by omega)
    unfold solOfMir
    dsimp only [Int.toNat_natCast]
    rw [moved]
    omega

theorem freeCount_inMir {date : SolDate} (valid : date.Valid) :
    Mir.freeStart date.mir ≤ date.freeCount ∧
      date.freeCount < Mir.freeStart date.mir + Mir.length date.mir := by
  have place := solOfMir_bounds valid
  unfold freeCount
  omega

theorem eq_of_freeCount_eq {left right : SolDate} (leftValid : left.Valid)
    (rightValid : right.Valid) (same : left.freeCount = right.freeCount) : left = right := by
  have inLeft := freeCount_inMir leftValid
  have inRight := freeCount_inMir rightValid
  rw [← same] at inRight
  have sameMir := Mir.mir_unique inLeft inRight
  unfold freeCount at same
  rw [sameMir] at same
  exact eq_of_solOfMir_eq leftValid rightValid sameMir (by omega)

theorem ofCount_freeCount {date : SolDate} (valid : date.Valid) :
    ofCount date.freeCount = date := by
  obtain ⟨foundValid, found⟩ := ofCount_spec date.freeCount
  exact eq_of_freeCount_eq foundValid valid found

/-- Where the count of a date is in range, its mir starts inside the words. -/
theorem start_eq_freeStart {date : SolDate} (valid : date.Valid)
    (low : -9220000000000000000 ≤ date.freeCount) (high : date.freeCount ≤ Mir.maxWord) :
    Mir.start date.mir = Mir.freeStart date.mir := by
  have inMir := freeCount_inMir valid
  have length := Mir.length_bounds date.mir
  unfold Mir.maxWord at high
  apply Mir.start_eq_freeStart <;> unfold Mir.maxWord <;> omega

theorem count_eq_freeCount {date : SolDate} (valid : date.Valid)
    (low : -9220000000000000000 ≤ date.freeCount) (high : date.freeCount ≤ Mir.maxWord) :
    date.count = date.freeCount := by
  unfold count
  rw [start_eq_freeStart valid low high]
  rfl

theorem freeCount_of_maxMir {date : SolDate} (valid : date.Valid)
    (inBounds : date.mir.natAbs ≤ Date.maxMir) :
    -668600000000000 ≤ date.freeCount ∧ date.freeCount ≤ 668600000000000 := by
  have drift := Mir.freeStart_drift date.mir
  have place := solOfMir_bounds valid
  have length := Mir.length_bounds date.mir
  unfold solsPerKilomir at drift
  unfold Date.maxMir at inBounds
  unfold freeCount
  omega

/-- Finding dates and counting sols undo each other, on every count that leaves room for
a thousand mirs in a word and on every date that the constructor accepts, and no step of
the search leaves the words. The guess needs one correction at most, up or down. -/
theorem ofCount_count_inverse :
    (∀ whole : Int, -9220000000000000000 ≤ whole → whole ≤ Mir.maxWord →
      (ofCount whole).Valid ∧ (ofCount whole).count = whole ∧
        FitsWord (whole / solsPerKilomir * solsPerKilomir) ∧ FitsWord (ofCount whole).mir) ∧
    (∀ date : SolDate, date.mir.natAbs ≤ Date.maxMir → date.Valid →
      ofCount date.count = date) ∧
    (∀ sol : Int, 0 ≤ sol → sol < solsPerKilomir →
      (guess sol.toNat - 1 ≤ (mirOfSol sol).1 ∧ (mirOfSol sol).1 ≤ guess sol.toNat + 1) ∧
        (mirOfSol sol).2 = sol - Mir.start (mirOfSol sol).1 ∧
        0 ≤ (mirOfSol sol).2 ∧ (mirOfSol sol).2 < Mir.length (mirOfSol sol).1) := by
  refine ⟨fun whole low high => ?_, fun date inBounds valid => ?_, fun sol low inBlock => ?_⟩
  · obtain ⟨valid, found⟩ := ofCount_spec whole
    have place := solOfMir_bounds valid
    have drift := Mir.freeStart_drift (ofCount whole).mir
    have length := Mir.length_bounds (ofCount whole).mir
    have same := count_eq_freeCount valid (found.symm ▸ low) (found.symm ▸ high)
    refine ⟨valid, same.trans found, ?_, ?_⟩
    · unfold FitsWord solsPerKilomir
      unfold Mir.maxWord at high
      omega
    · unfold FitsWord
      unfold Mir.maxWord at high
      unfold freeCount at found
      unfold solsPerKilomir at drift
      omega
  · obtain ⟨low, high⟩ := freeCount_of_maxMir valid inBounds
    have same := count_eq_freeCount valid (by omega) (by unfold Mir.maxWord; omega)
    rw [same]
    exact ofCount_freeCount valid
  · obtain ⟨near, -, elapsedLow, elapsedHigh⟩ := mirOfSol_spec low inBlock
    exact ⟨near, mirOfSol_of_start low inBlock, elapsedLow, elapsedHigh⟩

/-- The last sol before the epoch, the last sol of a long mir far before it, and two sols
whose mirs are guessed too high and too low. -/
theorem ofCount_count_inverse_at_corrections :
    ((ofCount (-1)).Valid ∧ (ofCount (-1)).count = -1) ∧
      ofCount (count ⟨-999999999999, 24, 28⟩) = ⟨-999999999999, 24, 28⟩ ∧
      ((mirOfSol 21395).1 = guess 21395 - 1 ∧
        (mirOfSol 21395).2 < Mir.length (mirOfSol 21395).1) ∧
      ((mirOfSol 4680).1 = guess 4680 + 1 ∧ 0 ≤ (mirOfSol 4680).2) := by
  obtain ⟨ofEvery, ofDate, ofBlock⟩ := ofCount_count_inverse
  have before := ofEvery (-1) (by decide) (by decide)
  have tooHigh := ofBlock 21395 (by decide) (by decide)
  have tooLow := ofBlock 4680 (by decide) (by decide)
  exact ⟨⟨before.1, before.2.1⟩, ofDate ⟨-999999999999, 24, 28⟩ (by decide) (by decide),
    ⟨by decide +kernel, tooHigh.2.2.2⟩, ⟨by decide +kernel, tooLow.2.2.1⟩⟩

end SolDate

end MarsCalendar.Mars

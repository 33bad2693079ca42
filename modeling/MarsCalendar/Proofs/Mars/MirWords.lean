import MarsCalendar.Proofs.Mars.MirSum
import MarsCalendar.Proofs.Scalar.Rational

set_option autoImplicit false

/-! The start of a mir in machine words. Every sum and difference on the way to it is checked
here: those of a closed form in a signed 128-bit word, those of mirs and sols in words of 64 bits.
None leaves its word, so that the start is the sum of all the mirs between, and is stopped once and
only where that sum itself does not fit. -/

namespace MarsCalendar.Mars.Mir

/-! ### Checked words -/

def FitsCount (value : Int) : Prop :=
  0 ≤ value ∧ value ≤ 18446744073709551615

instance (value : Int) : Decidable (FitsCount value) :=
  inferInstanceAs (Decidable (_ ∧ _))

def FitsDoubleWord (value : Int) : Prop :=
  -170141183460469231731687303715884105728 ≤ value ∧
    value ≤ 170141183460469231731687303715884105727

instance (value : Int) : Decidable (FitsDoubleWord value) :=
  inferInstanceAs (Decidable (_ ∧ _))

/-- The result of an operation on words, if there is no overflow. -/
def checked (fits : Int → Prop) [DecidablePred fits] (result : Int) : Option Int :=
  if fits result then some result else none

theorem checked_of_fits {fits : Int → Prop} [DecidablePred fits] {result : Int}
    (inWord : fits result) : checked fits result = some result :=
  if_pos inWord

theorem bind_of_eq_some {step : Option Int} {result : Int} (isSome : step = some result)
    (next : Int → Option Int) : (step >>= next) = next result := by
  rw [isSome, Option.bind_eq_bind, Option.bind_some]

/-- No part of the closed form passes 700 sols for each of the mirs that a word can count. -/
theorem fitsDoubleWord_of_le {result : Int} (nonneg : 0 ≤ result)
    (small : result ≤ 700 * 18446744073709551615) : FitsDoubleWord result := by
  unfold FitsDoubleWord
  omega

theorem fitsWord_of_le {result : Int} (low : -maxWord ≤ result) (high : result ≤ maxWord) :
    FitsWord result := by
  unfold maxWord at low high
  unfold FitsWord
  omega

/-! ### The sums in words -/

/-- The closed form of the sols in the mirs from 1, in 128 bits, and its way back to a word. -/
def wordSumTo (mirs : Nat) : Option Int := do
  let count ← checked FitsCount mirs
  let short ← checked FitsDoubleWord (count * solsPerShortMir)
  let next ← checked FitsDoubleWord (count + 1)
  let withOdd ← checked FitsDoubleWord (short + next / 2)
  let withTenths ← checked FitsDoubleWord (withOdd + count / 10)
  let withoutHundredths ← checked FitsDoubleWord (withTenths - count / 100)
  let sols ← checked FitsDoubleWord (withoutHundredths + count / 1000)
  if maxWord < sols then some maxWord else checked FitsWord sols

/-- Differences and sums of two words stop at the ends of a word and need no check. -/
def wordPositiveSum (first last : Nat) : Option Int := do
  let upTo ← wordSumTo last
  let before ← checked FitsCount ((first : Int) - 1)
  let below ← wordSumTo before.toNat
  some (clampWord (upTo - below))

def wordOrderedSum (first last : Int) : Option Int :=
  if first = last then some (length first)
  else if last < 0 then wordPositiveSum last.natAbs first.natAbs
  else if first < 0 then do
    let before ← wordSumTo first.natAbs
    let after ← wordSumTo last.natAbs
    some (clampWord (clampWord (before + length 0) + after))
  else if first = 0 then do
    let after ← wordSumTo last.natAbs
    some (clampWord (length 0 + after))
  else wordPositiveSum first.natAbs last.natAbs

def wordSumBetween (left right : Int) : Option Int :=
  if right < left then wordOrderedSum right left else wordOrderedSum left right

def wordStart (mir : Int) : Option Int :=
  if mir = 0 then some 0
  else if 0 < mir then do
    let last ← checked FitsWord (mir - 1)
    wordSumBetween 0 last
  else do
    let sols ← wordSumBetween mir (-1)
    checked FitsWord (-sols)

/-! ### No operation overflows -/

theorem cappedSumTo_bounds (mirs : Nat) : 0 ≤ cappedSumTo mirs ∧ cappedSumTo mirs ≤ maxWord := by
  have word : (0 : Int) ≤ maxWord := by decide
  have nonneg := sumTo_nonneg mirs
  unfold cappedSumTo
  omega

theorem wordSumTo_eq {mirs : Nat} (fits : FitsCount mirs) :
    wordSumTo mirs = some (cappedSumTo mirs) := by
  have nonneg := sumTo_nonneg mirs
  have word : (0 : Int) ≤ maxWord := by decide
  unfold sumTo solsPerShortMir at nonneg
  unfold wordSumTo cappedSumTo sumTo solsPerShortMir
  rw [bind_of_eq_some (checked_of_fits fits)]
  obtain ⟨low, high⟩ := fits
  generalize (mirs : Int) = count at *
  rw [bind_of_eq_some (checked_of_fits (fitsDoubleWord_of_le (by omega) (by omega))),
    bind_of_eq_some (checked_of_fits (fitsDoubleWord_of_le (by omega) (by omega))),
    bind_of_eq_some (checked_of_fits (fitsDoubleWord_of_le (by omega) (by omega))),
    bind_of_eq_some (checked_of_fits (fitsDoubleWord_of_le (by omega) (by omega))),
    bind_of_eq_some (checked_of_fits (fitsDoubleWord_of_le (by omega) (by omega))),
    bind_of_eq_some (checked_of_fits (fitsDoubleWord_of_le (by omega) (by omega)))]
  split
  · rename_i beyond
    rw [Int.min_eq_right beyond.le]
  · rename_i inWord
    have atMost := not_lt.mp inWord
    rw [checked_of_fits (fitsWord_of_le (by omega) atMost), Int.min_eq_left atMost]

/-- Neither sum passes the largest word, so that their difference is not stopped. -/
theorem wordPositiveSum_eq {first last : Nat} (named : 1 ≤ first) (ordered : first ≤ last)
    (fits : FitsCount last) : wordPositiveSum first last = some (positiveSum first last) := by
  have upTo := cappedSumTo_bounds last
  have below := cappedSumTo_bounds (first - 1)
  have fewer : FitsCount ((first : Int) - 1) := by
    obtain ⟨-, high⟩ := fits
    constructor <;> omega
  have before : ((first : Int) - 1).toNat = first - 1 := by omega
  have belowFits : FitsCount (first - 1 : Nat) := by
    rw [← before, Int.toNat_of_nonneg fewer.1]
    exact fewer
  unfold wordPositiveSum positiveSum
  rw [bind_of_eq_some (wordSumTo_eq fits), bind_of_eq_some (checked_of_fits fewer), before,
    bind_of_eq_some (wordSumTo_eq belowFits), clampWord_of_fits (fitsWord_of_le (by omega) (by omega))]

theorem clampWord_add {left right : Int} (leftNonneg : 0 ≤ left) (rightNonneg : 0 ≤ right) :
    clampWord (left + right) = cappedAdd left right := by
  unfold clampWord cappedAdd maxWord
  omega

theorem wordOrderedSum_eq {first last : Int} (ordered : first ≤ last) (firstFits : FitsWord first)
    (lastFits : FitsWord last) : wordOrderedSum first last = some (orderedSum first last) := by
  obtain ⟨low, -⟩ := firstFits
  obtain ⟨-, high⟩ := lastFits
  have firstCount : FitsCount first.natAbs := by
    constructor <;> omega
  have lastCount : FitsCount last.natAbs := by
    constructor <;> omega
  have before := (cappedSumTo_bounds first.natAbs).1
  have after := (cappedSumTo_bounds last.natAbs).1
  have epoch : (0 : Int) ≤ length 0 := by decide
  have word : (0 : Int) ≤ maxWord := by decide
  unfold wordOrderedSum orderedSum
  split
  · rfl
  split
  · exact wordPositiveSum_eq (by omega) (by omega) firstCount
  split
  · rw [bind_of_eq_some (wordSumTo_eq firstCount), bind_of_eq_some (wordSumTo_eq lastCount),
      clampWord_add before epoch,
      clampWord_add (by unfold cappedAdd; omega) after]
  split
  · rw [bind_of_eq_some (wordSumTo_eq lastCount), clampWord_add epoch after]
  · exact wordPositiveSum_eq (by omega) (by omega) lastCount

theorem wordSumBetween_eq {left right : Int} (leftFits : FitsWord left) (rightFits : FitsWord right) :
    wordSumBetween left right = some (sumBetween left right) := by
  unfold wordSumBetween sumBetween
  split
  · rename_i swapped
    exact wordOrderedSum_eq swapped.le rightFits leftFits
  · rename_i inOrder
    exact wordOrderedSum_eq (not_lt.mp inOrder) leftFits rightFits

theorem start_bounds (mir : Int) : -maxWord ≤ start mir ∧ start mir ≤ maxWord := by
  have word : (0 : Int) ≤ maxWord := by decide
  rw [start_eq_clamp]
  omega

theorem wordStart_eq {mir : Int} (fits : FitsWord mir) : wordStart mir = some (start mir) := by
  obtain ⟨low, high⟩ := start_bounds mir
  unfold wordStart
  unfold start at low high ⊢
  split
  · rfl
  split
  · rename_i zero positive
    have before : FitsWord (mir - 1) := by
      obtain ⟨-, last⟩ := fits
      constructor <;> omega
    rw [bind_of_eq_some (checked_of_fits before)]
    exact wordSumBetween_eq (by decide) before
  · rename_i zero positive
    rw [if_neg zero, if_neg positive] at low high
    rw [bind_of_eq_some (wordSumBetween_eq fits (by decide))]
    exact checked_of_fits (fitsWord_of_le low high)

/-! ### The signed sum -/

/-- The sols of all mirs from mir 0 to a mir, counted negative where the mir is before mir 0. -/
noncomputable def signedSum (mir : Int) : Int :=
  if 0 ≤ mir then ∑ before ∈ Finset.Ico 0 mir, length before
  else -∑ after ∈ Finset.Ico mir 0, length after

theorem signedSum_eq_freeStart (mir : Int) : signedSum mir = freeStart mir := by
  unfold signedSum
  split
  · rename_i nonneg
    rw [sum_length_Ico nonneg, freeStart_zero, Int.sub_zero]
  · rename_i negative
    rw [sum_length_Ico (not_le.mp negative).le, freeStart_zero, Int.zero_sub, Int.neg_neg]

/-- The start of a mir is computed without overflow. It is the signed sum of all mirs between mir 0
and the mir, stopped at the largest word and its negative; it never falls from a mir to a later one,
and it grows by the length of the mir wherever neither start is stopped. -/
theorem start_clamped_sum :
    (∀ mir, FitsWord mir → wordStart mir = some (start mir)) ∧
    (∀ mir, start mir = max (-maxWord) (min (signedSum mir) maxWord)) ∧
    (∀ earlier later, earlier ≤ later → start earlier ≤ start later) ∧
    (∀ mir, |signedSum mir| ≤ maxWord → |signedSum (mir + 1)| ≤ maxWord →
      start (mir + 1) - start mir = length mir) := by
  refine ⟨fun mir fits => wordStart_eq fits, fun mir => ?_, fun earlier later ordered => ?_,
    fun mir here there => ?_⟩
  · rw [signedSum_eq_freeStart, start_eq_clamp]
  · have grown := freeStart_mono ordered
    rw [start_eq_clamp, start_eq_clamp]
    omega
  · rw [signedSum_eq_freeStart, abs_le] at here there
    rw [start_eq_freeStart here.1 here.2, start_eq_freeStart there.1 there.2, freeStart_succ]
    omega

/-- The first mir that a word can name starts further back than a word can count, and the mir before
the epoch is a mir back. -/
theorem start_clamped_sum_at_ends :
    FitsWord (-9223372036854775808) ∧
      wordStart (-9223372036854775808) = some (-9223372036854775807) ∧
      start (-9223372036854775808) ≤ start (-1) ∧
      |signedSum (-1)| ≤ maxWord ∧ |signedSum (-1 + 1)| ≤ maxWord ∧
      start (-1 + 1) - start (-1) = 669 := by
  obtain ⟨inWords, -, ordered, grows⟩ := start_clamped_sum
  have first : FitsWord (-9223372036854775808) := by decide
  have stopped : start (-9223372036854775808) = -9223372036854775807 := by decide
  have computed := inWords _ first
  rw [stopped] at computed
  have back : |signedSum (-1)| ≤ maxWord := by
    rw [signedSum_eq_freeStart]
    decide
  have epoch : |signedSum (-1 + 1)| ≤ maxWord := by
    rw [signedSum_eq_freeStart]
    decide
  exact ⟨first, computed, ordered _ _ (by decide), back, epoch, grows (-1) back epoch⟩

end MarsCalendar.Mars.Mir

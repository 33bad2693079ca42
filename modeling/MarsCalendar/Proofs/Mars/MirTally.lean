import MarsCalendar.Proofs.Mars.MirWords

set_option autoImplicit false

/-! The sols in the mirs from 1, counted mir by mir. A tally goes through the mirs in order, looks at
the divisors of each and adds its sols to a total that stops at the largest word. The closed form
counts a short mir for every number and makes up for the long ones by four quotients. Both agree for
every number of mirs, before the total stops and after, and no step of the closed form leaves its
words. -/

namespace MarsCalendar.Mars.Mir

/-! ### The sols of a mir by its divisors -/

/-- Long is a mir that is odd, divisible by a thousand, or divisible by ten and not by a hundred. -/
def LongByDivisors (mir : Nat) : Prop :=
  Odd mir ∨ 1000 ∣ mir ∨ (10 ∣ mir ∧ ¬ 100 ∣ mir)

instance (mir : Nat) : Decidable (LongByDivisors mir) :=
  inferInstanceAs (Decidable (_ ∨ _))

def solsByDivisors (mir : Nat) : Nat :=
  if LongByDivisors mir then 669 else 668

theorem isLong_natCast (mir : Nat) : IsLong mir ↔ LongByDivisors mir := by
  unfold IsLong LongByDivisors
  rw [Nat.odd_iff]
  omega

theorem length_natCast (mir : Nat) : length mir = solsByDivisors mir := by
  unfold length solsByDivisors
  by_cases long : LongByDivisors mir
  · rw [if_pos ((isLong_natCast mir).mpr long), if_pos long]
  · rw [if_neg (fun isLong => long ((isLong_natCast mir).mp isLong)), if_neg long]

theorem sumTo_next (mirs : Nat) : sumTo (mirs + 1) = sumTo mirs + solsByDivisors (mirs + 1) := by
  rw [sumTo_succ, ← length_natCast, Nat.cast_succ]

theorem sum_solsByDivisors (mirs : Nat) :
    ∑ mir ∈ Finset.Icc 1 mirs, (solsByDivisors mir : Int) = sumTo mirs := by
  induction mirs with
  | zero => rfl
  | succ mirs ih => rw [Finset.sum_Icc_succ_top (Nat.le_add_left 1 mirs), ih, sumTo_next]

/-! ### The tally -/

def tallyMir (total : Int) (mir : Nat) : Int :=
  cappedAdd total (solsByDivisors mir)

def tallyTo (mirs : Nat) : Int :=
  (List.range' 1 mirs).foldl tallyMir 0

theorem tallyTo_succ (mirs : Nat) : tallyTo (mirs + 1) = tallyMir (tallyTo mirs) (mirs + 1) := by
  unfold tallyTo
  rw [List.range'_1_concat, List.foldl_append, Nat.add_comm 1 mirs]
  rfl

/-- The closed form moves as the tally does: a total that has stopped is not moved by another mir,
and one that has not is moved by the sols of the mir. -/
theorem cappedSumTo_succ (mirs : Nat) :
    cappedSumTo (mirs + 1) = tallyMir (cappedSumTo mirs) (mirs + 1) := by
  unfold cappedSumTo tallyMir cappedAdd
  rw [sumTo_next]
  omega

theorem tallyTo_eq_cappedSumTo (mirs : Nat) : tallyTo mirs = cappedSumTo mirs := by
  induction mirs with
  | zero => rfl
  | succ mirs ih => rw [tallyTo_succ, ih, cappedSumTo_succ]

/-! ### Where the total stops -/

def mostCounted : Nat := 13795238100505055

/-- No total is the largest word by itself, so that it is reached by stopping only. -/
theorem sumTo_lt_maxWord_iff (mirs : Nat) : sumTo mirs < maxWord ↔ mirs ≤ mostCounted := by
  simp only [sumTo, solsPerShortMir, maxWord, mostCounted]
  omega

theorem cappedSumTo_of_counted {mirs : Nat} (counted : mirs ≤ mostCounted) :
    cappedSumTo mirs = sumTo mirs :=
  Int.min_eq_left ((sumTo_lt_maxWord_iff mirs).mpr counted).le

theorem cappedSumTo_eq_maxWord_iff (mirs : Nat) :
    cappedSumTo mirs = maxWord ↔ mostCounted < mirs := by
  have fits := sumTo_lt_maxWord_iff mirs
  unfold cappedSumTo
  omega

/-- The closed form of the sols in the mirs from 1 is the sum of their sols by the divisors of each
mir, stopped at the largest word. It is what a tally in words reaches that stops there, and it stops
after the most mirs whose sols fit a word, not before. For every number that an unsigned word can
hold, it is computed without overflow. -/
theorem cappedSumTo_eq_tally :
    (∀ mirs : Nat,
      cappedSumTo mirs =
        min (∑ mir ∈ Finset.Icc 1 mirs, (solsByDivisors mir : Int)) maxWord ∧
      cappedSumTo mirs = tallyTo mirs ∧
      (cappedSumTo mirs = maxWord ↔ mostCounted < mirs)) ∧
    ∀ mirs : UInt64, wordSumTo mirs.toNat = some (cappedSumTo mirs.toNat) := by
  constructor
  · intro mirs
    refine ⟨?_, (tallyTo_eq_cappedSumTo mirs).symm, cappedSumTo_eq_maxWord_iff mirs⟩
    rw [sum_solsByDivisors]
    rfl
  · intro mirs
    apply wordSumTo_eq
    have inWord := mirs.toNat_lt
    constructor <;> omega

/-- A thousand mirs: 500 odd ones, a hundred tenths less ten hundredths, and the thousandth. -/
example : cappedSumTo 1000 = 1000 * 668 + (500 + 100 - 10 + 1) := by decide

end MarsCalendar.Mars.Mir

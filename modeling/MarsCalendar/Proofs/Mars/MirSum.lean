import MarsCalendar.Proofs.Mars.MirStart
import Mathlib

set_option autoImplicit false

/-! Sums over ranges of mirs. A range that reaches mir 0 is summed from there in both
directions and stops at the largest word as a whole. A range on one side is a difference
of two sums from mir 0, and each of them stops by itself: the sum is the one of the range
as long as the longer one fits a word, and too small beyond. -/

namespace MarsCalendar.Mars.Mir

/-! ### Lengths telescope -/

theorem sum_length_Ico {first last : Int} (ordered : first ≤ last) :
    ∑ mir ∈ Finset.Ico first last, length mir = freeStart last - freeStart first := by
  induction last, ordered using Int.leInduction with
  | base => simp
  | succ last ordered ih =>
      rw [← Finset.sum_Ico_add_eq_sum_Ico_add_one ordered, ih, freeStart_succ]
      omega

theorem sum_length_Icc {first last : Int} (ordered : first ≤ last) :
    ∑ mir ∈ Finset.Icc first last, length mir = freeStart (last + 1) - freeStart first := by
  rw [← Finset.Ico_add_one_right_eq_Icc, sum_length_Ico (by omega)]

theorem sumTo_pos {mirs : Nat} (some : 0 < mirs) : 0 < sumTo mirs := by
  simp only [sumTo, solsPerShortMir]
  omega

/-- A range on one side of mir 0 is what its far end counts more than the mirs before its
near end. -/
theorem sum_length_of_oneSided {first last : Int} (ordered : first ≤ last)
    (oneSided : 0 < first ∨ last < 0) :
    ∑ mir ∈ Finset.Icc first last, length mir =
      sumTo (max first.natAbs last.natAbs) - sumTo (min first.natAbs last.natAbs - 1) := by
  rw [sum_length_Icc ordered]
  rcases oneSided with positive | negative
  · have far := sumTo_eq_freeStart_succ last.natAbs
    have near := sumTo_eq_freeStart_succ (first.natAbs - 1)
    rw [show max first.natAbs last.natAbs = last.natAbs by omega,
      show min first.natAbs last.natAbs = first.natAbs by omega]
    rw [show (last.natAbs : Int) + 1 = last + 1 by omega] at far
    rw [show ((first.natAbs - 1 : Nat) : Int) + 1 = first by omega] at near
    omega
  · have far := sumTo_eq_neg_freeStart first.natAbs
    have near := sumTo_eq_neg_freeStart (last.natAbs - 1)
    rw [show max first.natAbs last.natAbs = first.natAbs by omega,
      show min first.natAbs last.natAbs = last.natAbs by omega]
    rw [show -(first.natAbs : Int) = first by omega] at far
    rw [show -((last.natAbs - 1 : Nat) : Int) = last + 1 by omega] at near
    omega

/-! ### The closed forms of a range -/

theorem sumBetween_eq_orderedSum (left right : Int) :
    sumBetween left right = orderedSum (min left right) (max left right) := by
  unfold sumBetween
  split
  · rw [Int.min_eq_right (by omega), Int.max_eq_left (by omega)]
  · rw [Int.min_eq_left (by omega), Int.max_eq_right (by omega)]

theorem orderedSum_self (mir : Int) : orderedSum mir mir = length mir :=
  if_pos rfl

theorem orderedSum_of_oneSided {first last : Int} (ordered : first < last)
    (oneSided : 0 < first ∨ last < 0) :
    orderedSum first last = cappedSumTo (max first.natAbs last.natAbs)
      - cappedSumTo (min first.natAbs last.natAbs - 1) := by
  unfold orderedSum positiveSum
  rw [if_neg (by omega)]
  rcases oneSided with positive | negative
  · rw [if_neg (by omega), if_neg (by omega), if_neg (by omega),
      Nat.max_eq_right (by omega), Nat.min_eq_left (by omega)]
  · rw [if_pos negative, Nat.max_eq_left (by omega), Nat.min_eq_right (by omega)]

theorem orderedSum_of_zero_mem {first last : Int} (ordered : first < last)
    (reaches : first ≤ 0 ∧ 0 ≤ last) :
    orderedSum first last = min (∑ mir ∈ Finset.Icc first last, length mir) maxWord := by
  have before := sumTo_eq_neg_freeStart first.natAbs
  have after := sumTo_eq_freeStart_succ last.natAbs
  have beforeNonneg := sumTo_nonneg first.natAbs
  have afterNonneg := sumTo_nonneg last.natAbs
  have epochLength : length 0 = 669 := by decide
  have word : (669 : Int) ≤ maxWord := by decide
  rw [show -(first.natAbs : Int) = first by omega] at before
  rw [show (last.natAbs : Int) = last by omega] at after
  rw [sum_length_Icc (by omega)]
  unfold orderedSum cappedAdd cappedSumTo
  rw [if_neg (by omega), if_neg (by omega)]
  rw [epochLength] at after ⊢
  rcases Int.lt_or_eq_of_le reaches.1 with negative | zero
  · rw [if_pos negative]
    omega
  · subst zero
    rw [freeStart_zero] at *
    rw [if_neg (by decide), if_pos rfl]
    omega

/-! ### Where the sum of a range is right -/

/-- The range takes no sum that stopped at the largest word from another: it is a single
mir, it reaches one of the three mirs around the epoch, or its longer sum fits a word. -/
def SumsWhole (left right : Int) : Prop :=
  left = right ∨ (min left right ≤ 1 ∧ -1 ≤ max left right) ∨
    sumTo (max left.natAbs right.natAbs) ≤ maxWord

instance (left right : Int) : Decidable (SumsWhole left right) :=
  inferInstanceAs (Decidable (_ ∨ _))

/-- Two counts that stop at the largest word keep their difference as long as the greater
one does not stop, and lose some of it otherwise. -/
private theorem capped_difference {greater less : Int} (nonneg : 0 ≤ less)
    (ordered : less < greater) :
    (min greater maxWord - min less maxWord = min (greater - less) maxWord ↔
        less = 0 ∨ greater ≤ maxWord) ∧
      min greater maxWord - min less maxWord ≤ min (greater - less) maxWord := by
  have word : (0 : Int) < maxWord := by decide
  omega

private theorem sumsWhole_of_oneSided {first last : Int} (ordered : first < last)
    (oneSided : 0 < first ∨ last < 0) :
    SumsWhole first last ↔ sumTo (min first.natAbs last.natAbs - 1) = 0 ∨
      sumTo (max first.natAbs last.natAbs) ≤ maxWord := by
  unfold SumsWhole
  by_cases next : min first.natAbs last.natAbs - 1 = 0
  · rw [next, sumTo_zero]
    omega
  · have counted := sumTo_pos (Nat.pos_of_ne_zero next)
    omega

private theorem orderedSum_eq_capped_sum_iff {first last : Int} (ordered : first ≤ last) :
    (orderedSum first last = min (∑ mir ∈ Finset.Icc first last, length mir) maxWord ↔
        SumsWhole first last) ∧
      (¬ SumsWhole first last →
        orderedSum first last = maxWord - cappedSumTo (min first.natAbs last.natAbs - 1) ∧
          orderedSum first last < min (∑ mir ∈ Finset.Icc first last, length mir) maxWord) := by
  rcases Int.lt_or_eq_of_le ordered with before | same
  · by_cases reaches : first ≤ 0 ∧ 0 ≤ last
    · have whole : SumsWhole first last := Or.inr (Or.inl (by omega))
      have sum := orderedSum_of_zero_mem before reaches
      exact ⟨⟨fun _ => whole, fun _ => sum⟩, fun lost => absurd whole lost⟩
    · -- On one side of mir 0 the sum is a difference of two counts, each stopped by itself.
      have oneSided : 0 < first ∨ last < 0 := by omega
      have order : sumTo (min first.natAbs last.natAbs - 1)
          < sumTo (max first.natAbs last.natAbs) := by
        have long := (length_bounds first).1
        have grown := freeStart_strictMono (Int.lt_add_one_of_le ordered)
        have sum := sum_length_of_oneSided ordered oneSided
        rw [sum_length_Icc ordered] at sum
        omega
      obtain ⟨kept, atMost⟩ :=
        capped_difference (sumTo_nonneg (min first.natAbs last.natAbs - 1)) order
      rw [sum_length_of_oneSided ordered oneSided, orderedSum_of_oneSided before oneSided,
        sumsWhole_of_oneSided before oneSided]
      unfold cappedSumTo
      refine ⟨kept, fun lost => ?_⟩
      omega
  · subst same
    have whole : SumsWhole first first := Or.inl rfl
    have short := (length_bounds first).2
    have sum : orderedSum first first =
        min (∑ mir ∈ Finset.Icc first first, length mir) maxWord := by
      rw [orderedSum_self, Finset.Icc_self, Finset.sum_singleton, Int.min_eq_left]
      exact Int.le_trans short (by decide)
    exact ⟨⟨fun _ => whole, fun _ => sum⟩, fun lost => absurd whole lost⟩

private theorem sumsWhole_sort (left right : Int) :
    SumsWhole (min left right) (max left right) ↔ SumsWhole left right := by
  have far : max (min left right).natAbs (max left right).natAbs =
      max left.natAbs right.natAbs := by omega
  unfold SumsWhole
  rw [far]
  omega

/-- The sum over a range of mirs, given by its ends in any order, is the sum of their
lengths stopped at the largest word exactly where the range sums whole. Elsewhere the sum
up to the far end has stopped, the mirs before the near end are taken from the largest
word, and too little is left. -/
theorem sumBetween_eq_capped_sum_iff (left right : Int) :
    (sumBetween left right =
        min (∑ mir ∈ Finset.Icc (min left right) (max left right), length mir) maxWord ↔
      SumsWhole left right) ∧
    (¬ SumsWhole left right →
      sumBetween left right = maxWord - cappedSumTo (min left.natAbs right.natAbs - 1) ∧
        sumBetween left right <
          min (∑ mir ∈ Finset.Icc (min left right) (max left right), length mir) maxWord) := by
  have ordered : min left right ≤ max left right := by omega
  have sorted := orderedSum_eq_capped_sum_iff ordered
  have near : min (min left right).natAbs (max left right).natAbs =
      min left.natAbs right.natAbs := by
    rcases Int.le_total left right with inOrder | swapped
    · rw [Int.min_eq_left inOrder, Int.max_eq_right inOrder]
    · rw [Int.min_eq_right swapped, Int.max_eq_left swapped, Nat.min_comm]
  rw [sumsWhole_sort, near] at sorted
  rw [sumBetween_eq_orderedSum]
  exact sorted

/-- Ten million billion mirs hold fewer sols than the largest word, yet both counts that
the sum takes have stopped there, and nothing is left. -/
theorem sumBetween_far_range_lost :
    sumBetween 20000000000000000 30000000000000000 = 0 ∧
      ∑ mir ∈ Finset.Icc 20000000000000000 30000000000000000, length mir =
        6685910000000000669 ∧
      sumBetween 20000000000000000 30000000000000000 ≠
        min (∑ mir ∈ Finset.Icc (min 20000000000000000 30000000000000000)
          (max 20000000000000000 30000000000000000), length mir) maxWord := by
  have sum : ∑ mir ∈ Finset.Icc 20000000000000000 30000000000000000, length mir =
      6685910000000000669 := by
    rw [sum_length_Icc (by decide)]
    decide
  refine ⟨by decide, sum, fun same => ?_⟩
  exact absurd ((sumBetween_eq_capped_sum_iff _ _).1.mp same) (by decide)

end MarsCalendar.Mars.Mir

import MarsCalendar.Proofs.Mars.MirTally
import MarsCalendar.Proofs.Mars.SolCount

set_option autoImplicit false

/-! Blocks of a thousand mirs. The pattern of long mirs begins anew in each of them and reads the
same backwards from mir 0. The sols of a block are the same wherever it lies, though a block before
mir 0 is summed by its mirror image and one around mir 0 from there in both directions. A sol has
therefore the same place in its block as in the one from mir 0, and its mir is looked up there. -/

namespace MarsCalendar.Mars

namespace Mir

/-! ### Starts and sums -/

theorem start_add_blocks {mir blocks : Int} (here : mir.natAbs ≤ 10 ^ 16)
    (there : (mir + 1000 * blocks).natAbs ≤ 10 ^ 16) :
    start (mir + 1000 * blocks) = start mir + solsPerKilomir * blocks := by
  rw [start_of_near here, start_of_near there, freeStart_add_thousand]

theorem sum_length_block (first : Int) :
    ∑ mir ∈ Finset.Icc first (first + 999), length mir = solsPerKilomir := by
  have next := freeStart_add_thousand first 1
  rw [Int.mul_one, Int.mul_one] at next
  rw [sum_length_Icc (by omega), show first + 999 + 1 = first + 1000 by omega, next,
    add_sub_cancel_left]

theorem sumBetween_block {first : Int} (here : first.natAbs ≤ 10 ^ 16)
    (there : (first + 1000).natAbs ≤ 10 ^ 16) :
    sumBetween first (first + 999) = solsPerKilomir := by
  have block := sum_length_block first
  rw [sumBetween_eq_orderedSum, Int.min_eq_left (by omega), Int.max_eq_right (by omega)]
  by_cases reaches : first ≤ 0 ∧ 0 ≤ first + 999
  · rw [orderedSum_of_zero_mem (by omega) reaches, block]
    decide
  · have oneSided : 0 < first ∨ first + 999 < 0 := by omega
    -- Neither of the two sums from mir 0 stops, so that nothing of their difference is lost.
    have far : max first.natAbs (first + 999).natAbs ≤ mostCounted := by
      unfold mostCounted
      omega
    have near : min first.natAbs (first + 999).natAbs - 1 ≤ mostCounted := by
      unfold mostCounted
      omega
    rw [orderedSum_of_oneSided (by omega) oneSided, cappedSumTo_of_counted far,
      cappedSumTo_of_counted near, ← sum_length_of_oneSided (by omega) oneSided, block]

end Mir

namespace SolDate

/-! ### Places in a block -/

theorem ofCount_mir (whole : Int) :
    (ofCount whole).mir =
      (mirOfSol (whole % solsPerKilomir)).1 + 1000 * (whole / solsPerKilomir) := by
  change whole / solsPerKilomir * 1000 + (mirOfSol (whole % solsPerKilomir)).1 = _
  omega

theorem elapsed_of_near {whole : Int} (near : (ofCount whole).mir.natAbs ≤ 10 ^ 16) :
    whole - Mir.start (ofCount whole).mir = (mirOfSol (whole % solsPerKilomir)).2 := by
  obtain ⟨low, inBlock⟩ := rest_inBlock whole
  have parts := Int.emod_add_mul_ediv whole solsPerKilomir
  obtain ⟨first, last⟩ := mirOfSol_inBlock low inBlock
  rw [ofCount_mir] at near ⊢
  rw [mirOfSol_of_start low inBlock, Mir.start_add_blocks (by omega) near]
  omega

end SolDate

/-- Thousands of mirs are alike wherever they lie, as long as the mirs are at most ten million
billion from mir 0. A mir is long if the mir as far into another thousand is, and if its mirror image
is; its start lies the sols of the thousands between further on; and any thousand mirs in a row hold
the sols of one block, before mir 0, around it and after it. So a sol is as many sols into its mir as
the sol at its place in the block from mir 0, and the mir found there has the length of its own. -/
theorem kilomirs_alike :
    (∀ mir blocks : Int, mir.natAbs ≤ 10 ^ 16 → (mir + 1000 * blocks).natAbs ≤ 10 ^ 16 →
      (Mir.IsLong (mir + 1000 * blocks) ↔ Mir.IsLong mir) ∧
      (Mir.IsLong mir ↔ Mir.IsLong (-mir)) ∧
      Mir.start (mir + 1000 * blocks) = Mir.start mir + solsPerKilomir * blocks) ∧
    (∀ first : Int, first.natAbs ≤ 10 ^ 16 → (first + 1000).natAbs ≤ 10 ^ 16 →
      Mir.sumBetween first (first + 999) = solsPerKilomir) ∧
    (∀ whole : Int, (SolDate.ofCount whole).mir.natAbs ≤ 10 ^ 16 →
      let place := SolDate.mirOfSol (whole % solsPerKilomir)
      (0 ≤ place.1 ∧ place.1 < 1000) ∧
      (SolDate.ofCount whole).mir = place.1 + 1000 * (whole / solsPerKilomir) ∧
      Mir.length (SolDate.ofCount whole).mir = Mir.length place.1 ∧
      whole - Mir.start (SolDate.ofCount whole).mir = place.2) := by
  refine ⟨?_, ?_, ?_⟩
  · intro mir blocks here there
    exact ⟨Mir.isLong_add_thousand mir blocks, (Mir.isLong_neg mir).symm,
      Mir.start_add_blocks here there⟩
  · intro first here there
    exact Mir.sumBetween_block here there
  · intro whole near
    obtain ⟨low, inBlock⟩ := SolDate.rest_inBlock whole
    refine ⟨SolDate.mirOfSol_inBlock low inBlock, SolDate.ofCount_mir whole, ?_,
      SolDate.elapsed_of_near near⟩
    rw [SolDate.ofCount_mir, Mir.length_add_thousand]

/-- A mir moved over mir 0 into a far thousand, thousands before, around and after mir 0, and the
last sol before the epoch. -/
theorem kilomirs_alike_around_epoch :
    (Mir.start (7 + 1000 * (-10 ^ 13)) = Mir.start 7 - 668591 * 10 ^ 13 ∧
      ¬ Mir.IsLong (-100 + 1000 * 3) ∧ Mir.start (-100 + 1000 * 3) = -66859 + 668591 * 3) ∧
    (Mir.sumBetween (-3000) (-3000 + 999) = 668591 ∧ Mir.sumBetween (-500) (-500 + 999) = 668591 ∧
      Mir.sumBetween (10 ^ 16 - 1000) (10 ^ 16 - 1000 + 999) = 668591) ∧
    -1 - Mir.start (SolDate.ofCount (-1)).mir = (SolDate.mirOfSol 668590).2 := by
  obtain ⟨mirs, blocks, places⟩ := kilomirs_alike
  have far := (mirs 7 (-10 ^ 13) (by decide) (by decide)).2.2
  have hundredth := mirs (-100) 3 (by decide) (by decide)
  have begun : Mir.start (-100) = -66859 := by decide
  refine ⟨⟨?_, ?_, ?_⟩, ⟨blocks (-3000) (by decide) (by decide),
    blocks (-500) (by decide) (by decide), blocks (10 ^ 16 - 1000) (by decide) (by decide)⟩,
    (places (-1) (by decide +kernel)).2.2.2⟩
  · rw [far]
    rfl
  · rw [hundredth.1]
    decide
  · rw [hundredth.2.2, begun]

end MarsCalendar.Mars

import Mathlib.Order.Monotone.Basic
import Mathlib.Tactic.SplitIfs

set_option autoImplicit false

/-! Whole seconds told roughly: by the nearest multiple of a grain that grows with them. Within one
grain more seconds have no lesser nearest multiple, and where one grain hands over to the next the
multiple does not fall, so it never does. A grain is never more than four thirds of the seconds, so
that the multiple is off by a third of them at most. -/

namespace MarsCalendar.Interval

/-- How many units are nearest to a number of seconds, the more of two as near. -/
def wholeUnits (length seconds : Nat) : Nat :=
  (2 * seconds + length) / (2 * length)

/-- The grains in their order, each with the seconds that are too many for it: seconds, fives of them,
minutes, fives of them, hours, days, weeks and months. -/
def grains : List (Nat × Nat) :=
  [(21, 1), (58, 5), (1230, 60), (3450, 300), (171000, 3600), (2376000, 86400), (7560000, 604800),
    (61799031, 2629746)]

def grainAmong (seconds : Nat) : List (Nat × Nat) → Nat
  | [] => 31556952
  | (limit, grain) :: coarser => if seconds < limit then grain else grainAmong seconds coarser

def roughAmong (seconds : Nat) (among : List (Nat × Nat)) : Nat :=
  wholeUnits (grainAmong seconds among) seconds * grainAmong seconds among

def rough (seconds : Nat) : Nat :=
  roughAmong seconds grains

theorem wholeUnits_mono (length : Nat) {fewer more : Nat} (ordered : fewer ≤ more) :
    wholeUnits length fewer ≤ wholeUnits length more :=
  Nat.div_le_div_right (by omega)

theorem wholeUnits_close {length : Nat} (positive : 0 < length) (seconds : Nat) :
    2 * (wholeUnits length seconds * length) ≤ 2 * seconds + length ∧
      2 * seconds < 2 * (wholeUnits length seconds * length) + length := by
  have parts := Nat.div_add_mod (2 * seconds + length) (2 * length)
  have short := Nat.mod_lt (2 * seconds + length) (by omega : 0 < 2 * length)
  have product : 2 * length * wholeUnits length seconds =
      2 * (wholeUnits length seconds * length) := by
    rw [Nat.mul_assoc, Nat.mul_comm length]
  change 2 * length * wholeUnits length seconds + _ = _ at parts
  rw [product] at parts
  omega

theorem wholeUnits_of_multiple {length parts count seconds : Nat} (positive : 0 < length) (some : 0 < parts)
    (whole : wholeUnits length seconds = parts * count) :
    wholeUnits (parts * length) seconds = count := by
  obtain ⟨low, high⟩ := wholeUnits_close positive seconds
  have product : wholeUnits length seconds * length = count * (parts * length) := by
    rw [whole, Nat.mul_comm parts, Nat.mul_assoc]
  have longer : length ≤ parts * length := Nat.le_mul_of_pos_left length some
  rw [product] at low high
  unfold wholeUnits
  refine Nat.div_eq_of_lt_le ?_ ?_
  · rw [Nat.mul_left_comm]
    omega
  · rw [Nat.mul_left_comm, Nat.add_mul]
    omega

/-- A fifth of the minutes, rounded twice, is rounded once: no half of five minutes is within one. -/
theorem fives_of_minutes (seconds : Nat) :
    wholeUnits 5 (wholeUnits 60 seconds) = wholeUnits 300 seconds := by
  unfold wholeUnits
  omega

/-! ### More seconds -/

theorem grainAmong_succ {seconds : Nat} (among : List (Nat × Nat))
    (kept : seconds + 1 ∉ among.map Prod.fst) :
    grainAmong (seconds + 1) among = grainAmong seconds among := by
  induction among with
  | nil => rfl
  | cons finest coarser ih =>
      obtain ⟨limit, grain⟩ := finest
      rw [List.map_cons, List.mem_cons, not_or] at kept
      have same : seconds + 1 < limit ↔ seconds < limit := by
        have apart : seconds + 1 ≠ limit := kept.1
        omega
      exact if_congr same rfl (ih kept.2)

/-- Where a grain hands over to the next, no less is told. -/
theorem rough_handOver :
    ∀ seconds ∈ grains.map Prod.fst, rough (seconds - 1) ≤ rough seconds := by
  decide

theorem rough_le_succ (seconds : Nat) : rough seconds ≤ rough (seconds + 1) := by
  by_cases handOver : seconds + 1 ∈ grains.map Prod.fst
  · exact rough_handOver _ handOver
  · unfold rough roughAmong
    rw [grainAmong_succ grains handOver]
    exact Nat.mul_le_mul_right _ (wholeUnits_mono _ (Nat.le_succ seconds))

theorem rough_mono : Monotone rough :=
  monotone_nat_of_le_succ rough_le_succ

/-! ### How far off -/

theorem grain_pos (seconds : Nat) : 0 < grainAmong seconds grains := by
  simp only [grains, grainAmong]
  split_ifs <;> decide

theorem grain_le {seconds : Nat} (some : 0 < seconds) :
    3 * grainAmong seconds grains ≤ 4 * seconds := by
  simp only [grains, grainAmong]
  split_ifs <;> omega

theorem rough_zero : rough 0 = 0 := by
  decide

/-- What is told is off by a third of the seconds at most: one grain is, for it is not used for less,
and more of them are off by half a grain. -/
theorem rough_close (seconds : Nat) :
    3 * rough seconds ≤ 4 * seconds ∧ 2 * seconds ≤ 3 * rough seconds := by
  rcases Nat.eq_zero_or_pos seconds with rfl | positive
  · rw [rough_zero]
    omega
  · have short := grain_le positive
    have nonempty := grain_pos seconds
    change 3 * (wholeUnits _ seconds * _) ≤ _ ∧ _ ≤ 3 * (wholeUnits _ seconds * _)
    generalize grainAmong seconds grains = grain at short nonempty ⊢
    obtain ⟨low, high⟩ := wholeUnits_close nonempty seconds
    rcases Nat.lt_trichotomy (wholeUnits grain seconds) 1 with none | one | more
    · rw [Nat.lt_one_iff.mp none, Nat.zero_mul] at high
      omega
    · rw [one] at low high ⊢
      omega
    · have twice : 2 * grain ≤ wholeUnits grain seconds * grain := Nat.mul_le_mul_right _ more
      omega

end MarsCalendar.Interval

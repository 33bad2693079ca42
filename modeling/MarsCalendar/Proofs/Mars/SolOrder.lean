import MarsCalendar.Proofs.Mars.SolCount
import Mathlib.Logic.Function.Iterate

set_option autoImplicit false

/-! Consecutive sols have consecutive dates. The date of a sol is followed by the next date of the
calendar, over the ends of months, mirs and thousands of mirs alike, so that any number of sols
later it is as many dates later. Later sols have later dates, and the sols of a mir are numbered
from 1 to its length, each number once. -/

namespace MarsCalendar.Mars

namespace SolDate

/-! ### The order of dates -/

theorem Before.trans {first second third : SolDate} (left : first.Before second)
    (right : second.Before third) : first.Before third := by
  unfold Before at *
  omega

theorem not_before_self (date : SolDate) : ¬ date.Before date := by
  unfold Before
  omega

/-! ### The next date -/

theorem first_valid (mir : Int) {month : Nat} (named : 1 ≤ month) (inMir : month ≤ monthsPerMir) :
    Valid ⟨mir, month, 1⟩ := by
  refine ⟨⟨named, inMir⟩, Nat.le_refl 1, ?_⟩
  dsimp only
  unfold Month.length
  rw [if_neg (by omega)]
  repeat' split
  all_goals decide

theorem next_spec {date : SolDate} (valid : date.Valid) :
    date.next.Valid ∧ date.next.freeCount = date.freeCount + 1 ∧ date.Before date.next := by
  obtain ⟨⟨named, inMir⟩, first, last⟩ := valid
  unfold freeCount solOfMir
  by_cases inMonth : date.sol < Month.length date.mir date.month
  · have nextIs : date.next = ⟨date.mir, date.month, date.sol + 1⟩ := if_pos inMonth
    rw [nextIs]
    refine ⟨⟨⟨named, inMir⟩, Nat.le_add_left 1 date.sol, inMonth⟩, ?_,
      Or.inr ⟨rfl, Or.inr ⟨rfl, Nat.lt_succ_self _⟩⟩⟩
    dsimp only
    omega
  · -- The last sol of a month leads to the first of the next, or at the end of the mir to a new one.
    have full : date.sol = Month.length date.mir date.month := by omega
    by_cases monthFollows : date.month < monthsPerMir
    · have begun := Month.start_succ date.mir date.month named monthFollows
      rw [next_of_month_end date monthFollows full]
      refine ⟨first_valid date.mir (Nat.le_add_left 1 date.month) monthFollows, ?_,
        Or.inr ⟨rfl, Or.inl (Nat.lt_succ_self _)⟩⟩
      dsimp only
      omega
    · have nextIs : date.next = ⟨date.mir + 1, 1, 1⟩ := (if_neg inMonth).trans (if_neg monthFollows)
      have lastMonth : date.month = 24 := Nat.le_antisymm inMir (Nat.not_lt.mp monthFollows)
      have whole := Month.start_add_length_last date.mir
      have following := Mir.freeStart_succ date.mir
      have begun : Month.start 1 = 0 := by decide
      rw [nextIs]
      refine ⟨first_valid (date.mir + 1) (Nat.le_refl 1) (by decide), ?_, Or.inl (Int.lt_succ _)⟩
      dsimp only
      rw [full, lastMonth, begun]
      omega

/-- A run of next dates keeps to real dates, as many sols later as it has steps. -/
theorem iterate_next_spec {date : SolDate} (valid : date.Valid) (steps : Nat) :
    (next^[steps] date).Valid ∧ (next^[steps] date).freeCount = date.freeCount + steps ∧
      (0 < steps → date.Before (next^[steps] date)) := by
  induction steps with
  | zero => exact ⟨valid, (Int.add_zero _).symm, fun none => absurd none (Nat.lt_irrefl 0)⟩
  | succ steps ih =>
      obtain ⟨hereValid, counted, reached⟩ := ih
      obtain ⟨nextValid, nextCounted, step⟩ := next_spec hereValid
      rw [Function.iterate_succ_apply']
      refine ⟨nextValid, ?_, fun _ => ?_⟩
      · rw [nextCounted, counted, Int.natCast_succ, Int.add_assoc]
      · rcases Nat.eq_zero_or_pos steps with rfl | some
        · exact step
        · exact (reached some).trans step

theorem ofCount_add (whole : Int) (sols : Nat) :
    ofCount (whole + sols) = next^[sols] (ofCount whole) := by
  obtain ⟨valid, found⟩ := ofCount_spec whole
  obtain ⟨laterValid, counted, -⟩ := iterate_next_spec valid sols
  rw [← ofCount_freeCount laterValid, counted, found]

theorem lt_iff_ofCount_before (earlier later : Int) :
    earlier < later ↔ (ofCount earlier).Before (ofCount later) := by
  have forward {first last : Int} (ordered : first < last) :
      (ofCount first).Before (ofCount last) := by
    obtain ⟨sols, lastIs⟩ := Int.lt.dest ordered
    rw [← lastIs, ofCount_add]
    exact (iterate_next_spec (ofCount_spec first).1 _).2.2 (Nat.succ_pos sols)
  refine ⟨forward, fun before => ?_⟩
  rcases Int.lt_trichotomy earlier later with ordered | same | reversed
  · exact ordered
  · rw [same] at before
    exact absurd before (not_before_self _)
  · exact absurd (before.trans (forward reversed)) (not_before_self _)

/-! ### The sols of a mir -/

theorem mir_solOfMir_iff (whole mir : Int) (place : Nat) :
    (ofCount whole).mir = mir ∧ (ofCount whole).solOfMir = place ↔
      (1 ≤ place ∧ (place : Int) ≤ Mir.length mir) ∧ whole = Mir.freeStart mir + place - 1 := by
  obtain ⟨valid, found⟩ := ofCount_spec whole
  have inFound := freeCount_inMir valid
  rw [found] at inFound
  unfold freeCount at found
  constructor
  · rintro ⟨rfl, rfl⟩
    exact ⟨solOfMir_bounds valid, found.symm⟩
  · rintro ⟨⟨first, last⟩, wholeIs⟩
    have sameMir : (ofCount whole).mir = mir := Mir.mir_unique inFound (by omega)
    rw [sameMir] at found
    exact ⟨sameMir, by omega⟩

def IsCount (whole : Int) : Prop :=
  -9220000000000000000 ≤ whole ∧ whole ≤ Mir.maxWord

instance (whole : Int) : Decidable (IsCount whole) :=
  inferInstanceAs (Decidable (_ ∧ _))

theorem start_of_isCount {whole : Int} (isCount : IsCount whole) :
    Mir.start (ofCount whole).mir = Mir.freeStart (ofCount whole).mir := by
  obtain ⟨valid, found⟩ := ofCount_spec whole
  obtain ⟨low, high⟩ := isCount
  rw [← found] at low high
  exact start_eq_freeStart valid low high

/-- The sol after a sol has the next date of the calendar; of two sols the earlier one has the
earlier date; and the sols of a mir, from its first one on, are its sols 1, 2 and so on to its
length. -/
theorem ofCount_consecutive :
    (∀ whole : Int, IsCount whole → IsCount (whole + 1) →
      ofCount (whole + 1) = (ofCount whole).next) ∧
    (∀ earlier later : Int, IsCount earlier → IsCount later →
      (earlier < later ↔ (ofCount earlier).Before (ofCount later))) ∧
    (∀ (whole other : Int) (place : Nat), IsCount whole → IsCount other →
      let mir := (ofCount whole).mir
      ((ofCount other).mir = mir ∧ (ofCount other).solOfMir = place ↔
        (1 ≤ place ∧ (place : Int) ≤ Mir.length mir) ∧ other = Mir.start mir + place - 1)) := by
  refine ⟨fun whole _ _ => ofCount_add whole 1,
    fun earlier later _ _ => lt_iff_ofCount_before earlier later, ?_⟩
  intro whole other place isCount _ mir
  rw [start_of_isCount isCount]
  exact mir_solOfMir_iff other mir place

/-- The sols before the epoch and before the next thousand mirs, both at the end of a long mir; the
last two sols of the range; and the sol that mir 1000 has more than a short one. -/
theorem ofCount_consecutive_at_ends :
    (ofCount (-1) = ⟨-1, 24, 28⟩ ∧ (ofCount (-1)).next = ⟨0, 1, 1⟩ ∧
      ofCount (-1 + 1) = (ofCount (-1)).next) ∧
    (ofCount 668590 = ⟨999, 24, 28⟩ ∧ ofCount (668590 + 1) = (ofCount 668590).next) ∧
    ((9223372036854775806 : Int) < 9223372036854775807 ↔
      (ofCount 9223372036854775806).Before (ofCount 9223372036854775807)) ∧
    ((ofCount 669259).mir = 1000 ∧ (ofCount 669259).solOfMir = 669) := by
  obtain ⟨next, ordered, inMir⟩ := ofCount_consecutive
  have thousandth : (ofCount 668591).mir = 1000 := by decide +kernel
  have place := (inMir 668591 669259 669 (by decide) (by decide)).mpr
  rw [thousandth] at place
  exact ⟨⟨by decide +kernel, by decide +kernel, next (-1) (by decide) (by decide)⟩,
    ⟨by decide +kernel, next 668590 (by decide) (by decide)⟩,
    ordered _ _ (by decide) (by decide), place ⟨by decide, by decide⟩⟩

end SolDate

end MarsCalendar.Mars

import MarsCalendar.Interval
import MarsCalendar.Proofs.Interval.Grain
import MarsCalendar.Proofs.Scalar.Rational
import MarsCalendar.Proofs.Text.Numeral
import Mathlib.Tactic.FieldSimp
import Mathlib.Tactic.NormNum
import Mathlib.Tactic.Positivity
import Mathlib.Tactic.Ring

set_option autoImplicit false

/-! What a description of a length of time says, over the rationals. The units are tried from the finest
on, as the grains are, and a count that fills a larger unit is left to it, which says the same. So the
text says the nearest multiple of the grain: never less for more time, and off by a third at most. -/

namespace MarsCalendar.Interval

/-! ### Rounded quotients -/

def Unit.wholeSeconds : Unit → Nat
  | .second => 1
  | .minute => 60
  | .hour => 3600
  | .day => 86400
  | .week => 604800
  | .month => 2629746
  | .year => 31556952

theorem Unit.seconds_eq (unit : Unit) : (unit.seconds : Rat) = unit.wholeSeconds := by
  cases unit <;> norm_num [Unit.seconds, Unit.wholeSeconds]

theorem Unit.wholeSeconds_pos (unit : Unit) : 0 < unit.wholeSeconds := by
  cases unit <;> decide

theorem times_eq {length : Nat} (positive : 0 < length) (seconds : Nat) :
    times (seconds : Rat) (length : Rat) =
      (min (wholeUnits length seconds) 9223372036854775807 : Nat) := by
  have nonneg : ¬ (seconds : Rat) / length < 0 := not_lt.mpr (by positivity)
  have quotient : (seconds : Rat) / length + 1 / 2 =
      ((2 * seconds + length : Nat) : Int) / (2 * length : Nat) := by
    have nonzero : (length : Rat) ≠ 0 := by exact_mod_cast positive.ne'
    push_cast
    field_simp
  have nearest : roundRat ((seconds : Rat) / length) = (wholeUnits length seconds : Nat) := by
    rw [roundRat, if_neg nonneg, quotient]
    exact Rat.floor_intCast_div_natCast _ _
  change Scalar.toWord (roundRat ((seconds : Rat) / length) : Rat) = _
  rw [nearest, Int.cast_natCast, toWord_natCast]

theorem times_unit (unit : Unit) (seconds : Nat) :
    times (seconds : Rat) unit.seconds =
      (min (wholeUnits unit.wholeSeconds seconds) 9223372036854775807 : Nat) := by
  rw [unit.seconds_eq]
  exact times_eq unit.wholeSeconds_pos seconds

theorem times_five (count : Nat) :
    times (count : Rat) 5.0 = (min (wholeUnits 5 count) 9223372036854775807 : Nat) := by
  have five : (5.0 : Rat) = (5 : Nat) := by norm_num
  rw [five]
  exact times_eq (by decide) count

theorem round_abs_eq {interval : Rat} {seconds : Nat} (rounded : roundRat |interval| = seconds) :
    Scalar.round (Scalar.abs interval) = (seconds : Rat) := by
  rw [abs_eq]
  change (roundRat |interval| : Rat) = _
  rw [rounded, Int.cast_natCast]

/-! ### One unit after the other -/

def Approximation.Tells (about : Approximation) (seconds : Nat) : Prop :=
  ∃ count : Nat, about.count = count ∧ count * about.unit.wholeSeconds = seconds

/-- One grain after the other: where a unit is settled on its grain is told, and where it is not,
either the next one tells it as well or the grain is passed. -/
theorem tells_ite {condition : Prop} [Decidable condition] {settled further : Approximation}
    {seconds limit grain : Nat} {coarser : List (Nat × Nat)}
    (few : condition → seconds < limit ∧ settled.Tells (wholeUnits grain seconds * grain))
    (left : seconds < limit → ¬ condition → further.Tells (wholeUnits grain seconds * grain))
    (passed : limit ≤ seconds → further.Tells (roughAmong seconds coarser)) :
    (if condition then settled else further).Tells
      (roughAmong seconds ((limit, grain) :: coarser)) := by
  unfold roughAmong grainAmong
  by_cases holds : condition
  · obtain ⟨fits, told⟩ := few holds
    rwa [if_pos holds, if_pos fits]
  · rw [if_neg holds]
    by_cases fits : seconds < limit
    · rw [if_pos fits]
      exact left fits holds
    · rw [if_neg fits]
      exact passed (Nat.not_lt.mp fits)

theorem tells_parts (parts : Nat) {unit : Unit} {seconds grain length : Nat}
    (named : unit.wholeSeconds = length) (larger : length = parts * grain)
    (multiple : wholeUnits grain seconds % parts = 0)
    (fits : wholeUnits length seconds ≤ 9223372036854775807) :
    Approximation.Tells ⟨(min (wholeUnits length seconds) 9223372036854775807 : Nat), unit⟩
      (wholeUnits grain seconds * grain) := by
  obtain ⟨count, counted⟩ := Nat.dvd_of_mod_eq_zero multiple
  have positive := unit.wholeSeconds_pos
  rw [named, larger] at positive
  have same : wholeUnits length seconds = count := by
    rw [larger]
    exact wholeUnits_of_multiple (Nat.pos_of_mul_pos_left positive)
      (Nat.pos_of_mul_pos_right positive) counted
  refine ⟨count, ?_, ?_⟩
  · rw [Nat.min_eq_left fits, same]
  · change count * unit.wholeSeconds = _
    rw [named, larger, counted]
    ring

theorem tells_nearest {unit : Unit} {seconds length : Nat} (named : unit.wholeSeconds = length)
    (fits : wholeUnits length seconds ≤ 9223372036854775807) :
    Approximation.Tells ⟨(min (wholeUnits length seconds) 9223372036854775807 : Nat), unit⟩
      (wholeUnits length seconds * length) :=
  tells_parts 1 named (Nat.one_mul length).symm (Nat.mod_one _) fits

/-- The seconds of an approximation are those of the grain: a unit is settled on for its own grain's
seconds only, or for grains that fill it. -/
theorem approximate_tells {interval : Rat} {seconds : Nat}
    (rounded : roundRat |interval| = seconds) (small : seconds ≤ 10 ^ 26) :
    (approximate interval).Tells (rough seconds) := by
  have upToTwenty : (seconds : Rat) ≤ 20.0 ↔ seconds ≤ 20 := by
    have twenty : (20.0 : Rat) = (20 : Nat) := by norm_num
    rw [twenty, Nat.cast_le]
  have belowMinute : (seconds : Rat) < 58.0 ↔ seconds < 58 := by
    have fiftyEight : (58.0 : Rat) = (58 : Nat) := by norm_num
    rw [fiftyEight, Nat.cast_lt]
  have ofWhole (count : Nat) : (Scalar.ofInt (count : Int) : Rat) = count := Int.cast_natCast count
  have minutes := wholeUnits_close (by decide : 0 < 60) seconds
  have hours := wholeUnits_close (by decide : 0 < 3600) seconds
  have days := wholeUnits_close (by decide : 0 < 86400) seconds
  have weeks := wholeUnits_close (by decide : 0 < 604800) seconds
  have months := wholeUnits_close (by decide : 0 < 2629746) seconds
  have years := wholeUnits_close (by decide : 0 < 31556952) seconds
  change Approximation.Tells _ (roughAmong seconds grains)
  unfold approximate
  simp only [round_abs_eq rounded, upToTwenty, belowMinute, toWord_natCast, ofWhole, times_five,
    times_unit, Unit.wholeSeconds]
  -- The units in their order. What is known of the counts and the grains passed decides each limit.
  refine tells_ite (fun few => ⟨by omega, ?seconds⟩) (by omega) fun atLeast => ?_
  case seconds =>
    refine ⟨_, rfl, ?_⟩
    change min seconds _ * 1 = wholeUnits 1 seconds * 1
    unfold wholeUnits
    omega
  refine tells_ite (fun few => ⟨by omega, ?fiveSeconds⟩) (by omega) fun atLeast => ?_
  case fiveSeconds =>
    refine ⟨min (wholeUnits 5 seconds) 9223372036854775807 * 5, rfl, ?_⟩
    change min (wholeUnits 5 seconds) _ * 5 * 1 = wholeUnits 5 seconds * 5
    unfold wholeUnits
    omega
  refine tells_ite (fun few => ⟨by omega, ?minutes⟩) (by omega) fun atLeast => ?_
  case minutes => exact tells_nearest rfl (by omega)
  refine tells_ite (fun few => ⟨by omega, ?fiveMinutes⟩) (by omega) fun atLeast => ?_
  case fiveMinutes =>
    rw [Nat.min_eq_left (by omega : wholeUnits 60 seconds ≤ _)]
    refine ⟨min (wholeUnits 5 (wholeUnits 60 seconds)) 9223372036854775807 * 5, rfl, ?_⟩
    rw [fives_of_minutes, Nat.min_eq_left (by unfold wholeUnits; omega)]
    change _ * 5 * 60 = _
    ring
  refine tells_ite (fun few => ⟨by omega, ?hours⟩) (fun fits full => ?fullDays) fun atLeast => ?_
  case hours => exact tells_nearest rfl (by omega)
  case fullDays =>
    rw [if_pos (by omega)]
    exact tells_parts 24 rfl rfl (by omega) (by omega)
  refine tells_ite (fun few => ⟨by omega, ?days⟩) (fun fits full => ?fullWeeks) fun atLeast => ?_
  case days => exact tells_nearest rfl (by omega)
  case fullWeeks =>
    rw [if_pos (by omega)]
    exact tells_parts 7 rfl rfl (by omega) (by omega)
  refine tells_ite (fun few => ⟨by omega, ?weeks⟩) (by omega) fun atLeast => ?_
  case weeks => exact tells_nearest rfl (by omega)
  refine tells_ite (fun few => ⟨by omega, ?months⟩) (fun fits full => ?fullYear) fun atLeast => ?_
  case months => exact tells_nearest rfl (by omega)
  case fullYear => exact tells_parts 12 rfl rfl (by omega) (by omega)
  unfold roughAmong grainAmong
  exact tells_nearest rfl (by omega)

/-! ### The text -/

structure Named where
  count : Nat
  length : Nat

def Named.seconds (named : Named) : Nat :=
  named.count * named.length

def ones : List (String × Nat) :=
  [("a second", 1), ("a minute", 60), ("an hour", 3600), ("a day", 86400), ("a week", 604800),
    ("a month", 2629746), ("a year", 31556952)]

def several : List (String × Nat) :=
  [(" seconds", 1), (" minutes", 60), (" hours", 3600), (" days", 86400), (" weeks", 604800),
    (" months", 2629746), (" years", 31556952)]

/-- Reads digits and a unit, or the words for one. -/
def read? (text : String) : Option Named :=
  let digits := text.toList.takeWhile Char.isDigit
  let words := String.ofList (text.toList.dropWhile Char.isDigit)
  if digits = [] then (ones.lookup words).map fun length => ⟨1, length⟩
  else (several.lookup words).map fun length => ⟨Nat.ofDigitChars 10 digits 0, length⟩

theorem read?_singular (unit : Unit) : read? unit.singular = some ⟨1, unit.wholeSeconds⟩ := by
  cases unit <;> rfl

theorem lookup_plural (unit : Unit) :
    several.lookup (String.ofList (' ' :: unit.plural.toList)) = some unit.wholeSeconds := by
  cases unit <;> rfl

theorem read?_text {about : Approximation} {count : Nat} (counted : about.count = count) :
    read? about.text = some ⟨count, about.unit.wholeSeconds⟩ := by
  unfold Approximation.text
  by_cases one : about.count = 1
  · have single : count = 1 := by omega
    rw [if_pos one, single, read?_singular]
  · have letters : (Text.plain about.count ++ " " ++ about.unit.plural).toList =
        Text.zeroFilled 0 count ++ ' ' :: about.unit.plural.toList := by
      rw [String.toList_append, String.toList_append, counted, Text.plain, Text.toList_padded,
        List.append_assoc]
      rfl
    rw [if_neg one, read?, letters, Text.takeWhile_zeroFilled_append 0 count (by decide),
      Text.dropWhile_zeroFilled_append 0 count (by decide), if_neg (Text.zeroFilled_ne_nil 0 count),
      lookup_plural, Text.ofDigitChars_zeroFilled, Option.map_some]

theorem read?_describe {interval : Rat} (small : |interval| < 10 ^ 26) :
    ∃ (seconds : Nat) (named : Named), roundRat |interval| = seconds ∧
      read? (describe interval) = some named ∧ named.seconds = rough seconds ∧ 0 < named.length := by
  have bounded : |interval| < (10 ^ 26 : Nat) := by exact_mod_cast small
  obtain ⟨seconds, rounded, few⟩ := exists_roundRat_eq (abs_nonneg interval) bounded.le
  obtain ⟨count, counted, told⟩ := approximate_tells rounded few
  exact ⟨seconds, _, rounded, read?_text counted, told, Unit.wholeSeconds_pos _⟩

/-- A longer time is never said to be shorter, and what is said is off by a third of the whole seconds
at most: it is a count of none for no seconds only. -/
theorem describe_mono_close :
    (∀ shorter longer : Rat, |shorter| ≤ |longer| → |longer| < 10 ^ 26 →
      ∃ less more, read? (describe shorter) = some less ∧ read? (describe longer) = some more ∧
        less.seconds ≤ more.seconds) ∧
    ∀ interval : Rat, |interval| < 10 ^ 26 →
      ∃ named, read? (describe interval) = some named ∧
        |(named.seconds : Rat) - (roundRat |interval|)| ≤ roundRat |interval| / 3 ∧
        (named.count = 0 ↔ roundRat |interval| = 0) := by
  constructor
  · intro shorter longer ordered small
    obtain ⟨fewer, less, fewerIs, readLess, lessIs, _⟩ := read?_describe (ordered.trans_lt small)
    obtain ⟨greater, more, greaterIs, readMore, moreIs, _⟩ := read?_describe small
    have inOrder := roundRat_mono ordered
    rw [fewerIs, greaterIs, Int.ofNat_le] at inOrder
    refine ⟨less, more, readLess, readMore, ?_⟩
    rw [lessIs, moreIs]
    exact rough_mono inOrder
  · intro interval small
    obtain ⟨seconds, named, rounded, read, namedIs, positive⟩ := read?_describe small
    obtain ⟨high, low⟩ := rough_close seconds
    refine ⟨named, read, ?_, ?_⟩
    · have highRat : 3 * (rough seconds : Rat) ≤ 4 * seconds := by exact_mod_cast high
      have lowRat : 2 * (seconds : Rat) ≤ 3 * rough seconds := by exact_mod_cast low
      rw [rounded, namedIs, Int.cast_natCast, abs_le]
      constructor <;> linarith
    · rw [rounded, Int.natCast_eq_zero]
      have product : named.count * named.length = rough seconds := namedIs
      constructor
      · intro none
        rw [none, Nat.zero_mul] at product
        omega
      · intro none
        rw [none, rough_zero] at product
        exact (Nat.mul_eq_zero.mp product).resolve_right positive.ne'

/-- The last of the hours and the first of two days. -/
theorem describe_mono_close_at_two_days :
    describe (170999 : Rat) = "47 hours" ∧ describe (-171000 : Rat) = "2 days" ∧
      (∃ less more, read? "47 hours" = some less ∧ read? "2 days" = some more ∧
        less.seconds ≤ more.seconds) ∧
      ∃ named, read? "2 days" = some named ∧
        |(named.seconds : Rat) - 171000| ≤ 171000 / 3 ∧ (named.count = 0 ↔ (171000 : Int) = 0) := by
  have hours : describe (170999 : Rat) = "47 hours" := by decide +kernel
  have days : describe (-171000 : Rat) = "2 days" := by decide +kernel
  have whole : roundRat |(-171000 : Rat)| = 171000 := by decide +kernel
  obtain ⟨mono, close⟩ := describe_mono_close
  have ordered := mono 170999 (-171000) (by norm_num) (by norm_num)
  have near := close (-171000) (by norm_num)
  rw [hours, days] at ordered
  rw [days, whole] at near
  exact ⟨hours, days, ordered, near⟩

end MarsCalendar.Interval

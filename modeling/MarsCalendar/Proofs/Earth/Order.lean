import MarsCalendar.Proofs.Earth.JulianDate

set_option autoImplicit false

/-! The order of moments and the seconds between them, over the rationals. Moments are ordered by
their seconds of UTC and then by their nanoseconds, so an inserted second comes before the second
after it; the difference is one of Unix timestamps, which run through an inserted second and the
one after it at the same time. The two agree on all moments but such a pair, and there they part. -/

namespace MarsCalendar.Earth.Moment

open Civil (UtcOffset leapNanosecond)

/-- The second moment lies in the second after the inserted one of the first, and not as far into
it. -/
def RunsAhead (inserted next : Moment) : Prop :=
  next.seconds = inserted.seconds + 1 ∧ next.nanosecond + leapNanosecond < inserted.nanosecond

/-- The second moment lies in the second after the inserted one of the first, and as far into it. -/
def Coincides (inserted next : Moment) : Prop :=
  next.seconds = inserted.seconds + 1 ∧ next.nanosecond + leapNanosecond = inserted.nanosecond

variable {left right : Moment}

theorem isLeap_of_runsAhead (ahead : left.RunsAhead right) : left.IsLeap ∧ ¬ right.IsLeap := by
  have bound := left.nanosecond_lt
  obtain ⟨-, further⟩ := ahead
  unfold IsLeap
  omega

theorem isLeap_of_coincides (same : left.Coincides right) : left.IsLeap ∧ ¬ right.IsLeap := by
  have bound := left.nanosecond_lt
  obtain ⟨-, even⟩ := same
  unfold IsLeap
  omega

/-! ### The order -/

theorem compare_isLE_iff (left right : Moment) :
    (left.compare right).isLE ↔ left.seconds < right.seconds ∨
      left.seconds = right.seconds ∧ left.nanosecond ≤ right.nanosecond := by
  unfold compare
  obtain before | same | after := Int.lt_trichotomy left.seconds right.seconds
  · rw [Int.compare_eq_lt.mpr before]
    exact ⟨fun _ => .inl before, fun _ => rfl⟩
  · rw [Int.compare_eq_eq.mpr same, Ordering.eq_then, Nat.isLE_compare]
    omega
  · rw [Int.compare_eq_gt.mpr after]
    constructor
    · intro impossible
      cases impossible
    · omega

theorem compare_eq_iff (left right : Moment) :
    left.compare right = .eq ↔
      left.seconds = right.seconds ∧ left.nanosecond = right.nanosecond := by
  unfold compare
  rw [Ordering.then_eq_eq, Int.compare_eq_eq, Nat.compare_eq_eq]

/-! ### The difference -/

theorem secondsSince_eq (left right : Moment) :
    (left.secondsSince right false : Rat) =
      ((left.unixMicroseconds - right.unixMicroseconds : Int) : Rat) / 1000000 := by
  change (left.timestamp : Rat) - right.timestamp = _
  rw [timestamp_eq, timestamp_eq]
  push_cast
  ring

theorem secondsSince_nonpos_iff (left right : Moment) :
    (left.secondsSince right false : Rat) ≤ 0 ↔
      left.unixMicroseconds ≤ right.unixMicroseconds := by
  rw [secondsSince_eq, div_le_iff₀ (by norm_num), zero_mul, Int.cast_nonpos, sub_nonpos]

theorem secondsSince_eq_zero_iff (left right : Moment) :
    (left.secondsSince right false : Rat) = 0 ↔
      left.unixMicroseconds = right.unixMicroseconds := by
  rw [secondsSince_eq, div_eq_zero_iff, or_iff_left (by norm_num), Int.cast_eq_zero,
    sub_eq_zero]

/-- A moment that is not after another one has no later Unix timestamp, unless the one lies in an
inserted second and the other less far into the second after it. Two moments have the same
timestamp if they are the same, or one lies in an inserted second and the other as far into the
second after it, and only then. -/
theorem compare_secondsSince (leftWhole : left.WholeMicroseconds)
    (rightWhole : right.WholeMicroseconds) :
    ((left.compare right).isLE →
      ((left.secondsSince right false : Rat) ≤ 0 ↔ ¬ left.RunsAhead right)) ∧
    ((left.secondsSince right false : Rat) = 0 ↔
      left.compare right = .eq ∨ left.Coincides right ∨ right.Coincides left) := by
  have leftBound := left.nanosecond_lt
  have rightBound := right.nanosecond_lt
  rw [compare_isLE_iff, secondsSince_nonpos_iff, secondsSince_eq_zero_iff, compare_eq_iff]
  unfold WholeMicroseconds at leftWhole rightWhole
  unfold RunsAhead Coincides unixMicroseconds subsecondMicroseconds
  unfold leapNanosecond at *
  constructor
  · intro notAfter
    omega
  · omega

/-- Half of the second inserted at the end of 2016, read to the east, and a moment to the west
that lies further into the second after it. -/
theorem compare_secondsSince_at_2017 :
    let inserted : Moment := ⟨1483228799, 1500000000, ⟨19800, by decide⟩, by decide, by decide⟩
    let next : Moment := ⟨1483228800, 600000000, ⟨-43200, by decide⟩, by decide, by decide⟩
    inserted.IsLeap ∧ (inserted.compare next).isLE ∧
      (inserted.secondsSince next false : Rat) ≤ 0 := by
  intro inserted next
  have insertedWhole : inserted.WholeMicroseconds := by decide
  have nextWhole : next.WholeMicroseconds := by decide
  have notAfter : (inserted.compare next).isLE := rfl
  have notAhead : ¬ inserted.RunsAhead next := fun ahead => absurd ahead.2 (by decide)
  obtain ⟨ordered, -⟩ := compare_secondsSince insertedWhole nextWhole
  exact ⟨by decide, notAfter, (ordered notAfter).mpr notAhead⟩

/-- The middle of that second comes before the first fifth and before the middle of the second
after it; by their timestamps it is later than the one and at the same time as the other. -/
theorem secondsSince_parts_from_order :
    ∃ inserted fifth half : Moment,
      ofReading ⟨⟨2016, 12, 31⟩, ⟨23, 59, 60, 500000⟩, none⟩ = .ok inserted ∧
      ofReading ⟨⟨2017, 1, 1⟩, ⟨0, 0, 0, 200000⟩, none⟩ = .ok fifth ∧
      ofReading ⟨⟨2017, 1, 1⟩, ⟨0, 0, 0, 500000⟩, none⟩ = .ok half ∧
      inserted.compare fifth = .lt ∧ ¬ (inserted.secondsSince fifth false : Rat) ≤ 0 ∧
      inserted.compare half = .lt ∧ (inserted.secondsSince half false : Rat) = 0 := by
  refine ⟨⟨1483228799, 1500000000, .utc, by decide, by decide⟩,
    ⟨1483228800, 200000000, .utc, by decide, by decide⟩,
    ⟨1483228800, 500000000, .utc, by decide, by decide⟩, rfl, rfl, rfl, rfl, ?_, rfl, ?_⟩
  · rw [secondsSince_nonpos_iff]
    decide
  · rw [secondsSince_eq_zero_iff]
    decide

end MarsCalendar.Earth.Moment

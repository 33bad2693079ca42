import MarsCalendar.Proofs.Earth.Order

set_option autoImplicit false

/-! Unix timestamps and moments over the rationals. A timestamp names its nearest microsecond,
halves up: the part of a second is rounded, and a full million is carried into the seconds. The
moment is there if the microsecond lies in the range of dates. A moment of whole microseconds
outside inserted seconds comes back from its timestamp, also by way of Mars. -/

namespace MarsCalendar.Earth

open Civil (UtcOffset leapNanosecond)
open Gregorian (InRange)
open Mars (Instant)

def nearestMicrosecond (timestamp : Rat) : Int :=
  (timestamp * 1000000 + 1 / 2).floor

/-! ### Splitting a timestamp -/

/-- The part of a second in microseconds, rounded; it may be a full million. -/
def roundedPart (timestamp : Rat) : Int :=
  roundRat ((timestamp - timestamp.floor) * 1000000)

theorem nearestMicrosecond_eq (timestamp : Rat) :
    nearestMicrosecond timestamp = timestamp.floor * 1000000 + roundedPart timestamp := by
  obtain ⟨low, -⟩ := floor_bounds timestamp
  have notNegative : ¬ (timestamp - timestamp.floor) * 1000000 < 0 := by linarith
  have parts : timestamp * 1000000 + 1 / 2 =
      (timestamp - timestamp.floor) * 1000000 + 1 / 2 +
        ((timestamp.floor * 1000000 : Int) : Rat) := by
    push_cast
    ring
  unfold nearestMicrosecond roundedPart roundRat
  rw [if_neg notNegative, parts, Rat.floor_add_intCast, Int.add_comm]

theorem roundedPart_bounds (timestamp : Rat) :
    0 ≤ roundedPart timestamp ∧ roundedPart timestamp ≤ 1000000 := by
  obtain ⟨low, high⟩ := floor_bounds timestamp
  obtain ⟨below, above⟩ := roundRat_close ((timestamp - timestamp.floor) * 1000000)
  unfold roundedPart
  have lower : ((-1 : Int) : Rat) < roundRat ((timestamp - timestamp.floor) * 1000000) := by
    push_cast
    linarith
  have upper : (roundRat ((timestamp - timestamp.floor) * 1000000) : Rat) < (1000001 : Int) := by
    push_cast
    linarith
  have lowerWhole := Rat.intCast_lt_intCast.mp lower
  have upperWhole := Rat.intCast_lt_intCast.mp upper
  omega

/-- A full million of microseconds is carried, so that both parts are those of the nearest
microsecond. -/
theorem carried_parts (timestamp : Rat) :
    (if (1000000 : Rat) ≤ roundedPart timestamp then
        ((timestamp.floor : Rat) + 1, (roundedPart timestamp : Rat) - 1000000)
      else ((timestamp.floor : Rat), (roundedPart timestamp : Rat))) =
      (((nearestMicrosecond timestamp / 1000000 : Int) : Rat),
        ((nearestMicrosecond timestamp % 1000000 : Int) : Rat)) := by
  obtain ⟨low, high⟩ := roundedPart_bounds timestamp
  rw [nearestMicrosecond_eq]
  by_cases full : roundedPart timestamp = 1000000
  · have seconds : (timestamp.floor * 1000000 + 1000000) / 1000000 = timestamp.floor + 1 := by
      omega
    have rest : (timestamp.floor * 1000000 + 1000000) % 1000000 = 0 := by omega
    rw [full, if_pos (by norm_num), seconds, rest]
    push_cast
    norm_num
  · have short : ¬ (1000000 : Rat) ≤ roundedPart timestamp := by
      intro reached
      have whole : (1000000 : Int) ≤ roundedPart timestamp := by exact_mod_cast reached
      omega
    have seconds : (timestamp.floor * 1000000 + roundedPart timestamp) / 1000000 =
        timestamp.floor := by
      omega
    have rest : (timestamp.floor * 1000000 + roundedPart timestamp) % 1000000 =
        roundedPart timestamp := by
      omega
    rw [if_neg short, seconds, rest]

namespace Moment

variable {moment : Moment}

/-- Seconds that do not fit a word lie outside the range of dates all the same. -/
theorem ofUnix_of_parts (seconds : Int) {microseconds : Int} (low : 0 ≤ microseconds)
    (high : microseconds < 1000000) :
    (if (9223372036854775808 : Rat) ≤ Scalar.abs (seconds : Rat) then .error .outOfRange
      else ofUnix (Scalar.toWord (seconds : Rat)) (Scalar.toCount (microseconds : Rat) * 1000)) =
      ofSeconds seconds (microseconds.toNat * 1000) .utc := by
  have size : Scalar.abs (seconds : Rat) = (seconds.natAbs : Rat) := by
    change (if (seconds : Rat) < 0 then -(seconds : Rat) else seconds) = _
    rw [Nat.cast_natAbs, Int.cast_abs]
    split
    · rename_i negative
      exact (abs_of_neg negative).symm
    · rename_i notNegative
      exact (abs_of_nonneg (not_lt.mp notNegative)).symm
  split
  · rename_i far
    have word : 9223372036854775808 ≤ seconds.natAbs := by
      rw [size] at far
      exact_mod_cast far
    refine (ofSeconds_outOfRange (fun inRange => ?_) _ _).symm
    have near := inRange.near
    unfold secondsPerDay at near
    omega
  · rename_i near
    have word : seconds.natAbs < 9223372036854775808 := by
      rw [size, not_le] at near
      exact_mod_cast near
    have toWord : Scalar.toWord (seconds : Rat) = seconds := by
      change clampWord (truncateRat (seconds : Rat)) = seconds
      rw [truncateRat_intCast]
      apply clampWord_of_fits
      unfold FitsWord
      omega
    have toCount : Scalar.toCount (microseconds : Rat) = microseconds.toNat := by
      change (clampWord (truncateRat (microseconds : Rat))).toNat = _
      rw [truncateRat_intCast, clampWord_of_fits]
      unfold FitsWord
      omega
    rw [toWord, toCount]
    unfold ofUnix
    exact if_neg (fun inserted => by
      unfold leapNanosecond at inserted
      omega)

theorem ofTimestamp_eq (timestamp : Rat) :
    ofTimestamp timestamp = ofSeconds (nearestMicrosecond timestamp / 1000000)
      ((nearestMicrosecond timestamp % 1000000).toNat * 1000) .utc := by
  have million : (1e6 : Rat) = 1000000 := by norm_num
  have one : (1.0 : Rat) = 1 := by norm_num
  have word : (9223372036854775808.0 : Rat) = 9223372036854775808 := by norm_num
  have finite : Scalar.isFinite timestamp = true := rfl
  have whole : Scalar.floor timestamp = (timestamp.floor : Rat) := rfl
  have rounded : Scalar.round ((timestamp - timestamp.floor) * (1000000 : Rat)) =
      (roundedPart timestamp : Rat) := rfl
  unfold ofTimestamp
  rw [if_pos finite]
  dsimp only
  rw [million, one, word, whole, rounded, carried_parts]
  exact ofUnix_of_parts _ (Int.emod_nonneg _ (by decide)) (Int.emod_lt_of_pos _ (by decide))

theorem ofTimestamp_eq_ok_iff (timestamp : Rat) :
    ofTimestamp timestamp = .ok moment ↔
      moment.seconds = nearestMicrosecond timestamp / 1000000 ∧
        moment.nanosecond = (nearestMicrosecond timestamp % 1000000).toNat * 1000 ∧
        moment.offset = .utc := by
  rw [ofTimestamp_eq, ofSeconds_eq_ok_iff]

theorem ofTimestamp_inRange {timestamp : Rat}
    (inRange : InRange (nearestMicrosecond timestamp / 86400000000)) :
    ∃ moment, ofTimestamp timestamp = .ok moment := by
  have day := day_of_microseconds (nearestMicrosecond timestamp)
  have fits : (nearestMicrosecond timestamp % 1000000).toNat * 1000 < 2 * leapNanosecond := by
    unfold leapNanosecond
    omega
  exact ⟨⟨_, _, .utc, day ▸ inRange, fits⟩, (ofTimestamp_eq_ok_iff timestamp).mpr ⟨rfl, rfl, rfl⟩⟩

/-! ### Coming back -/

theorem nearestMicrosecond_timestamp (moment : Moment) :
    nearestMicrosecond moment.timestamp = moment.unixMicroseconds := by
  have whole : (moment.timestamp : Rat) * 1000000 + 1 / 2 =
      1 / 2 + (moment.unixMicroseconds : Rat) := by
    rw [timestamp_eq]
    ring
  have half : (1 / 2 : Rat).floor = 0 := by decide +kernel
  unfold nearestMicrosecond
  rw [whole, Rat.floor_add_intCast, half, Int.zero_add]

theorem ofTimestamp_timestamp (whole : moment.WholeMicroseconds) (common : ¬ moment.IsLeap) :
    ofTimestamp (moment.timestamp : Rat) = .ok (moment.withOffset .utc) := by
  unfold WholeMicroseconds at whole
  unfold IsLeap leapNanosecond at common
  rw [ofTimestamp_eq_ok_iff, nearestMicrosecond_timestamp]
  change moment.seconds = _ ∧ moment.nanosecond = _ ∧ UtcOffset.utc = .utc
  unfold unixMicroseconds subsecondMicroseconds
  exact ⟨by omega, by omega, rfl⟩

/-- A moment is made of a timestamp exactly where its nearest microsecond lies in the range of
dates; it is that microsecond, in UTC and outside inserted seconds. A moment of whole microseconds
outside inserted seconds is made again of its own timestamp, and of the instant of Mars it is. -/
theorem timestamp_roundTrip :
    (∀ timestamp : Rat,
      ((∃ moment, ofTimestamp timestamp = .ok moment) ↔
        InRange (nearestMicrosecond timestamp / 86400000000)) ∧
      ((¬ ∃ moment, ofTimestamp timestamp = .ok moment) →
        ofTimestamp timestamp = .error .outOfRange) ∧
      ∀ moment, ofTimestamp timestamp = .ok moment →
        moment.unixMicroseconds = nearestMicrosecond timestamp ∧ moment.WholeMicroseconds ∧
          moment.offset = .utc ∧ ¬ moment.IsLeap) ∧
    ∀ moment : Moment, moment.WholeMicroseconds → ¬ moment.IsLeap →
      ofTimestamp (moment.timestamp : Rat) = .ok (moment.withOffset .utc) ∧
        (Instant.ofMoment moment : Instant Rat).toMoment = .ok (moment.withOffset .utc) ∧
        (moment.withOffset .utc).compare moment = .eq := by
  constructor
  · intro timestamp
    refine ⟨⟨?_, ofTimestamp_inRange⟩, ?_, ?_⟩
    · rintro ⟨moment, made⟩
      obtain ⟨seconds, -, -⟩ := (ofTimestamp_eq_ok_iff timestamp).mp made
      have inRange := moment.inRange
      rwa [seconds, day_of_microseconds] at inRange
    · intro refused
      have outside := mt ofTimestamp_inRange refused
      rw [ofTimestamp_eq]
      exact ofSeconds_outOfRange (by rwa [day_of_microseconds]) _ _
    · intro moment made
      obtain ⟨seconds, nanosecond, utc⟩ := (ofTimestamp_eq_ok_iff timestamp).mp made
      unfold unixMicroseconds subsecondMicroseconds WholeMicroseconds IsLeap leapNanosecond
      exact ⟨by omega, by omega, utc, by omega⟩
  · intro moment whole common
    have again := ofTimestamp_timestamp whole common
    refine ⟨again, ?_, (compare_eq_iff _ _).mpr ⟨rfl, rfl⟩⟩
    unfold Instant.toMoment
    rw [timestamp_ofMoment]
    exact again

/-- Half a microsecond before 1970 is rounded up into it. The last whole microsecond before it
comes back, read half past five hours to the east. -/
theorem timestamp_roundTrip_around_1970 :
    let moment : Moment := ⟨-1, 999999000, ⟨19800, by decide⟩, by decide, by decide⟩
    (∃ carried, ofTimestamp (-1 / 2000000 : Rat) = .ok carried ∧ carried.unixMicroseconds = 0) ∧
      moment.WholeMicroseconds ∧ ¬ moment.IsLeap ∧ moment.unixMicroseconds = -1 ∧
      ofTimestamp (moment.timestamp : Rat) = .ok (moment.withOffset .utc) ∧
      (Instant.ofMoment moment : Instant Rat).toMoment = .ok (moment.withOffset .utc) := by
  intro moment
  obtain ⟨ofNearest, back⟩ := timestamp_roundTrip
  obtain ⟨accepted, -, microsecond⟩ := ofNearest (-1 / 2000000)
  have nothing : nearestMicrosecond (-1 / 2000000) = 0 := by decide +kernel
  obtain ⟨carried, made⟩ := accepted.mpr (by rw [nothing]; decide)
  have whole : moment.WholeMicroseconds := by decide
  have common : ¬ moment.IsLeap := by decide
  obtain ⟨again, byMars, -⟩ := back moment whole common
  exact ⟨⟨carried, made, (microsecond carried made).1.trans nothing⟩, whole, common, by decide,
    again, byMars⟩

end Moment

end MarsCalendar.Earth

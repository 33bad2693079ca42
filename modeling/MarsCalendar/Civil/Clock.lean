set_option autoImplicit false

/-! A time of day to the microsecond, and its stored form: whole seconds since midnight
and nanoseconds, where an inserted second is kept as the second before it with a billion
nanoseconds more. The main statement is that the stored form loses nothing. -/

namespace MarsCalendar.Civil

/-- Nanoseconds from here on belong to an inserted second. -/
abbrev leapNanosecond : Nat := 1000000000

@[ext]
structure Clock where
  hour : Nat
  minute : Nat
  second : Nat
  microsecond : Nat
  deriving DecidableEq, Repr

namespace Clock

def midnight : Clock := ⟨0, 0, 0, 0⟩

def InDay (clock : Clock) : Prop :=
  clock.hour ≤ 23 ∧ clock.minute ≤ 59 ∧ clock.second ≤ 60 ∧ clock.microsecond ≤ 999999

instance (clock : Clock) : Decidable clock.InDay :=
  inferInstanceAs (Decidable (_ ∧ _))

/-- Whole seconds since midnight, an inserted second counted as 60 past its minute. -/
def seconds (clock : Clock) : Nat :=
  clock.hour * 3600 + clock.minute * 60 + clock.second

def microseconds (clock : Clock) : Nat :=
  clock.seconds * 1000000 + clock.microsecond

def storedSeconds (clock : Clock) : Nat :=
  clock.hour * 3600 + clock.minute * 60 + min clock.second 59

def storedNanosecond (clock : Clock) : Nat :=
  clock.microsecond * 1000 + if clock.second = 60 then leapNanosecond else 0

/-- The time of day of a stored form. Whatever second an inserted one is stored with, it
reads as 60. -/
def ofStored (seconds nanosecond : Nat) : Clock :=
  ⟨seconds / 3600, seconds / 60 % 60,
    if leapNanosecond ≤ nanosecond then 60 else seconds % 60,
    nanosecond % leapNanosecond / 1000⟩

theorem storedSeconds_lt (clock : Clock) (inDay : clock.InDay) :
    clock.storedSeconds < 86400 := by
  obtain ⟨hour, minute, second, microsecond⟩ := inDay
  unfold storedSeconds
  omega

theorem storedNanosecond_lt (clock : Clock) (inDay : clock.InDay) :
    clock.storedNanosecond < 2 * leapNanosecond := by
  obtain ⟨hour, minute, second, microsecond⟩ := inDay
  unfold storedNanosecond leapNanosecond
  split <;> omega

theorem leap_stored (clock : Clock) (inDay : clock.InDay) :
    leapNanosecond ≤ clock.storedNanosecond ↔ clock.second = 60 := by
  obtain ⟨hour, minute, second, microsecond⟩ := inDay
  unfold storedNanosecond leapNanosecond
  by_cases leap : clock.second = 60
  · rw [if_pos leap]
    omega
  · rw [if_neg leap]
    omega

theorem ofStored_stored (clock : Clock) (inDay : clock.InDay) :
    ofStored clock.storedSeconds clock.storedNanosecond = clock := by
  have stored := leap_stored clock inDay
  obtain ⟨hour, minute, second, microsecond⟩ := inDay
  unfold ofStored
  by_cases leap : clock.second = 60
  · rw [if_pos (stored.mpr leap)]
    unfold storedSeconds storedNanosecond leapNanosecond
    rw [if_pos leap]
    ext <;> simp only <;> omega
  · rw [if_neg (fun above => leap (stored.mp above))]
    unfold storedSeconds storedNanosecond leapNanosecond
    rw [if_neg leap]
    ext <;> simp only <;> omega

end Clock

end MarsCalendar.Civil

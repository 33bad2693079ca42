import MarsCalendar.Mars.Text
import MarsCalendar.Proofs.Mars.DateInstant
import MarsCalendar.Proofs.Text.Numeral

set_option autoImplicit false

/-! The text of the time of sol, over the rationals. It shows the time rounded to thousandths, halves
up, with three places after the point. Three places stand before the point until the time rounds up
to the whole sol, half a thousandth before its end: from there on the text is that of a thousand. -/

namespace MarsCalendar.Mars.Date

open Text (isDigit_of_mem_zeroFilled length_zeroFilled ofDigitChars_zeroFilled padded
  toList_padded zeroFilled)

def Shows (text : String) (places : Nat) (number : Rat) : Prop :=
  ∃ whole fraction : List Char, text.toList = whole ++ '.' :: fraction ∧
    whole.length = places ∧ fraction.length = 3 ∧
    (∀ letter ∈ whole ++ fraction, letter.isDigit = true) ∧
    number = Nat.ofDigitChars 10 whole 0 + (Nat.ofDigitChars 10 fraction 0 : Rat) / 1000

theorem length_of_shows {text : String} {places : Nat} {number : Rat}
    (shows : Shows text places number) : text.toList.length = places + 4 := by
  obtain ⟨whole, fraction, split, wholeLength, fractionLength, -⟩ := shows
  rw [split, List.length_append, List.length_cons, wholeLength, fractionLength]

variable {date : Date Rat}

theorem thousandths_spec (valid : date.Valid) :
    ∃ count : Nat, date.thousandths = count ∧ count ≤ 1000000 ∧
      (count : Rat) / 1000 - 1 / 2000 ≤ date.millisols ∧
      date.millisols < (count : Rat) / 1000 + 1 / 2000 := by
  obtain ⟨-, low, high⟩ := (valid_iff date).mp valid
  have nonneg : 0 ≤ date.millisols * 1000 + 1 / 2 := by linarith
  obtain ⟨count, countIs, below, above⟩ := exists_floor_eq nonneg
  have atMost : count < 1000001 := by
    have cast : (count : Rat) < (1000001 : Nat) := by
      push_cast
      linarith
    exact_mod_cast cast
  refine ⟨count, ?_, by omega, by linarith, by linarith⟩
  change clampWord (truncateRat ((date.millisols * (1000.0 : Rat) + (0.5 : Rat)).floor : Rat)) = _
  have thousand : (1000.0 : Rat) = 1000 := by norm_num
  have half : (0.5 : Rat) = 1 / 2 := by norm_num
  rw [thousand, half, countIs, truncateRat_intCast]
  apply clampWord_of_fits
  unfold FitsWord
  omega

theorem lt_million_iff {count : Nat} {time : Rat} (notAbove : (count : Rat) / 1000 - 1 / 2000 ≤ time)
    (notBelow : time < (count : Rat) / 1000 + 1 / 2000) : count < 1000000 ↔ time < 999.9995 := by
  norm_num
  constructor
  · intro inSol
    have atMost : (count : Rat) ≤ (999999 : Nat) := by
      exact_mod_cast Nat.le_of_lt_succ inSol
    push_cast at atMost
    linarith
  · intro early
    have cast : (count : Rat) < (1000000 : Nat) := by
      push_cast
      linarith
    exact_mod_cast cast

theorem toList_timeText {α : Type} [Scalar α] {date : Date α} {count : Nat}
    (counted : date.thousandths = count) :
    (date.timeText false).toList =
      zeroFilled 3 (count / 1000) ++ '.' :: zeroFilled 3 (count % 1000) := by
  have whole : (padded 3 ((count : Int) / 1000)).toList = zeroFilled 3 (count / 1000) :=
    toList_padded 3 (count / 1000)
  have fraction : (padded 3 ((count : Int) % 1000)).toList = zeroFilled 3 (count % 1000) :=
    toList_padded 3 (count % 1000)
  have noMark : (if false = true then "M:" else "").toList = [] := rfl
  unfold timeText
  rw [counted, String.toList_append, String.toList_append, String.toList_append, whole, fraction,
    noMark, List.nil_append, List.append_assoc]
  rfl

theorem shows_timeText {count : Nat} (counted : date.thousandths = count) (inSol : count < 1000000) :
    Shows (date.timeText false) 3 (count / 1000) := by
  refine ⟨_, _, toList_timeText counted, length_zeroFilled (by decide) (by omega),
    length_zeroFilled (by decide) (by omega), ?_, ?_⟩
  · intro letter member
    rcases List.mem_append.mp member with whole | fraction
    · exact isDigit_of_mem_zeroFilled whole
    · exact isDigit_of_mem_zeroFilled fraction
  · have split := congrArg (Nat.cast : Nat → Rat) (Nat.div_add_mod count 1000)
    rw [ofDigitChars_zeroFilled, ofDigitChars_zeroFilled]
    push_cast at split
    linarith

theorem timeText_of_whole_sol (counted : date.thousandths = 1000000) :
    date.timeText false = "1000.000" := by
  unfold timeText
  rw [counted]
  decide

/-- The time of an accepted date is shown by three places before the point and three after it, no
further off than half a thousandth and halves up, exactly if it lies more than half a thousandth
before the end of the sol. Later times are shown as a whole sol, by four places. -/
theorem timeText_three_places_iff {mir : Int} {month sol : Nat} {millisols : Rat} {zone : Zone}
    (made : make mir month sol millisols zone = .ok date) :
    (date.millisols < 999.9995 ↔
      ∃ shown, Shows (date.timeText false) 3 shown ∧
        shown - 1 / 2000 ≤ date.millisols ∧ date.millisols < shown + 1 / 2000) ∧
    (999.9995 ≤ date.millisols → date.timeText false = "1000.000") := by
  obtain ⟨-, valid, rfl⟩ := (check_eq_ok_iff _ date).mp made
  obtain ⟨count, counted, atMost, notAbove, notBelow⟩ := thousandths_spec valid
  have inSol_iff := lt_million_iff notAbove notBelow
  have wholeSol (late : ¬ millisols < 999.9995) :
      timeText ⟨mir, month, sol, millisols, zone⟩ false = "1000.000" := by
    have reached := mt inSol_iff.mp late
    obtain rfl : count = 1000000 := by omega
    exact timeText_of_whole_sol counted
  refine ⟨⟨fun early => ?_, fun shown => ?_⟩, fun late => wholeSol (not_lt.mpr late)⟩
  · exact ⟨_, shows_timeText counted (inSol_iff.mpr early), notAbove, notBelow⟩
  · obtain ⟨number, shows, -, -⟩ := shown
    by_contra late
    have length := length_of_shows shows
    rw [wholeSol late] at length
    exact absurd length (by decide)

/-- Half a thousandth after seven, which is shown a thousandth after seven, and a quarter of a
thousandth before the last half of one in the sol. -/
theorem timeText_three_places_at_halves :
    make 217 4 1 (7.0005 : Rat) Zone.mtc = .ok ⟨217, 4, 1, 7.0005, Zone.mtc⟩ ∧
      (∃ shown, Shows (timeText (⟨217, 4, 1, 7.0005, Zone.mtc⟩ : Date Rat) false) 3 shown ∧
        shown - 1 / 2000 ≤ 7.0005 ∧ 7.0005 < shown + 1 / 2000) ∧
      timeText (⟨217, 4, 1, 7.0005, Zone.mtc⟩ : Date Rat) false = "007.001" ∧
      timeText (⟨217, 4, 1, 999.99925, Zone.mtc⟩ : Date Rat) false = "999.999" := by
  have made : make 217 4 1 (7.0005 : Rat) Zone.mtc = .ok ⟨217, 4, 1, 7.0005, Zone.mtc⟩ := by
    decide +kernel
  have shown := (timeText_three_places_iff made).1.mp (by norm_num)
  exact ⟨made, shown, by decide +kernel, by decide +kernel⟩

/-- A date half a thousandth before the end of its sol is accepted, and its time is shown by four
places. -/
theorem timeText_four_places :
    make 0 1 1 (999.9995 : Rat) Zone.mtc = .ok ⟨0, 1, 1, 999.9995, Zone.mtc⟩ ∧
      timeText (⟨0, 1, 1, 999.9995, Zone.mtc⟩ : Date Rat) false = "1000.000" ∧
      ¬ ∃ shown, Shows (timeText (⟨0, 1, 1, 999.9995, Zone.mtc⟩ : Date Rat) false) 3 shown := by
  have text : timeText (⟨0, 1, 1, 999.9995, Zone.mtc⟩ : Date Rat) false = "1000.000" := by
    decide +kernel
  refine ⟨by decide +kernel, text, ?_⟩
  rintro ⟨number, shows⟩
  have length := length_of_shows shows
  rw [text] at length
  exact absurd length (by decide)

end MarsCalendar.Mars.Date

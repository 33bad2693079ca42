import MarsCalendar.Civil.LeapSecond
import Mathlib.Data.List.Nodup

set_option autoImplicit false

/-! The count of leap seconds as a step function of the month. The table is in order, so
what stands at its beginning before a month is all of it that comes before; a month later
the count is larger by one where the month is in the table, and the same elsewhere. -/

namespace MarsCalendar.Civil

/-! ### Counting the beginning of a list in order -/

section Beginning

variable {α : Type} {keep : α → Bool}

theorem length_takeWhile_of_ordered (items : List α)
    (ordered : items.Pairwise fun earlier later => keep later = true → keep earlier = true) :
    (items.takeWhile keep).length = items.countP keep := by
  induction items with
  | nil => rfl
  | cons head tail ih =>
      obtain ⟨headFirst, tailOrdered⟩ := List.pairwise_cons.mp ordered
      by_cases kept : keep head = true
      · rw [List.takeWhile_cons_of_pos kept, List.countP_cons_of_pos kept, List.length_cons,
          ih tailOrdered]
      · rw [List.takeWhile_cons_of_neg kept, List.countP_cons_of_neg kept, List.length_nil]
        symm
        rw [List.countP_eq_zero]
        intro item member itemKept
        exact kept (headFirst item member itemKept)

theorem lt_length_takeWhile_iff (items : List α)
    (ordered : items.Pairwise fun earlier later => keep later = true → keep earlier = true)
    {place : Nat} {item : α} (stands : items[place]? = some item) :
    place < (items.takeWhile keep).length ↔ keep item = true := by
  induction items generalizing place with
  | nil => cases stands
  | cons head tail ih =>
      obtain ⟨headFirst, tailOrdered⟩ := List.pairwise_cons.mp ordered
      cases place with
      | zero =>
          rw [List.getElem?_cons_zero, Option.some_inj] at stands
          subst stands
          by_cases kept : keep head = true
          · rw [List.takeWhile_cons_of_pos kept, List.length_cons]
            exact iff_of_true (Nat.zero_lt_succ _) kept
          · rw [List.takeWhile_cons_of_neg kept]
            exact iff_of_false (Nat.lt_irrefl 0) kept
      | succ place =>
          rw [List.getElem?_cons_succ] at stands
          by_cases kept : keep head = true
          · rw [List.takeWhile_cons_of_pos kept, List.length_cons, Nat.succ_lt_succ_iff]
            exact ih tailOrdered stands
          · rw [List.takeWhile_cons_of_neg kept]
            have later := headFirst item (List.mem_of_getElem? stands)
            exact iff_of_false (Nat.not_lt_zero _) fun itemKept => kept (later itemKept)

theorem countP_of_disjoint {left right both : α → Bool} (items : List α)
    (split : ∀ item ∈ items, both item = true ↔ left item = true ∨ right item = true)
    (disjoint : ∀ item ∈ items, left item = true → ¬ right item = true) :
    items.countP both = items.countP left + items.countP right := by
  induction items with
  | nil => rfl
  | cons head tail ih =>
      have tailCount := ih (fun item member => split item (List.mem_cons_of_mem _ member))
        (fun item member => disjoint item (List.mem_cons_of_mem _ member))
      have headSplit := split head List.mem_cons_self
      have headDisjoint := disjoint head List.mem_cons_self
      simp only [List.countP_cons, tailCount]
      by_cases inLeft : left head = true
      · rw [if_pos (headSplit.mpr (Or.inl inLeft)), if_pos inLeft, if_neg (headDisjoint inLeft)]
        omega
      · by_cases inRight : right head = true
        · rw [if_pos (headSplit.mpr (Or.inr inRight)), if_neg inLeft, if_pos inRight]
          omega
        · rw [if_neg fun inBoth => (headSplit.mp inBoth).elim inLeft inRight, if_neg inLeft,
            if_neg inRight]
          omega

end Beginning

/-! ### The table month by month -/

namespace YearMonth

def Named (here : YearMonth) : Prop :=
  1 ≤ here.month ∧ here.month ≤ 12

instance (here : YearMonth) : Decidable here.Named :=
  inferInstanceAs (Decidable (_ ∧ _))

def next (here : YearMonth) : YearMonth :=
  if here.month = 12 then ⟨here.year + 1, 1⟩ else ⟨here.year, here.month + 1⟩

theorem Before.trans {first second third : YearMonth} (left : first.Before second)
    (right : second.Before third) : first.Before third := by
  unfold Before at *
  omega

theorem not_before_self (here : YearMonth) : ¬ here.Before here := by
  unfold Before
  omega

theorem before_next_iff {entry here : YearMonth} (entryNamed : entry.Named)
    (named : here.Named) : entry.Before here.next ↔ entry.Before here ∨ entry = here := by
  cases entry with
  | mk entryYear entryMonth =>
      cases here with
      | mk year month =>
          unfold Named at entryNamed named
          unfold next Before
          rw [YearMonth.mk.injEq]
          dsimp only at *
          split <;> dsimp only <;> omega

theorem leapMonths_named : ∀ entry ∈ leapMonths, entry.Named := by
  decide

/-- An entry of the table is before every month that a later entry is before. -/
theorem leapMonths_counted (here : YearMonth) :
    leapMonths.Pairwise fun earlier later =>
      decide (later.Before here) = true → decide (earlier.Before here) = true := by
  refine leapMonths_ordered.imp ?_
  intro earlier later inOrder counted
  rw [decide_eq_true_eq] at counted ⊢
  exact inOrder.trans counted

theorem leapSeconds_eq_countP (here : YearMonth) :
    here.leapSeconds = leapMonths.countP fun entry => entry.Before here :=
  length_takeWhile_of_ordered leapMonths (leapMonths_counted here)

theorem countP_eq_isLeap (here : YearMonth) :
    (leapMonths.countP fun entry => entry = here) = if here.IsLeap then 1 else 0 := by
  have once : leapMonths.Nodup := by decide
  have count : (leapMonths.countP fun entry => entry = here) = leapMonths.count here := by
    unfold List.count
    congr 1
  rw [count]
  split
  · rename_i leap
    exact List.count_eq_one_of_mem once leap
  · rename_i common
    exact List.count_eq_zero.mpr common

theorem leapSeconds_of_early {here : YearMonth} (early : here.year < 1972) :
    here.leapSeconds = 0 := by
  have later : ∀ entry ∈ leapMonths, 1972 ≤ entry.year := by decide
  rw [leapSeconds_eq_countP, List.countP_eq_zero]
  intro entry member counted
  have entryYear := later entry member
  rw [decide_eq_true_eq] at counted
  simp only [Before] at counted
  omega

theorem leapSeconds_of_late {here : YearMonth} (late : 2017 ≤ here.year) :
    here.leapSeconds = leapMonths.length := by
  have earlier : ∀ entry ∈ leapMonths, entry.year ≤ 2016 := by decide
  rw [leapSeconds_eq_countP, List.countP_eq_length]
  intro entry member
  have entryYear := earlier entry member
  rw [decide_eq_true_eq]
  left
  omega

theorem leapSeconds_next {here : YearMonth} (named : here.Named) :
    here.next.leapSeconds = here.leapSeconds + if here.IsLeap then 1 else 0 := by
  -- No entry is both before the month and the month itself.
  rw [leapSeconds_eq_countP, leapSeconds_eq_countP, ← countP_eq_isLeap]
  apply countP_of_disjoint
  · intro entry member
    simp only [decide_eq_true_eq]
    exact before_next_iff (leapMonths_named entry member) named
  · intro entry member before
    simp only [decide_eq_true_eq] at before ⊢
    rintro rfl
    exact not_before_self _ before

theorem lt_leapSeconds_iff (here : YearMonth) {place : Nat} {entry : YearMonth}
    (stands : leapMonths[place]? = some entry) :
    place < here.leapSeconds ↔ entry.Before here := by
  rw [← decide_eq_true_iff (p := entry.Before here)]
  exact lt_length_takeWhile_iff leapMonths (leapMonths_counted here) stands

theorem isLeap_iff_getElem? (here : YearMonth) :
    here.IsLeap ↔ leapMonths[here.leapSeconds]? = some here := by
  constructor
  · intro leap
    obtain ⟨place, stands⟩ := List.getElem?_of_mem leap
    have notBelow : ¬ place < here.leapSeconds :=
      mt (lt_leapSeconds_iff here stands).mp (not_before_self here)
    rcases Nat.lt_or_eq_of_le (Nat.not_lt.mp notBelow) with below | same
    · -- An entry between the count and the month's own place would be before the month.
      obtain ⟨inTable, -⟩ := List.getElem?_eq_some_iff.mp stands
      have counted := Nat.lt_trans below inTable
      have entryStands : leapMonths[here.leapSeconds]? = some leapMonths[here.leapSeconds] :=
        List.getElem?_eq_getElem counted
      have before := List.pairwise_iff_getElem.mp leapMonths_ordered _ _ counted inTable below
      rw [(List.getElem?_eq_some_iff.mp stands).2] at before
      exact absurd ((lt_leapSeconds_iff here entryStands).mpr before) (Nat.lt_irrefl _)
    · rw [same]
      exact stands
  · exact List.mem_of_getElem?

theorem leapSeconds_le_of_before {earlier later : YearMonth} (before : earlier.Before later) :
    earlier.leapSeconds ≤ later.leapSeconds := by
  rw [leapSeconds_eq_countP, leapSeconds_eq_countP]
  apply List.countP_mono_left
  intro entry _ counted
  rw [decide_eq_true_eq] at counted ⊢
  exact counted.trans before

/-- The count of leap seconds is a step function of the month. It moves by one from a leap month to
the month after, and nowhere else; it never falls; and it is the number of entries before the
month, which stand at the beginning of the table, so that a leap month is the entry right after them. -/
theorem leapSeconds_steps :
    (∀ here : YearMonth, here.Named →
      here.next.leapSeconds = here.leapSeconds + if here.IsLeap then 1 else 0) ∧
    (∀ earlier later : YearMonth, earlier.Before later →
      earlier.leapSeconds ≤ later.leapSeconds) ∧
    ∀ here : YearMonth,
      here.leapSeconds = (leapMonths.filter fun entry => entry.Before here).length ∧
      (∀ place entry, leapMonths[place]? = some entry →
        (place < here.leapSeconds ↔ entry.Before here)) ∧
      (here.IsLeap ↔ leapMonths[here.leapSeconds]? = some here) := by
  refine ⟨fun here named => leapSeconds_next named,
    fun earlier later before => leapSeconds_le_of_before before, fun here => ⟨?_, ?_, ?_⟩⟩
  · rw [leapSeconds_eq_countP, List.countP_eq_length_filter]
  · exact fun place entry stands => lt_leapSeconds_iff here stands
  · exact isLeap_iff_getElem? here

/-- The last month of 2016 has the last entry of the table, which counts from the month after. -/
theorem leapSeconds_steps_after_2016 :
    Named ⟨2016, 12⟩ ∧ Before ⟨2016, 12⟩ ⟨2017, 1⟩ ∧
      leapSeconds ⟨2017, 1⟩ = leapSeconds ⟨2016, 12⟩ + 1 ∧
      leapSeconds ⟨2016, 12⟩ ≤ leapSeconds ⟨2017, 1⟩ ∧
      leapMonths[leapSeconds ⟨2016, 12⟩]? = some ⟨2016, 12⟩ := by
  have leap : IsLeap ⟨2016, 12⟩ := by decide
  obtain ⟨moves, grows, counts⟩ := leapSeconds_steps
  have moved := moves ⟨2016, 12⟩ (by decide)
  rw [if_pos leap] at moved
  exact ⟨by decide, by decide, moved, grows _ _ (by decide), (counts _).2.2.mp leap⟩

end YearMonth

end MarsCalendar.Civil

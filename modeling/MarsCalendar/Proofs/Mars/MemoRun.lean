import MarsCalendar.Mars.Memo

set_option autoImplicit false

/-! Runs of the memo. Each action keeps every entry the date of its sol and the number of
entries within the capacity, so that every run from the empty memo does, and its answers
are those of looking nothing up. Switching and clearing leave no trace in them. -/

namespace MarsCalendar.Mars

namespace Memo

def lookups : List Action → List Int
  | [] => []
  | .lookup sols :: later => sols :: lookups later
  | _ :: later => lookups later

/-! ### One action -/

theorem lookup_off {memo : Memo} (off : memo.enabled = false) (compute : Int → SolDate)
    (sols : Int) : memo.lookup compute sols = (compute sols, memo) := by
  unfold lookup
  rw [off]
  rfl

theorem lookup_memo (memo : Memo) (compute : Int → SolDate) (sols : Int) :
    (memo.lookup compute sols).2 = memo ∨
      (memo.lookup compute sols).2 = memo.insert sols (compute sols) := by
  unfold lookup
  split
  · split
    · exact Or.inl rfl
    · exact Or.inr rfl
  · exact Or.inl rfl

theorem clear_sound (memo : Memo) : memo.clear.Sound := by
  intro sols date found
  simp [clear] at found

theorem clear_bounded (memo : Memo) : memo.clear.Bounded := by
  simp [Bounded, size, clear]

theorem act_sound {memo : Memo} (sound : memo.Sound) (action : Action) :
    (memo.act action).2.Sound := by
  cases action with
  | setEnabled enabled => exact sound
  | clear => exact clear_sound memo
  | lookup sols =>
      change (memo.lookup SolDate.ofCount sols).2.Sound
      rcases lookup_memo memo SolDate.ofCount sols with kept | grown
      · rw [kept]
        exact sound
      · rw [grown]
        exact insert_sound memo sound sols

theorem act_bounded {memo : Memo} (bounded : memo.Bounded) (action : Action) :
    (memo.act action).2.Bounded := by
  cases action with
  | setEnabled enabled => exact bounded
  | clear => exact clear_bounded memo
  | lookup sols =>
      change (memo.lookup SolDate.ofCount sols).2.Bounded
      rcases lookup_memo memo SolDate.ofCount sols with kept | grown
      · rw [kept]
        exact bounded
      · rw [grown]
        exact insert_bounded memo sols (SolDate.ofCount sols)

theorem act_answer {memo : Memo} (sound : memo.Sound) (action : Action) :
    (memo.act action).1.toList = (lookups [action]).map SolDate.ofCount := by
  cases action with
  | setEnabled enabled => rfl
  | clear => rfl
  | lookup sols =>
      change [(memo.lookup SolDate.ofCount sols).1] = [SolDate.ofCount sols]
      rw [lookup_answer memo sound sols]

/-! ### A run of actions -/

theorem lookups_cons (action : Action) (later : List Action) :
    lookups (action :: later) = lookups [action] ++ lookups later := by
  cases action <;> rfl

theorem run_sound {memo : Memo} (sound : memo.Sound) (actions : List Action) :
    (memo.run actions).2.Sound := by
  induction actions generalizing memo with
  | nil => exact sound
  | cons action later ih => exact ih (act_sound sound action)

theorem run_bounded {memo : Memo} (bounded : memo.Bounded) (actions : List Action) :
    (memo.run actions).2.Bounded := by
  induction actions generalizing memo with
  | nil => exact bounded
  | cons action later ih => exact ih (act_bounded bounded action)

theorem run_answers {memo : Memo} (sound : memo.Sound) (actions : List Action) :
    (memo.run actions).1 = (lookups actions).map SolDate.ofCount := by
  induction actions generalizing memo with
  | nil => rfl
  | cons action later ih =>
      change (memo.act action).1.toList ++ ((memo.act action).2.run later).1 = _
      rw [act_answer sound action, ih (act_sound sound action), ← List.map_append,
        ← lookups_cons]

/-- From the empty memo a run answers every look-up with the date of its sol, leaves none
but such entries and no more of them than the capacity, and once switched off is left
alone by look-ups. Runs of the same look-ups answer alike, wherever they switch or clear. -/
theorem run_transparent (actions : List Action) :
    (empty.run actions).1 = (lookups actions).map SolDate.ofCount ∧
      (∀ sols date, (empty.run actions).2.entries[sols]? = some date →
        date = SolDate.ofCount sols) ∧
      (empty.run actions).2.size ≤ 4096 ∧
      ((empty.run actions).2.enabled = false →
        ∀ sols, ((empty.run actions).2.act (.lookup sols)).2 = (empty.run actions).2) ∧
      (∀ other, lookups other = lookups actions →
        (empty.run other).1 = (empty.run actions).1) := by
  refine ⟨run_answers empty_sound actions, run_sound empty_sound actions,
    run_bounded empty_bounded actions, fun off sols => ?_, fun other same => ?_⟩
  · change ((empty.run actions).2.lookup SolDate.ofCount sols).2 = _
    rw [lookup_off off]
  · rw [run_answers empty_sound other, run_answers empty_sound actions, same]

/-- The sol before the epoch looked up twice, with the memo cleared and switched off in
between, and the same two look-ups alone. -/
theorem run_transparent_around_clear :
    (empty.run [.lookup (-1), .clear, .setEnabled false, .lookup (-1)]).1 =
        [⟨-1, 24, 28⟩, ⟨-1, 24, 28⟩] ∧
      (empty.run [.lookup (-1), .lookup (-1)]).1 = [⟨-1, 24, 28⟩, ⟨-1, 24, 28⟩] ∧
      ((empty.run [.lookup (-1), .setEnabled false]).2.act (.lookup 668)).2 =
        (empty.run [.lookup (-1), .setEnabled false]).2 := by
  have alone : (empty.run [.lookup (-1), .lookup (-1)]).1 = [⟨-1, 24, 28⟩, ⟨-1, 24, 28⟩] := by
    rw [(run_transparent _).1]
    decide +kernel
  have cleared := (run_transparent [.lookup (-1), .lookup (-1)]).2.2.2.2
    [.lookup (-1), .clear, .setEnabled false, .lookup (-1)] rfl
  have off := (run_transparent [.lookup (-1), .setEnabled false]).2.2.2.1 rfl 668
  exact ⟨cleared.trans alone, alone, off⟩

end Memo

theorem Instant.toDateWith_run {α : Type} [Scalar α] (instant : Instant α) (zone : Zone)
    (actions : List Memo.Action) :
    (instant.toDateWith zone (Memo.empty.run actions).2).1 = instant.toDate zone := by
  change instant.dateOn zone
    ((Memo.empty.run actions).2.lookup SolDate.ofCount (instant.wholeSol zone)).1 = _
  rw [Memo.lookup_answer _ (Memo.run_sound Memo.empty_sound actions)]
  rfl

end MarsCalendar.Mars

import MarsCalendar.Mars.Instant
import Std.Data.HashMap

set_option autoImplicit false

/-! A memo of whole sols whose dates are known. It holds a bounded number of entries,
and it can be switched off, which changes no answer. -/

namespace MarsCalendar.Mars

structure Memo where
  enabled : Bool
  entries : Std.HashMap Int SolDate

namespace Memo

def capacity : Nat := 4096

def empty : Memo := ⟨true, ∅⟩

def size (memo : Memo) : Nat := memo.entries.size

def setEnabled (memo : Memo) (enabled : Bool) : Memo :=
  { memo with enabled := enabled }

def clear (memo : Memo) : Memo :=
  { memo with entries := ∅ }

def insert (memo : Memo) (sols : Int) (date : SolDate) : Memo :=
  let kept := if capacity ≤ memo.entries.size then ∅ else memo.entries
  { memo with entries := kept.insert sols date }

/-- The date of a whole sol, from the entries or by `compute`, and the memo afterwards.
A memo that is switched off is neither read nor written. -/
def lookup (memo : Memo) (compute : Int → SolDate) (sols : Int) : SolDate × Memo :=
  if memo.enabled then
    match memo.entries[sols]? with
    | some date => (date, memo)
    | none =>
        let date := compute sols
        (date, memo.insert sols date)
  else (compute sols, memo)

def Sound (memo : Memo) : Prop :=
  ∀ sols date, memo.entries[sols]? = some date → date = SolDate.ofCount sols

def Bounded (memo : Memo) : Prop :=
  memo.size ≤ capacity

theorem empty_sound : empty.Sound := by
  intro sols date found
  simp [empty] at found

theorem empty_bounded : empty.Bounded := by
  simp [Bounded, size, empty]

theorem insert_sound (memo : Memo) (sound : memo.Sound) (sols : Int) :
    (memo.insert sols (SolDate.ofCount sols)).Sound := by
  intro other date found
  unfold insert at found
  simp only [Std.HashMap.getElem?_insert] at found
  by_cases same : sols = other
  · rw [if_pos (beq_iff_eq.mpr same)] at found
    rw [← same]
    exact (Option.some.inj found).symm
  · rw [if_neg (fun equal => same (eq_of_beq equal))] at found
    by_cases full : capacity ≤ memo.entries.size
    · rw [if_pos full] at found
      simp at found
    · rw [if_neg full] at found
      exact sound other date found

theorem insert_bounded (memo : Memo) (sols : Int) (date : SolDate) :
    (memo.insert sols date).Bounded := by
  unfold Bounded size insert
  by_cases full : capacity ≤ memo.entries.size
  · simp only [if_pos full]
    have grown := Std.HashMap.size_insert_le (m := (∅ : Std.HashMap Int SolDate))
      (k := sols) (v := date)
    rw [Std.HashMap.size_empty] at grown
    exact Nat.le_trans grown (by decide)
  · simp only [if_neg full]
    have grown := Std.HashMap.size_insert_le (m := memo.entries) (k := sols) (v := date)
    omega

theorem lookup_answer (memo : Memo) (sound : memo.Sound) (sols : Int) :
    (memo.lookup SolDate.ofCount sols).1 = SolDate.ofCount sols := by
  unfold lookup
  split
  · split
    · rename_i date found
      exact sound sols date found
    · rfl
  · rfl

inductive Action where
  | setEnabled (enabled : Bool)
  | clear
  | lookup (sols : Int)
  deriving DecidableEq, Repr

def act (memo : Memo) : Action → Option SolDate × Memo
  | .setEnabled enabled => (none, memo.setEnabled enabled)
  | .clear => (none, memo.clear)
  | .lookup sols =>
      let (date, after) := memo.lookup SolDate.ofCount sols
      (some date, after)

def run (memo : Memo) : List Action → List SolDate × Memo
  | [] => ([], memo)
  | action :: later =>
      let (answer, next) := memo.act action
      let (answers, last) := next.run later
      (answer.toList ++ answers, last)

end Memo

def Instant.toDateWith {α : Type} [Scalar α] (instant : Instant α) (zone : Zone)
    (memo : Memo) : Date α × Memo :=
  let (found, after) := memo.lookup SolDate.ofCount (instant.wholeSol zone)
  (instant.dateOn zone found, after)

end MarsCalendar.Mars

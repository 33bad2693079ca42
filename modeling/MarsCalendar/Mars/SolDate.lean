import MarsCalendar.Mars.Month
import MarsCalendar.Scalar.Basic

set_option autoImplicit false

/-! The date of a whole sol: its mir, month and sol of the month. A count of sols is
split into thousands of mirs; the mir is then guessed by the mean length of a mir and
put right by one step. -/

namespace MarsCalendar.Mars

def solsPerCalendarMir {α : Type} [Scalar α] : α := 668.591

/-- A sol of the calendar by its fields, which need not name a real one. -/
structure SolDate where
  mir : Int
  month : Nat
  sol : Nat
  deriving DecidableEq, Repr

namespace SolDate

def Valid (date : SolDate) : Prop :=
  (1 ≤ date.month ∧ date.month ≤ monthsPerMir) ∧
    1 ≤ date.sol ∧ date.sol ≤ Month.length date.mir date.month

instance (date : SolDate) : Decidable date.Valid :=
  inferInstanceAs (Decidable (_ ∧ _))

def Before (left right : SolDate) : Prop :=
  left.mir < right.mir ∨ (left.mir = right.mir ∧
    (left.month < right.month ∨ (left.month = right.month ∧ left.sol < right.sol)))

instance (left right : SolDate) : Decidable (left.Before right) :=
  inferInstanceAs (Decidable (_ ∨ _))

def next (date : SolDate) : SolDate :=
  if date.sol < Month.length date.mir date.month then { date with sol := date.sol + 1 }
  else if date.month < monthsPerMir then ⟨date.mir, date.month + 1, 1⟩
  else ⟨date.mir + 1, 1, 1⟩

def solOfMir (date : SolDate) : Nat :=
  Month.start date.month + date.sol

def count (date : SolDate) : Int :=
  Mir.start date.mir + date.solOfMir - 1

/-- The mir of a sol, guessed in binary64 by the mean length of a mir. The quotient is
not negative, so that its floor is what remains without the fraction. -/
def guess (sol : Nat) : Nat :=
  (sol.toUInt64.toFloat / solsPerCalendarMir).toUInt64.toNat

def settle (mir sol : Int) : Int × Int :=
  let elapsed := sol - Mir.start mir
  if elapsed < 0 then (mir - 1, elapsed + Mir.length (mir - 1))
  else if Mir.length mir ≤ elapsed then (mir + 1, elapsed - Mir.length mir)
  else (mir, elapsed)

def mirOfSol (sol : Int) : Int × Int :=
  settle (guess sol.toNat) sol

/-- The month and sol that lie a number of sols after the first of a mir. The sol that a
long mir has more stands at the end of the fourth quarter. -/
def monthAndSol (elapsed : Nat) : Nat × Nat :=
  let quarter := min (elapsed / solsPerShortQuarter) 3
  let inQuarter := elapsed - quarter * solsPerShortQuarter
  let month := inQuarter / solsPerLongMonth
  (1 + quarter * monthsPerQuarter + month, inQuarter - month * solsPerLongMonth + 1)

def ofCount (sols : Int) : SolDate :=
  let (mir, elapsed) := mirOfSol (sols % solsPerKilomir)
  let (month, sol) := monthAndSol elapsed.toNat
  ⟨sols / solsPerKilomir * 1000 + mir, month, sol⟩

theorem next_of_month_end (date : SolDate) (inMir : date.month < monthsPerMir)
    (last : date.sol = Month.length date.mir date.month) :
    date.next = ⟨date.mir, date.month + 1, 1⟩ := by
  unfold next
  rw [if_neg (by omega), if_pos inMir]

/-- The month and sol found within a mir lead back to the same place. -/
theorem start_monthAndSol (elapsed : Nat) (inMir : elapsed < 669) :
    Month.start (monthAndSol elapsed).1 + (monthAndSol elapsed).2 = elapsed + 1 := by
  simp only [monthAndSol, Month.start, solsPerShortQuarter, solsPerLongMonth,
    monthsPerQuarter]
  omega

end SolDate

end MarsCalendar.Mars

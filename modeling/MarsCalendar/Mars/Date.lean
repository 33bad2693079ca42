import MarsCalendar.Mars.Name
import MarsCalendar.Mars.SolDate
import MarsCalendar.Mars.Zone

set_option autoImplicit false

/-! A Mars date: a sol of the calendar, the time of sol in thousandths of a sol, and the
zone both are read in. The checked constructor `make` and every setter give valid
dates. -/

namespace MarsCalendar.Mars

structure Date (α : Type) where
  mir : Int
  month : Nat
  sol : Nat
  millisols : α
  zone : Zone
  deriving DecidableEq, Repr

namespace Date

variable {α : Type}

def maxMir : Int := 1000000000000

def solDate (date : Date α) : SolDate :=
  ⟨date.mir, date.month, date.sol⟩

def withZone (date : Date α) (zone : Zone) : Date α :=
  { date with zone := zone }

def solOfMir (date : Date α) : Nat :=
  date.solDate.solOfMir

/-- The sol of the week, from 1. Every month begins a new week. -/
def solOfWeek (date : Date α) : Nat :=
  (date.sol - 1) % solsPerLongWeek + 1

def monthName? (date : Date α) : Option MonthName :=
  Mars.monthName? date.month

def solName? (date : Date α) : Option String :=
  Mars.solName? date.solOfWeek

def solAbbreviation? (date : Date α) : Option String :=
  date.solName?.map fun name => String.ofList (name.toList.take 3)

def IsLongMir (date : Date α) : Prop :=
  Mir.IsLong date.mir

instance (date : Date α) : Decidable date.IsLongMir :=
  inferInstanceAs (Decidable (Mir.IsLong _))

variable [Scalar α]

def TimeInSol (date : Date α) : Prop :=
  (0.0 : α) ≤ date.millisols ∧ date.millisols < (1000.0 : α)

instance (date : Date α) : Decidable date.TimeInSol :=
  inferInstanceAs (Decidable (_ ∧ _))

def Valid (date : Date α) : Prop :=
  date.solDate.Valid ∧ date.TimeInSol

instance (date : Date α) : Decidable date.Valid :=
  inferInstanceAs (Decidable (_ ∧ _))

def check (date : Date α) : Except Error (Date α) :=
  let invalid := Error.invalidMarsDate date.mir date.month date.sol
  if maxMir < date.mir.natAbs then .error .outOfRange
  else if ¬ (1 ≤ date.month ∧ date.month ≤ 24) then .error (invalid .month)
  else if ¬ date.solDate.Valid then .error (invalid .sol)
  else if ¬ date.TimeInSol then .error (invalid .millisols)
  else .ok date

theorem check_eq_ok_iff (date checked : Date α) :
    date.check = .ok checked ↔
      date.mir.natAbs ≤ maxMir ∧ date.Valid ∧ checked = date := by
  unfold check Valid
  constructor
  · intro accepted
    repeat' split at accepted
    all_goals simp_all
  · intro valid
    obtain ⟨mir, ⟨sol, time⟩, same⟩ := valid
    rw [same, if_neg (Int.not_lt.mpr mir), if_neg (fun outside => outside sol.1),
      if_neg (fun outside => outside sol), if_neg (fun outside => outside time)]

def make (mir : Int) (month sol : Nat) (millisols : α) (zone : Zone) :
    Except Error (Date α) :=
  check ⟨mir, month, sol, millisols, zone⟩

def withMir (date : Date α) (mir : Int) : Except Error (Date α) :=
  check { date with mir := mir }

def withMonth (date : Date α) (month : Nat) : Except Error (Date α) :=
  check { date with month := month }

def withSol (date : Date α) (sol : Nat) : Except Error (Date α) :=
  check { date with sol := sol }

def withMillisols (date : Date α) (millisols : α) : Except Error (Date α) :=
  check { date with millisols := millisols }

end Date

end MarsCalendar.Mars

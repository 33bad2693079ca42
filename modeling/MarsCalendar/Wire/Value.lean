import MarsCalendar.Error
import MarsCalendar.Scalar.Basic

set_option autoImplicit false

/-! The values that are exchanged with other programs, and how the parts of one are
taken out. Integers and reals are kept apart: an integer is accepted where a real is
wanted, never the other way round. -/

namespace MarsCalendar.Wire

inductive Value (α : Type) where
  | null
  | bool (value : Bool)
  | integer (value : Int)
  | real (value : α)
  | text (value : String)
  | list (items : List (Value α))
  | record (fields : List (String × Value α))

/-- Why a value cannot be read: its shape is wrong, or the calendar refuses it. -/
inductive Failure where
  | malformed
  | refused (error : Error)
  deriving DecidableEq, Repr

abbrev Result (β : Type) := Except Failure β

def refusing {β : Type} : Except Error β → Result β
  | .ok value => .ok value
  | .error error => .error (.refused error)

def require {β : Type} : Option β → Result β
  | some value => .ok value
  | none => .error .malformed

namespace Value

variable {α : Type}

def toBool : Value α → Result Bool
  | .bool value => .ok value
  | _ => .error .malformed

def toInteger (low high : Int) : Value α → Result Int
  | .integer value => if low ≤ value ∧ value ≤ high then .ok value else .error .malformed
  | _ => .error .malformed

def toWord (value : Value α) : Result Int :=
  toInteger (-9223372036854775808) 9223372036854775807 value

def toHalfWord (value : Value α) : Result Int :=
  toInteger (-2147483648) 2147483647 value

def toCount (value : Value α) : Result Nat :=
  (toInteger 0 4294967295 value).map Int.toNat

def toOptionalHalfWord : Value α → Result (Option Int)
  | .null => .ok none
  | value => (toHalfWord value).map some

def toReal [Scalar α] : Value α → Result α
  | .real value => .ok value
  | .integer value => .ok (Scalar.ofInt value)
  | _ => .error .malformed

end Value

/-- The named parts of a value. A list gives its items to the names in order; with more
items than names it is overfull. -/
structure Parts (α : Type) where
  fields : List (String × Value α)
  overfull : Bool

namespace Parts

variable {α : Type}

def ofValue (names : List String) : Value α → Result (Parts α)
  | .record fields => .ok ⟨fields, false⟩
  | .list items => .ok ⟨names.zip items, decide (names.length < items.length)⟩
  | _ => .error .malformed

/-- The part of a name, read as asked; nothing where it is missing. No name that is asked
for stands twice. -/
def read {β : Type} (parts : Parts α) (name : String) (reader : Value α → Result β) :
    Result (Option β) :=
  match parts.fields.filter (fun field => field.1 == name) with
  | [] => .ok none
  | [(_, value)] => (reader value).map some
  | _ => .error .malformed

def finish (parts : Parts α) : Result Unit :=
  if parts.overfull then .error .malformed else .ok ⟨⟩

end Parts

end MarsCalendar.Wire

import MarsCalendar.Error
import MarsCalendar.Scalar.Basic

set_option autoImplicit false

/-! The time zones of Mars: eleven slots, each a tenth of a sol wide, five on either
side of Coordinated Mars Time. -/

namespace MarsCalendar.Mars

def IsSlot (slot : Int) : Prop :=
  -5 ≤ slot ∧ slot ≤ 5

instance (slot : Int) : Decidable (IsSlot slot) :=
  inferInstanceAs (Decidable (_ ∧ _))

structure Zone where
  slot : Int
  isSlot : IsSlot slot
  deriving DecidableEq, Repr

namespace Zone

def minSlot : Int := -5
def maxSlot : Int := 5

def mtc : Zone := ⟨0, by decide⟩

def ofSlot (slot : Int) : Except Error Zone :=
  if isSlot : IsSlot slot then .ok ⟨slot, isSlot⟩ else .error (.invalidZoneSlot slot)

def offsetSols {α : Type} [Scalar α] (zone : Zone) : α :=
  Scalar.ofInt zone.slot / 10.0

def text (zone : Zone) : String :=
  if zone.slot = 0 then "MTC" else "MTC" ++ Text.signedPadded 0 zone.slot

/-- The offset in thousandths of a sol: `+000`, `+300`, `-500`. -/
def offsetText (zone : Zone) : String :=
  Text.signedPadded 4 (zone.slot * 100)

end Zone

end MarsCalendar.Mars

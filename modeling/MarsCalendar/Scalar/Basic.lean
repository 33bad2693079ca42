import MarsCalendar.Scalar.Rounding

set_option autoImplicit false

/-! The numbers that dates are computed with. Every numeric routine of the library
is written once over `Scalar`, with its operations in a fixed order, and is run at
binary64. The exact rationals are a second reading of the same routine, so that a
law of the calendar can be stated apart from rounding. -/

namespace MarsCalendar

def FitsWord (value : Int) : Prop :=
  -9223372036854775808 ≤ value ∧ value ≤ 9223372036854775807

instance (value : Int) : Decidable (FitsWord value) :=
  inferInstanceAs (Decidable (_ ∧ _))

def clampWord (value : Int) : Int :=
  max (-9223372036854775808) (min value 9223372036854775807)

/-- Numbers with the operations that the calendar needs. `toWord` drops the
fraction and stops at the ends of a signed 64-bit word; what is not a number
becomes zero. `round` takes halves away from zero. -/
class Scalar (α : Type) where
  addition : Add α
  subtraction : Sub α
  multiplication : Mul α
  division : Div α
  negation : Neg α
  strictOrder : LT α
  order : LE α
  decimals : OfScientific α
  ofInt : Int → α
  floor : α → α
  round : α → α
  abs : α → α
  toWord : α → Int
  isFinite : α → Bool
  decideLT : ∀ left right : α, Decidable (left < right)
  decideLE : ∀ left right : α, Decidable (left ≤ right)

namespace Scalar

-- A type that has these operations of its own is read with its own.
instance (priority := 100) {α : Type} [Scalar α] : Add α := addition
instance (priority := 100) {α : Type} [Scalar α] : Sub α := subtraction
instance (priority := 100) {α : Type} [Scalar α] : Mul α := multiplication
instance (priority := 100) {α : Type} [Scalar α] : Div α := division
instance (priority := 100) {α : Type} [Scalar α] : Neg α := negation
instance (priority := 100) {α : Type} [Scalar α] : LT α := strictOrder
instance (priority := 100) {α : Type} [Scalar α] : LE α := order
instance (priority := 100) {α : Type} [Scalar α] : OfScientific α := decimals

instance (priority := 100) {α : Type} [Scalar α] (left right : α) :
    Decidable (left < right) :=
  decideLT left right

instance (priority := 100) {α : Type} [Scalar α] (left right : α) :
    Decidable (left ≤ right) :=
  decideLE left right

/-- The smaller of two numbers; the second where they are equal or unordered. -/
def least {α : Type} [Scalar α] (left right : α) : α :=
  if left < right then left else right

def greatest {α : Type} [Scalar α] (left right : α) : α :=
  if right < left then left else right

def order? {α : Type} [Scalar α] (left right : α) : Option Ordering :=
  if left < right then some .lt
  else if right < left then some .gt
  else if left ≤ right then some .eq
  else none

def toCount {α : Type} [Scalar α] (value : α) : Nat :=
  (toWord value).toNat

end Scalar

instance : Scalar Float where
  addition := inferInstance
  subtraction := inferInstance
  multiplication := inferInstance
  division := inferInstance
  negation := inferInstance
  strictOrder := inferInstance
  order := inferInstance
  decimals := inferInstance
  ofInt := Float.ofInt
  floor := wholeBinary64 Rat.floor
  round := wholeBinary64 roundRat
  abs := Float.abs
  toWord value := value.toModel.toInt64.toInt
  isFinite := Float.isFinite
  decideLT := inferInstance
  decideLE := inferInstance

end MarsCalendar

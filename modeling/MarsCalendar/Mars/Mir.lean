import MarsCalendar.Mars.Basic

set_option autoImplicit false

/-! The mirs of the calendar, by number, and what they add up to in sols. Long are the
odd mirs, every tenth unless it is a hundredth, and every thousandth. Sums over runs of
mirs are closed forms that stop at the ends of a signed 64-bit word. -/

namespace MarsCalendar.Mars.Mir

def IsLong (mir : Int) : Prop :=
  mir % 2 ≠ 0 ∨ mir % 1000 = 0 ∨ (mir % 100 ≠ 0 ∧ mir % 10 = 0)

instance (mir : Int) : Decidable (IsLong mir) :=
  inferInstanceAs (Decidable (_ ∨ _))

def length (mir : Int) : Int :=
  if IsLong mir then solsPerLongMir else solsPerShortMir

def maxWord : Int := 9223372036854775807

/-- Sols in the mirs from 1 up to a number, without a limit: a short mir each, one more
for each odd mir and each tenth, less each hundredth, and again each thousandth. -/
def sumTo (mirs : Nat) : Int :=
  let count : Int := mirs
  count * solsPerShortMir + (count + 1) / 2 + count / 10 - count / 100 + count / 1000

def cappedSumTo (mirs : Nat) : Int :=
  min (sumTo mirs) maxWord

def cappedAdd (left right : Int) : Int :=
  min (left + right) maxWord

def positiveSum (first last : Nat) : Int :=
  cappedSumTo last - cappedSumTo (first - 1)

/-- Sols in the mirs from one to another, both included and in order. A negative mir is
as long as its positive counterpart. -/
def orderedSum (first last : Int) : Int :=
  if first = last then length first
  else if last < 0 then positiveSum last.natAbs first.natAbs
  else if first < 0 then
    cappedAdd (cappedAdd (cappedSumTo first.natAbs) (length 0)) (cappedSumTo last.natAbs)
  else if first = 0 then cappedAdd (length 0) (cappedSumTo last.natAbs)
  else positiveSum first.natAbs last.natAbs

def sumBetween (left right : Int) : Int :=
  if right < left then orderedSum right left else orderedSum left right

def start (mir : Int) : Int :=
  if mir = 0 then 0
  else if 0 < mir then sumBetween 0 (mir - 1)
  else -sumBetween mir (-1)

theorem isLong_neg (mir : Int) : IsLong (-mir) ↔ IsLong mir := by
  unfold IsLong
  omega

theorem isLong_add_thousand (mir blocks : Int) :
    IsLong (mir + 1000 * blocks) ↔ IsLong mir := by
  unfold IsLong
  omega

theorem length_add_thousand (mir blocks : Int) :
    length (mir + 1000 * blocks) = length mir := by
  simp only [length, isLong_add_thousand]

theorem length_bounds (mir : Int) : 668 ≤ length mir ∧ length mir ≤ 669 := by
  unfold length
  split <;> decide

theorem sumTo_zero : sumTo 0 = 0 := by
  decide

private theorem half_succ (count : Int) :
    (count + 1 + 1) / 2 = (count + 1) / 2 + if (count + 1) % 2 = 0 then 0 else 1 := by
  omega

private theorem tenth_succ (count : Int) :
    (count + 1) / 10 = count / 10 + if (count + 1) % 10 = 0 then 1 else 0 := by
  omega

private theorem hundredth_succ (count : Int) :
    (count + 1) / 100 = count / 100 + if (count + 1) % 100 = 0 then 1 else 0 := by
  omega

private theorem thousandth_succ (count : Int) :
    (count + 1) / 1000 = count / 1000 + if (count + 1) % 1000 = 0 then 1 else 0 := by
  omega

theorem length_eq_sum (mir : Int) :
    length mir = solsPerShortMir + (if mir % 2 = 0 then 0 else 1)
      + (if mir % 10 = 0 then 1 else 0) - (if mir % 100 = 0 then 1 else 0)
      + (if mir % 1000 = 0 then 1 else 0) := by
  have tenEven : mir % 10 = 0 → mir % 2 = 0 := by omega
  have hundredTen : mir % 100 = 0 → mir % 10 = 0 := by omega
  have thousandHundred : mir % 1000 = 0 → mir % 100 = 0 := by omega
  unfold length IsLong solsPerShortMir solsPerLongMir
  by_cases even : mir % 2 = 0 <;> by_cases ten : mir % 10 = 0 <;>
    by_cases hundred : mir % 100 = 0 <;> by_cases thousand : mir % 1000 = 0 <;>
    simp_all

theorem sumTo_succ (mirs : Nat) : sumTo (mirs + 1) = sumTo mirs + length (mirs + 1) := by
  simp only [sumTo, length_eq_sum, Int.natCast_add, Int.natCast_one, half_succ, tenth_succ,
    hundredth_succ, thousandth_succ, Int.add_mul]
  generalize (mirs : Int) / 10 = tens, (mirs : Int) / 100 = hundreds,
    (mirs : Int) / 1000 = thousands, ((mirs : Int) + 1) / 2 = halves
  generalize (if ((mirs : Int) + 1) % 2 = 0 then (0 : Int) else 1) = odd,
    (if ((mirs : Int) + 1) % 10 = 0 then (1 : Int) else 0) = ten,
    (if ((mirs : Int) + 1) % 100 = 0 then (1 : Int) else 0) = hundred,
    (if ((mirs : Int) + 1) % 1000 = 0 then (1 : Int) else 0) = thousand
  omega

end MarsCalendar.Mars.Mir

import Flextime.Fault

/-! # Counting working days

Whole weeks are counted from Monday to Monday. The days of the two weeks that a period cuts are put
right afterwards, a Sunday like the Saturday before it.
-/
namespace Flextime

/-- The last Monday up to a day. -/
def Date.monday (d : Date) : Except Fault Date :=
  match d.plus? (-d.weekday) with
  | some monday => .ok monday
  | none => .error .dateRange

/-- The quotient of days by seven is a number, and the weeks are the nearest integer to it. -/
def weeksIn (days : Int) : Int :=
  let quotient := Binary64.ofFraction false days 7
  divNearest quotient.numerator quotient.denominator

/-- Monday to Friday days from `a` up to but not including `b`, negative for `b` before `a`. -/
def countWorkingDays (a b : Date) : Except Fault Int := do
  let first ← a.monday
  let last ← b.monday
  let weeks := weeksIn (last.number - first.number)
  let days : Int := -(min a.weekday 5 : Nat) + (min b.weekday 5 : Nat)
  return weeks * 5 + days

/-- Working days before day `n`: five for each whole week since day 1, a Monday, and at most five
for the days of the week begun. -/
def workingDaysBefore (n : Nat) : Nat := 5 * ((n - 1) / 7) + min ((n - 1) % 7) 5

/-- Those from `a` up to but not including `b`, counted from day 1. -/
def workingDays (a b : Date) : Int := (workingDaysBefore b.number : Int) - workingDaysBefore a.number

theorem workingDays_self (a : Date) : workingDays a a = 0 := Int.sub_self _

theorem workingDays_swap (a b : Date) : workingDays b a = -workingDays a b := by
  simp only [workingDays]; omega

theorem workingDays_add (a b c : Date) : workingDays a b + workingDays b c = workingDays a c := by
  simp only [workingDays]; omega

end Flextime

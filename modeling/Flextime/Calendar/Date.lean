import Flextime.Text.Digits

/-! # Days of the Gregorian calendar

A date is the number of its day, counted from 0001-01-01 as day 1, a Monday, to 9999-12-31; year,
month and day of the month are views of that number.
-/
namespace Flextime

def isLeapYear (y : Nat) : Bool := y % 4 == 0 && (y % 100 != 0 || y % 400 == 0)

/-- Days before 1 January of year `y`, counted from year 1. -/
def daysBeforeYear (y : Nat) : Nat :=
  let k := y - 1
  365 * k + k / 4 - k / 100 + k / 400

def monthLength (y m : Nat) : Nat :=
  if m = 2 then (if isLeapYear y then 29 else 28)
  else if m = 4 ∨ m = 6 ∨ m = 9 ∨ m = 11 then 30
  else 31

/-- Days of year `y` before the first of month `m`. -/
def daysBeforeMonth (y m : Nat) : Nat :=
  (List.range (m - 1)).foldl (fun n k => n + monthLength y (k + 1)) 0

def monthLabel (year month : Nat) : String := Text.padded 4 year ++ "-" ++ Text.padded 2 month

def lastDayNumber : Nat := 3652059

structure Date where
  number : Nat
  one_le : 1 ≤ number
  le_last : number ≤ lastDayNumber
deriving DecidableEq

namespace Date

instance : Inhabited Date := ⟨1, by decide, by decide⟩

instance : LE Date := ⟨fun a b => a.number ≤ b.number⟩
instance : LT Date := ⟨fun a b => a.number < b.number⟩
instance (a b : Date) : Decidable (a ≤ b) := inferInstanceAs (Decidable (a.number ≤ b.number))
instance (a b : Date) : Decidable (a < b) := inferInstanceAs (Decidable (a.number < b.number))
instance : Min Date := ⟨fun a b => if a ≤ b then a else b⟩

theorem le_iff {a b : Date} : a ≤ b ↔ a.number ≤ b.number := Iff.rfl

theorem lt_iff {a b : Date} : a < b ↔ a.number < b.number := Iff.rfl

theorem ext_number {a b : Date} (h : a.number = b.number) : a = b := by
  cases a; cases b; cases h; rfl

def ofNumber? (n : Int) : Option Date :=
  if h : 1 ≤ n.toNat ∧ n.toNat ≤ lastDayNumber then some ⟨n.toNat, h.1, h.2⟩ else none

theorem ofNumber?_eq_some_iff {n : Int} {d : Date} : ofNumber? n = some d ↔ (d.number : Int) = n := by
  unfold ofNumber?
  constructor
  · intro h
    split at h
    · cases h
      have hn := Int.toNat_of_nonneg (a := n)
      dsimp only
      omega
    · cases h
  · intro h
    subst h
    exact dif_pos ⟨d.one_le, d.le_last⟩

/-- The date `k` days later, when the calendar has it. -/
def plus? (d : Date) (k : Int) : Option Date := ofNumber? (d.number + k)

theorem plus?_eq_some_iff {d e : Date} {k : Int} :
    d.plus? k = some e ↔ (e.number : Int) = d.number + k := ofNumber?_eq_some_iff

/-- The year, from an estimate by the mean length of a year that is off by at most one. -/
def year (d : Date) : Nat :=
  let y := (d.number - 1) * 400 / 146097 + 1
  if d.number ≤ daysBeforeYear y then y - 1
  else if daysBeforeYear (y + 1) < d.number then y + 1
  else y

def dayOfYear (d : Date) : Nat := d.number - daysBeforeYear d.year

/-- The month is the number of months of the year that have begun. -/
def month (d : Date) : Nat :=
  ((List.range 12).filter fun k => daysBeforeMonth d.year (k + 1) < d.dayOfYear).length

/-- The day of the month. -/
def day (d : Date) : Nat := d.dayOfYear - daysBeforeMonth d.year d.month

def ofCivil? (y m d : Nat) : Option Date :=
  if 1 ≤ y ∧ y ≤ 9999 ∧ 1 ≤ m ∧ m ≤ 12 ∧ 1 ≤ d ∧ d ≤ monthLength y m then
    ofNumber? (daysBeforeYear y + daysBeforeMonth y m + d : Nat)
  else none

/-- Days since the last Monday. -/
def weekday (d : Date) : Nat := (d.number - 1) % 7

def isWorkingDay (d : Date) : Bool := d.weekday < 5

def text (d : Date) : String := monthLabel d.year d.month ++ "-" ++ Text.padded 2 d.day

instance : ToString Date := ⟨text⟩

/-- Year, month and day in front, written with four, two and two digits, and the rest. -/
def civilFront? (cs : List Char) : Option (Nat × Nat × Nat × List Char) := do
  let (y, rest) ← Text.digits? 4 cs
  let '-' :: rest := rest | none
  let (m, rest) ← Text.digits? 2 rest
  let '-' :: rest := rest | none
  let (d, rest) ← Text.digits? 2 rest
  return (y, m, d, rest)

def read? (s : String) : Option Date := do
  let (y, m, d, []) ← civilFront? s.toList | none
  ofCivil? y m d

end Date

/-- A stretch of days from `start` up to but not including `stop`. -/
structure Period where
  start : Date
  stop : Date
deriving DecidableEq

end Flextime

import Flextime.Fault

/-! # Months of the calendar -/
namespace Flextime
namespace Date

/-- The first day of the month of `d`. -/
def monthStart (d : Date) : Date := (ofNumber? (d.number - d.day + 1)).getD d

/-- The first day of the month after that of `d`; December 9999 has none. -/
def nextMonth (d : Date) : Except Fault Date :=
  let (y, m) := if d.month = 12 then (d.year + 1, 1) else (d.year, d.month + 1)
  match ofCivil? y m 1 with
  | some first => .ok first
  | none => .error (.yearRange y)

/-- Months since January of year 1. -/
def monthIndex (d : Date) : Nat := 12 * (d.year - 1) + (d.month - 1)

def ofMonthIndex? (k : Nat) : Option Date := ofCivil? (k / 12 + 1) (k % 12 + 1) 1

end Date

/-- The first days of a run of months, and the fault that cut the run short, if one did. -/
structure MonthRun where
  starts : List Date
  fault? : Option Fault

/-- Every month from that of `first` through that of `last`. The run looks one month ahead, which
fails after December 9999. -/
def monthRun (first last : Date) : MonthRun :=
  let n := last.monthIndex + 1 - first.monthIndex
  let starts := (List.range n).filterMap fun k => Date.ofMonthIndex? (first.monthIndex + k)
  ⟨starts, if last.year = 9999 ∧ last.month = 12 then some (.yearRange 10000) else none⟩

/-- First day of a month and of the one after, by the month's length. The month is checked before
the year. -/
def monthBounds (year month : Int) : Except Fault (Date × Date) :=
  if month < 1 ∨ 12 < month then .error (.monthNumber month)
  else if year < 1 ∨ 9999 < year then .error (.yearRange year)
  else
    let (y, m) := (year.toNat, month.toNat)
    match Date.ofCivil? y m 1, Date.ofCivil? y m (monthLength y m) with
    | some first, some last =>
      match last.plus? 1 with
      | some next => .ok (first, next)
      | none => .error .dateRange
    | _, _ => .error (.yearRange year)

def monthPeriod (year month : Int) : Except Fault Period :=
  (monthBounds year month).map fun (first, next) => ⟨first, next⟩

end Flextime

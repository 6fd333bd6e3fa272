import Flextime.Calendar.Month
import Flextime.Contract
import Flextime.Trace
import Flextime.WorkSummary

/-! # Vacation -/
namespace Flextime

structure VacationBalance where
  accruedHours : Binary64
  takenHours : Binary64
  remainingHours : Binary64
  remainingDays : Binary64
deriving DecidableEq

/-- Initial vacation in hours, at the rate of the first day. -/
def initialVacationHours (c : Contract) : Binary64 :=
  c.initialVacation * c.workingHours.rateAt c.firstDay

/-- A month's allowance in hours, at the rates of its first day. -/
def allowanceHours (c : Contract) (month : Date) : Binary64 :=
  c.vacationDays.rateAt month * c.workingHours.rateAt month

/-- Initial vacation and the allowances from the contract's first month to the month of `asOf`. -/
def accruedVacationHours (c : Contract) (asOf : Date) : Traced Fault Binary64 := do
  let initial := initialVacationHours c
  Traced.report (.initialVacation initial)
  let run := monthRun c.firstDay asOf
  match run.fault? with
  | some fault => Traced.silent (.error fault)
  | none =>
    let accrued := run.starts.foldl (fun total month => total + allowanceHours c month) initial
    Traced.report (.accruedVacation accrued)
    return accrued

/-- Days left at a daily rate: none without a positive rest and a positive rate. -/
def remainingDays (remaining daily : Binary64) : Binary64 :=
  if (Binary64.zero false).lt remaining && (Binary64.zero false).lt daily then remaining / daily
  else .zero false

/-- Vacation left on a day; the summary covers the contract up to it. -/
def vacationBalance (c : Contract) (s : WorkSummary) (asOf : Date) : Traced Fault VacationBalance := do
  let accrued ← accruedVacationHours c asOf
  let taken := (s.elapsed .vacation).hours
  let remaining := accrued - taken
  Traced.report (.takenVacation taken remaining)
  let accruedHours ← roundHours accrued
  let takenHours ← roundHours taken
  let remainingHours ← roundHours remaining
  return {
    accruedHours
    takenHours
    remainingHours
    remainingDays := remainingDays remaining (c.workingHours.rateAt asOf) }

end Flextime

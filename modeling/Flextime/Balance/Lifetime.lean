import Flextime.Balance.Overtime
import Flextime.Balance.Vacation

/-! # The balance of a contract so far -/
namespace Flextime

structure LifetimeBalance where
  asOf : Date
  overtime : OvertimeBalance
  vacation : VacationBalance
deriving DecidableEq

/-- From the first day of the contract up to a day. -/
def lifetimePeriod (c : Contract) (asOf : Date) : Period := ⟨c.firstDay, asOf⟩

def lifetimeBalance (c : Contract) (s : WorkSummary) (asOf : Date) : Traced Fault LifetimeBalance := do
  let overtime ← overtimeBalance c s
  let vacation ← vacationBalance c s asOf
  return { asOf, overtime, vacation }

end Flextime

import Flextime.Balance.Target
import Flextime.WorkSummary

/-! # Overtime -/
namespace Flextime

structure OvertimeBalance where
  period : Period
  initialHours : Binary64
  targetHours : Binary64
  actualHours : Binary64
  balanceHours : Binary64
  overtimeHours : Binary64
  undertimeHours : Binary64
deriving DecidableEq

/-- The initial overtime counts only in a period that starts with the contract. -/
def carriedOvertime (c : Contract) (p : Period) : Except Fault Duration :=
  if p.start = c.firstDay then Duration.ofHours c.initialOvertime else return .zero

/-- What was carried in and worked, less the target. -/
def balanceDuration (carry actual target : Duration) : Except Fault Duration := do
  (← carry.add actual).sub target

/-- Overtime over the period of a summary; the total is rounded once. -/
def overtimeBalance (c : Contract) (s : WorkSummary) : Traced Fault OvertimeBalance := do
  let carry ← carriedOvertime c s.period
  let actual ← s.total
  let target ← targetDuration c.workingHours s.period
  Traced.report (.overtime s.period carry actual target)
  let difference ← balanceDuration carry actual target
  let balance ← difference.roundedHours
  let (surplus, shortfall) := splitBalance balance
  let initialHours ← carry.roundedHours
  let targetHours ← target.roundedHours
  let actualHours ← actual.roundedHours
  return {
    period := s.period
    initialHours
    targetHours
    actualHours
    balanceHours := balance
    overtimeHours := surplus
    undertimeHours := shortfall }

end Flextime

import Flextime.Balance.Target
import Flextime.WorkSummary

/-! # The month so far -/
namespace Flextime

structure MonthBalance where
  period : Period
  categoryHours : PerCategory Binary64
  actualHours : Binary64
  targetHours : Binary64
  requiredHours : Binary64
  balanceHours : Binary64
  overtimeHours : Binary64
  undertimeHours : Binary64
  remainingHours : Binary64
  percentages : PerCategory Int
  remainingPercentage : Int
deriving DecidableEq

/-- A share in whole percent, cut off; nothing has no shares. -/
def percentage (hours total : Binary64) : Except Fault Int :=
  if total.le (.zero false) then return 0
  else integerPart (hours / total * Binary64.ofInt 100)

def categoryPercentages (hours : PerCategory Binary64) (total : Binary64) :
    Except Fault (PerCategory Int) :=
  PerCategory.traverse fun c => percentage (hours.get c) total

/-- Each category rounded to whole minutes. -/
def roundedCategories (s : WorkSummary) : Except Fault (PerCategory Duration) :=
  PerCategory.traverse fun c => (s.elapsed c).roundToMinute

/-- Month-to-date figures for the period of a summary. Each category is rounded before the sum, so
the categories add up to the actual hours; the balance is against the hours required so far, and
percentages are shares of the larger of target and actual. -/
def monthBalance (c : Contract) (s : WorkSummary) (today : Date) : Traced Fault MonthBalance := do
  let categories ← roundedCategories s
  let actual ← Duration.sum categories.values
  let fullTarget ← targetDuration c.workingHours s.period
  let target ← fullTarget.roundToMinute
  let fullRequired ← requiredDuration c s.period today
  let required ← fullRequired.roundToMinute
  let balance ← actual.sub required
  let (surplus, shortfall) := splitBalance balance.hours
  let categoryHours := categories.map Duration.hours
  let percentages ← categoryPercentages categoryHours (target.max actual).hours
  Traced.report (.month s.period.start actual.hours target.hours required.hours)
  let remaining ← target.sub actual
  return {
    period := s.period
    categoryHours
    actualHours := actual.hours
    targetHours := target.hours
    requiredHours := required.hours
    balanceHours := balance.hours
    overtimeHours := surplus
    undertimeHours := shortfall
    remainingHours := (remaining.max .zero).hours
    percentages
    remainingPercentage := 100 - percentages.values.foldl (· + ·) 0 }

end Flextime

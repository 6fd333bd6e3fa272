import Flextime.Balance.Lifetime
import Flextime.Balance.Month
import Flextime.Report.Format
import Flextime.Settings

/-! # The text of a report -/
namespace Flextime.Report

def joinLines (lines : List String) : String := String.intercalate "\n" lines

def lifetimeText (s : Settings) (b : LifetimeBalance) : Except Fault String := do
  let target ← plainHours s.hoursDecimals b.overtime.targetHours
  let actual ← plainHours s.hoursDecimals b.overtime.actualHours
  let balance ← signedHours s.hoursDecimals b.overtime.balanceHours
  let left ← days s.daysDecimals b.vacation.remainingDays
  return joinLines [
    s!"Balance as of {b.asOf}",
    s!"  Target hours:    {target}",
    s!"  Actual hours:    {actual}",
    s!"  Overtime:        {balance}",
    s!"  Vacation left:   {left}"]

def padRight (width : Nat) (s : String) : String :=
  s ++ String.ofList (List.replicate (width - s.length) ' ')

def categoryLine (s : Settings) (b : MonthBalance) (c : Category) : Except Fault String := do
  let hours ← plainHours s.hoursDecimals (b.categoryHours.get c)
  let label := padRight 16 (c.title ++ ":")
  return s!"  {label} {hours} ({b.percentages.get c}%)"

def monthText (s : Settings) (b : MonthBalance) : Except Fault String := do
  let categories ← Category.all.mapM (categoryLine s b)
  let target ← plainHours s.hoursDecimals b.targetHours
  let actual ← plainHours s.hoursDecimals b.actualHours
  let needed ← plainHours s.hoursDecimals b.requiredHours
  let balance ← signedHours s.hoursDecimals b.balanceHours
  let remaining ← plainHours s.hoursDecimals b.remainingHours
  return joinLines (s!"Month {monthLabel b.period.start.year b.period.start.month}"
    :: categories ++ [
    s!"  Target hours:    {target}",
    s!"  Actual hours:    {actual}",
    s!"  Required today:  {needed}",
    s!"  Balance:         {balance}",
    s!"  Remaining hours: {remaining} ({b.remainingPercentage}%)"])

end Flextime.Report

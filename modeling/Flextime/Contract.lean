import Flextime.RateTimeline

/-! # Contract terms -/
namespace Flextime

/-- Working hours are hours a day, vacation days are days a month. -/
structure Contract where
  firstDay : Date
  initialOvertime : Binary64
  initialVacation : Binary64
  workingHours : RateTimeline
  vacationDays : RateTimeline
deriving DecidableEq

namespace Contract

/-- Terms from unordered rate changes; the working hours are checked first. -/
def ofChanges (firstDay : Date) (initialOvertime initialVacation : Binary64)
    (workingHours vacationDays : List RateChange) : Except Fault Contract := do
  let workingHours ← RateTimeline.ofChanges workingHours
  let vacationDays ← RateTimeline.ofChanges vacationDays
  return { firstDay, initialOvertime, initialVacation, workingHours, vacationDays }

end Contract
end Flextime

import Flextime.Calendar.Date

/-! # Days of any year

The calendar repeats every 400 years, which have 146097 days, so a day outside the years of `Date`
has month and day of the month of a day in the first 400 years.
-/
namespace Flextime

def daysPerCycle : Nat := 146097

/-- The day of the first cycle that day `n` falls on. -/
def dayInCycle (n : Int) : Date where
  number := ((n - 1) % daysPerCycle).toNat + 1
  one_le := by omega
  le_last := by
    have h := Int.emod_lt_of_pos (n - 1) (b := daysPerCycle) (by decide)
    have h' : (daysPerCycle : Int) = 146097 := rfl
    unfold lastDayNumber
    omega

/-- The year of day `n`; the year before 1 is 0. -/
def yearOfDay (n : Int) : Int := (dayInCycle n).year + 400 * ((n - 1) / daysPerCycle)

end Flextime

import Flextime.Proofs.Balance.Lifetime
import Flextime.Proofs.Calendar.MonthRun

/-! # Vacation month by month

What has accrued by a day is the initial vacation and an allowance for every month up to the day's own. The
day of the month does not count, and what has accrued later is what had accrued before with the allowances
of the months since.
-/
namespace Flextime

/-- Hours of vacation with the allowances of further months, each at the rates of its first day. -/
def Contract.accrue (c : Contract) (hours : Binary64) (months : List Date) : Binary64 :=
  months.foldl (fun total month => total + c.vacationDays.rateAt month * c.workingHours.rateAt month) hours

theorem Contract.accrue_append (c : Contract) (hours : Binary64) (ms ns : List Date) :
    c.accrue hours (ms ++ ns) = c.accrue (c.accrue hours ms) ns := List.foldl_append

section
variable {c : Contract} {asOf earlier other : Date}

theorem accruedHours_eq_accrue (c : Contract) (asOf : Date) : accruedHours c asOf =
    c.accrue (c.initialVacation * c.workingHours.rateAt c.firstDay) (monthRun c.firstDay asOf).starts := rfl

theorem accruedHours_of_before (h : asOf.monthIndex < c.firstDay.monthIndex) :
    accruedHours c asOf = c.initialVacation * c.workingHours.rateAt c.firstDay := by
  rw [accruedHours_eq_accrue, monthRun_of_before h]
  rfl

theorem accruedHours_later (h : earlier.monthIndex ≤ asOf.monthIndex) : accruedHours c asOf =
    c.accrue (accruedHours c earlier) (monthsAfter earlier (monthRun c.firstDay asOf).starts) := by
  rw [accruedHours_eq_accrue, accruedHours_eq_accrue, ← Contract.accrue_append, monthRun_append h]

theorem accruedVacationHours_sameMonth (hyear : other.year = asOf.year) (hmonth : other.month = asOf.month) :
    accruedVacationHours c other = accruedVacationHours c asOf := by
  unfold accruedVacationHours monthRun Date.monthIndex
  rw [hyear, hmonth]

/-- By a day before December 9999 vacation has accrued once for every month from that of the contract's
first day through that of the day, in order, on top of the initial vacation at the rate of the first day. So
it is the same for all days of a month, before the contract's first month it is the initial vacation alone,
and from an earlier day on it grows by the months since. -/
theorem accruedVacation_monthly (c : Contract) {asOf : Date} (hasOf : ¬(asOf.year = 9999 ∧ asOf.month = 12)) :
    ∃ months : List Date, months.Pairwise (· < ·) ∧
      (∀ m, m ∈ months ↔
        m.day = 1 ∧ c.firstDay.monthIndex ≤ m.monthIndex ∧ m.monthIndex ≤ asOf.monthIndex) ∧
      (accruedVacationHours c asOf).outcome =
        .ok (c.accrue (c.initialVacation * c.workingHours.rateAt c.firstDay) months) ∧
      (∀ other : Date, other.year = asOf.year → other.month = asOf.month →
        accruedVacationHours c other = accruedVacationHours c asOf) ∧
      (asOf.monthIndex < c.firstDay.monthIndex → (accruedVacationHours c asOf).outcome =
        .ok (c.initialVacation * c.workingHours.rateAt c.firstDay)) ∧
      ∀ earlier : Date, earlier ≤ asOf → ∃ before, (accruedVacationHours c earlier).outcome = .ok before ∧
        (accruedVacationHours c asOf).outcome = .ok (c.accrue before (monthsAfter earlier months)) := by
  have hvalue := outcome_accruedVacationHours (c := c) hasOf
  refine ⟨(monthRun c.firstDay asOf).starts,monthRun_ascending _ _,fun m => mem_monthRun,hvalue,?_,?_,?_⟩
  · intro other hyear hmonth
    exact accruedVacationHours_sameMonth hyear hmonth
  · intro hbefore
    rw [hvalue, accruedHours_of_before hbefore]
  · intro earlier hle
    have hmonths := Date.monthIndex_mono hle
    rw [Date.inLastMonth_iff] at hasOf
    have hearlier : ¬(earlier.year = 9999 ∧ earlier.month = 12) := by
      rw [Date.inLastMonth_iff]
      omega
    refine ⟨accruedHours c earlier,outcome_accruedVacationHours hearlier,?_⟩
    rw [hvalue, accruedHours_later hmonths]

/-- A contract from the middle of November 2023 on. Its hours change in the middle of January, and its vacation
with February. -/
def winterContract : Contract where
  firstDay := dayIn2023 319
  initialOvertime := .zero false
  initialVacation := Binary64.ofInt 5
  workingHours := ⟨[⟨dayIn2023 305,Binary64.ofInt 8⟩,⟨dayIn2023 381,Binary64.ofInt 6⟩],
    by decide,by decide +kernel⟩
  vacationDays := ⟨[⟨dayIn2023 305,Binary64.ofInt 2⟩,⟨dayIn2023 397,Binary64.ofFraction false 5 2⟩],
    by decide,by decide +kernel⟩

/-- January still counts eight hours a day. -/
theorem accruedVacation_monthly_winter :
    (accruedVacationHours winterContract (dayIn2023 425)).outcome =
        .ok (winterContract.accrue (Binary64.ofInt 40)
          [dayIn2023 305,dayIn2023 335,dayIn2023 366,dayIn2023 397]) ∧
      (accruedVacationHours winterContract (dayIn2023 365)).outcome = .ok (Binary64.ofInt 72) ∧
      (accruedVacationHours winterContract (dayIn2023 425)).outcome =
        .ok (winterContract.accrue (Binary64.ofInt 72) [dayIn2023 366,dayIn2023 397]) ∧
      winterContract.accrue (Binary64.ofInt 72) [dayIn2023 366,dayIn2023 397] = Binary64.ofInt 103 := by
  have hfollowed : ¬((dayIn2023 425).year = 9999 ∧ (dayIn2023 425).month = 12) := by decide +kernel
  obtain ⟨months,hascending,hmem,hvalue,-,-,hlater⟩ := accruedVacation_monthly winterContract hfollowed
  obtain rfl : months = [dayIn2023 305,dayIn2023 335,dayIn2023 366,dayIn2023 397] := by
    rw [Date.eq_of_ascending hascending (monthRun_ascending _ _) fun m => (hmem m).trans mem_monthRun.symm]
    decide +kernel
  have hbefore : (accruedVacationHours winterContract (dayIn2023 365)).outcome = .ok (Binary64.ofInt 72) := by
    decide +kernel
  obtain ⟨before,hx,hsince⟩ := hlater (dayIn2023 365) (by decide)
  obtain rfl := Except.ok.inj (hx.symm.trans hbefore)
  have hrest : monthsAfter (dayIn2023 365) [dayIn2023 305,dayIn2023 335,dayIn2023 366,dayIn2023 397] =
      [dayIn2023 366,dayIn2023 397] := by decide +kernel
  rw [hrest] at hsince
  have hinitial : winterContract.initialVacation * winterContract.workingHours.rateAt winterContract.firstDay =
      Binary64.ofInt 40 := by decide +kernel
  rw [hinitial] at hvalue
  exact ⟨hvalue,hbefore,hsince,by decide +kernel⟩

end
end Flextime

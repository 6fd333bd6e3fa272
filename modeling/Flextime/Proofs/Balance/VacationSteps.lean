import Flextime.Balance.Vacation
import Flextime.Proofs.Duration.Hours

/-! # The steps to a vacation balance

Hours that have accrued, and three figures rounded through durations: the function is opened here only, and
everything known of the balance is said of these.
-/
namespace Flextime
open Duration

structure VacationSteps (c : Contract) (s : WorkSummary) (asOf : Date) where
  accrued : Binary64
  accruedHours : Binary64
  takenHours : Binary64
  remainingHours : Binary64
  accrued_eq : (accruedVacationHours c asOf).outcome = .ok accrued
  accruedHours_eq : roundHours accrued = .ok accruedHours
  takenHours_eq : roundHours (s.elapsed .vacation).hours = .ok takenHours
  remainingHours_eq : roundHours (accrued - (s.elapsed .vacation).hours) = .ok remainingHours

section
variable {c : Contract} {s : WorkSummary} {asOf : Date}

def VacationSteps.result (v : VacationSteps c s asOf) : VacationBalance where
  accruedHours := v.accruedHours
  takenHours := v.takenHours
  remainingHours := v.remainingHours
  remainingDays := remainingDays (v.accrued - (s.elapsed .vacation).hours) (c.workingHours.rateAt asOf)

theorem vacationBalance_eq_ok_iff {b : VacationBalance} :
    (vacationBalance c s asOf).outcome = .ok b ↔ ∃ v : VacationSteps c s asOf, v.result = b := by
  unfold vacationBalance
  simp only [Traced.outcome_bind, Traced.outcome_liftM, Traced.outcome_report, Traced.outcome_pure,
    bind_eq_ok_iff]
  constructor
  · rintro ⟨accrued,haccrued,_,-,accruedHours,haccruedHours,takenHours,htakenHours,remainingHours,
      hremainingHours,hb⟩
    exact ⟨⟨accrued,accruedHours,takenHours,remainingHours,haccrued,haccruedHours,htakenHours,
      hremainingHours⟩,Except.ok.inj hb⟩
  · rintro ⟨v,rfl⟩
    exact ⟨_,v.accrued_eq,(),trivial,_,v.accruedHours_eq,_,v.takenHours_eq,_,v.remainingHours_eq,rfl⟩

theorem VacationSteps.accrued_roundable (v : VacationSteps c s asOf) : RoundableHours v.accrued :=
  exists_roundHours_iff.mp ⟨_,v.accruedHours_eq⟩

theorem VacationSteps.taken_roundable (v : VacationSteps c s asOf) :
    RoundableHours (s.elapsed .vacation).hours := exists_roundHours_iff.mp ⟨_,v.takenHours_eq⟩

theorem VacationSteps.remaining_roundable (v : VacationSteps c s asOf) :
    RoundableHours (v.accrued - (s.elapsed .vacation).hours) :=
  exists_roundHours_iff.mp ⟨_,v.remainingHours_eq⟩

end
end Flextime

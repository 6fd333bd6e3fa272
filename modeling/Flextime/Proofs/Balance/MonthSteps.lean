import Flextime.Balance.Month
import Flextime.Proofs.Duration.Rounding

/-! # The steps to a month's balance

A month's balance is made from a few durations, each found in a step that can fail. Everything known of the
balance is said of these durations, so that the function itself is opened here only.
-/
namespace Flextime
open Duration

structure MonthSteps (c : Contract) (s : WorkSummary) (today : Date) where
  categories : PerCategory Duration
  actual : Duration
  target : Duration
  roundedTarget : Duration
  required : Duration
  roundedRequired : Duration
  balance : Duration
  percentages : PerCategory Int
  remaining : Duration
  categories_eq : roundedCategories s = .ok categories
  actual_eq : Duration.sum categories.values = .ok actual
  target_eq : (targetDuration c.workingHours s.period).outcome = .ok target
  roundedTarget_eq : target.roundToMinute = .ok roundedTarget
  required_eq : (requiredDuration c s.period today).outcome = .ok required
  roundedRequired_eq : required.roundToMinute = .ok roundedRequired
  balance_eq : actual.sub roundedRequired = .ok balance
  percentages_eq : categoryPercentages (categories.map hours) (roundedTarget.max actual).hours = .ok percentages
  remaining_eq : roundedTarget.sub actual = .ok remaining

section
variable {c : Contract} {s : WorkSummary} {today : Date}

def MonthSteps.result (m : MonthSteps c s today) : MonthBalance where
  period := s.period
  categoryHours := m.categories.map hours
  actualHours := m.actual.hours
  targetHours := m.roundedTarget.hours
  requiredHours := m.roundedRequired.hours
  balanceHours := m.balance.hours
  overtimeHours := (splitBalance m.balance.hours).1
  undertimeHours := (splitBalance m.balance.hours).2
  remainingHours := (m.remaining.max .zero).hours
  percentages := m.percentages
  remainingPercentage := 100 - m.percentages.values.sum

theorem monthBalance_eq_ok_iff {b : MonthBalance} :
    (monthBalance c s today).outcome = .ok b ↔ ∃ m : MonthSteps c s today, m.result = b := by
  unfold monthBalance
  simp only [Traced.outcome_bind, Traced.outcome_liftM, Traced.outcome_report, Traced.outcome_pure,
    bind_eq_ok_iff, ← List.sum_eq_foldl]
  constructor
  · rintro ⟨categories,hcategories,actual,hactual,target,htarget,roundedTarget,hroundedTarget,required,
      hrequired,roundedRequired,hroundedRequired,balance,hbalance,percentages,hpercentages,_,-,remaining,
      hremaining,hb⟩
    exact ⟨⟨categories,actual,target,roundedTarget,required,roundedRequired,balance,percentages,remaining,
      hcategories,hactual,htarget,hroundedTarget,hrequired,hroundedRequired,hbalance,hpercentages,
      hremaining⟩,Except.ok.inj hb⟩
  · rintro ⟨m,rfl⟩
    exact ⟨_,m.categories_eq,_,m.actual_eq,_,m.target_eq,_,m.roundedTarget_eq,_,m.required_eq,_,
      m.roundedRequired_eq,_,m.balance_eq,_,m.percentages_eq,(),trivial,_,m.remaining_eq,rfl⟩

end
end Flextime

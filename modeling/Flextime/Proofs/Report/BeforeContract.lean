import Flextime.Proofs.Balance.Figures
import Flextime.Proofs.Report.Build

/-! # Reports from before a contract

A report can be asked for a day before its contract begins. The period it covers is then reversed: nothing
is logged in it, but its target is negative, and the balance is that much too high.
-/
namespace Flextime
open Duration

/-- Microseconds due, at the rate of the first day, for the working days from a day up to that one. -/
def Contract.dueAhead (c : Contract) (asOf : Date) : Int :=
  (Period.workdays ⟨asOf,c.firstDay⟩).length * hoursMicros (c.workingHours.rateAt c.firstDay)

theorem Contract.due_of_before {c : Contract} {asOf : Date} (h : asOf ≤ c.firstDay) :
    c.workingHours.due (lifetimePeriod c asOf) = -c.dueAhead asOf := by
  have hreversed : (lifetimePeriod c asOf).stop ≤ (lifetimePeriod c asOf).start := h
  rw [RateTimeline.due_of_reversed hreversed, pieceMicros, dueAhead, Period.length_workdays h, workingDays_swap,
    neg_mul]
  rfl

namespace Report

/-- The first part of a report is the balance from the first day on. -/
theorem lifetime_of_text {s : Settings} {d : Draft} {c : Contract} (hc : d.contract.terms = .ok c) {asOf : Date}
    {year month : Int} {report : String} (h : (text s d asOf year month).outcome = .ok report) :
    ∃ (life : WorkSummary) (b : LifetimeBalance) (first second : String),
      summarize (d.entries.map EntryDraft.entry) (lifetimePeriod c asOf) = .ok life ∧
      (lifetimeBalance c life asOf).outcome = .ok b ∧
      lifetimeText s b = .ok first ∧ report = first ++ "\n\n" ++ second := by
  simp only [text, Traced.outcome_bind, Traced.outcome_liftM, Traced.outcome_pure, bind_eq_ok_iff,
    Except.ok.injEq, hc] at h
  obtain ⟨_,⟨⟩,life,hlife,b,hb,_,-,_,-,_,-,first,hfirst,second,-,rfl⟩ := h
  exact ⟨life,b,first,second,hlife,hb,hfirst,rfl⟩

/-- From the first day of the contract on, the target of a report is not negative. Up to that day nothing
is logged, and the target is less than nothing by the time due for the working days still ahead, which
goes into the balance; there is no target, and the balance is the initial overtime, only when that time
makes no minute. -/
theorem lifetime_before_contract {payload : List (Text × Json)} {d : Draft} {c : Contract}
    (hd : draft payload = .ok d) (hc : d.contract.terms = .ok c) {s : Settings} {asOf : Date} {year month : Int}
    {t : Traced Fault String} {report : String} (ht : build s payload asOf year month = .ok t)
    (hreport : t.outcome = .ok report) :
    ∃ (life : WorkSummary) (b : LifetimeBalance) (first second : String),
      summarize (d.entries.map EntryDraft.entry) (lifetimePeriod c asOf) = .ok life ∧
      (lifetimeBalance c life asOf).outcome = .ok b ∧
      lifetimeText s b = .ok first ∧ report = first ++ "\n\n" ++ second ∧
      (c.firstDay ≤ asOf → (Binary64.zero false).le b.overtime.targetHours = true) ∧
      (asOf ≤ c.firstDay →
        IsHoursOf 0 b.overtime.actualHours ∧
        IsHoursOf (nearestMinutes (hoursMicros c.initialOvertime)) b.overtime.initialHours ∧
        IsHoursOf (-nearestMinutes (c.dueAhead asOf)) b.overtime.targetHours ∧
        IsHoursOf (nearestMinutes (hoursMicros c.initialOvertime + c.dueAhead asOf)) b.overtime.balanceHours ∧
        ((Binary64.zero false).le b.overtime.targetHours = true ↔ nearestMinutes (c.dueAhead asOf) = 0) ∧
        (b.overtime.balanceHours = b.overtime.initialHours ↔
          nearestMinutes (hoursMicros c.initialOvertime + c.dueAhead asOf) =
            nearestMinutes (hoursMicros c.initialOvertime))) := by
  obtain ⟨⟨c',hc',hday⟩,-⟩ := accepted_of_draft hd
  obtain rfl := Except.ok.inj (hc'.symm.trans hc)
  obtain rfl := Except.ok.inj ((build_of_draft hd s asOf year month).symm.trans ht)
  obtain ⟨life,b,first,second,hlife,hb,hfirst,hsplit⟩ := lifetime_of_text hc hreport
  obtain ⟨target,htarget,hinitial,htargetHours,hactual,hbalance⟩ :=
    overtimeBalance_minutes (overtime_of_lifetimeBalance hb)
  have hperiod := (summarize_eq_ok_iff.mp hlife).1
  have hcarried : carriedMicros c' (lifetimePeriod c' asOf) = hoursMicros c'.initialOvertime := if_pos rfl
  rw [micros_of_target htarget, hperiod] at htargetHours hbalance
  rw [hperiod, hcarried] at hinitial
  rw [hcarried] at hbalance
  rw [sum_of_summarize hlife] at hactual hbalance
  refine ⟨life,b,first,second,hlife,hb,hfirst,hsplit,fun hafter => ?_,fun hbefore => ?_⟩
  · exact htargetHours.nonneg_iff.mpr (nearestMinutes_nonneg (RateTimeline.due_nonneg hday hafter))
  · have hahead : 0 ≤ c'.dueAhead asOf :=
      Int.mul_nonneg (Int.natCast_nonneg _) (hoursMicros_bounds (hday.rateAt _)).1
    rw [c'.due_of_before hbefore, nearestMinutes_neg] at htargetHours
    rw [c'.due_of_before hbefore, logged_reversed _ hbefore, add_zero, sub_neg_eq_add] at hbalance
    rw [logged_reversed _ hbefore] at hactual
    refine ⟨hactual,hinitial,htargetHours,hbalance,?_,hbalance.eq_iff hinitial⟩
    have hrounded := nearestMinutes_nonneg hahead
    rw [htargetHours.nonneg_iff]
    omega

def marchContract (initialOvertime : Binary64) : Contract where
  firstDay := dayIn2023 60
  initialOvertime := initialOvertime
  initialVacation := .zero false
  workingHours := ⟨[⟨dayIn2023 60,Binary64.ofInt 8⟩],by decide,by decide +kernel⟩
  vacationDays := ⟨[⟨dayIn2023 60,Binary64.ofInt 2⟩],by decide,by decide +kernel⟩

def hourAndHalf : Binary64 := Binary64.ofFraction false 3 2

def carriedDraft : Draft := ⟨(marchContract hourAndHalf).draft,[]⟩

/-- As of the first of February, twenty working days before the contract begins. -/
theorem lifetime_before_contract_february :
    ∃ (b : LifetimeBalance) (first second : String),
      (build {} (marchPayload hourAndHalf) (dayIn2023 32) 2023 3).map (·.outcome) =
        .ok (.ok (first ++ "\n\n" ++ second)) ∧
      lifetimeText {} b = .ok first ∧
      IsHoursOf (-9600) b.overtime.targetHours ∧ IsHoursOf 9690 b.overtime.balanceHours := by
  have hdraft : draft (marchPayload hourAndHalf) = .ok carriedDraft := by decide +kernel
  have hbuild := build_of_draft hdraft {} (dayIn2023 32) 2023 3
  obtain ⟨report,hreport⟩ : ∃ report, (text {} carriedDraft (dayIn2023 32) 2023 3).outcome = .ok report :=
    exists_of_isOk (by decide +kernel)
  obtain ⟨_,b,first,second,-,-,hfirst,hsplit,-,hbefore⟩ :=
    lifetime_before_contract hdraft (Contract.terms_draft _) hbuild hreport
  obtain ⟨-,-,htarget,hbalance,-⟩ := hbefore (by decide +kernel)
  have htargetMinutes : -nearestMinutes ((marchContract hourAndHalf).dueAhead (dayIn2023 32)) = -9600 := by
    decide +kernel
  have hbalanceMinutes : nearestMinutes (hoursMicros (marchContract hourAndHalf).initialOvertime +
      (marchContract hourAndHalf).dueAhead (dayIn2023 32)) = 9690 := by decide +kernel
  rw [htargetMinutes] at htarget
  rw [hbalanceMinutes] at hbalance
  refine ⟨b,first,second,?_,hfirst,htarget,hbalance⟩
  rw [hbuild, ← hsplit, ← hreport]
  rfl

/-- With nothing carried in, the report of that day has a target of minus 160 hours, and 160 hours of
overtime. -/
theorem february_overtime :
    (build {} (marchPayload (.zero false)) (dayIn2023 32) 2023 3).map (·.outcome) = .ok (.ok (joinLines [
      "Balance as of 2023-02-01",
      "  Target hours:    -160.00",
      "  Actual hours:    0.00",
      "  Overtime:        +160.00",
      "  Vacation left:   0.0 days",
      "",
      "Month 2023-03",
      "  Work:            0.00 (0%)",
      "  Travel:          0.00 (0%)",
      "  Vacation:        0.00 (0%)",
      "  Holiday:         0.00 (0%)",
      "  Illness:         0.00 (0%)",
      "  Target hours:    184.00",
      "  Actual hours:    0.00",
      "  Required today:  0.00",
      "  Balance:         +0.00",
      "  Remaining hours: 184.00 (100%)"])) := by
  decide +kernel

end Report
end Flextime

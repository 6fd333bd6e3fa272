import Flextime.Balance.Lifetime
import Flextime.Proofs.Balance.Overtime
import Flextime.Proofs.Balance.VacationSteps
import Flextime.Proofs.Entry.Summary

/-! # When there is a balance so far

With rates of a day the target never fails. What is left to fail is a figure outside the range of
durations, hours that are not finite, and the run of the months past the end of the calendar.
-/
namespace Flextime
open Duration

/-- Overtime over a period of which every figure is a duration, also after rounding. -/
structure OvertimeFits (c : Contract) (es : List Entry) (p : Period) : Prop where
  carried : RoundableHours c.initialOvertime
  logged : Roundable (logged es p)
  sum : InRange (hoursMicros c.initialOvertime + Flextime.logged es p)
  balance : Roundable (hoursMicros c.initialOvertime + Flextime.logged es p - c.workingHours.due p)

/-- The same of a summary, which need not start with the contract. -/
structure WorkSummary.FitsOvertime (s : WorkSummary) (c : Contract) : Prop where
  carried : s.period.start = c.firstDay → RoundableHours c.initialOvertime
  logged : Roundable s.tally.sum
  sum : InRange (carriedMicros c s.period + s.tally.sum)
  balance : Roundable (carriedMicros c s.period + s.tally.sum - c.workingHours.due s.period)

/-- Accrued vacation hours as a figure, whether or not the run of the months ends. -/
def accruedHours (c : Contract) (asOf : Date) : Binary64 :=
  (monthRun c.firstDay asOf).starts.foldl (fun total month => total + allowanceHours c month)
    (initialVacationHours c)

def vacationHours (es : List Entry) (p : Period) : Binary64 :=
  Binary64.ofFraction false (loggedAs es p .vacation) microsPerHour

/-- Vacation on a day with a month after it, of which every figure is finite and a duration. -/
structure VacationFits (c : Contract) (es : List Entry) (asOf : Date) : Prop where
  followed : ¬(asOf.year = 9999 ∧ asOf.month = 12)
  accrued : RoundableHours (accruedHours c asOf)
  taken : RoundableHours (vacationHours es (lifetimePeriod c asOf))
  remaining : RoundableHours (accruedHours c asOf - vacationHours es (lifetimePeriod c asOf))

theorem exists_carriedOvertime_iff {c : Contract} {p : Period} :
    (∃ d, carriedOvertime c p = .ok d ∧ Roundable d.micros) ↔
      (p.start = c.firstDay → RoundableHours c.initialOvertime) := by
  unfold carriedOvertime
  by_cases hp : p.start = c.firstDay
  · rw [if_pos hp, forall_prop_of_true hp]
    constructor
    · rintro ⟨d,hd,hround⟩
      rw [micros_of_ofHours hd] at hround
      exact ⟨(exists_ofHours_iff.mp ⟨d,hd⟩).1,hround⟩
    · rintro ⟨hfin,hround⟩
      obtain ⟨d,hd⟩ := exists_ofHours_iff.mpr ⟨hfin,hround.inRange⟩
      rw [← micros_of_ofHours hd] at hround
      exact ⟨d,hd,hround⟩
  · rw [if_neg hp]
    exact iff_of_true ⟨.zero,rfl,by decide,by decide⟩ fun h => absurd h hp

/-- The times of a summary may be negative, as long as they have a total. -/
theorem WorkSummary.FitsOvertime.exists_overtimeBalance {c : Contract} (hday : c.workingHours.WithinDay)
    {s : WorkSummary} (h : s.FitsOvertime c) {actual : Duration} (hactual : s.total = .ok actual) :
    ∃ b, (overtimeBalance c s).outcome = .ok b := by
  obtain ⟨hcarried,hlogged,hsum,hbalance⟩ := h
  obtain ⟨target,htarget,htargetMicros⟩ := exists_targetDuration hday s.period
  have hdue := roundable_due hday s.period
  obtain ⟨carry,hc,hcarry⟩ := exists_carriedOvertime_iff.mpr hcarried
  have h1 := micros_of_carriedOvertime hc
  have h2 : actual.micros = s.tally.sum := micros_of_sum hactual
  rw [← htargetMicros] at hdue
  rw [← h1] at hsum hbalance
  rw [← h2] at hlogged hsum hbalance
  obtain ⟨sum,hsum⟩ := exists_add_iff.mpr hsum
  rw [← micros_of_add hsum, ← htargetMicros] at hbalance
  obtain ⟨difference,hdiff⟩ := exists_sub_iff.mpr hbalance.inRange
  rw [← micros_of_sub hdiff] at hbalance
  obtain ⟨balance,hb⟩ := exists_roundedHours_iff.mpr hbalance
  obtain ⟨x,hx⟩ := exists_roundedHours_iff.mpr hcarry
  obtain ⟨y,hy⟩ := exists_roundedHours_iff.mpr hlogged
  obtain ⟨z,hz⟩ := exists_roundedHours_iff.mpr hdue
  exact ⟨_,overtimeBalance_eq_ok_iff.mpr ⟨⟨carry,actual,target,difference,x,z,y,balance,hc,hactual,htarget,
    bind_eq_ok_iff.mpr ⟨sum,hsum,hdiff⟩,hx,hz,hy,hb⟩,rfl⟩⟩

/-- With rates of a day, a summary has a balance exactly when its figures are in range. -/
theorem exists_overtimeBalance_iff_fits {c : Contract} (hday : c.workingHours.WithinDay) {s : WorkSummary}
    (hs : s.tally.Nonneg) : (∃ b, (overtimeBalance c s).outcome = .ok b) ↔ s.FitsOvertime c := by
  constructor
  · rintro ⟨b,hb⟩
    obtain ⟨o,-⟩ := overtimeBalance_eq_ok_iff.mp hb
    obtain ⟨sum,hsum,-⟩ := bind_eq_ok_iff.mp o.difference_eq
    have hcarry := micros_of_carriedOvertime o.carry_eq
    have hactual : o.actual.micros = s.tally.sum := micros_of_sum o.actual_eq
    refine ⟨exists_carriedOvertime_iff.mp ⟨_,o.carry_eq,exists_roundedHours_iff.mp ⟨_,o.initialHours_eq⟩⟩,
      ?_,?_,?_⟩
    · rw [← hactual]
      exact exists_roundedHours_iff.mp ⟨_,o.actualHours_eq⟩
    · rw [← hcarry, ← hactual]
      exact exists_add_iff.mp ⟨sum,hsum⟩
    · rw [← hcarry, ← hactual, ← micros_of_target o.target_eq, ← micros_of_balanceDuration o.difference_eq]
      exact exists_roundedHours_iff.mp ⟨_,o.balanceHours_eq⟩
  · intro hfits
    obtain ⟨actual,hactual⟩ := (exists_sum_iff hs).mpr hfits.logged.inRange
    exact hfits.exists_overtimeBalance hday hactual

theorem exists_overtimeBalance_iff {c : Contract} (hday : c.workingHours.WithinDay) {es : List Entry}
    {asOf : Date} {s : WorkSummary} (hs : summarize es (lifetimePeriod c asOf) = .ok s) :
    (∃ b, (overtimeBalance c s).outcome = .ok b) ↔ OvertimeFits c es (lifetimePeriod c asOf) := by
  have hperiod := (summarize_eq_ok_iff.mp hs).1
  have hcarried : carriedMicros c (lifetimePeriod c asOf) = hoursMicros c.initialOvertime := if_pos rfl
  rw [exists_overtimeBalance_iff_fits hday (nonneg_of_summarize hs)]
  constructor
  · rintro ⟨hcarry,hlogged,hsum,hbalance⟩
    rw [sum_of_summarize hs, hperiod, hcarried] at hsum hbalance
    rw [sum_of_summarize hs] at hlogged
    exact ⟨hcarry (by rw [hperiod]; rfl),hlogged,hsum,hbalance⟩
  · rintro ⟨hcarry,hlogged,hsum,hbalance⟩
    rw [← sum_of_summarize hs, ← hcarried, ← hperiod] at hsum hbalance
    rw [← sum_of_summarize hs] at hlogged
    exact ⟨fun _ => hcarry,hlogged,hsum,hbalance⟩

theorem accruedVacationHours_eq_ok_iff {c : Contract} {asOf : Date} {x : Binary64} :
    (accruedVacationHours c asOf).outcome = .ok x ↔
      ¬(asOf.year = 9999 ∧ asOf.month = 12) ∧ accruedHours c asOf = x := by
  unfold accruedVacationHours
  rw [Traced.outcome_bind, Traced.outcome_report, ok_bind]
  by_cases h : asOf.year = 9999 ∧ asOf.month = 12
  · have hfault : (monthRun c.firstDay asOf).fault? = some (.yearRange 10000) := if_pos h
    simp only [hfault]
    exact ⟨(fun hx => nomatch hx),fun hx => absurd h hx.1⟩
  · have hfault : (monthRun c.firstDay asOf).fault? = none := if_neg h
    simp only [hfault]
    rw [Traced.outcome_bind, Traced.outcome_report, ok_bind, Traced.outcome_pure]
    exact ⟨fun hx => ⟨h,Except.ok.inj hx⟩,fun hx => congrArg _ hx.2⟩

theorem outcome_accruedVacationHours {c : Contract} {asOf : Date} (h : ¬(asOf.year = 9999 ∧ asOf.month = 12)) :
    (accruedVacationHours c asOf).outcome = .ok (accruedHours c asOf) :=
  accruedVacationHours_eq_ok_iff.mpr ⟨h,rfl⟩

theorem exists_vacationBalance_iff {c : Contract} {es : List Entry} {asOf : Date} {s : WorkSummary}
    (hs : summarize es (lifetimePeriod c asOf) = .ok s) :
    (∃ b, (vacationBalance c s asOf).outcome = .ok b) ↔ VacationFits c es asOf := by
  have htaken : (s.elapsed .vacation).hours = vacationHours es (lifetimePeriod c asOf) := by
    rw [vacationHours, ← micros_of_elapsed hs]
    rfl
  constructor
  · rintro ⟨b,hb⟩
    obtain ⟨v,-⟩ := vacationBalance_eq_ok_iff.mp hb
    obtain ⟨hfollowed,haccrued⟩ := accruedVacationHours_eq_ok_iff.mp v.accrued_eq
    refine ⟨hfollowed,?_,?_,?_⟩
    · rw [haccrued]
      exact v.accrued_roundable
    · rw [← htaken]
      exact v.taken_roundable
    · rw [haccrued, ← htaken]
      exact v.remaining_roundable
  · rintro ⟨hfollowed,haccrued,htakenRange,hremaining⟩
    rw [← htaken] at htakenRange hremaining
    obtain ⟨x,hx⟩ := exists_roundHours_iff.mpr haccrued
    obtain ⟨y,hy⟩ := exists_roundHours_iff.mpr htakenRange
    obtain ⟨z,hz⟩ := exists_roundHours_iff.mpr hremaining
    exact ⟨_,vacationBalance_eq_ok_iff.mpr ⟨⟨_,x,y,z,outcome_accruedVacationHours hfollowed,hx,hy,hz⟩,rfl⟩⟩

theorem overtime_of_lifetimeBalance {c : Contract} {s : WorkSummary} {asOf : Date} {b : LifetimeBalance}
    (h : (lifetimeBalance c s asOf).outcome = .ok b) : (overtimeBalance c s).outcome = .ok b.overtime := by
  simp only [lifetimeBalance, Traced.outcome_bind, Traced.outcome_pure, bind_eq_ok_iff, Except.ok.injEq] at h
  obtain ⟨overtime,hovertime,vacation,-,rfl⟩ := h
  exact hovertime

/-- There is a balance of valid entries so far exactly when overtime and vacation are in range. -/
theorem exists_lifetimeBalance_iff {c : Contract} (hday : c.workingHours.WithinDay) {es : List Entry}
    (hes : ∀ e ∈ es, e.IsValid) (asOf : Date) :
    (∃ s b, summarize es (lifetimePeriod c asOf) = .ok s ∧ (lifetimeBalance c s asOf).outcome = .ok b) ↔
      OvertimeFits c es (lifetimePeriod c asOf) ∧ VacationFits c es asOf := by
  unfold lifetimeBalance
  simp only [Traced.outcome_bind, Traced.outcome_pure, bind_eq_ok_iff]
  constructor
  · rintro ⟨s,b,hs,overtime,hovertime,vacation,hvacation,-⟩
    exact ⟨(exists_overtimeBalance_iff hday hs).mp ⟨overtime,hovertime⟩,
      (exists_vacationBalance_iff hs).mp ⟨vacation,hvacation⟩⟩
  · rintro ⟨hover,hvac⟩
    have hrange := hover.logged.inRange
    obtain ⟨s,hs⟩ := (exists_summarize_iff hes (lifetimePeriod c asOf)).mpr fun cat => by
      have hlow := loggedAs_nonneg es (lifetimePeriod c asOf) cat
      have hhigh := loggedAs_le es (lifetimePeriod c asOf) cat
      exact ⟨by omega,hhigh.trans_lt hrange.2⟩
    obtain ⟨overtime,hovertime⟩ := (exists_overtimeBalance_iff hday hs).mpr hover
    obtain ⟨vacation,hvacation⟩ := (exists_vacationBalance_iff hs).mpr hvac
    exact ⟨s,_,hs,overtime,hovertime,vacation,hvacation,rfl⟩

end Flextime

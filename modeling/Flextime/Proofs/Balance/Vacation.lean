import Flextime.Proofs.Balance.Month
import Flextime.Proofs.Balance.VacationSteps
import Flextime.Proofs.Duration.Conversion

/-! # Vacation left

Days are left only of hours that are left, at a positive rate, and are never less than nothing, whatever
the rates are. The figures in hours are each rounded for themselves, and stay within a minute of each other.
-/
namespace Flextime
open Duration Binary64

theorem zero_le_remainingDays {remaining : Binary64} (h : remaining.isFinite = true) (daily : Binary64) :
    (zero false).le (remainingDays remaining daily) = true := by
  unfold remainingDays
  split
  next hpos =>
    obtain ⟨hleft,hrate⟩ := Bool.and_eq_true_iff.mp hpos
    rw [lt_iff_value rfl h, value_zero] at hleft
    exact zero_le_div h hleft.le hrate
  next => exact zero_le_zero false

theorem remainingDays_of_not_pos {remaining daily : Binary64}
    (h : (zero false).lt remaining = false ∨ (zero false).lt daily = false) :
    remainingDays remaining daily = zero false := by
  refine if_neg ?_
  rcases h with h | h <;> simp [h]

theorem remainingDays_of_pos {remaining daily : Binary64} (h : (zero false).lt remaining = true)
    (hdaily : (zero false).lt daily = true) : remainingDays remaining daily = remaining / daily := by
  rw [remainingDays, h, hdaily]
  rfl

section
variable {c : Contract} {s : WorkSummary} {asOf : Date} {b : VacationBalance}

/-- What is left is positive exactly when more has accrued than was taken. -/
theorem VacationSteps.remaining_pos_eq (v : VacationSteps c s asOf) :
    (zero false).lt (v.accrued - (s.elapsed .vacation).hours) = (s.elapsed .vacation).hours.lt v.accrued := by
  rw [Bool.eq_iff_iff]
  exact sub_pos_iff v.accrued_roundable.1 v.taken_roundable.1 v.remaining_roundable.1

theorem VacationSteps.minutes_near (v : VacationSteps c s asOf) :
    |wholeMinutes v.remainingHours - (wholeMinutes v.accruedHours - wholeMinutes v.takenHours)| ≤ 1 := by
  obtain ⟨haccrued,haccruedRange⟩ := v.accrued_roundable
  obtain ⟨htaken,htakenRange⟩ := v.taken_roundable
  have hnear := hoursMicros_sub_near haccrued htaken v.remaining_roundable.1 haccruedRange.inRange
    htakenRange.inRange
  rw [(isHoursOf_of_roundHours v.accruedHours_eq).wholeMinutes,
    (isHoursOf_of_roundHours v.takenHours_eq).wholeMinutes,
    (isHoursOf_of_roundHours v.remainingHours_eq).wholeMinutes]
  exact nearestMinutes_sub_near (hnear.trans (by decide))

theorem isNearestHours_of_roundHours {x y : Binary64} (h : roundHours x = .ok y) :
    IsNearestHours (wholeMinutes y) y := by
  have hhours := isHoursOf_of_roundHours h
  rw [hhours.wholeMinutes]
  exact hhours.isNearestHours

/-- Whatever the rates of a contract are, the days of a vacation balance are a number that is not negative:
nothing unless more has accrued than was taken and the rate of the day is positive, and else what is left at
that rate. Its hours are whole minutes, those left at most one off the difference of the others. -/
theorem vacationBalance_clamped (h : (vacationBalance c s asOf).outcome = .ok b) :
    ∃ accrued, (accruedVacationHours c asOf).outcome = .ok accrued ∧
      b.remainingDays.isNaN = false ∧ (zero false).le b.remainingDays = true ∧
      ((s.elapsed .vacation).hours.lt accrued = false ∨ (zero false).lt (c.workingHours.rateAt asOf) = false →
        b.remainingDays = zero false) ∧
      ((s.elapsed .vacation).hours.lt accrued = true → (zero false).lt (c.workingHours.rateAt asOf) = true →
        b.remainingDays = (accrued - (s.elapsed .vacation).hours) / c.workingHours.rateAt asOf) ∧
      (∀ x ∈ [b.accruedHours,b.takenHours,b.remainingHours], IsNearestHours (wholeMinutes x) x) ∧
      |wholeMinutes b.remainingHours - (wholeMinutes b.accruedHours - wholeMinutes b.takenHours)| ≤ 1 := by
  obtain ⟨v,rfl⟩ := vacationBalance_eq_ok_iff.mp h
  have hnonneg := zero_le_remainingDays v.remaining_roundable.1 (c.workingHours.rateAt asOf)
  refine ⟨v.accrued,v.accrued_eq,isNaN_of_le hnonneg,hnonneg,?_,?_,?_,v.minutes_near⟩
  · rw [← v.remaining_pos_eq]
    exact remainingDays_of_not_pos
  · rw [← v.remaining_pos_eq]
    exact remainingDays_of_pos
  · intro x hx
    simp only [List.mem_cons, List.not_mem_nil, or_false] at hx
    rcases hx with rfl | rfl | rfl
    · exact isNearestHours_of_roundHours v.accruedHours_eq
    · exact isNearestHours_of_roundHours v.takenHours_eq
    · exact isNearestHours_of_roundHours v.remainingHours_eq

/-- Eight hours a day in January 2023, and no bound on them from the second of February on. -/
def unboundedContract : Contract where
  firstDay := dayIn2023 1
  initialOvertime := .zero false
  initialVacation := .zero false
  workingHours := ⟨[⟨dayIn2023 1,ofInt 8⟩,⟨dayIn2023 33,.infinite false⟩],by decide,by decide +kernel⟩
  vacationDays := ⟨[⟨dayIn2023 1,ofInt 2⟩],by decide,by decide +kernel⟩

def vacationInJanuary (d : Duration) : WorkSummary where
  period := ⟨dayIn2023 1,dayIn2023 32⟩
  tally := ⟨[(.vacation,d)],List.nodup_singleton _⟩

/-- Half a minute off 32 hours counts as a minute taken, and 32 hours are left; they make no day where a day
has no end. -/
theorem vacationBalance_clamped_unbounded :
    ∃ b, (vacationBalance unboundedContract (vacationInJanuary ⟨30000000,by decide,by decide⟩)
        (dayIn2023 33)).outcome = .ok b ∧
      (wholeMinutes b.accruedHours,wholeMinutes b.takenHours,wholeMinutes b.remainingHours) = (1920,1,1920) ∧
      |wholeMinutes b.remainingHours - (wholeMinutes b.accruedHours - wholeMinutes b.takenHours)| ≤ 1 ∧
      b.remainingDays = zero false := by
  have hfigures : ((vacationBalance unboundedContract (vacationInJanuary ⟨30000000,by decide,by decide⟩)
      (dayIn2023 33)).outcome.map fun b =>
      (wholeMinutes b.accruedHours,wholeMinutes b.takenHours,wholeMinutes b.remainingHours)) =
      .ok (1920,1,1920) := by decide +kernel
  have haccrued : (accruedVacationHours unboundedContract (dayIn2023 33)).outcome = .ok (ofInt 32) := by
    decide +kernel
  obtain ⟨b,hb,hb'⟩ := map_eq_ok_iff.mp hfigures
  obtain ⟨accrued,hx,-,-,-,hdays,-,hnear⟩ := vacationBalance_clamped hb
  obtain rfl := Except.ok.inj (hx.symm.trans haccrued)
  refine ⟨b,hb,hb',hnear,?_⟩
  rw [hdays (by decide +kernel) (by decide +kernel)]
  decide +kernel

/-- Vacation of up to a million hours is the same microseconds after it has been hours. So what the vacation
balance says was taken is the time rounded at once, as a month says it. -/
theorem takenHours_direct (hlimit : |(s.elapsed .vacation).micros| ≤ 10 ^ 6 * microsPerHour) :
    ofHours (s.elapsed .vacation).hours = .ok (s.elapsed .vacation) ∧
      ∀ c asOf b, (vacationBalance c s asOf).outcome = .ok b →
        (s.elapsed .vacation).roundedHours = .ok b.takenHours ∧
        ∀ c' today m, (monthBalance c' s today).outcome = .ok m →
          m.categoryHours.get .vacation = b.takenHours := by
  have hback := ofHours_hours (hlimit.trans_lt (by decide))
  refine ⟨hback,fun c asOf b hb => ?_⟩
  obtain ⟨v,rfl⟩ := vacationBalance_eq_ok_iff.mp hb
  have hdirect : (s.elapsed .vacation).roundedHours = .ok v.takenHours := by
    rw [← v.takenHours_eq, roundHours, hback, ok_bind]
  refine ⟨hdirect,fun c' today m hm => ?_⟩
  obtain ⟨steps,rfl⟩ := monthBalance_eq_ok_iff.mp hm
  exact Except.ok.inj ((steps.roundedHours_categories .vacation).symm.trans hdirect)

/-- Half a minute less than a million hours. -/
def nearlyMillionHours : WorkSummary := vacationInJanuary ⟨3599999970000000,by decide,by decide⟩

/-- The half minute is rounded up. -/
theorem takenHours_direct_million :
    |(nearlyMillionHours.elapsed .vacation).micros| ≤ 10 ^ 6 * microsPerHour ∧
      ∃ b m, (vacationBalance unboundedContract nearlyMillionHours (dayIn2023 33)).outcome = .ok b ∧
        (monthBalance unboundedContract nearlyMillionHours (dayIn2023 31)).outcome = .ok m ∧
        b.takenHours = ofInt 1000000 ∧ m.categoryHours.get .vacation = ofInt 1000000 := by
  have hlimit : |(nearlyMillionHours.elapsed .vacation).micros| ≤ 10 ^ 6 * microsPerHour := by decide
  obtain ⟨b,hb⟩ : ∃ b, (vacationBalance unboundedContract nearlyMillionHours (dayIn2023 33)).outcome = .ok b :=
    exists_of_isOk (by decide +kernel)
  obtain ⟨m,hm⟩ : ∃ m, (monthBalance unboundedContract nearlyMillionHours (dayIn2023 31)).outcome = .ok m :=
    exists_of_isOk (by decide +kernel)
  have hmillion : (nearlyMillionHours.elapsed .vacation).roundedHours = .ok (ofInt 1000000) := by
    decide +kernel
  obtain ⟨hdirect,hmonth⟩ := (takenHours_direct hlimit).2 _ _ b hb
  have htaken := Except.ok.inj (hdirect.symm.trans hmillion)
  exact ⟨hlimit,b,m,hb,hm,htaken,(hmonth _ _ m hm).trans htaken⟩

end
end Flextime

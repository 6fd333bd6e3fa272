import Flextime.Proofs.Balance.MonthTarget
import Flextime.Proofs.Duration.Minutes
import Flextime.Proofs.Entry.Summary
import Mathlib.Algebra.BigOperators.Ring.List

/-! # When there is a balance of a month

Percentages never fail: a total is nothing, or at least a minute. What is left to fail is a figure
outside the range of durations.
-/
namespace Flextime
open Duration

theorem PerCategory.traverse_eq_ok_iff {α : Type} {f : Category → Except Fault α} {p : PerCategory α} :
    PerCategory.traverse f = .ok p ↔ ∀ c, f c = .ok (p.get c) := by
  simp only [traverse, bind_eq_ok_iff, pure_eq_ok_iff]
  constructor
  · rintro ⟨work,hwork,travel,htravel,vacation,hvacation,holiday,hholiday,illness,hillness,rfl⟩ c
    cases c <;> assumption
  · intro h
    exact ⟨p.work,h .work,p.travel,h .travel,p.vacation,h .vacation,p.holiday,h .holiday,
      p.illness,h .illness,rfl⟩

theorem PerCategory.exists_traverse {α : Type} {f : Category → Except Fault α} (h : ∀ c, ∃ a, f c = .ok a) :
    ∃ p, PerCategory.traverse f = .ok p := by
  choose g hg using h
  exact ⟨ofFn g,traverse_eq_ok_iff.mpr fun c => by rw [get_ofFn, hg c]⟩

theorem Category.le_sum {f : Category → Int} (h : ∀ cat, 0 ≤ f cat) (cat : Category) :
    f cat ≤ (all.map f).sum := by
  apply List.single_le_sum
  · intro n hn
    obtain ⟨c,-,rfl⟩ := List.mem_map.mp hn
    exact h c
  · exact List.mem_map_of_mem cat.mem_all

theorem integerPart_eq_ok_iff {x : Binary64} {k : Int} :
    integerPart x = .ok k ↔ x.isFinite = true ∧ x.truncate = k := by
  cases x with
  | finite s m e hc => exact ⟨fun h => ⟨rfl,Except.ok.inj h⟩,fun h => congrArg _ h.2⟩
  | nan => exact ⟨(fun h => nomatch h),fun h => nomatch h.1⟩
  | infinite s => exact ⟨(fun h => nomatch h),fun h => nomatch h.1⟩

theorem value_hundred : (Binary64.ofInt 100).isFinite = true ∧ (Binary64.ofInt 100).value = 100 := by
  obtain ⟨hfin,hval⟩ : (Binary64.ofInt 100).isFinite = true ∧ (Binary64.ofInt 100).value = (100 : ℕ) :=
    Binary64.ofInt_natCast (by decide)
  exact ⟨hfin,by rw [hval]; norm_num⟩

theorem isHoursOf_max {a b : Duration} {m n : Int} (ha : a.micros = m * microsPerMinute)
    (hb : b.micros = n * microsPerMinute) : IsHoursOf (max m n) (a.max b).hours := by
  refine ⟨_,?_,rfl⟩
  unfold Duration.max
  rw [microsPerMinute] at ha hb ⊢
  split <;> omega

theorem exists_percentage (d : Duration) {n : Int} {total : Binary64} (h : IsHoursOf n total) :
    ∃ k, percentage d.hours total = .ok k := by
  obtain ⟨hdfin,hdbound⟩ := d.hours_le
  unfold percentage
  by_cases hle : total.le (.zero false) = true
  · exact ⟨0,if_pos hle⟩
  · rw [if_neg hle]
    rw [h.nonpos_iff, not_le] at hle
    have hlow := h.two_zpow_le_value hle
    have hvalue := h.value_pos hle
    have hquot : |d.hours.value / total.value| ≤ 2 ^ (41 : ℤ) := by
      rw [abs_div, abs_of_pos hvalue, div_le_iff₀ hvalue]
      calc |d.hours.value| ≤ 2 ^ (41 : ℤ) * 2 ^ (-6 : ℤ) := by
            rw [← zpow_add₀ two_ne_zero]
            exact hdbound
        _ ≤ 2 ^ (41 : ℤ) * total.value := mul_le_mul_of_nonneg_left hlow (Binary64.two_zpow_pos 41).le
    obtain ⟨hqfin,hqbound⟩ :=
      Binary64.div_le_two_zpow hdfin h.isFinite hvalue.ne' (by decide) (by decide) hquot
    obtain ⟨hhundred,hhundredValue⟩ := value_hundred
    refine ⟨_,integerPart_eq_ok_iff.mpr ⟨?_,rfl⟩⟩
    refine (Binary64.mul_le_two_zpow hqfin hhundred (k := 48) (by decide) (by decide) ?_).1
    rw [abs_mul, hhundredValue]
    calc |(d.hours / total).value| * |(100 : ℚ)| ≤ 2 ^ (41 : ℤ) * 2 ^ (7 : ℤ) :=
          mul_le_mul hqbound (by norm_num) (abs_nonneg _) (Binary64.two_zpow_pos 41).le
      _ = 2 ^ (48 : ℤ) := by rw [← zpow_add₀ two_ne_zero]; rfl

/-- The minutes of all categories, each rounded by itself. -/
def WorkSummary.roundedMinutes (s : WorkSummary) : Int :=
  (Category.all.map fun cat => nearestMinutes (s.elapsed cat).micros).sum

/-- What is logged in a period, each category in whole minutes. -/
def roundedLog (es : List Entry) (p : Period) : Int :=
  (Category.all.map fun c => nearestMinutes (loggedAs es p c) * microsPerMinute).sum

/-- A month of which every figure is a duration, also after rounding. -/
structure MonthFits (c : Contract) (es : List Entry) (p : Period) : Prop where
  categories : ∀ cat, Roundable (loggedAs es p cat)
  actual : InRange (roundedLog es p)
  rest : InRange (nearestMinutes (c.workingHours.owed p.days) * microsPerMinute - roundedLog es p)

/-- The same of a summary, whichever way its period runs. -/
structure WorkSummary.FitsMonth (s : WorkSummary) (c : Contract) : Prop where
  categories : ∀ cat, Roundable (s.elapsed cat).micros
  actual : InRange (s.roundedMinutes * microsPerMinute)
  rest : InRange (nearestMinutes (c.workingHours.due s.period) * microsPerMinute -
    s.roundedMinutes * microsPerMinute)

theorem nearestMinutes_nonneg {n : Int} (h : 0 ≤ n) : 0 ≤ nearestMinutes n := by
  rw [nearestMinutes, if_neg h.not_gt]
  exact Int.natCast_nonneg _

section
variable {s : WorkSummary} {cs : PerCategory Duration}

theorem exists_roundedCategories_iff :
    (∃ cs, roundedCategories s = .ok cs) ↔ ∀ cat, Roundable (s.elapsed cat).micros := by
  constructor
  · rintro ⟨cs,hcs⟩ cat
    exact exists_roundToMinute_iff.mp ⟨_,PerCategory.traverse_eq_ok_iff.mp hcs cat⟩
  · intro h
    apply PerCategory.exists_traverse
    intro cat
    exact exists_roundToMinute_iff.mpr (h cat)

theorem micros_of_roundedCategories (h : roundedCategories s = .ok cs) (cat : Category) :
    (cs.get cat).micros = nearestMinutes (s.elapsed cat).micros * microsPerMinute :=
  micros_of_roundToMinute (PerCategory.traverse_eq_ok_iff.mp h cat)

theorem nonneg_of_roundedCategories (hs : s.tally.Nonneg) (h : roundedCategories s = .ok cs) :
    ∀ d ∈ cs.values, 0 ≤ d.micros := by
  intro d hd
  obtain ⟨cat,-,rfl⟩ := List.mem_map.mp hd
  rw [micros_of_roundedCategories h cat]
  exact Int.mul_nonneg (nearestMinutes_nonneg (hs.get cat)) (Int.natCast_nonneg _)

theorem sum_roundedCategories (h : roundedCategories s = .ok cs) :
    (cs.values.map micros).sum = s.roundedMinutes * microsPerMinute := by
  rw [PerCategory.values, List.map_map, WorkSummary.roundedMinutes, ← List.sum_map_mul_right]
  exact congrArg List.sum (List.map_congr_left fun cat _ => micros_of_roundedCategories h cat)

end

/-- Rounding takes no target of days of the calendar below zero or out of range. -/
theorem rounded_owed_bounds {t : RateTimeline} (h : t.WithinDay) {p : Period} {ds : List Date}
    (hds : t.owed ds ≤ t.owed p.days) :
    Roundable (t.owed ds) ∧ 0 ≤ nearestMinutes (t.owed ds) * microsPerMinute ∧
      nearestMinutes (t.owed ds) * microsPerMinute < 999999999 * 86400000000 := by
  have hlow := RateTimeline.owed_nonneg h ds
  have hhigh := hds.trans (RateTimeline.owed_days_le h p)
  have hlarge := calendarMicros_lt
  have hnear := nearestMinutes_near (t.owed ds)
  have habs := le_abs_self (nearestMinutes (t.owed ds) * microsPerMinute - t.owed ds)
  rw [show ((microsPerMinute : Nat) : Int) = 60000000 from rfl] at hnear habs ⊢
  have hround := nearestMinutes_nonneg hlow
  exact ⟨⟨by omega,by omega⟩,by omega,by omega⟩

section
variable {c : Contract} {s : WorkSummary} {today : Date} {b : MonthBalance}

theorem MonthSteps.target_micros (m : MonthSteps c s today) :
    m.roundedTarget.micros = nearestMinutes m.target.micros * microsPerMinute :=
  micros_of_roundToMinute m.roundedTarget_eq

theorem MonthSteps.actual_micros (m : MonthSteps c s today) :
    m.actual.micros = s.roundedMinutes * microsPerMinute :=
  (micros_of_sum m.actual_eq).trans (sum_roundedCategories m.categories_eq)

theorem MonthSteps.roundedHours_categories (m : MonthSteps c s today) (cat : Category) :
    (s.elapsed cat).roundedHours = .ok (m.result.categoryHours.get cat) :=
  roundedHours_eq_ok_iff.mpr
    ⟨m.categories.get cat,PerCategory.traverse_eq_ok_iff.mp m.categories_eq cat,PerCategory.get_ofFn _ cat⟩

theorem MonthSteps.isHoursOf_categories (m : MonthSteps c s today) (cat : Category) :
    IsHoursOf (nearestMinutes (s.elapsed cat).micros) (m.result.categoryHours.get cat) :=
  isHoursOf_of_roundedHours (m.roundedHours_categories cat)

theorem fitsMonth_of_monthBalance (h : (monthBalance c s today).outcome = .ok b) : s.FitsMonth c := by
  obtain ⟨m,-⟩ := monthBalance_eq_ok_iff.mp h
  have hrest := exists_sub_iff.mp ⟨m.remaining,m.remaining_eq⟩
  rw [m.target_micros, micros_of_target m.target_eq, m.actual_micros] at hrest
  refine ⟨exists_roundedCategories_iff.mp ⟨_,m.categories_eq⟩,?_,hrest⟩
  rw [← m.actual_micros]
  exact ⟨m.actual.lower,m.actual.upper⟩

theorem exists_monthBalance (hday : c.workingHours.WithinDay) (htoday : today.number < lastDayNumber)
    (hs : s.tally.Nonneg) (h : s.FitsMonth c) : ∃ b, (monthBalance c s today).outcome = .ok b := by
  obtain ⟨hcategories,hactualRange,hrest⟩ := h
  obtain ⟨cs,hcs⟩ := exists_roundedCategories_iff.mpr hcategories
  have hnonneg := nonneg_of_roundedCategories hs hcs
  have hactual0 := sum_map_nonneg hnonneg
  rw [← sum_roundedCategories hcs] at hactualRange hrest
  obtain ⟨actual,hactual⟩ := (exists_sum_iff hnonneg).mpr hactualRange
  rw [← micros_of_sum hactual] at hactualRange hrest hactual0
  -- the target, rounded, and what is left of it
  obtain ⟨fullTarget,hfullTarget,htargetMicros⟩ := exists_targetDuration hday s.period
  have htargetRange := roundable_due hday s.period
  rw [← htargetMicros] at htargetRange hrest
  obtain ⟨target,htarget⟩ := exists_roundToMinute_iff.mpr htargetRange
  rw [← micros_of_roundToMinute htarget] at hrest
  obtain ⟨remaining,hremaining⟩ := exists_sub_iff.mpr hrest
  -- what is required so far, rounded, and the balance against it
  obtain ⟨fullRequired,hfullRequired,hrequiredMicros⟩ := exists_requiredDuration hday s.period htoday
  obtain ⟨hrequiredRange,hrequired0,hrequired1⟩ :=
    rounded_owed_bounds hday (owed_daysUntil_le hday today s.period.days)
  rw [← hrequiredMicros] at hrequiredRange hrequired0 hrequired1
  obtain ⟨required,hrequired⟩ := exists_roundToMinute_iff.mpr hrequiredRange
  rw [← micros_of_roundToMinute hrequired] at hrequired0 hrequired1
  obtain ⟨balance,hbalance⟩ := exists_sub_iff (a := actual) (b := required).mpr (by
    unfold InRange at hactualRange ⊢
    omega)
  have htotal := isHoursOf_max (micros_of_roundToMinute htarget)
    ((micros_of_sum hactual).trans (sum_roundedCategories hcs))
  obtain ⟨percentages,hpercentages⟩ : ∃ ps,
      categoryPercentages (cs.map Duration.hours) (target.max actual).hours = .ok ps := by
    apply PerCategory.exists_traverse
    intro cat
    rw [PerCategory.map, PerCategory.get_ofFn]
    exact exists_percentage _ htotal
  exact ⟨_,monthBalance_eq_ok_iff.mpr ⟨⟨cs,actual,fullTarget,target,fullRequired,required,balance,percentages,
    remaining,hcs,hactual,hfullTarget,htarget,hfullRequired,hrequired,hbalance,hpercentages,hremaining⟩,rfl⟩⟩

/-- Each percentage is a share of the larger of target and actual, all of them in whole minutes. -/
theorem monthBalance_shares (h : (monthBalance c s today).outcome = .ok b) :
    ∃ (target : Duration) (total : Binary64), (targetDuration c.workingHours s.period).outcome = .ok target ∧
      IsHoursOf (max (nearestMinutes target.micros) s.roundedMinutes) total ∧
      ∀ cat, IsHoursOf (nearestMinutes (s.elapsed cat).micros) (b.categoryHours.get cat) ∧
        percentage (b.categoryHours.get cat) total = .ok (b.percentages.get cat) := by
  obtain ⟨m,rfl⟩ := monthBalance_eq_ok_iff.mp h
  refine ⟨m.target,_,m.target_eq,isHoursOf_max m.target_micros m.actual_micros,fun cat => ?_⟩
  exact ⟨m.isHoursOf_categories cat,PerCategory.traverse_eq_ok_iff.mp m.percentages_eq cat⟩

end

section
variable {c : Contract} {es : List Entry} {p : Period}

theorem monthFits_iff (hp : p.start ≤ p.stop) {s : WorkSummary} (hs : summarize es p = .ok s) :
    MonthFits c es p ↔ s.FitsMonth c := by
  have hperiod := (summarize_eq_ok_iff.mp hs).1
  have hlog : s.roundedMinutes * microsPerMinute = roundedLog es p := by
    simp only [roundedLog, ← micros_of_elapsed hs]
    exact (List.sum_map_mul_right ..).symm
  have hdue : c.workingHours.due s.period = c.workingHours.owed p.days := by
    rw [hperiod, RateTimeline.due_of_le hp]
  constructor
  · rintro ⟨hcategories,hactual,hrest⟩
    refine ⟨fun cat => ?_,hlog ▸ hactual,?_⟩
    · rw [micros_of_elapsed hs]
      exact hcategories cat
    · rw [hlog, hdue]
      exact hrest
  · rintro ⟨hcategories,hactual,hrest⟩
    refine ⟨fun cat => ?_,hlog ▸ hactual,?_⟩
    · rw [← micros_of_elapsed hs]
      exact hcategories cat
    · rw [← hlog, ← hdue]
      exact hrest

/-- With rates of a day, valid entries have a month's balance exactly when its figures are in range. -/
theorem exists_monthBalance_iff (hday : c.workingHours.WithinDay) (hes : ∀ e ∈ es, e.IsValid)
    (hp : p.start ≤ p.stop) {today : Date} (htoday : today.number < lastDayNumber) :
    (∃ s b, summarize es p = .ok s ∧ (monthBalance c s today).outcome = .ok b) ↔ MonthFits c es p := by
  constructor
  · rintro ⟨s,b,hs,hb⟩
    exact (monthFits_iff hp hs).mpr (fitsMonth_of_monthBalance hb)
  · intro h
    obtain ⟨s,hs⟩ := (exists_summarize_iff hes p).mpr fun cat => (h.categories cat).inRange
    obtain ⟨b,hb⟩ := exists_monthBalance hday htoday (nonneg_of_summarize hs) ((monthFits_iff hp hs).mp h)
    exact ⟨s,b,hs,hb⟩

end
end Flextime

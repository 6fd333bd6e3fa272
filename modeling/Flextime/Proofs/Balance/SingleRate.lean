import Flextime.Proofs.Calendar.MonthRun
import Flextime.Proofs.Intake.Acceptance
import Flextime.Proofs.Balance.MonthTarget

/-! # Months at a single rate

A period is a single piece unless a rate changes inside it. The rates of an accepted contract change with
months, so no month is ever cut, and its target is owed at the rate with which the month starts.
-/
namespace Flextime
open Duration

theorem Duration.zero_add_eq (d : Duration) : zero.add d = .ok d := by
  rw [add, show zero.micros + d.micros = d.micros from Int.zero_add _, ofMicros_micros]

section
variable {t : RateTimeline} {p : Period}

/-- What takes effect on the first of a month takes effect inside none. -/
theorem RateTimeline.changesWithin_month (h : ∀ c ∈ t.changes, c.effective.day = 1) {k : Nat}
    (hp : IsMonth k p) {stop : Date} (hstop : stop ≤ p.stop) : t.changesWithin p.start stop = [] := by
  rw [List.eq_nil_iff_forall_not_mem]
  intro d hd
  obtain ⟨⟨c,hc,rfl⟩,hstart,hinside⟩ := mem_changesWithin.mp hd
  have hindex : c.effective.monthIndex = k :=
    hp.mem_days.mp (Period.mem_days.mpr ⟨Nat.le_of_lt hstart,Nat.lt_of_lt_of_le hinside hstop⟩)
  have hnumber := Date.number_of_first (h c hc)
  rw [hindex, ← hp.1] at hnumber
  exact Nat.ne_of_gt hstart hnumber

theorem targetDuration_uncut (h : t.changesWithin p.start p.stop = []) :
    (targetDuration t p).outcome = timeAtRate (t.rateAt p.start) p.start p.stop := by
  have hpieces : pieces t p = [p] := by
    rw [pieces_eq, RateTimeline.cuts, h]
    rfl
  rw [targetDuration, hpieces, List.foldlM_cons, Traced.outcome_bind, outcome_addPiece, bind_assoc]
  simp only [Duration.zero_add_eq, ok_bind, List.foldlM_nil, Traced.outcome_pure]
  exact bind_pure _

end

/-- Every month of an accepted contract but December 9999 has a single rate. Its target is the working days from
its first day up to that of the next month at the rate of the first day, and what is required once the month has
begun is those up to and including the day. -/
theorem month_singleRate {v : Json} {d : ContractDraft} {c : Contract} (hd : Intake.contract v = .ok d)
    (hc : d.terms = .ok c) {year month : Int} (hfollowed : IsFollowed year month) {today : Date}
    (htoday : today.number < lastDayNumber) :
    ∃ (p : Period) (target required : Duration), monthPeriod year month = .ok p ∧
      ((p.start.year : Int) = year ∧ (p.start.month : Int) = month ∧ p.start.day = 1) ∧
      p.start.nextMonth = .ok p.stop ∧ c.workingHours.changesWithin p.start p.stop = [] ∧
      (targetDuration c.workingHours p).outcome = .ok target ∧
      timeAtRate (c.workingHours.rateAt p.start) p.start p.stop = .ok target ∧
      (requiredDuration c p today).outcome = .ok required ∧
      (p.start ≤ today → ∃ tomorrow, today.plus? 1 = some tomorrow ∧
        timeAtRate (c.workingHours.rateAt p.start) p.start (min tomorrow p.stop) = .ok required) := by
  have hwell := Intake.contract_wellFormed hd
  have hday := hwell.withinDay hc
  have hstarts := (hwell.hours.keeps (ContractDraft.terms_of_eq_ok hc).hours).monthStart
  obtain ⟨p,hp,hmonth⟩ := hfollowed.exists_monthPeriod
  obtain ⟨target,htarget,-⟩ := exists_targetDuration hday p
  obtain ⟨required,hrequired,-⟩ := exists_requiredDuration hday p htoday
  obtain ⟨hfirst,hindex⟩ := hmonth.start_first
  obtain ⟨hyear,hmonthNumber⟩ := (hfollowed.monthIndex_eq_iff p.start).mp hindex
  have huncut := RateTimeline.changesWithin_month hstarts hmonth (Nat.le_refl _)
  refine ⟨p,target,required,hp,⟨hyear,hmonthNumber,hfirst⟩,hmonth.nextMonth,huncut,htarget,?_,hrequired,?_⟩
  · rw [← targetDuration_uncut huncut, htarget]
  · intro hbegun
    obtain ⟨tomorrow,htomorrow,⟨hnone,-⟩ | ⟨-,htime⟩⟩ := requiredDuration_eq_ok_iff.mp hrequired
    · have hnext := Date.plus?_eq_some_iff.mp htomorrow
      have hlength := hmonth.lt
      rw [Date.le_iff, Date.number_min] at hnone
      rw [Date.le_iff] at hbegun
      rw [Date.lt_iff] at hlength
      omega
    · have hstop : min tomorrow p.stop ≤ p.stop := by
        rw [Date.le_iff, Date.number_min]
        exact Nat.min_le_right _ _
      have hpart := RateTimeline.changesWithin_month hstarts hmonth hstop
      rw [targetDuration_uncut (p := ⟨p.start,min tomorrow p.stop⟩) hpart] at htime
      exact ⟨tomorrow,htomorrow,htime⟩

/-- April 2023 is at seven and a half hours a day, though June is listed before it. It has 20 working days, of
which ten have come by the fourteenth. -/
theorem month_singleRate_april :
    ∃ c, Intake.contract unsortedContract = .ok unsortedDraft ∧ unsortedDraft.terms = .ok c ∧
      (targetDuration c.workingHours ⟨dayIn2023 91,dayIn2023 121⟩).outcome =
        .ok ⟨20 * 27000000000,by decide,by decide⟩ ∧
      (requiredDuration c ⟨dayIn2023 91,dayIn2023 121⟩ (dayIn2023 104)).outcome =
        .ok ⟨10 * 27000000000,by decide,by decide⟩ := by
  have haccepted : Intake.contract unsortedContract = .ok unsortedDraft := by decide +kernel
  have hwell := Intake.contract_wellFormed haccepted
  obtain ⟨c,hc⟩ := hwell.exists_terms
  have hlatest : IsLatest unsortedDraft.workingHours (dayIn2023 91)
      ⟨dayIn2023 91,Binary64.ofFraction false 15 2⟩ :=
    ⟨by decide +kernel,by decide,by decide +kernel⟩
  obtain ⟨e,he,hrate⟩ :=
    (hwell.hours.keeps (ContractDraft.terms_of_eq_ok hc).hours).covered (dayIn2023 91) (by decide)
  rw [← (he _).mp hlatest] at hrate
  have hapril : IsFollowed 2023 4 := by
    unfold IsFollowed
    decide
  have htoday : (dayIn2023 104).number < lastDayNumber := by decide
  obtain ⟨p,target,required,hp,-,-,-,htarget,htime,hrequired,hbegun⟩ :=
    month_singleRate haccepted hc hapril htoday
  have hperiod : monthPeriod 2023 4 = .ok ⟨dayIn2023 91,dayIn2023 121⟩ := by decide +kernel
  obtain rfl := Except.ok.inj (hp.symm.trans hperiod)
  obtain ⟨tomorrow,htomorrow,hpart⟩ := hbegun (by decide)
  have hfifteenth : (dayIn2023 104).plus? 1 = some (dayIn2023 105) := by decide +kernel
  obtain rfl := Option.some.inj (htomorrow.symm.trans hfifteenth)
  rw [hrate] at htime hpart
  refine ⟨c,haccepted,hc,?_,?_⟩
  · rw [htarget, ← htime]
    decide +kernel
  · rw [hrequired, ← hpart]
    decide +kernel

end Flextime

import Flextime.Proofs.Balance.Accepted
import Flextime.Proofs.Intake.Acceptance

/-! # What is required day by day

Until a period begins nothing of its target is required, and from its last day on all of it. Each day in
between adds what it owes itself, so that more is required the later it is, and never more than the target.
-/
namespace Flextime
open Duration

section
variable {today later next : Date}

theorem daysUntil_of_lt {p : Period} (h : today < p.start) : daysUntil today p.days = [] := by
  rw [daysUntil, List.filter_eq_nil_iff]
  intro d hd
  obtain ⟨hstart,-⟩ := Period.mem_days.mp hd
  rw [decide_eq_true_eq]
  simp only [Date.le_iff, Date.lt_iff] at *
  omega

theorem daysUntil_daysUntil (h : today ≤ later) (ds : List Date) :
    daysUntil today (daysUntil later ds) = daysUntil today ds := by
  rw [daysUntil, daysUntil, daysUntil, List.filter_filter]
  refine List.filter_congr fun d _ => ?_
  rw [← Bool.decide_and, decide_eq_decide]
  simp only [Date.le_iff] at *
  omega

/-- The one day that is new. -/
theorem daysUntil_next (h : next.number = today.number + 1) {ds : List Date} (hds : ds.Nodup) :
    (daysUntil next ds).filter (fun d => !decide (d ≤ today)) = if next ∈ ds then [next] else [] := by
  have hnew : (daysUntil next ds).filter (fun d => !decide (d ≤ today)) = ds.filter fun d => d = next := by
    rw [daysUntil, List.filter_filter]
    refine List.filter_congr fun d _ => ?_
    have hnext : d = next ↔ d.number = next.number := ⟨congrArg _,Date.ext_number⟩
    rw [← decide_not, ← Bool.decide_and, decide_eq_decide, hnext]
    simp only [Date.le_iff]
    omega
  rw [hnew, List.filter_eq, hds.count]
  split <;> rfl

theorem owed_daysUntil_mono {t : RateTimeline} (ht : t.WithinDay) (h : today ≤ later) (ds : List Date) :
    t.owed (daysUntil today ds) ≤ t.owed (daysUntil later ds) := by
  rw [← daysUntil_daysUntil h ds]
  exact owed_daysUntil_le ht today _

theorem owed_daysUntil_next {t : RateTimeline} (h : next.number = today.number + 1) {ds : List Date}
    (hds : ds.Nodup) : t.owed (daysUntil next ds) = t.owed (daysUntil today ds) +
      if next ∈ ds ∧ next.isWorkingDay = true then hoursMicros (t.rateAt next) else 0 := by
  have hsplit := RateTimeline.owed_filter (t := t) (fun d => decide (d ≤ today)) (daysUntil next ds)
  have hle : today ≤ next := Nat.le.intro h.symm
  have hearlier := daysUntil_daysUntil hle ds
  rw [daysUntil] at hearlier
  rw [← hsplit, daysUntil_next h hds, hearlier]
  by_cases hmem : next ∈ ds
  · simp [hmem, RateTimeline.owed_cons]
  · simp [hmem]

end

theorem Period.days_nodup (p : Period) : p.days.Nodup := Date.ascending_nodup p.days_sorted

section
variable {c : Contract} {p : Period} {today later next : Date} {required : Duration}

/-- One day later, what a working day of the period owes is required as well, and else nothing. -/
theorem requiredDuration_next (ht : c.workingHours.WithinDay) (hnext : next.number = today.number + 1)
    (hlast : next.number < lastDayNumber) (h : (requiredDuration c p today).outcome = .ok required) :
    ∃ required', (requiredDuration c p next).outcome = .ok required' ∧
      (p.start ≤ next ∧ next < p.stop ∧ next.isWorkingDay = true →
        ∃ u, ofHours (c.workingHours.rateAt next) = .ok u ∧ required.add u = .ok required') ∧
      (¬(p.start ≤ next ∧ next < p.stop ∧ next.isWorkingDay = true) → required' = required) := by
  obtain ⟨required',hrequired',hmicros⟩ := exists_requiredDuration ht p hlast
  rw [owed_daysUntil_next hnext p.days_nodup, ← micros_of_requiredDuration h] at hmicros
  rw [← and_assoc, ← Period.mem_days]
  refine ⟨required',hrequired',fun hwork => ?_,fun hfree => ?_⟩
  · obtain ⟨u,hu⟩ := exists_ofHours (ht.rateAt next)
    refine ⟨u,hu,?_⟩
    rw [if_pos hwork, ← micros_of_ofHours hu] at hmicros
    rw [add, ← hmicros, ofMicros_micros]
  · rw [if_neg hfree, add_zero] at hmicros
    exact ext_micros hmicros

/-- Neither rounding to minutes takes what is required out of its bounds. -/
theorem required_bounds (ht : c.workingHours.WithinDay) (hp : p.start ≤ p.stop) {target : Duration}
    (h : (requiredDuration c p today).outcome = .ok required)
    (htarget : (targetDuration c.workingHours p).outcome = .ok target) :
    (0 ≤ required.micros ∧ required.micros ≤ target.micros) ∧
      ∃ r t, required.roundToMinute = .ok r ∧ target.roundToMinute = .ok t ∧
        0 ≤ r.micros ∧ r.micros ≤ t.micros := by
  have hle := owed_daysUntil_le ht today p.days
  obtain ⟨hround,hround0,-⟩ := rounded_owed_bounds ht hle
  have hround' := roundable_due ht p
  have hlow := RateTimeline.owed_nonneg ht (daysUntil today p.days)
  rw [← RateTimeline.due_of_le hp] at hle
  rw [← micros_of_requiredDuration h] at hle hround hround0 hlow
  rw [← micros_of_target htarget] at hle hround'
  obtain ⟨r,hr⟩ := exists_roundToMinute_iff.mpr hround
  obtain ⟨t,ht'⟩ := exists_roundToMinute_iff.mpr hround'
  refine ⟨⟨hlow,hle⟩,r,t,hr,ht',?_,?_⟩
  · rw [micros_of_roundToMinute hr]
    exact hround0
  · rw [micros_of_roundToMinute hr, micros_of_roundToMinute ht']
    exact Int.mul_le_mul_of_nonneg_right (nearestMinutes_mono hle) (Int.natCast_nonneg _)

/-- A later balance of the same summary is there as well, and no higher. -/
theorem monthBalance_later (ht : c.workingHours.WithinDay) {s : WorkSummary} (hs : s.tally.Nonneg)
    (hlater : today ≤ later) (hlast : later.number < lastDayNumber) {b : MonthBalance}
    (h : (monthBalance c s today).outcome = .ok b) :
    ∃ b', (monthBalance c s later).outcome = .ok b' ∧ b'.balanceHours.le b.balanceHours = true := by
  obtain ⟨b',h'⟩ := exists_monthBalance ht hlast hs (fitsMonth_of_monthBalance h)
  obtain ⟨required,hrequired,-,hbalance⟩ := monthBalance_minutes h
  obtain ⟨required',hrequired',-,hbalance'⟩ := monthBalance_minutes h'
  refine ⟨b',h',hbalance'.le hbalance (Int.sub_le_sub_left (nearestMinutes_mono ?_) _)⟩
  rw [micros_of_requiredDuration hrequired, micros_of_requiredDuration hrequired']
  exact owed_daysUntil_mono ht hlater _

end

/-- What an accepted contract requires of a period by a day is nothing before the period and its target from
its last day on, and grows from day to day by what the day owes. It stays between nothing and the target,
also when both are rounded, so a month's balance of the same entries never goes up with the days. -/
theorem requiredDuration_grows {v : Json} {d : ContractDraft} {c : Contract} (hd : Intake.contract v = .ok d)
    (hc : d.terms = .ok c) {p : Period} (hp : p.start ≤ p.stop) {today : Date}
    (htoday : today.number < lastDayNumber) :
    ∃ required target, (requiredDuration c p today).outcome = .ok required ∧
      (targetDuration c.workingHours p).outcome = .ok target ∧
      (today < p.start → required = .zero) ∧
      (p.start < p.stop → p.stop.number ≤ today.number + 1 → required = target) ∧
      (∀ next : Date, next.number = today.number + 1 → next.number < lastDayNumber →
        ∃ required', (requiredDuration c p next).outcome = .ok required' ∧
          (p.start ≤ next ∧ next < p.stop ∧ next.isWorkingDay = true →
            ∃ u, ofHours (c.workingHours.rateAt next) = .ok u ∧ required.add u = .ok required') ∧
          (¬(p.start ≤ next ∧ next < p.stop ∧ next.isWorkingDay = true) → required' = required)) ∧
      (0 ≤ required.micros ∧ required.micros ≤ target.micros) ∧
      (∃ r t, required.roundToMinute = .ok r ∧ target.roundToMinute = .ok t ∧
        0 ≤ r.micros ∧ r.micros ≤ t.micros) ∧
      ∀ later : Date, today ≤ later → later.number < lastDayNumber →
        ∀ es s b, summarize es p = .ok s → (monthBalance c s today).outcome = .ok b →
          ∃ b', (monthBalance c s later).outcome = .ok b' ∧ b'.balanceHours.le b.balanceHours = true := by
  have hday := (Intake.contract_wellFormed hd).withinDay hc
  obtain ⟨required,hrequired,hmicros⟩ := exists_requiredDuration hday p htoday
  obtain ⟨target,htarget,-⟩ := exists_targetDuration hday p
  obtain ⟨hbounds,hrounded⟩ := required_bounds hday hp hrequired htarget
  refine ⟨required,target,hrequired,htarget,?_,?_,?_,hbounds,hrounded,?_⟩
  · intro hbefore
    rw [daysUntil_of_lt hbefore] at hmicros
    exact ext_micros hmicros
  · intro hnonempty hover
    exact Except.ok.inj ((requiredDuration_of_over hnonempty hover hrequired).symm.trans htarget)
  · intro next hnext hlast
    exact requiredDuration_next hday hnext hlast hrequired
  · intro later hlater hlast es s b hs hb
    exact monthBalance_later hday (nonneg_of_summarize hs) hlater hlast hb

/-- A week that begins on the Thursday before April 2023. -/
def intoApril : Period := ⟨dayIn2023 89,dayIn2023 96⟩

/-- Monday is the first working day at the rate of April, and adds seven and a half hours. -/
theorem requiredDuration_grows_april :
    ∃ c required required', Intake.contract unsortedContract = .ok unsortedDraft ∧
      unsortedDraft.terms = .ok c ∧
      (requiredDuration c intoApril (dayIn2023 92)).outcome = .ok required ∧
      (requiredDuration c intoApril (dayIn2023 93)).outcome = .ok required' ∧
      required'.micros = required.micros + 27000000000 ∧
      ∃ b b', (monthBalance c ⟨intoApril,.empty⟩ (dayIn2023 92)).outcome = .ok b ∧
        (monthBalance c ⟨intoApril,.empty⟩ (dayIn2023 93)).outcome = .ok b' ∧
        b'.balanceHours.le b.balanceHours = true := by
  have haccepted : Intake.contract unsortedContract = .ok unsortedDraft := by decide +kernel
  have hwell := Intake.contract_wellFormed haccepted
  obtain ⟨c,hc⟩ := hwell.exists_terms
  have hday := hwell.withinDay hc
  have hordered : intoApril.start ≤ intoApril.stop := by decide
  have hsunday : (dayIn2023 92).number < lastDayNumber := by decide
  obtain ⟨required,target,hrequired,-,-,-,hstep,-,-,hbalance⟩ :=
    requiredDuration_grows haccepted hc hordered hsunday
  obtain ⟨required',hrequired',hwork,-⟩ := hstep (dayIn2023 93) (by decide) (by decide)
  obtain ⟨u,hu,hadd⟩ := hwork (by decide)
  -- the rate of April is the latest by then, though it is listed last
  have hlatest : IsLatest unsortedDraft.workingHours (dayIn2023 93)
      ⟨dayIn2023 91,Binary64.ofFraction false 15 2⟩ :=
    ⟨by decide +kernel,by decide,by decide +kernel⟩
  obtain ⟨e,he,hrate⟩ :=
    (hwell.hours.keeps (ContractDraft.terms_of_eq_ok hc).hours).covered (dayIn2023 93) (by decide)
  rw [hrate, ← (he _).mp hlatest] at hu
  have hmicros : u.micros = 27000000000 := (micros_of_ofHours hu).trans (by decide +kernel)
  have hempty : (⟨intoApril,.empty⟩ : WorkSummary).tally.Nonneg := by decide
  obtain ⟨b,hb⟩ := exists_monthBalance hday hsunday hempty (fitsMonth_of_lt hday hempty (by decide))
  obtain ⟨b',hb',hle⟩ := hbalance (dayIn2023 93) (by decide) (by decide) [] _ b rfl hb
  refine ⟨c,required,required',haccepted,hc,hrequired,hrequired',?_,b,b',hb,hb',hle⟩
  rw [micros_of_add hadd, hmicros]

end Flextime

import Flextime.Intake.Contract
import Flextime.Proofs.Balance.DayRates
import Flextime.Proofs.Intake.Field

/-! # What intake accepts as a contract

Each list of rates starts with months, names no month twice and begins no later than the contract;
working hours are rates of a day, vacation days are not negative. Intake accepts exactly the contracts
that are spelled out and keep these rules. Terms can be made of every such contract, and keep its rates.
-/
namespace Flextime

/-- An object that says a day and a rate. -/
def RateChange.Spelled (rateName : String) (v : Json) (c : RateChange) : Prop :=
  ∃ ms, v = .object ms ∧ Intake.required "first_day" Intake.date ms = .ok c.effective ∧
    Intake.required rateName Intake.number ms = .ok c.rate

/-- An array of such objects under a name. -/
def RateChange.AllSpelled (name rateName : String) (ms : List (Text × Json)) (cs : List RateChange) : Prop :=
  ∃ vs, ms.lookup (Text.ofString name) = some (.array vs) ∧ List.Forall₂ (RateChange.Spelled rateName) vs cs

namespace Intake

theorem interval_eq_ok_iff {rateName : String} {max? : Option Binary64} {v : Json} {c : RateChange} :
    interval rateName max? v = .ok c ↔ RateChange.Spelled rateName v c ∧ c.effective.day = 1 ∧
      (Binary64.zero false).le c.rate = true ∧ ∀ m, max? = some m → c.rate.le m = true := by
  simp only [interval, RateChange.Spelled, bind_eq_ok_iff, members_eq_ok_iff, map_eq_ok_iff, both_eq_ok_iff,
    required_eq_ok_iff, monthStart_eq_ok_iff, bounded_eq_ok_iff]
  constructor
  · rintro ⟨ms,rfl,p,⟨⟨v₁,hv₁,hdate,hday⟩,v₂,hv₂,hnumber,hbounds⟩,rfl⟩
    exact ⟨⟨ms,rfl,⟨v₁,hv₁,hdate⟩,v₂,hv₂,hnumber⟩,hday,hbounds⟩
  · rintro ⟨⟨ms,rfl,⟨v₁,hv₁,hdate⟩,v₂,hv₂,hnumber⟩,hday,hbounds⟩
    exact ⟨ms,rfl,(c.effective,c.rate),⟨⟨v₁,hv₁,hdate,hday⟩,v₂,hv₂,hnumber,hbounds⟩,rfl⟩

theorem intervals_eq_ok_iff {name rateName : String} {max? : Option Binary64} {ms : List (Text × Json)}
    {cs : List RateChange} : required name (nonemptyList (interval rateName max?)) ms = .ok cs ↔
      RateChange.AllSpelled name rateName ms cs ∧ cs ≠ [] ∧ ∀ c ∈ cs, c.effective.day = 1 ∧
        (Binary64.zero false).le c.rate = true ∧ ∀ m, max? = some m → c.rate.le m = true := by
  simp only [RateChange.AllSpelled, required_eq_ok_iff, nonemptyList_eq_ok_iff, list_eq_ok_iff,
    interval_eq_ok_iff, forall₂_and_right]
  constructor
  · rintro ⟨v,hv,⟨vs,rfl,hspelled,hrules⟩,hne⟩
    exact ⟨⟨vs,hv,hspelled⟩,hne,hrules⟩
  · rintro ⟨⟨vs,hv,hspelled⟩,hne,hrules⟩
    exact ⟨_,hv,⟨vs,rfl,hspelled,hrules⟩,hne⟩

end Intake

/-- Intervals as a list of rates must have them. -/
structure IsSchedule (cs : List RateChange) (firstDay : Date) : Prop where
  monthStart : ∀ c ∈ cs, c.effective.day = 1
  distinct : (cs.map (·.effective)).Nodup
  started : ∃ c ∈ cs, c.effective ≤ firstDay

theorem IsSchedule.ne_nil {cs : List RateChange} {firstDay : Date} (h : IsSchedule cs firstDay) : cs ≠ [] := by
  obtain ⟨c,hc,-⟩ := h.started
  exact List.ne_nil_of_mem hc

structure ContractDraft.WellFormed (d : ContractDraft) : Prop where
  hours : IsSchedule d.workingHours d.firstDay
  days : IsSchedule d.vacationDays d.firstDay
  hoursBounded : ∀ c ∈ d.workingHours, IsDayRate c.rate
  daysBounded : ∀ c ∈ d.vacationDays, (Binary64.zero false).le c.rate = true

/-- What the members of an object say about a contract, before any rule. -/
structure ContractDraft.Spelled (d : ContractDraft) (ms : List (Text × Json)) : Prop where
  firstDay : Intake.required "first_day" Intake.date ms = .ok d.firstDay
  initialOvertime :
    Intake.optional "init_overtime_hours" Intake.number (.zero false) ms = .ok d.initialOvertime
  initialVacation :
    Intake.optional "init_vacation_days" Intake.number (.zero false) ms = .ok d.initialVacation
  hours : RateChange.AllSpelled "working_hours" "hours" ms d.workingHours
  days : RateChange.AllSpelled "vacation_days" "days" ms d.vacationDays

namespace Intake

theorem contractFields_eq_ok_iff {ms : List (Text × Json)} {d : ContractDraft} :
    contractFields ms = .ok d ↔ d.Spelled ms ∧
      (d.workingHours ≠ [] ∧ ∀ c ∈ d.workingHours, c.effective.day = 1 ∧ IsDayRate c.rate) ∧
      (d.vacationDays ≠ [] ∧ ∀ c ∈ d.vacationDays, c.effective.day = 1 ∧
        (Binary64.zero false).le c.rate = true) := by
  simp only [contractFields, map_eq_ok_iff, both_eq_ok_iff, workingHours, vacationDays, intervals_eq_ok_iff,
    Option.some.injEq, forall_eq', reduceCtorEq, false_implies, implies_true, and_true, IsDayRate]
  constructor
  · rintro ⟨p,⟨hday,hovertime,hvacation,⟨hhours,hhours'⟩,hdays,hdays'⟩,rfl⟩
    exact ⟨⟨hday,hovertime,hvacation,hhours,hdays⟩,hhours',hdays'⟩
  · rintro ⟨⟨hday,hovertime,hvacation,hhours,hdays⟩,hhours',hdays'⟩
    exact ⟨(d.firstDay,d.initialOvertime,d.initialVacation,d.workingHours,d.vacationDays),
      ⟨hday,hovertime,hvacation,⟨hhours,hhours'⟩,hdays,hdays'⟩,rfl⟩

theorem brokenRule?_eq_none_iff (list : RateList) {cs : List RateChange} {firstDay : Date} :
    brokenRule? list cs firstDay = none ↔
      (cs.map (·.effective)).Nodup ∧ ∃ c ∈ cs, c.effective ≤ firstDay := by
  have hlate : (cs.all fun c => decide (firstDay < c.effective)) = false ↔
      ∃ c ∈ cs, c.effective ≤ firstDay := by
    simp only [List.all_eq_false, decide_eq_true_eq, Date.lt_iff, Date.le_iff, not_lt]
  unfold brokenRule?
  constructor
  · intro h
    split at h
    · exact nomatch h
    next hnodup =>
      split at h
      · exact nomatch h
      next hall => exact ⟨by simpa using hnodup,hlate.mp (Bool.eq_false_iff.mpr hall)⟩
  · rintro ⟨hnodup,hstart⟩
    rw [if_neg (by simpa using hnodup), if_neg (Bool.eq_false_iff.mp (hlate.mpr hstart))]

theorem checkIntervals_eq_ok_iff {d d' : ContractDraft} : checkIntervals d = .ok d' ↔
    d = d' ∧ ((d.workingHours.map (·.effective)).Nodup ∧ ∃ c ∈ d.workingHours, c.effective ≤ d.firstDay) ∧
      (d.vacationDays.map (·.effective)).Nodup ∧ ∃ c ∈ d.vacationDays, c.effective ≤ d.firstDay := by
  rw [← brokenRule?_eq_none_iff .workingHours, ← brokenRule?_eq_none_iff .vacationDays,
    ← Option.or_eq_none_iff, checkIntervals]
  split
  next rule hrule => simp [refuse, hrule]
  next hnone => simp [hnone]

/-- Intake accepts a contract exactly when its members spell one that keeps the rules. -/
theorem contract_eq_ok_iff {v : Json} {d : ContractDraft} :
    contract v = .ok d ↔ (∃ ms, v = .object ms ∧ d.Spelled ms) ∧ d.WellFormed := by
  simp only [contract, bind_eq_ok_iff, members_eq_ok_iff, contractFields_eq_ok_iff, checkIntervals_eq_ok_iff]
  constructor
  · rintro ⟨ms,rfl,_,⟨hspelled,⟨-,hhours⟩,-,hdays⟩,rfl,⟨hnodup₁,hstart₁⟩,hnodup₂,hstart₂⟩
    exact ⟨⟨ms,rfl,hspelled⟩,⟨fun c hc => (hhours c hc).1,hnodup₁,hstart₁⟩,
      ⟨fun c hc => (hdays c hc).1,hnodup₂,hstart₂⟩,fun c hc => (hhours c hc).2,fun c hc => (hdays c hc).2⟩
  · rintro ⟨⟨ms,rfl,hspelled⟩,hwell⟩
    refine ⟨ms,rfl,d,⟨hspelled,⟨hwell.hours.ne_nil,?_⟩,hwell.days.ne_nil,?_⟩,rfl,
      ⟨hwell.hours.distinct,hwell.hours.started⟩,hwell.days.distinct,hwell.days.started⟩
    · exact fun c hc => ⟨hwell.hours.monthStart c hc,hwell.hoursBounded c hc⟩
    · exact fun c hc => ⟨hwell.days.monthStart c hc,hwell.daysBounded c hc⟩

theorem contract_wellFormed {v : Json} {d : ContractDraft} (h : contract v = .ok d) : d.WellFormed :=
  (contract_eq_ok_iff.mp h).2

end Intake

/-- The terms of a contract keep what it says; its rates are only brought in order. -/
structure ContractDraft.Terms (d : ContractDraft) (c : Contract) : Prop where
  firstDay : c.firstDay = d.firstDay
  initialOvertime : c.initialOvertime = d.initialOvertime
  initialVacation : c.initialVacation = d.initialVacation
  hours : c.workingHours.changes.Perm d.workingHours
  days : c.vacationDays.changes.Perm d.vacationDays

theorem ContractDraft.terms_of_eq_ok {d : ContractDraft} {c : Contract} (h : d.terms = .ok c) :
    d.Terms c := by
  obtain ⟨hours,hhours,h⟩ := bind_eq_ok_iff.mp h
  obtain ⟨days,hdays,h⟩ := bind_eq_ok_iff.mp h
  obtain rfl := pure_eq_ok_iff.mp h
  exact ⟨rfl,rfl,rfl,RateTimeline.changes_perm hhours,RateTimeline.changes_perm hdays⟩

/-- Terms as a draft that says them, with the rates in order. -/
def Contract.draft (c : Contract) : ContractDraft :=
  ⟨c.firstDay,c.initialOvertime,c.initialVacation,c.workingHours.changes,c.vacationDays.changes⟩

@[simp] theorem Contract.terms_draft (c : Contract) : c.draft.terms = .ok c := by
  simp only [draft, ContractDraft.terms, Contract.ofChanges, RateTimeline.ofChanges_changes]
  rfl

theorem RateTimeline.exists_ofChanges {cs : List RateChange}
    (h : ∀ c ∈ cs, (Binary64.zero false).le c.rate = true) : ∃ t, ofChanges cs = .ok t :=
  exists_ofChanges_iff.mpr fun c hc => Binary64.not_lt_of_le (h c hc)

namespace ContractDraft.WellFormed
variable {d : ContractDraft}

theorem exists_terms (h : d.WellFormed) : ∃ c, d.terms = .ok c := by
  obtain ⟨hours,hhours⟩ := RateTimeline.exists_ofChanges fun c hc => (h.hoursBounded c hc).1
  obtain ⟨days,hdays⟩ := RateTimeline.exists_ofChanges h.daysBounded
  refine ⟨⟨d.firstDay,d.initialOvertime,d.initialVacation,hours,days⟩,?_⟩
  simp only [terms, Contract.ofChanges, bind_eq_ok_iff]
  exact ⟨hours,hhours,days,hdays,rfl⟩

theorem withinDay (h : d.WellFormed) {c : Contract} (hc : d.terms = .ok c) : c.workingHours.WithinDay :=
  fun change hchange => h.hoursBounded change ((terms_of_eq_ok hc).hours.mem_iff.mp hchange)

end ContractDraft.WellFormed
end Flextime

import Flextime.Intake.Entry
import Flextime.Proofs.Intake.Contract
import Flextime.Proofs.RateTimeline.Latest
import Mathlib.Data.List.Perm.Basic

/-! # Lists of the input in another order

A contract whose lists of rates are put in another order says the same, and is accepted if it was; its
terms are the same, because the changes of one timeline have different days. Entries in another order
are read one by one as before.
-/
namespace Flextime

/-- Members under the same names one by one, with values that are related at their name. -/
def Json.MembersAlike (R : Text → Json → Json → Prop) : List (Text × Json) → List (Text × Json) → Prop :=
  List.Forall₂ fun m m' => m.1 = m'.1 ∧ R m.1 m.2 m'.2

namespace Json.MembersAlike
variable {R : Text → Json → Json → Prop} {ms ms' : List (Text × Json)}

theorem lookup (h : MembersAlike R ms ms') (name : Text) :
    Option.Rel (R name) (ms.lookup name) (ms'.lookup name) := by
  induction h with
  | nil => exact .none
  | @cons m m' _ _ hm _ ih =>
    obtain ⟨k,v⟩ := m
    obtain ⟨_,w⟩ := m'
    obtain ⟨rfl,hvw⟩ := hm
    rw [List.lookup_cons, List.lookup_cons]
    cases hname : name == k with
    | true =>
      obtain rfl := beq_iff_eq.mp hname
      exact .some hvw
    | false => exact ih

theorem lookup_eq (h : MembersAlike R ms ms') {name : Text} (hR : ∀ v w, R name v w → v = w) :
    ms'.lookup name = ms.lookup name := by
  have hrel := h.lookup name
  generalize ms.lookup name = v at hrel ⊢
  generalize ms'.lookup name = w at hrel ⊢
  cases hrel with
  | none => rfl
  | some hvw => rw [hR _ _ hvw]

end Json.MembersAlike

theorem forall₂_of_perm {α β : Type} {R : α → β → Prop} {as bs : List α} {cs : List β} (hperm : as.Perm bs)
    (h : List.Forall₂ R as cs) : ∃ ds, List.Forall₂ R bs ds ∧ cs.Perm ds := by
  obtain ⟨ds,hds,hcs⟩ := List.perm_comp_forall₂ hperm.symm h
  exact ⟨ds,hds,hcs.symm⟩

/-- A member of a contract as it was, or a list of its rates in another order. -/
inductive RatesReordered : Text → Json → Json → Prop
  | same (name : Text) (v : Json) : RatesReordered name v v
  | hours {vs ws : List Json} : vs.Perm ws → RatesReordered "working_hours" (.array vs) (.array ws)
  | days {vs ws : List Json} : vs.Perm ws → RatesReordered "vacation_days" (.array vs) (.array ws)

theorem RatesReordered.of_array {name : Text} {vs : List Json} {w : Json}
    (h : RatesReordered name (.array vs) w) : ∃ ws, w = .array ws ∧ vs.Perm ws := by
  cases h with
  | same => exact ⟨vs,rfl,.refl vs⟩
  | hours h => exact ⟨_,rfl,h⟩
  | days h => exact ⟨_,rfl,h⟩

theorem RatesReordered.eq (name : Text) (hhours : name ≠ "working_hours") (hdays : name ≠ "vacation_days")
    (v w : Json) (h : RatesReordered name v w) : v = w := by
  cases h with
  | same => rfl
  | hours => exact absurd rfl hhours
  | days => exact absurd rfl hdays

theorem RateChange.AllSpelled.reordered {name rateName : String} {ms ms' : List (Text × Json)}
    {cs : List RateChange} (halike : Json.MembersAlike RatesReordered ms ms')
    (h : AllSpelled name rateName ms cs) : ∃ ds, AllSpelled name rateName ms' ds ∧ cs.Perm ds := by
  obtain ⟨vs,hvs,hcs⟩ := h
  have hrel := halike.lookup (Text.ofString name)
  rw [hvs] at hrel
  cases hw : ms'.lookup (Text.ofString name) with
  | none => exact nomatch hw ▸ hrel
  | some w =>
    rw [hw, Option.rel_some_some] at hrel
    obtain ⟨ws,rfl,hperm⟩ := hrel.of_array
    obtain ⟨ds,hds,hcd⟩ := forall₂_of_perm hperm hcs
    exact ⟨ds,⟨ws,hw,hds⟩,hcd⟩

/-- The same contract with its rates in another order. -/
structure ContractDraft.Reordered (d e : ContractDraft) : Prop where
  firstDay : e.firstDay = d.firstDay
  initialOvertime : e.initialOvertime = d.initialOvertime
  initialVacation : e.initialVacation = d.initialVacation
  hours : d.workingHours.Perm e.workingHours
  days : d.vacationDays.Perm e.vacationDays

theorem ContractDraft.Spelled.reordered {d : ContractDraft} {ms ms' : List (Text × Json)}
    (halike : Json.MembersAlike RatesReordered ms ms') (h : d.Spelled ms) :
    ∃ e : ContractDraft, e.Spelled ms' ∧ d.Reordered e := by
  have hday := halike.lookup_eq (RatesReordered.eq "first_day" (by decide) (by decide))
  have hovertime := halike.lookup_eq (RatesReordered.eq "init_overtime_hours" (by decide) (by decide))
  have hvacation := halike.lookup_eq (RatesReordered.eq "init_vacation_days" (by decide) (by decide))
  obtain ⟨hours,hhours,hhoursPerm⟩ := h.hours.reordered halike
  obtain ⟨days,hdays,hdaysPerm⟩ := h.days.reordered halike
  refine ⟨⟨d.firstDay,d.initialOvertime,d.initialVacation,hours,days⟩,
    ⟨?_,?_,?_,hhours,hdays⟩,⟨rfl,rfl,rfl,hhoursPerm,hdaysPerm⟩⟩
  · rw [Intake.required, hday]
    exact h.firstDay
  · rw [Intake.optional, hovertime]
    exact h.initialOvertime
  · rw [Intake.optional, hvacation]
    exact h.initialVacation

theorem IsSchedule.of_perm {cs ds : List RateChange} {firstDay : Date} (h : IsSchedule cs firstDay)
    (hperm : cs.Perm ds) : IsSchedule ds firstDay where
  monthStart c hc := h.monthStart c (hperm.mem_iff.mpr hc)
  distinct := (hperm.map _).nodup_iff.mp h.distinct
  started := by
    obtain ⟨c,hc,hday⟩ := h.started
    exact ⟨c,hperm.mem_iff.mp hc,hday⟩

namespace ContractDraft.Reordered
variable {d e : ContractDraft}

theorem wellFormed (h : d.Reordered e) (hd : d.WellFormed) : e.WellFormed where
  hours := h.firstDay ▸ hd.hours.of_perm h.hours
  days := h.firstDay ▸ hd.days.of_perm h.days
  hoursBounded c hc := hd.hoursBounded c (h.hours.mem_iff.mpr hc)
  daysBounded c hc := hd.daysBounded c (h.days.mem_iff.mpr hc)

theorem terms (h : d.Reordered e) (hd : d.WellFormed) {c : Contract} (hc : d.terms = .ok c) :
    e.terms = .ok c := by
  simp only [ContractDraft.terms, Contract.ofChanges, bind_eq_ok_iff, pure_eq_ok_iff] at hc ⊢
  obtain ⟨hours,hhours,days,hdays,rfl⟩ := hc
  refine ⟨hours,RateTimeline.ofChanges_perm h.hours hd.hours.distinct hhours,
    days,RateTimeline.ofChanges_perm h.days hd.days.distinct hdays,?_⟩
  rw [h.firstDay, h.initialOvertime, h.initialVacation]

end ContractDraft.Reordered

namespace Intake

theorem contract_reordered {ms ms' : List (Text × Json)} (halike : Json.MembersAlike RatesReordered ms ms')
    {d : ContractDraft} (h : contract (.object ms) = .ok d) :
    ∃ e, contract (.object ms') = .ok e ∧ d.Reordered e := by
  obtain ⟨⟨_,hms,hspelled⟩,hwell⟩ := contract_eq_ok_iff.mp h
  obtain rfl := Json.object.inj hms
  obtain ⟨e,he,hde⟩ := hspelled.reordered halike
  exact ⟨e,contract_eq_ok_iff.mpr ⟨⟨ms',rfl,he⟩,hde.wellFormed hwell⟩,hde⟩

theorem entries_reordered {vs ws : List Json} (hperm : vs.Perm ws) {ds : List EntryDraft}
    (h : entries (.array vs) = .ok ds) : ∃ es, entries (.array ws) = .ok es ∧ ds.Perm es := by
  obtain ⟨_,hvs,hds⟩ := list_eq_ok_iff.mp h
  obtain rfl := Json.array.inj hvs
  obtain ⟨es,hes,hde⟩ := forall₂_of_perm hperm hds
  exact ⟨es,list_eq_ok_iff.mpr ⟨ws,rfl,hes⟩,hde⟩

end Intake
end Flextime

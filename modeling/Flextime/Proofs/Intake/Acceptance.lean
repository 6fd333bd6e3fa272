import Flextime.Proofs.Calendar.Months
import Flextime.Proofs.Intake.Contract
import Flextime.Proofs.RateTimeline.Latest

/-! # Accepted contracts and the rates they set

A list of rates starts no later than the month in which the contract begins, because it starts with a
month. From the first day of that month on, every day therefore has a rate that the list names.
-/
namespace Flextime

theorem RateChange.Spelled.unique {rateName : String} {v : Json} {c e : RateChange}
    (hc : c.Spelled rateName v) (he : e.Spelled rateName v) : c = e := by
  obtain ⟨ms,rfl,hday,hrate⟩ := hc
  obtain ⟨ms',hms,hday',hrate'⟩ := he
  obtain rfl := Json.object.inj hms
  cases c
  cases e
  rw [mk.injEq]
  exact ⟨Except.ok.inj (hday.symm.trans hday'),Except.ok.inj (hrate.symm.trans hrate')⟩

theorem RateChange.AllSpelled.unique {name rateName : String} {ms : List (Text × Json)}
    {cs ds : List RateChange} (hcs : AllSpelled name rateName ms cs) (hds : AllSpelled name rateName ms ds) :
    cs = ds := by
  obtain ⟨vs,hvs,hcs⟩ := hcs
  obtain ⟨vs',hvs',hds⟩ := hds
  obtain rfl := Json.array.inj (Option.some.inj (hvs.symm.trans hvs'))
  exact List.right_unique_forall₂' (fun _ _ _ h h' => h.unique h') hcs hds

theorem ContractDraft.Spelled.unique {ms : List (Text × Json)} {d e : ContractDraft} (hd : d.Spelled ms)
    (he : e.Spelled ms) : d = e := by
  cases d
  cases e
  rw [mk.injEq]
  exact ⟨Except.ok.inj (hd.firstDay.symm.trans he.firstDay),
    Except.ok.inj (hd.initialOvertime.symm.trans he.initialOvertime),
    Except.ok.inj (hd.initialVacation.symm.trans he.initialVacation),
    hd.hours.unique he.hours,hd.days.unique he.days⟩

theorem IsLatest.iff_eq {cs : List RateChange} (hcs : (cs.map (·.effective)).Nodup) {day : Date}
    {c : RateChange} (h : IsLatest cs day c) (e : RateChange) : IsLatest cs day e ↔ e = c := by
  constructor
  · intro he
    refine RateTimeline.eq_of_effective hcs he.mem h.mem (Date.ext_number ?_)
    exact Nat.le_antisymm (h.latest e he.mem he.effective) (he.latest c h.mem h.effective)
  · rintro rfl
    exact h

/-- A timeline keeps a schedule: its changes are in the order of the months they start with, and each
day from the month of the first day on has the rate of the latest change listed. -/
structure RateTimeline.Keeps (t : RateTimeline) (cs : List RateChange) (firstDay : Date) : Prop where
  ascending : t.changes.Pairwise fun a b => a.effective < b.effective
  monthStart : ∀ c ∈ t.changes, c.effective.day = 1
  covered : ∀ day, firstDay.monthStart ≤ day →
    ∃ c, (∀ e, IsLatest cs day e ↔ e = c) ∧ t.rateAt day = c.rate

theorem IsSchedule.keeps {cs : List RateChange} {firstDay : Date} (h : IsSchedule cs firstDay)
    {t : RateTimeline} (ht : t.changes.Perm cs) : t.Keeps cs firstDay where
  ascending := RateTimeline.changes_ascending ((ht.map _).nodup_iff.mpr h.distinct)
  monthStart c hc := h.monthStart c (ht.mem_iff.mp hc)
  covered day hday := by
    -- The earliest change starts with a month and not after the first day, so not after that day's month.
    obtain ⟨c,hc,hstart⟩ := h.started
    have heffective : c.effective ≤ day := Nat.le_trans (Date.le_monthStart (h.monthStart c hc) hstart) hday
    obtain ⟨e,he,hrate⟩ := t.exists_isInEffect ⟨c,ht.mem_iff.mpr hc,heffective⟩
    exact ⟨e,(he.toIsLatest.of_perm ht).iff_eq h.distinct,hrate⟩

namespace Intake

/-- A payload that spells a contract is accepted exactly when the contract keeps the rules. Terms are made
of every accepted contract; their timelines keep its lists, and no day from the month of its first day on
falls back to the rate that is in effect before all changes. -/
theorem contract_accepted (v : Json) :
    (∀ (ms : List (Text × Json)) (d : ContractDraft), v = .object ms → d.Spelled ms →
      ((∃ e, contract v = .ok e) ↔ d.workingHours ≠ [] ∧ d.vacationDays ≠ [] ∧ d.WellFormed)) ∧
    ∀ d : ContractDraft, contract v = .ok d → (∃ ms, v = .object ms ∧ d.Spelled ms) ∧
      ∃ c, d.terms = .ok c ∧ c.workingHours.Keeps d.workingHours d.firstDay ∧
        c.vacationDays.Keeps d.vacationDays d.firstDay := by
  constructor
  · rintro ms d rfl hspelled
    constructor
    · rintro ⟨e,he⟩
      obtain ⟨⟨ms',hms,hspelled'⟩,hwell⟩ := contract_eq_ok_iff.mp he
      obtain rfl := Json.object.inj hms
      obtain rfl := hspelled.unique hspelled'
      exact ⟨hwell.hours.ne_nil,hwell.days.ne_nil,hwell⟩
    · rintro ⟨-,-,hwell⟩
      exact ⟨d,contract_eq_ok_iff.mpr ⟨⟨ms,rfl,hspelled⟩,hwell⟩⟩
  · intro d hd
    obtain ⟨hspelled,hwell⟩ := contract_eq_ok_iff.mp hd
    obtain ⟨c,hc⟩ := hwell.exists_terms
    have hterms := ContractDraft.terms_of_eq_ok hc
    exact ⟨hspelled,c,hc,hwell.hours.keeps hterms.hours,hwell.days.keeps hterms.days⟩

end Intake

/-- A contract from the middle of March 2023 on, its rates in no order. -/
def unsortedContract : Json := .object [
  ("first_day",.string "2023-03-15"),
  ("working_hours",.array [
    .object [("first_day",.string "2023-06-01"),("hours",.int 6)],
    .object [("first_day",.string "2023-03-01"),("hours",.int 8)],
    .object [("first_day",.string "2023-04-01"),("hours",.string "7.5")]]),
  ("vacation_days",.array [
    .object [("days",.int 3),("first_day",.string "2023-05-01")],
    .object [("days",.int 2),("first_day",.string "2023-02-01")]])]

def unsortedDraft : ContractDraft where
  firstDay := dayIn2023 74
  initialOvertime := .zero false
  initialVacation := .zero false
  workingHours := [⟨dayIn2023 152,Binary64.ofInt 6⟩,⟨dayIn2023 60,Binary64.ofInt 8⟩,
    ⟨dayIn2023 91,Binary64.ofFraction false 15 2⟩]
  vacationDays := [⟨dayIn2023 121,Binary64.ofInt 3⟩,⟨dayIn2023 32,Binary64.ofInt 2⟩]

/-- On the first of March, before the contract begins, its hours are already eight a day. -/
theorem contract_accepted_unsorted :
    Intake.contract unsortedContract = .ok unsortedDraft ∧
      (unsortedDraft.workingHours ≠ [] ∧ unsortedDraft.vacationDays ≠ [] ∧ unsortedDraft.WellFormed) ∧
      ∃ c, unsortedDraft.terms = .ok c ∧ c.workingHours.rateAt (dayIn2023 60) = Binary64.ofInt 8 := by
  have haccepted : Intake.contract unsortedContract = .ok unsortedDraft := by decide +kernel
  obtain ⟨hiff,hterms⟩ := Intake.contract_accepted unsortedContract
  obtain ⟨⟨ms,hms,hspelled⟩,c,hc,hhours,-⟩ := hterms unsortedDraft haccepted
  obtain ⟨e,he,hrate⟩ := hhours.covered (dayIn2023 60) (by decide)
  have hlatest : IsLatest unsortedDraft.workingHours (dayIn2023 60) ⟨dayIn2023 60,Binary64.ofInt 8⟩ :=
    ⟨by decide +kernel,by decide,by decide +kernel⟩
  refine ⟨haccepted,(hiff ms unsortedDraft hms hspelled).mp ⟨_,haccepted⟩,c,hc,?_⟩
  rw [hrate, ← (he _).mp hlatest]

end Flextime

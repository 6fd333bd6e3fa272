import Flextime.Balance.Lifetime
import Flextime.Balance.Month
import Flextime.Proofs.Balance.Overtime
import Flextime.Proofs.Entry.Summary

/-! # Entries in another order

A tally has its categories in the order of the entries, but nothing that is computed from a summary looks
at that order: the elapsed times are sums, and so is the total.
-/
namespace Flextime

theorem logged_perm {es es' : List Entry} (h : es.Perm es') (p : Period) : logged es p = logged es' p :=
  (h.map _).sum_eq

theorem loggedAs_perm {es es' : List Entry} (h : es.Perm es') (p : Period) (c : Category) :
    loggedAs es p c = loggedAs es' p c :=
  logged_perm (h.filter _) p

/-- Summaries with the same times, whatever the order of their categories. -/
structure WorkSummary.Agrees (s s' : WorkSummary) : Prop where
  period : s'.period = s.period
  elapsed : ∀ c, s'.elapsed c = s.elapsed c
  total : ∀ d, s.total = .ok d → s'.total = .ok d

theorem summarize_perm {es es' : List Entry} (hperm : es.Perm es') (hes : ∀ e ∈ es, e.IsValid) {p : Period}
    {s : WorkSummary} (hs : summarize es p = .ok s) : ∃ s', summarize es' p = .ok s' ∧ s.Agrees s' := by
  have hes' : ∀ e ∈ es', e.IsValid := fun e he => hes e (hperm.mem_iff.mpr he)
  have hrange := (exists_summarize_iff hes p).mp ⟨s,hs⟩
  simp only [loggedAs_perm hperm] at hrange
  obtain ⟨s',hs'⟩ := (exists_summarize_iff hes' p).mpr hrange
  refine ⟨s',hs',⟨?_,fun c => ?_,fun d hd => ?_⟩⟩
  · rw [(summarize_eq_ok_iff.mp hs').1, (summarize_eq_ok_iff.mp hs).1]
  · apply Duration.ext_micros
    rw [micros_of_elapsed hs', micros_of_elapsed hs, loggedAs_perm hperm]
  · have htotal := (exists_total_iff hs).mp ⟨d,hd⟩
    rw [logged_perm hperm] at htotal
    obtain ⟨d',hd'⟩ := (exists_total_iff hs').mpr htotal
    obtain rfl : d' = d := by
      apply Duration.ext_micros
      rw [micros_of_total hs' hd', micros_of_total hs hd, logged_perm hperm]
    exact hd'

section
variable {c : Contract} {s s' : WorkSummary}

theorem overtimeBalance_congr (h : s.Agrees s') {b : OvertimeBalance}
    (hb : (overtimeBalance c s).outcome = .ok b) : overtimeBalance c s' = overtimeBalance c s := by
  obtain ⟨o,-⟩ := overtimeBalance_eq_ok_iff.mp hb
  unfold overtimeBalance
  rw [h.period, h.total o.actual o.actual_eq, o.actual_eq]

theorem vacationBalance_congr (h : s.Agrees s') (asOf : Date) :
    vacationBalance c s' asOf = vacationBalance c s asOf := by
  unfold vacationBalance
  rw [h.elapsed]

theorem lifetimeBalance_congr (h : s.Agrees s') {asOf : Date} {b : LifetimeBalance}
    (hb : (lifetimeBalance c s asOf).outcome = .ok b) :
    lifetimeBalance c s' asOf = lifetimeBalance c s asOf := by
  have hb' := hb
  rw [lifetimeBalance, Traced.outcome_bind] at hb'
  obtain ⟨overtime,hovertime,-⟩ := bind_eq_ok_iff.mp hb'
  unfold lifetimeBalance
  rw [overtimeBalance_congr h hovertime, vacationBalance_congr h]

theorem monthBalance_congr (h : s.Agrees s') (today : Date) :
    monthBalance c s' today = monthBalance c s today := by
  have hrounded : roundedCategories s' = roundedCategories s := by
    unfold roundedCategories
    simp only [h.elapsed]
  unfold monthBalance
  rw [hrounded, h.period]

end
end Flextime

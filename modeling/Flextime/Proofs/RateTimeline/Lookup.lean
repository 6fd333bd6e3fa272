import Flextime.Proofs.RateTimeline.Latest

/-! # Changes in order and the rate of a day

Sorting keeps changes of one day in the order given. So the change in effect on a day is the same in the
list that a timeline is made of as in the timeline, and its rate is the rate of the day.
-/
namespace Flextime
namespace RateTimeline

theorem onDay_sorted (cs : List RateChange) (day : Date) :
    (cs.filter fun c => decide (c.effective = day)).Pairwise fun a b => a.precedes b = true := by
  apply List.pairwise_of_forall_mem_list
  intro a ha b hb
  simp only [List.mem_filter, decide_eq_true_eq] at ha hb
  rw [RateChange.precedes, ha.2, hb.2, decide_eq_true_eq]
  exact Nat.le_refl _

/-- Changes of one day stay in the order given. -/
theorem onDay_mergeSort (cs : List RateChange) (day : Date) :
    (cs.mergeSort RateChange.precedes).filter (fun c => decide (c.effective = day)) =
      cs.filter fun c => decide (c.effective = day) := by
  have hsub := List.sublist_mergeSort RateChange.precedes_trans RateChange.precedes_total
    (onDay_sorted cs day) List.filter_sublist
  have hfilter := hsub.filter fun c => decide (c.effective = day)
  simp only [List.filter_filter, Bool.and_self] at hfilter
  refine (hfilter.eq_of_length ?_).symm
  exact ((List.mergeSort_perm cs _).filter _).length_eq.symm

end RateTimeline

theorem isInEffect_iff_of_ofChanges {cs : List RateChange} {t : RateTimeline} (h : RateTimeline.ofChanges cs = .ok t)
    {day : Date} {c : RateChange} : IsInEffect t.changes day c ↔ IsInEffect cs day c := by
  have hperm := RateTimeline.changes_perm h
  have hchanges := (RateTimeline.ofChanges_eq_ok_iff.mp h).2
  have hlast : (t.changes.filter fun e => decide (e.effective = c.effective)).getLast? = some c ↔
      (cs.filter fun e => decide (e.effective = c.effective)).getLast? = some c := by
    rw [hchanges, RateTimeline.onDay_mergeSort]
  constructor
  · intro hc
    exact ⟨hc.toIsLatest.of_perm hperm,hlast.mp hc.last⟩
  · intro hc
    exact ⟨hc.toIsLatest.of_perm hperm.symm,hlast.mpr hc.last⟩

theorem rateAt_of_not_begun {t : RateTimeline} {day : Date} (h : ∀ c ∈ t.changes, ¬c.effective ≤ day) :
    t.rateAt day = .zero false := by
  have hnone : t.changes.filter (fun c => decide (c.effective ≤ day)) = [] := by
    rw [List.filter_eq_nil_iff]
    intro c hc
    simpa using h c hc
  rw [RateTimeline.rateAt, RateTimeline.takeWhile_eq_filter t.sorted, hnone]
  rfl

/-- A timeline holds the changes given, in the order of their days, and those of one day in the order given.
A day has the rate of the change given last among the latest ones that have taken effect. There is one as
soon as any has, and before that the rate is nothing. -/
theorem ofChanges_lookup {cs : List RateChange} {t : RateTimeline} (h : RateTimeline.ofChanges cs = .ok t) :
    t.changes.Perm cs ∧ (t.changes.Pairwise fun a b => a.effective ≤ b.effective) ∧
      (∀ day, t.changes.filter (fun c => decide (c.effective = day)) =
        cs.filter fun c => decide (c.effective = day)) ∧
      ∀ day, (∀ c, IsInEffect cs day c → t.rateAt day = c.rate) ∧
        ((∃ c ∈ cs, c.effective ≤ day) → ∃ c, IsInEffect cs day c) ∧
        ((∀ c ∈ cs, ¬c.effective ≤ day) → t.rateAt day = .zero false) := by
  have hperm := RateTimeline.changes_perm h
  refine ⟨hperm,t.sorted.imp fun hle => of_decide_eq_true hle,fun day => ?_,fun day => ⟨?_,?_,?_⟩⟩
  · rw [(RateTimeline.ofChanges_eq_ok_iff.mp h).2, RateTimeline.onDay_mergeSort]
  · intro c hc
    obtain ⟨e,he,hrate⟩ := t.exists_isInEffect ⟨c,hperm.mem_iff.mpr hc.mem,hc.effective⟩
    rw [hrate, hc.unique ((isInEffect_iff_of_ofChanges h).mp he)]
  · rintro ⟨c,hc,hday⟩
    obtain ⟨e,he,-⟩ := t.exists_isInEffect ⟨c,hperm.mem_iff.mpr hc,hday⟩
    exact ⟨e,(isInEffect_iff_of_ofChanges h).mp he⟩
  · intro hbefore
    exact rateAt_of_not_begun fun c hc => hbefore c (hperm.mem_iff.mp hc)

/-- Amended twice for the sixteenth of January, and out of order. -/
def amendedHours : List RateChange :=
  [⟨dayIn2023 16,Binary64.ofInt 4⟩,⟨dayIn2023 20,Binary64.ofInt 6⟩,⟨dayIn2023 16,Binary64.ofInt 7⟩,
    ⟨dayIn2023 2,Binary64.ofInt 8⟩,⟨dayIn2023 16,Binary64.ofInt 5⟩]

/-- On the nineteenth the amendment given last counts, and on the first none does. -/
theorem ofChanges_lookup_amended : ∃ t, RateTimeline.ofChanges amendedHours = .ok t ∧
    (t.changes.filter fun c => decide (c.effective = dayIn2023 16)).map (·.rate) = [4,7,5].map Binary64.ofInt ∧
    IsInEffect amendedHours (dayIn2023 19) ⟨dayIn2023 16,Binary64.ofInt 5⟩ ∧
    t.rateAt (dayIn2023 19) = Binary64.ofInt 5 ∧ t.rateAt (dayIn2023 1) = .zero false := by
  have hrates : ∀ c ∈ amendedHours, c.isNegative = false := by decide +kernel
  obtain ⟨t,ht⟩ := RateTimeline.exists_ofChanges_iff.mpr hrates
  have hlast : IsInEffect amendedHours (dayIn2023 19) ⟨dayIn2023 16,Binary64.ofInt 5⟩ :=
    ⟨⟨by decide +kernel,by decide,by decide +kernel⟩,by decide +kernel⟩
  obtain ⟨-,-,horder,hlookup⟩ := ofChanges_lookup ht
  refine ⟨t,ht,?_,hlast,(hlookup _).1 _ hlast,(hlookup _).2.2 (by decide +kernel)⟩
  rw [horder]
  decide +kernel

end Flextime

import Flextime.Proofs.RateTimeline.Lookup
import Mathlib.Data.List.Chain

/-! # Where a rate may change

Inside a period the rate can change only on the days on which a change takes effect. These days cut the period
into pieces, each of them with a rate of its own.
-/
namespace Flextime

/-- What holds between the ends of every piece holds between neighbouring cuts. -/
theorem Period.isChain_iff_between {R : Date → Date → Prop} {cuts : List Date} :
    cuts.IsChain R ↔ ∀ p ∈ between cuts, R p.start p.stop := by
  induction cuts with
  | nil => simp [between]
  | cons a rest ih =>
    cases rest with
    | nil => simp
    | cons b rest => rw [List.isChain_cons_cons, ih, between_cons, List.forall_mem_cons]

namespace RateTimeline

/-- A period is cut at the days strictly inside it on which one of the changes given takes effect, in ascending
order and each once. Between neighbouring cuts, its ends counted among them, every day has the rate of the
first. -/
theorem changesWithin_cuts {cs : List RateChange} {t : RateTimeline} (ht : ofChanges cs = .ok t)
    {start stop : Date} (h : start < stop) :
    (t.changesWithin start stop).Pairwise (· < ·) ∧
    (∀ d, d ∈ t.changesWithin start stop ↔ (∃ c ∈ cs, c.effective = d) ∧ start < d ∧ d < stop) ∧
    (start :: (t.changesWithin start stop ++ [stop])).IsChain fun p q =>
      p < q ∧ ∀ d, p ≤ d → d < q → t.rateAt d = t.rateAt p := by
  refine ⟨changesWithin_sorted t start stop,fun d => ?_,?_⟩
  · rw [mem_changesWithin]
    simp only [(changes_perm ht).mem_iff]
  · have hascending : (t.cuts ⟨start,stop⟩).IsChain (· < ·) := (cuts_ascending h).isChain
    refine Period.isChain_iff_between.mpr fun piece hpiece => ⟨?_,fun d hstart hstop => ?_⟩
    · exact Period.isChain_iff_between.mp hascending piece hpiece
    · exact rateAt_of_mem_piece (p := ⟨start,stop⟩) (Nat.le_of_lt h) hpiece ⟨hstart,hstop⟩

/-- From the second to the twentieth of January, both days of a change themselves, only the sixteenth cuts, on
which three changes take effect. -/
theorem changesWithin_cuts_amended : ∃ t, ofChanges amendedHours = .ok t ∧ dayIn2023 2 < dayIn2023 20 ∧
    t.changesWithin (dayIn2023 2) (dayIn2023 20) = [dayIn2023 16] ∧
    t.rateAt (dayIn2023 15) = t.rateAt (dayIn2023 2) ∧ t.rateAt (dayIn2023 19) = t.rateAt (dayIn2023 16) := by
  obtain ⟨t,ht⟩ := exists_ofChanges_iff.mpr (by decide +kernel : ∀ c ∈ amendedHours, c.isNegative = false)
  have hperiod : dayIn2023 2 < dayIn2023 20 := by decide +kernel
  obtain ⟨hascending,hmem,hrates⟩ := changesWithin_cuts ht hperiod
  have hcuts : t.changesWithin (dayIn2023 2) (dayIn2023 20) = [dayIn2023 16] := by
    refine Date.eq_of_ascending hascending (List.pairwise_singleton _ _) fun d => ?_
    rw [hmem, List.mem_singleton]
    constructor
    · rintro ⟨⟨c,hc,rfl⟩,hin⟩
      exact (by decide +kernel : ∀ c ∈ amendedHours, dayIn2023 2 < c.effective ∧ c.effective < dayIn2023 20 →
        c.effective = dayIn2023 16) c hc hin
    · rintro rfl
      exact ⟨⟨⟨dayIn2023 16,Binary64.ofInt 4⟩,List.mem_cons_self,rfl⟩,by decide +kernel⟩
  rw [hcuts] at hrates
  obtain ⟨⟨-,hfirst⟩,hrest⟩ := List.isChain_cons_cons.mp hrates
  obtain ⟨⟨-,hsecond⟩,-⟩ := List.isChain_cons_cons.mp hrest
  exact ⟨t,ht,hperiod,hcuts,hfirst _ (by decide +kernel) (by decide +kernel),
    hsecond _ (by decide +kernel) (by decide +kernel)⟩

end RateTimeline
end Flextime

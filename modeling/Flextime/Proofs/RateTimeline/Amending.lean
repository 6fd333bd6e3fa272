import Flextime.Proofs.Outcome
import Flextime.Proofs.RateTimeline.Refusal

/-! # Amending a timeline

Sorting does not move changes of one day, and a sorted list is known from the changes of each day. So it makes
no difference whether a part of a list has been sorted before, and a timeline can be amended as if it were the
list that it was made of.
-/
namespace Flextime
namespace RateTimeline

theorem mem_of_onDay {cs ds : List RateChange}
    (h : ∀ day, cs.filter (fun c => decide (c.effective = day)) = ds.filter fun c => decide (c.effective = day))
    {c : RateChange} (hc : c ∈ cs) : c ∈ ds := by
  have hday : c ∈ cs.filter fun e => decide (e.effective = c.effective) := by simpa using hc
  rw [h] at hday
  exact (List.mem_filter.mp hday).1

theorem head_earliest {c e : RateChange} {cs : List RateChange}
    (h : (c :: cs).Pairwise fun a b => a.precedes b = true) (he : e ∈ c :: cs) : c.effective ≤ e.effective := by
  rcases List.mem_cons.mp he with rfl | he
  · exact Nat.le_refl _
  · exact of_decide_eq_true ((List.pairwise_cons.mp h).1 e he)

/-- Sorted lists are equal when each day has the same changes in both, in the same order. -/
theorem eq_of_onDay {cs ds : List RateChange} (hcs : cs.Pairwise fun a b => a.precedes b = true)
    (hds : ds.Pairwise fun a b => a.precedes b = true)
    (h : ∀ day, cs.filter (fun c => decide (c.effective = day)) = ds.filter fun c => decide (c.effective = day)) :
    cs = ds := by
  induction cs generalizing ds with
  | nil =>
    refine (List.eq_nil_iff_forall_not_mem.mpr fun d hd => ?_).symm
    exact List.not_mem_nil (mem_of_onDay (fun day => (h day).symm) hd)
  | cons c cs ih =>
    have hc := mem_of_onDay h List.mem_cons_self
    cases ds with
    | nil => exact absurd hc List.not_mem_nil
    | cons d ds =>
      have hd := mem_of_onDay (fun day => (h day).symm) List.mem_cons_self
      have heffective : d.effective = c.effective :=
        Date.ext_number (Nat.le_antisymm (head_earliest hds hc) (head_earliest hcs hd))
      -- both heads are the first change of one day
      have hfirst := h c.effective
      rw [List.filter_cons_of_pos (by simp), List.filter_cons_of_pos (by simp [heffective])] at hfirst
      obtain ⟨rfl,-⟩ := List.cons.inj hfirst
      congr 1
      refine ih (List.pairwise_cons.mp hcs).2 (List.pairwise_cons.mp hds).2 fun day => ?_
      have hday := h day
      by_cases heq : c.effective = day <;> simpa [List.filter_cons, heq] using hday

/-- A part of a list may be sorted first. -/
theorem mergeSort_within (before xs after : List RateChange) :
    (before ++ xs.mergeSort RateChange.precedes ++ after).mergeSort RateChange.precedes =
      (before ++ xs ++ after).mergeSort RateChange.precedes := by
  have hsorted := fun cs : List RateChange =>
    List.pairwise_mergeSort RateChange.precedes_trans RateChange.precedes_total cs
  refine eq_of_onDay (hsorted _) (hsorted _) fun day => ?_
  simp only [onDay_mergeSort, List.filter_append]

theorem amend_eq_ok_iff {before xs after : List RateChange} {t u : RateTimeline} (h : ofChanges xs = .ok t) :
    t.amend before after = .ok u ↔ ofChanges (before ++ xs ++ after) = .ok u := by
  obtain ⟨hxs,hchanges⟩ := ofChanges_eq_ok_iff.mp h
  rw [amend, ofChanges_eq_ok_iff, ofChanges_eq_ok_iff, hchanges, mergeSort_within]
  simp only [List.mem_append, List.mem_mergeSort]

/-- A timeline after it has been made of its own changes again `n` times. -/
def rebuilt (t : RateTimeline) : Nat → Except Fault RateTimeline
  | 0 => .ok t
  | n + 1 => do ofChanges (← t.rebuilt n).changes

theorem rebuilt_eq (t : RateTimeline) (n : Nat) : t.rebuilt n = .ok t := by
  induction n with
  | zero => rfl
  | succ n ih => rw [rebuilt, ih, ok_bind, ofChanges_changes]

/-- Changes given before and after those of a timeline make the same timeline as before and after those that it
was made of, one that has not changed when it is made again. And all of them are refused exactly when some
of them are on their own. -/
theorem amend_ofChanges (before xs after : List RateChange) :
    (∀ b t a, ofChanges before = .ok b → ofChanges xs = .ok t → ofChanges after = .ok a →
      ∃ u, t.amend before after = .ok u ∧ ofChanges (before ++ xs ++ after) = .ok u) ∧
    (∀ t n, ofChanges xs = .ok t → t.rebuilt n = .ok t) ∧
    ((∃ f, ofChanges (before ++ xs ++ after) = .error f) ↔
      (∃ f, ofChanges before = .error f) ∨ (∃ f, ofChanges xs = .error f) ∨
        ∃ f, ofChanges after = .error f) := by
  refine ⟨fun b t a hb ht ha => ?_,fun t n _ => t.rebuilt_eq n,?_⟩
  · have hbefore := (ofChanges_eq_ok_iff.mp hb).1
    have hxs := (ofChanges_eq_ok_iff.mp ht).1
    have hafter := (ofChanges_eq_ok_iff.mp ha).1
    obtain ⟨u,hu⟩ := exists_ofChanges_iff.mpr
      (List.forall_mem_append.mpr ⟨List.forall_mem_append.mpr ⟨hbefore,hxs⟩,hafter⟩)
    exact ⟨u,(amend_eq_ok_iff ht).mpr hu,hu⟩
  · simp only [exists_refused_iff, List.mem_append, or_and_right, exists_or, or_assoc]

/-- The sixteenth of January is in all three of these. -/
def earlierHours : List RateChange := [⟨dayIn2023 16,Binary64.ofInt 4⟩,⟨dayIn2023 20,Binary64.ofInt 6⟩]

def ownHours : List RateChange :=
  [⟨dayIn2023 16,Binary64.ofInt 7⟩,⟨dayIn2023 2,Binary64.ofInt 8⟩,⟨dayIn2023 16,Binary64.ofInt 5⟩]

def laterHours : List RateChange := [⟨dayIn2023 16,Binary64.ofInt 3⟩,⟨dayIn2023 2,Binary64.ofInt 1⟩]

theorem amend_ofChanges_sameDay :
    ∃ t u, ofChanges ownHours = .ok t ∧ t.amend earlierHours laterHours = .ok u ∧
      ofChanges (earlierHours ++ ownHours ++ laterHours) = .ok u ∧ t.rebuilt 3 = .ok t ∧
      (u.changes.filter fun c => decide (c.effective = dayIn2023 16)).map (·.rate) =
        [4,7,5,3].map Binary64.ofInt := by
  obtain ⟨b,hb⟩ := exists_ofChanges_iff.mpr (by decide +kernel : ∀ c ∈ earlierHours, c.isNegative = false)
  obtain ⟨t,ht⟩ := exists_ofChanges_iff.mpr (by decide +kernel : ∀ c ∈ ownHours, c.isNegative = false)
  obtain ⟨a,ha⟩ := exists_ofChanges_iff.mpr (by decide +kernel : ∀ c ∈ laterHours, c.isNegative = false)
  obtain ⟨hamend,hrebuilt,-⟩ := amend_ofChanges earlierHours ownHours laterHours
  obtain ⟨u,hu,hwhole⟩ := hamend b t a hb ht ha
  refine ⟨t,u,ht,hu,hwhole,hrebuilt t 3 ht,?_⟩
  rw [(ofChanges_eq_ok_iff.mp hwhole).2, onDay_mergeSort]
  decide +kernel

end RateTimeline
end Flextime

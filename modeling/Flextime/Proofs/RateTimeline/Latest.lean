import Flextime.Proofs.RateTimeline.Pieces
import Mathlib.Data.List.Nodup

/-! # The latest change of a day

A timeline is sorted, so the changes that have taken effect on a day are those in front of the others,
and the last of them is the latest. Changes of different days are in one order only.
-/
namespace Flextime

/-- A change that has taken effect on a day, with none after it that has. -/
structure IsLatest (cs : List RateChange) (day : Date) (c : RateChange) : Prop where
  mem : c ∈ cs
  effective : c.effective ≤ day
  latest : ∀ e ∈ cs, e.effective ≤ day → e.effective ≤ c.effective

theorem IsLatest.of_perm {cs ds : List RateChange} {day : Date} {c : RateChange} (h : IsLatest cs day c)
    (hperm : cs.Perm ds) : IsLatest ds day c where
  mem := hperm.mem_iff.mp h.mem
  effective := h.effective
  latest e he := h.latest e (hperm.mem_iff.mpr he)

/-- Of the latest changes of a day the one given last. -/
structure IsInEffect (cs : List RateChange) (day : Date) (c : RateChange) : Prop extends IsLatest cs day c where
  last : (cs.filter fun e => decide (e.effective = c.effective)).getLast? = some c

theorem IsInEffect.unique {cs : List RateChange} {day : Date} {c e : RateChange} (hc : IsInEffect cs day c)
    (he : IsInEffect cs day e) : c = e := by
  have heffective : c.effective = e.effective := by
    apply Date.ext_number
    exact Nat.le_antisymm (he.latest c hc.mem hc.effective) (hc.latest e he.mem he.effective)
  have hlast := hc.last
  rw [heffective, he.last] at hlast
  exact (Option.some.inj hlast).symm

namespace RateTimeline

theorem takeWhile_eq_filter {cs : List RateChange} (hcs : cs.Pairwise fun a b => a.precedes b = true)
    (day : Date) : cs.takeWhile (fun c => decide (c.effective ≤ day)) =
      cs.filter fun c => decide (c.effective ≤ day) := by
  induction cs with
  | nil => rfl
  | cons a cs ih =>
    obtain ⟨ha,hcs⟩ := List.pairwise_cons.mp hcs
    by_cases hday : a.effective ≤ day
    · rw [List.takeWhile_cons_of_pos (by simpa using hday), List.filter_cons_of_pos (by simpa using hday),
        ih hcs]
    · rw [List.takeWhile_cons_of_neg (by simpa using hday), List.filter_cons_of_neg (by simpa using hday), eq_comm,
        List.filter_eq_nil_iff]
      intro c hc
      rw [decide_eq_true_eq]
      exact fun hle => hday (Nat.le_trans (of_decide_eq_true (ha c hc)) hle)

theorem getLast_latest {cs : List RateChange} (hcs : cs.Pairwise fun a b => a.precedes b = true)
    {c : RateChange} (hc : cs.getLast? = some c) {e : RateChange} (he : e ∈ cs) :
    e.effective ≤ c.effective := by
  obtain ⟨front,rfl⟩ := List.getLast?_eq_some_iff.mp hc
  rcases List.mem_append.mp he with he | he
  · exact of_decide_eq_true ((List.pairwise_append.mp hcs).2.2 e he c List.mem_cons_self)
  · rw [List.mem_singleton.mp he]
    exact Nat.le_refl _

/-- Once a change has taken effect, the rate of a day is that of the one in effect. -/
theorem exists_isInEffect (t : RateTimeline) {day : Date} (h : ∃ c ∈ t.changes, c.effective ≤ day) :
    ∃ c, IsInEffect t.changes day c ∧ t.rateAt day = c.rate := by
  obtain ⟨e,he,heday⟩ := h
  have hbegun : ∀ {c}, c ∈ t.changes.filter (fun c => decide (c.effective ≤ day)) ↔
      c ∈ t.changes ∧ c.effective ≤ day := by simp
  have hnonempty := List.ne_nil_of_mem (hbegun.mpr ⟨he,heday⟩)
  obtain ⟨c,hc⟩ := Option.ne_none_iff_exists'.mp (mt List.getLast?_eq_none_iff.mp hnonempty)
  obtain ⟨hmem,hday⟩ := hbegun.mp (List.mem_of_getLast? hc)
  refine ⟨c,⟨⟨hmem,hday,fun e he heday => ?_⟩,?_⟩,by rw [rateAt, takeWhile_eq_filter t.sorted, hc]⟩
  · exact getLast_latest (t.sorted.filter _) hc (hbegun.mpr ⟨he,heday⟩)
  · have hsame : t.changes.filter (fun e => decide (e.effective = c.effective)) =
        (t.changes.filter fun e => decide (e.effective ≤ day)).filter
          fun e => decide (e.effective = c.effective) := by
      rw [List.filter_filter]
      refine List.filter_congr fun e _ => ?_
      by_cases heq : e.effective = c.effective <;> simp [heq, hday]
    obtain ⟨front,hfront⟩ := List.getLast?_eq_some_iff.mp hc
    rw [hsame, hfront]
    simp

theorem eq_of_effective {cs : List RateChange} (h : (cs.map (·.effective)).Nodup) {a b : RateChange}
    (ha : a ∈ cs) (hb : b ∈ cs) (hab : a.effective = b.effective) : a = b :=
  List.inj_on_of_nodup_map h ha hb hab

theorem changes_ascending {t : RateTimeline} (h : (t.changes.map (·.effective)).Nodup) :
    t.changes.Pairwise fun a b => a.effective < b.effective := by
  refine (t.sorted.and (List.pairwise_map.mp h)).imp ?_
  rintro a b ⟨hle,hne⟩
  exact Nat.lt_of_le_of_ne (of_decide_eq_true hle) fun heq => hne (Date.ext_number heq)

/-- Distinct changes make the same timeline in whatever order they are given. -/
theorem ofChanges_perm {cs ds : List RateChange} (hperm : cs.Perm ds)
    (h : (cs.map (·.effective)).Nodup) {t : RateTimeline} (ht : ofChanges cs = .ok t) :
    ofChanges ds = .ok t := by
  obtain ⟨hrates,hchanges⟩ := ofChanges_eq_ok_iff.mp ht
  refine ofChanges_eq_ok_iff.mpr ⟨fun c hc => hrates c (hperm.mem_iff.mpr hc),?_⟩
  rw [hchanges]
  have hsorted := fun es : List RateChange =>
    List.pairwise_mergeSort RateChange.precedes_trans RateChange.precedes_total es
  -- The order is antisymmetric only on these changes, where a day has one.
  refine List.Perm.eq_of_pairwise ?_ (hsorted cs) (hsorted ds) ?_
  · intro a b ha hb hab hba
    rw [List.mem_mergeSort] at ha hb
    refine eq_of_effective h ha (hperm.mem_iff.mpr hb) (Date.ext_number ?_)
    exact Nat.le_antisymm (of_decide_eq_true hab) (of_decide_eq_true hba)
  · exact (List.mergeSort_perm cs _).trans (hperm.trans (List.mergeSort_perm ds _).symm)

end RateTimeline
end Flextime

import Flextime.Balance.Target
import Flextime.Proofs.Calendar.Days

/-! # The rate between two changes

The cuts at which a period is taken apart are sorted, and no change takes effect inside a piece.
The rate at the start of a piece is therefore the rate of each of its days.
-/
namespace Flextime
namespace RateTimeline

theorem rateAt_congr {t : RateTimeline} {d e : Date}
    (h : ∀ c ∈ t.changes, c.effective ≤ d ↔ c.effective ≤ e) : t.rateAt d = t.rateAt e := by
  have htake : ∀ cs : List RateChange, (∀ c ∈ cs, c.effective ≤ d ↔ c.effective ≤ e) →
      cs.takeWhile (fun c => decide (c.effective ≤ d)) = cs.takeWhile fun c => decide (c.effective ≤ e) := by
    intro cs hcs
    induction cs with
    | nil => rfl
    | cons c cs ih =>
      simp only [List.takeWhile_cons, hcs c List.mem_cons_self,
        ih fun c hc => hcs c (List.mem_cons_of_mem _ hc)]
  unfold rateAt
  rw [htake t.changes h]

theorem mem_changesWithin {t : RateTimeline} {a b d : Date} :
    d ∈ t.changesWithin a b ↔ (∃ c ∈ t.changes, c.effective = d) ∧ a < d ∧ d < b := by
  rw [changesWithin, mem_dropRepeats, List.mem_filter, List.mem_map, Bool.and_eq_true,
    decide_eq_true_eq, decide_eq_true_eq]

theorem dropRepeats_sorted {ds : List Date} (h : ds.Pairwise (· ≤ ·)) :
    (dropRepeats ds).Pairwise (· < ·) := by
  induction ds with
  | nil => exact List.Pairwise.nil
  | cons a rest ih =>
    obtain ⟨ha, hrest⟩ := List.pairwise_cons.mp h
    cases rest with
    | nil => exact List.pairwise_singleton _ a
    | cons b rest =>
      unfold dropRepeats
      by_cases hab : a = b
      · rw [if_pos hab]
        exact ih hrest
      · rw [if_neg hab]
        refine List.pairwise_cons.mpr ⟨fun d hd => ?_, ih hrest⟩
        have hle := ha b List.mem_cons_self
        have hlt : a < b := Nat.lt_of_le_of_ne hle fun hn => hab (Date.ext_number hn)
        rcases List.mem_cons.mp ((mem_dropRepeats _).mp hd) with rfl | hd
        · exact hlt
        · exact Nat.lt_of_lt_of_le hlt ((List.pairwise_cons.mp hrest).1 d hd)

theorem changesWithin_sorted (t : RateTimeline) (a b : Date) :
    (t.changesWithin a b).Pairwise (· < ·) := by
  apply dropRepeats_sorted
  apply List.Pairwise.filter
  rw [List.pairwise_map]
  exact t.sorted.imp fun h => of_decide_eq_true h

/-- The cuts of a period: its ends and the changes inside it. -/
def cuts (t : RateTimeline) (p : Period) : List Date :=
  p.start :: (t.changesWithin p.start p.stop ++ [p.stop])

theorem mem_cuts {t : RateTimeline} {p : Period} {d : Date} :
    d ∈ t.cuts p ↔ d = p.start ∨ d ∈ t.changesWithin p.start p.stop ∨ d = p.stop := by
  rw [cuts, List.mem_cons, List.mem_append, List.mem_singleton]

theorem cuts_within {t : RateTimeline} {p : Period} (h : p.start ≤ p.stop) {d : Date}
    (hd : d ∈ t.cuts p) : p.start ≤ d ∧ d ≤ p.stop := by
  rcases mem_cuts.mp hd with rfl | hd | rfl
  · exact ⟨Nat.le_refl _,h⟩
  · obtain ⟨-, ha, hb⟩ := mem_changesWithin.mp hd
    exact ⟨Nat.le_of_lt ha,Nat.le_of_lt hb⟩
  · exact ⟨h,Nat.le_refl _⟩

/-- What holds of days in order and of the ends of the period holds of the cuts from first to last. -/
theorem cuts_pairwise {R : Date → Date → Prop} (hR : ∀ a b, a < b → R a b) {t : RateTimeline} {p : Period}
    (h : R p.start p.stop) : (t.cuts p).Pairwise R := by
  refine List.pairwise_cons.mpr ⟨fun d hd => ?_,List.pairwise_append.mpr ⟨?_,?_,?_⟩⟩
  · rcases List.mem_append.mp hd with hd | hd
    · exact hR _ _ (mem_changesWithin.mp hd).2.1
    · rwa [List.mem_singleton.mp hd]
  · exact (changesWithin_sorted t _ _).imp (hR _ _)
  · exact List.pairwise_singleton _ _
  · intro d hd e he
    rw [List.mem_singleton.mp he]
    exact hR _ _ (mem_changesWithin.mp hd).2.2

theorem cuts_sorted {t : RateTimeline} {p : Period} (h : p.start ≤ p.stop) :
    (t.cuts p).Pairwise (· ≤ ·) := cuts_pairwise (fun _ _ hlt => Nat.le_of_lt hlt) h

theorem cuts_ascending {t : RateTimeline} {p : Period} (h : p.start < p.stop) :
    (t.cuts p).Pairwise (· < ·) := cuts_pairwise (fun _ _ hlt => hlt) h

theorem cuts_reversed {t : RateTimeline} {p : Period} (h : p.stop ≤ p.start) :
    t.cuts p = [p.start,p.stop] := by
  have hnil : t.changesWithin p.start p.stop = [] := by
    rw [List.eq_nil_iff_forall_not_mem]
    intro d hd
    obtain ⟨-, ha, hb⟩ := mem_changesWithin.mp hd
    rw [Date.lt_iff] at ha hb
    rw [Date.le_iff] at h
    omega
  rw [cuts, hnil, List.nil_append]

end RateTimeline

theorem pieces_eq (t : RateTimeline) (p : Period) : pieces t p = Period.between (t.cuts p) := rfl

/-- The rate does not change inside a piece. -/
theorem rateAt_of_mem_piece {t : RateTimeline} {p piece : Period} (h : p.start ≤ p.stop)
    (hp : piece ∈ pieces t p) {d : Date} (hd : piece.start ≤ d ∧ d < piece.stop) :
    t.rateAt d = t.rateAt piece.start := by
  obtain ⟨hstart,hstop⟩ := Period.ends_of_mem_between hp
  have hlow := (RateTimeline.cuts_within h hstart).1
  have hhigh := (RateTimeline.cuts_within h hstop).2
  obtain ⟨-,hcut⟩ := Period.cut_of_mem_between (RateTimeline.cuts_sorted h) hp
  simp only [Date.le_iff, Date.lt_iff] at hlow hhigh hd
  apply RateTimeline.rateAt_congr
  intro c hc
  constructor
  · intro hcd
    by_contra hlt
    simp only [Date.le_iff] at hcd hlt
    have hin : c.effective ∈ t.changesWithin p.start p.stop :=
      RateTimeline.mem_changesWithin.mpr ⟨⟨c,hc,rfl⟩,by rw [Date.lt_iff]; omega,by rw [Date.lt_iff]; omega⟩
    have hside := hcut _ (RateTimeline.mem_cuts.mpr (Or.inr (Or.inl hin)))
    simp only [Date.le_iff] at hside
    omega
  · exact fun hcs => Nat.le_trans hcs hd.1

end Flextime

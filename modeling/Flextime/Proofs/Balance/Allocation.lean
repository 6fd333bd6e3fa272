import Flextime.Proofs.Balance.Percentages

/-! # What percentages leave

A percentage is the exact share, cut off, or one less. The shares of the categories are together at most the
whole, and cutting them off only makes them smaller. So what remains of a hundred is never negative.
-/
namespace Flextime
open Duration

/-- Shares that are cut off are together no more than the share of the sum. -/
theorem sum_shares_le {n : ℤ} (hn : 0 < n) (ms : List ℤ) :
    (ms.map fun m => 100 * m / n).sum * n ≤ 100 * ms.sum := by
  induction ms with
  | nil => simp
  | cons m ms ih =>
    have hm := Int.ediv_mul_le (100 * m) hn.ne'
    simp only [List.map_cons, List.sum_cons, add_mul, mul_add]
    omega

theorem sum_shares_le_hundred {n : ℤ} (h0 : 0 ≤ n) (ms : List ℤ) (hsum : ms.sum ≤ n) :
    (ms.map fun m => 100 * m / n).sum ≤ 100 := by
  rcases h0.eq_or_lt with rfl | hn
  · simp
  · have hshares := sum_shares_le hn ms
    have hall : 100 * ms.sum ≤ 100 * n := by omega
    exact le_of_mul_le_mul_right (hshares.trans hall) hn

section
variable {m n : ℤ} {h t : Binary64}

/-- A share that falls short is not nothing. -/
theorem FallsShort.one_le (hm : IsHoursOf m h) (ht : IsHoursOf n t) (h0 : 0 ≤ m) (hn : 0 < n)
    (hshort : FallsShort m n) : 1 ≤ 100 * m / n := by
  obtain ⟨q,hq⟩ := hshort.1
  have hm0 : m ≠ 0 := by
    rintro rfl
    exact not_fallsShort_zero hm ht hn hshort
  have hpos : 0 < n * q := by omega
  rw [hq, Int.mul_ediv_cancel_left q hn.ne']
  exact pos_of_mul_pos_right hpos hn.le

/-- The percentage of whole minutes is at most the exact one, at most one below it, and not negative. -/
theorem percentage_bounds (hm : IsHoursOf m h) (ht : IsHoursOf n t) (h0 : 0 ≤ m) (hle : m ≤ n) {k : ℤ}
    (hk : percentage h t = .ok k) : 0 ≤ k ∧ k ≤ 100 * m / n ∧ 100 * m / n ≤ k + 1 := by
  rcases (h0.trans hle).eq_or_lt with rfl | hn
  · rw [percentage, if_pos (ht.nonpos_iff.mpr le_rfl)] at hk
    obtain rfl := Except.ok.inj hk
    simp
  · have hshare : 0 ≤ 100 * m / n := Int.ediv_nonneg (by omega) hn.le
    rw [percentage_of_minutes hm ht h0 hle hn hk]
    split
    next hshort =>
      have hone := hshort.one_le hm ht h0 hn
      omega
    next => omega

end

/-- Every percentage lies between nothing and a hundred. It is never above the exact share in whole minutes,
cut off, and never more than one below it. What the percentages leave of a hundred lies in the same bounds. -/
theorem monthBalance_allocation {c : Contract} {s : WorkSummary} {today : Date} {b : MonthBalance}
    (hs : s.tally.Nonneg) (hb : (monthBalance c s today).outcome = .ok b) :
    ∃ (target : Duration) (n : ℤ), (targetDuration c.workingHours s.period).outcome = .ok target ∧
      n = max (nearestMinutes target.micros) s.roundedMinutes ∧
      (∀ cat, 0 ≤ b.percentages.get cat ∧ b.percentages.get cat ≤ 100 ∧
        (0 < n → b.percentages.get cat ≤ 100 * nearestMinutes (s.elapsed cat).micros / n ∧
          100 * nearestMinutes (s.elapsed cat).micros / n ≤ b.percentages.get cat + 1)) ∧
      b.remainingPercentage = 100 - b.percentages.values.sum ∧
      0 ≤ b.remainingPercentage ∧ b.remainingPercentage ≤ 100 := by
  obtain ⟨target,total,htarget,htotal,hshares⟩ := monthBalance_shares hb
  have hremaining : b.remainingPercentage = 100 - b.percentages.values.sum := by
    obtain ⟨m,rfl⟩ := monthBalance_eq_ok_iff.mp hb
    rfl
  have hminutes := fun cat => s.minutes_bounds hs cat
  have hlogged := le_max_right (nearestMinutes target.micros) s.roundedMinutes
  have hn := ((hminutes .work).1.trans (hminutes .work).2).trans hlogged
  have hbounds := fun cat =>
    percentage_bounds (hshares cat).1 htotal (hminutes cat).1 ((hminutes cat).2.trans hlogged) (hshares cat).2
  have hsum0 : 0 ≤ b.percentages.values.sum := sum_map_nonneg fun cat _ => (hbounds cat).1
  have hsum : b.percentages.values.sum ≤ 100 := by
    have hshare := sum_shares_le_hundred hn
      (Category.all.map fun cat => nearestMinutes (s.elapsed cat).micros) hlogged
    rw [List.map_map] at hshare
    exact (List.sum_le_sum fun cat _ => (hbounds cat).2.1).trans hshare
  refine ⟨target,_,htarget,rfl,fun cat => ⟨(hbounds cat).1,?_,fun _ => (hbounds cat).2⟩,hremaining,?_,?_⟩
  · exact (Category.le_sum (fun c => (hbounds c).1) cat).trans hsum
  · omega
  · omega

/-- A February of a hundred hours, all of them logged. -/
def sharedHours : WorkSummary where
  period := ⟨dayIn2023 32,dayIn2023 60⟩
  tally := ⟨[(.work,⟨1740 * 60000000,by decide,by decide⟩),(.travel,⟨3420 * 60000000,by decide,by decide⟩),
    (.illness,⟨840 * 60000000,by decide,by decide⟩)],by decide⟩

/-- Two shares fall short, so that two percent remain of nothing. -/
theorem monthBalance_allocation_shared :
    sharedHours.tally.Nonneg ∧
      ∃ b, (monthBalance fiveHourContract sharedHours (dayIn2023 59)).outcome = .ok b ∧
        b.percentages = ⟨28,56,0,0,14⟩ ∧ b.remainingPercentage = 2 ∧ 0 ≤ b.remainingPercentage := by
  have hnonneg : sharedHours.tally.Nonneg := by decide
  have hshares : (monthBalance fiveHourContract sharedHours (dayIn2023 59)).outcome.map
      (fun b => b.percentages) = .ok ⟨28,56,0,0,14⟩ := by decide +kernel
  obtain ⟨b,hb,hpercentages⟩ := map_eq_ok_iff.mp hshares
  obtain ⟨_,_,-,-,-,hremaining,hnever,-⟩ := monthBalance_allocation hnonneg hb
  refine ⟨hnonneg,b,hb,hpercentages,?_,hnever⟩
  rw [hremaining, hpercentages]
  rfl

end Flextime

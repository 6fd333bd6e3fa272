import Flextime.Proofs.Calendar.Months

/-! # Runs of months

A run has the first day of each of its months, in order. Only one ascending list has just these days, so
that a run is the same for all dates of its months, and a longer run is a shorter one with the later months
after it.
-/
namespace Flextime
namespace Date

theorem monthIndex_lt (d : Date) : d.monthIndex < 119988 := by
  have hlow := d.number_of_monthIndex.1
  have hlast := d.le_last
  rw [← daysBefore_end] at hlast
  exact daysBefore_strictMono.lt_iff_lt.mp (hlow.trans_le hlast)

theorem inLastMonth_iff {d : Date} : d.year = 9999 ∧ d.month = 12 ↔ 119987 ≤ d.monthIndex := by
  have hlt := d.monthIndex_lt
  rw [year_of_monthIndex, month_of_monthIndex]
  omega

theorem number_of_first {d : Date} (h : d.day = 1) : d.number = daysBefore d.monthIndex + 1 := by
  rw [d.number_of_day.2, h]

theorem first_of_number {d : Date} {k : Nat} (h : d.number = daysBefore k + 1) :
    d.day = 1 ∧ d.monthIndex = k := by
  have hstep := daysBefore_strictMono (Nat.lt_add_one k)
  obtain rfl : d.monthIndex = k := monthIndex_eq_iff.mpr ⟨by omega,by omega⟩
  have hday := d.number_of_day.2
  exact ⟨by omega,rfl⟩

theorem ofMonthIndex?_eq_some_iff {k : Nat} {d : Date} :
    ofMonthIndex? k = some d ↔ d.day = 1 ∧ d.monthIndex = k := by
  constructor
  · intro h
    unfold ofMonthIndex? ofCivil? at h
    split at h
    next =>
      have hnumber : d.number = daysBefore k + 1 := by exact_mod_cast ofNumber?_eq_some_iff.mp h
      exact first_of_number hnumber
    next => exact nomatch h
  · rintro ⟨hday,rfl⟩
    obtain ⟨e,he,hnumber⟩ := ofCivil?_eq d.monthIndex_lt le_rfl (monthLength_pos _ _)
    rw [ofMonthIndex?, he, ext_number (hnumber.trans (number_of_first hday).symm)]

theorem nextMonth_eq_ok_iff {d e : Date} :
    d.nextMonth = .ok e ↔ e.day = 1 ∧ e.monthIndex = d.monthIndex + 1 := by
  have hnext : (if d.month = 12 then (d.year + 1,1) else (d.year,d.month + 1)) =
      ((d.monthIndex + 1) / 12 + 1,(d.monthIndex + 1) % 12 + 1) := by
    rw [d.year_of_monthIndex, d.month_of_monthIndex]
    split <;> simp only [Prod.mk.injEq] <;> omega
  rw [← ofMonthIndex?_eq_some_iff, ofMonthIndex?, nextMonth, hnext]
  dsimp only
  cases ofCivil? ((d.monthIndex + 1) / 12 + 1) ((d.monthIndex + 1) % 12 + 1) 1 with
  | none => simp
  | some first => simp

end Date

theorem IsMonth.start_first {k : Nat} {p : Period} (h : IsMonth k p) :
    p.start.day = 1 ∧ p.start.monthIndex = k := Date.first_of_number h.1

theorem IsMonth.nextMonth {k : Nat} {p : Period} (h : IsMonth k p) : p.start.nextMonth = .ok p.stop := by
  obtain ⟨hday,hindex⟩ := Date.first_of_number h.2
  rw [Date.nextMonth_eq_ok_iff, h.start_first.2]
  exact ⟨hday,hindex⟩

section
variable {first mid last d : Date}

theorem mem_monthRun : d ∈ (monthRun first last).starts ↔
    d.day = 1 ∧ first.monthIndex ≤ d.monthIndex ∧ d.monthIndex ≤ last.monthIndex := by
  simp only [monthRun, List.mem_filterMap, List.mem_range, Date.ofMonthIndex?_eq_some_iff]
  constructor
  · rintro ⟨k,hk,hday,hindex⟩
    exact ⟨hday,by omega,by omega⟩
  · rintro ⟨hday,hfirst,hlast⟩
    exact ⟨d.monthIndex - first.monthIndex,by omega,hday,by omega⟩

theorem monthRun_ascending (first last : Date) : (monthRun first last).starts.Pairwise (· < ·) := by
  rw [monthRun, List.pairwise_filterMap]
  refine List.pairwise_lt_range.imp ?_
  intro i j hij d hd e he
  obtain ⟨hd,hi⟩ := Date.ofMonthIndex?_eq_some_iff.mp hd
  obtain ⟨he,hj⟩ := Date.ofMonthIndex?_eq_some_iff.mp he
  rw [Date.lt_iff, Date.number_of_first hd, Date.number_of_first he, hi, hj]
  exact Nat.add_lt_add_right (daysBefore_strictMono (Nat.add_lt_add_left hij _)) 1

theorem monthRun_of_before (h : last.monthIndex < first.monthIndex) : (monthRun first last).starts = [] := by
  rw [List.eq_nil_iff_forall_not_mem]
  intro d hd
  obtain ⟨-,hfirst,hlast⟩ := mem_monthRun.mp hd
  omega

/-- Those of the given days that lie in a month after that of `d`. -/
def monthsAfter (d : Date) (ms : List Date) : List Date :=
  ms.filter fun m => decide (d.monthIndex < m.monthIndex)

theorem mem_monthsAfter {m : Date} {ms : List Date} :
    m ∈ monthsAfter d ms ↔ m ∈ ms ∧ d.monthIndex < m.monthIndex := by
  rw [monthsAfter, List.mem_filter, decide_eq_true_eq]

theorem monthRun_append (h : mid.monthIndex ≤ last.monthIndex) :
    (monthRun first mid).starts ++ monthsAfter mid (monthRun first last).starts =
      (monthRun first last).starts := by
  refine Date.eq_of_ascending (List.pairwise_append.mpr ⟨monthRun_ascending _ _,?_,?_⟩)
    (monthRun_ascending _ _) fun d => ?_
  · exact (monthRun_ascending _ _).filter _
  · intro d hd e he
    obtain ⟨hday,-,hmid⟩ := mem_monthRun.mp hd
    obtain ⟨he,hafter⟩ := mem_monthsAfter.mp he
    rw [Date.lt_iff, Date.number_of_first hday, Date.number_of_first (mem_monthRun.mp he).1]
    exact Nat.add_lt_add_right (daysBefore_strictMono (hmid.trans_lt hafter)) 1
  · rw [List.mem_append, mem_monthsAfter, mem_monthRun, mem_monthRun]
    omega

end
end Flextime

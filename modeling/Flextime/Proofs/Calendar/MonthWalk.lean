import Flextime.Proofs.Calendar.MonthRun

/-! # Walking from month to month

A walk takes one month after the other, each found from the one before it, until a month lies past the end.
Every walk ends, and it has the months of the run between its two ends. Only a walk through the last month of
the calendar is cut short, because no month follows that one.
-/
namespace Flextime

/-- The walk from `d` on that stops at the first month past `stop`: the months that it takes, and the fault that
cuts it short, if one does. -/
inductive MonthWalk (stop : Date) : Date → MonthRun → Prop where
  | past {d : Date} (h : stop < d) : MonthWalk stop d ⟨[],none⟩
  | cut {d : Date} {f : Fault} (h : d ≤ stop) (hnext : d.nextMonth = .error f) : MonthWalk stop d ⟨[d],some f⟩
  | next {d e : Date} {run : MonthRun} (h : d ≤ stop) (hnext : d.nextMonth = .ok e)
      (hrun : MonthWalk stop e run) : MonthWalk stop d ⟨d :: run.starts,run.fault?⟩

namespace Date
variable {d e : Date}

theorem monthStart_first (d : Date) : d.monthStart.day = 1 ∧ d.monthStart.monthIndex = d.monthIndex :=
  first_of_number d.number_of_monthStart

theorem first_le_iff (hd : d.day = 1) (he : e.day = 1) : d ≤ e ↔ d.monthIndex ≤ e.monthIndex := by
  rw [le_iff, number_of_first hd, number_of_first he, Nat.add_le_add_iff_right, daysBefore_strictMono.le_iff_le]

theorem first_lt_iff (hd : d.day = 1) (he : e.day = 1) : d < e ↔ d.monthIndex < e.monthIndex := by
  rw [lt_iff, number_of_first hd, number_of_first he, Nat.add_lt_add_iff_right, daysBefore_strictMono.lt_iff_lt]

theorem first_ext (hd : d.day = 1) (he : e.day = 1) (h : d.monthIndex = e.monthIndex) : d = e := by
  apply ext_number
  rw [number_of_first hd, number_of_first he, h]

theorem exists_ofMonthIndex? {k : Nat} (hk : k < 119988) : ∃ d, ofMonthIndex? k = some d := by
  obtain ⟨d,hd,-⟩ := ofCivil?_eq hk le_rfl (monthLength_pos _ _)
  exact ⟨d,hd⟩

/-- Only the last month of the calendar has no next one. -/
theorem nextMonth_eq_error_iff {f : Fault} :
    d.nextMonth = .error f ↔ (d.year = 9999 ∧ d.month = 12) ∧ f = .yearRange 10000 := by
  by_cases hlast : d.year = 9999 ∧ d.month = 12
  · have hnone : d.nextMonth = .error (.yearRange 10000) := by
      rw [nextMonth, hlast.1, hlast.2]
      rfl
    simp [hnone, hlast, eq_comm]
  · have hlt : d.monthIndex + 1 < 119988 := by
      rw [inLastMonth_iff] at hlast
      omega
    obtain ⟨e,he⟩ := exists_ofMonthIndex? hlt
    have hok : d.nextMonth = .ok e := nextMonth_eq_ok_iff.mpr (ofMonthIndex?_eq_some_iff.mp he)
    simp [hok, hlast]

theorem exists_nextMonth (h : ¬(d.year = 9999 ∧ d.month = 12)) : ∃ e, d.nextMonth = .ok e := by
  cases hnext : d.nextMonth with
  | ok e => exact ⟨e,rfl⟩
  | error f => exact absurd (nextMonth_eq_error_iff.mp hnext).1 h

theorem nextMonth_monthStart (d : Date) : d.monthStart.nextMonth = d.nextMonth := by
  simp only [nextMonth, year_of_monthIndex, month_of_monthIndex, d.monthStart_first.2]

end Date

theorem monthRun_monthStart (first last : Date) : monthRun first.monthStart last.monthStart = monthRun first last := by
  have hindex := last.monthStart_first.2
  simp only [monthRun, Date.inLastMonth_iff, first.monthStart_first.2, hindex]

section
variable {d e stop : Date} {f : Fault}

theorem monthRun_past (hd : d.day = 1) (hstop : stop.day = 1) (h : stop < d) : monthRun d stop = ⟨[],none⟩ := by
  have hindex := (Date.first_lt_iff hstop hd).mp h
  have hlt := d.monthIndex_lt
  have hlast : ¬(stop.year = 9999 ∧ stop.month = 12) := by
    rw [Date.inLastMonth_iff]
    omega
  have hstarts := monthRun_of_before hindex
  simp only [monthRun, if_neg hlast] at hstarts ⊢
  rw [hstarts]

theorem monthRun_cut (hd : d.day = 1) (h : d ≤ stop) (hnext : d.nextMonth = .error f) :
    monthRun d stop = ⟨[d],some f⟩ := by
  obtain ⟨hlast,rfl⟩ := Date.nextMonth_eq_error_iff.mp hnext
  have hindex := Date.inLastMonth_iff.mp hlast
  have hle := Date.monthIndex_mono h
  have hlt := stop.monthIndex_lt
  have hstop : stop.year = 9999 ∧ stop.month = 12 := Date.inLastMonth_iff.mpr (by omega)
  have hself : Date.ofMonthIndex? d.monthIndex = some d := Date.ofMonthIndex?_eq_some_iff.mpr ⟨hd,rfl⟩
  have hone : stop.monthIndex + 1 - d.monthIndex = 1 := by omega
  simp [monthRun, hstop, hone, hself]

theorem monthRun_next (hd : d.day = 1) (h : d ≤ stop) (hnext : d.nextMonth = .ok e) :
    monthRun d stop = ⟨d :: (monthRun e stop).starts,(monthRun e stop).fault?⟩ := by
  obtain ⟨he,hindex⟩ := Date.nextMonth_eq_ok_iff.mp hnext
  have hle := Date.monthIndex_mono h
  have hstarts : (monthRun d stop).starts = d :: (monthRun e stop).starts := by
    refine Date.eq_of_ascending (monthRun_ascending _ _) ?_ ?_
    · refine List.pairwise_cons.mpr ⟨?_,monthRun_ascending _ _⟩
      intro m hm
      obtain ⟨hmday,hem,-⟩ := mem_monthRun.mp hm
      exact (Date.first_lt_iff hd hmday).mpr (by omega)
    · intro m
      rw [List.mem_cons, mem_monthRun, mem_monthRun]
      constructor
      · rintro ⟨hmday,hdm,hms⟩
        by_cases heq : m.monthIndex = d.monthIndex
        · exact Or.inl (Date.first_ext hmday hd heq)
        · exact Or.inr ⟨hmday,by omega,hms⟩
      · rintro (rfl | ⟨hmday,hem,hms⟩)
        · exact ⟨hd,le_rfl,hle⟩
        · exact ⟨hmday,by omega,hms⟩
  rw [← hstarts]
  rfl

/-- The run between two months is a walk. -/
theorem monthWalk_monthRun (hstop : stop.day = 1) (hd : d.day = 1) : MonthWalk stop d (monthRun d stop) := by
  -- on the months that the calendar has from `d` on
  obtain ⟨n,hn⟩ : ∃ n, d.monthIndex + n = 119988 := ⟨119988 - d.monthIndex,by have := d.monthIndex_lt; omega⟩
  induction n generalizing d with
  | zero =>
    have hlt := d.monthIndex_lt
    omega
  | succ n ih =>
    by_cases h : d ≤ stop
    · cases hnext : d.nextMonth with
      | error f =>
        rw [monthRun_cut hd h hnext]
        exact MonthWalk.cut h hnext
      | ok e =>
        obtain ⟨he,hindex⟩ := Date.nextMonth_eq_ok_iff.mp hnext
        rw [monthRun_next hd h hnext]
        exact MonthWalk.next h hnext (ih he (by omega))
    · have hpast : stop < d := Nat.lt_of_not_le h
      rw [monthRun_past hd hstop hpast]
      exact MonthWalk.past hpast

end

namespace MonthWalk
variable {stop d : Date} {run : MonthRun}

theorem unique {other : MonthRun} (h : MonthWalk stop d run) (h' : MonthWalk stop d other) : run = other := by
  induction h generalizing other with
  | past h =>
    cases h' with
    | past => rfl
    | cut hle => exact absurd h (Nat.not_lt_of_le hle)
    | next hle => exact absurd h (Nat.not_lt_of_le hle)
  | cut h hnext =>
    cases h' with
    | past hlt => exact absurd hlt (Nat.not_lt_of_le h)
    | cut _ hnext' =>
      obtain rfl := Except.error.inj (hnext.symm.trans hnext')
      rfl
    | next _ hnext' => exact nomatch hnext.symm.trans hnext'
  | next h hnext _ ih =>
    cases h' with
    | past hlt => exact absurd hlt (Nat.not_lt_of_le h)
    | cut _ hnext' => exact nomatch hnext.symm.trans hnext'
    | next _ hnext' hrun' =>
      obtain rfl := Except.ok.inj (hnext.symm.trans hnext')
      rw [ih hrun']

/-- Each month of a walk is one further. -/
theorem length_eq (h : MonthWalk stop d run) (hstop : stop.day = 1) (hd : d.day = 1) :
    run.starts.length = stop.monthIndex + 1 - d.monthIndex := by
  induction h with
  | past h =>
    have hindex := (Date.first_lt_iff hstop hd).mp h
    rw [List.length_nil]
    omega
  | @cut d _ h hnext =>
    have hindex := Date.inLastMonth_iff.mp (Date.nextMonth_eq_error_iff.mp hnext).1
    have hle := Date.monthIndex_mono h
    have hlt := stop.monthIndex_lt
    rw [List.length_singleton]
    omega
  | next h hnext _ ih =>
    obtain ⟨he,hindex⟩ := Date.nextMonth_eq_ok_iff.mp hnext
    have hle := Date.monthIndex_mono h
    rw [List.length_cons, ih he]
    omega

end MonthWalk

theorem monthWalk_iff {first last : Date} {run : MonthRun} :
    MonthWalk last.monthStart first.monthStart run ↔ run = monthRun first last := by
  have hwalk := monthWalk_monthRun last.monthStart_first.1 first.monthStart_first.1
  rw [monthRun_monthStart] at hwalk
  constructor
  · intro h
    exact h.unique hwalk
  · rintro rfl
    exact hwalk

theorem mem_monthRun_iff {first last m : Date} : m ∈ (monthRun first last).starts ↔
    m.day = 1 ∧ first.monthStart ≤ m ∧ m ≤ last.monthStart := by
  rw [mem_monthRun, ← first.monthStart_first.2, ← last.monthStart_first.2]
  refine and_congr_right fun hm => ?_
  rw [Date.first_le_iff first.monthStart_first.1 hm, Date.first_le_iff hm last.monthStart_first.1]

theorem length_monthRun (first last : Date) : ((monthRun first last).starts.length : Int) =
    max 0 (12 * ((last.year : Int) - first.year) + last.month - first.month + 1) := by
  have hlength := (monthWalk_iff.mpr rfl : MonthWalk _ _ (monthRun first last)).length_eq
    last.monthStart_first.1 first.monthStart_first.1
  rw [hlength, last.monthStart_first.2, first.monthStart_first.2, last.year_of_monthIndex, last.month_of_monthIndex,
    first.year_of_monthIndex, first.month_of_monthIndex]
  omega

/-- The last month of the calendar is the last one of every run that it ends. -/
theorem getLast?_monthRun {first last d : Date} (h : last.year = 9999 ∧ last.month = 12)
    (hd : Date.ofCivil? 9999 12 1 = some d) : (monthRun first last).starts.getLast? = some d := by
  have hindex := Date.inLastMonth_iff.mp h
  have hlt := last.monthIndex_lt
  have hfirst := first.monthIndex_lt
  obtain ⟨n,hn⟩ : ∃ n, last.monthIndex + 1 - first.monthIndex = n + 1 :=
    ⟨last.monthIndex - first.monthIndex,by omega⟩
  have hlast : first.monthIndex + n = 119987 := by omega
  have hd' : Date.ofMonthIndex? 119987 = some d := hd
  simp [monthRun, hn, List.range_succ, hlast, hd']

/-- Taking months one by one from that of `first`, up to that of `last`, always ends, and what it takes is the run
of months. These are the first days of all months from the one to the other, in order, and as many as the
calendar has there. Nothing is at fault, except that the step after the last month of the calendar fails. -/
theorem monthRun_complete (first last : Date) :
    (∀ run, MonthWalk last.monthStart first.monthStart run ↔ run = monthRun first last) ∧
    (monthRun first last).starts.Pairwise (· < ·) ∧
    (∀ m, m ∈ (monthRun first last).starts ↔ m.day = 1 ∧ first.monthStart ≤ m ∧ m ≤ last.monthStart) ∧
    ((monthRun first last).starts.length : Int) =
      max 0 (12 * ((last.year : Int) - first.year) + last.month - first.month + 1) ∧
    (¬(last.year = 9999 ∧ last.month = 12) ∧ (monthRun first last).fault? = none ∨
      (last.year = 9999 ∧ last.month = 12) ∧ (monthRun first last).fault? = some (.yearRange 10000) ∧
        ∃ d, Date.ofCivil? 9999 12 1 = some d ∧ (monthRun first last).starts.getLast? = some d) ∧
    (Fault.yearRange 10000).message = "year 10000 is out of range" := by
  refine ⟨fun run => monthWalk_iff,monthRun_ascending _ _,fun m => mem_monthRun_iff,length_monthRun _ _,?_,by decide⟩
  by_cases hlast : last.year = 9999 ∧ last.month = 12
  · obtain ⟨d,hd⟩ := Date.exists_ofMonthIndex? (show 119987 < 119988 by decide)
    exact Or.inr ⟨hlast,if_pos hlast,d,hd,getLast?_monthRun hlast hd⟩
  · exact Or.inl ⟨hlast,if_neg hlast⟩

end Flextime

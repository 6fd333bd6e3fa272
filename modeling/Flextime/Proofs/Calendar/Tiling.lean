import Flextime.Proofs.Calendar.MonthWalk
import Flextime.Proofs.Outcome

/-! # Months without gaps

A month ends, by its length, on the day on which the next month begins. So the months of a walk follow one
another without a gap, and together they have each day from the first of the first month up to the end of the
last one exactly once.
-/
namespace Flextime

/-- Periods that follow one another without a gap, from `a` up to `b`. -/
inductive Period.Tiling (b : Date) : Date → List Period → Prop where
  | nil : Tiling b b []
  | cons {p : Period} {ps : List Period} (h : p.start < p.stop) (hps : Tiling b p.stop ps) :
      Tiling b p.start (p :: ps)

namespace Period.Tiling
variable {a b : Date} {ps : List Period}

theorem le (h : Tiling b a ps) : a ≤ b := by
  induction h with
  | nil => exact le_refl b.number
  | cons h _ ih => exact Nat.le_trans (Nat.le_of_lt h) ih

theorem le_start (h : Tiling b a ps) {p : Period} (hp : p ∈ ps) : a ≤ p.start := by
  induction h with
  | nil => exact absurd hp List.not_mem_nil
  | cons h _ ih =>
    rcases List.mem_cons.mp hp with rfl | hp
    · exact le_refl p.start.number
    · exact Nat.le_trans (Nat.le_of_lt h) (ih hp)

theorem pairwise (h : Tiling b a ps) : ps.Pairwise fun p q => p.stop ≤ q.start := by
  induction h with
  | nil => exact List.Pairwise.nil
  | cons _ hps ih => exact List.pairwise_cons.mpr ⟨fun q hq => hps.le_start hq,ih⟩

theorem cover (h : Tiling b a ps) (d : Date) : (∃ p ∈ ps, p.start ≤ d ∧ d < p.stop) ↔ a ≤ d ∧ d < b := by
  induction h with
  | nil => simp [Date.le_iff, Date.lt_iff]
  | @cons p ps h hps ih =>
    have hle := hps.le
    simp only [List.mem_cons, exists_eq_or_imp, ih]
    simp only [Date.le_iff, Date.lt_iff] at h hle ⊢
    omega

end Period.Tiling

theorem monthPeriod_of_nextMonth {d e : Date} (hd : d.day = 1) (h : d.nextMonth = .ok e) :
    monthPeriod d.year d.month = .ok ⟨d,e⟩ := by
  obtain ⟨he,hindex⟩ := Date.nextMonth_eq_ok_iff.mp h
  have hlt := e.monthIndex_lt
  obtain ⟨p,hp,hmonth⟩ := exists_monthPeriod (k := d.monthIndex) (by omega)
  rw [← d.year_of_monthIndex, ← d.month_of_monthIndex] at hp
  obtain ⟨hstart,hk⟩ := hmonth.start_first
  obtain rfl := Date.first_ext hstart hd hk
  obtain rfl := Except.ok.inj (hmonth.nextMonth.symm.trans h)
  exact hp

/-- Each month that a walk takes is a period, which ends where the walk goes on. -/
theorem MonthWalk.tiling {stop d next : Date} {run : MonthRun} (h : MonthWalk stop d run) (hstop : stop.day = 1)
    (hnext : stop.nextMonth = .ok next) (hd : d.day = 1) (hle : d ≤ next) :
    ∃ ps, run.starts.mapM (fun m => monthPeriod m.year m.month) = .ok ps ∧ Period.Tiling next d ps := by
  obtain ⟨hnextDay,hnextIndex⟩ := Date.nextMonth_eq_ok_iff.mp hnext
  induction h with
  | @past d h =>
    have hlow := (Date.first_lt_iff hstop hd).mp h
    have hhigh := (Date.first_le_iff hd hnextDay).mp hle
    obtain rfl : d = next := Date.first_ext hd hnextDay (by omega)
    exact ⟨[],rfl,.nil⟩
  | @cut d f h hfault =>
    -- the month of `stop` has a next one, so that those before it have one
    have hlast := Date.inLastMonth_iff.mp (Date.nextMonth_eq_error_iff.mp hfault).1
    have hindex := Date.monthIndex_mono h
    have hlt := next.monthIndex_lt
    omega
  | @next d e run h hstep hrun ih =>
    obtain ⟨he,hindex⟩ := Date.nextMonth_eq_ok_iff.mp hstep
    have hstopIndex := Date.monthIndex_mono h
    obtain ⟨ps,hps,htiling⟩ := ih he ((Date.first_le_iff he hnextDay).mpr (by omega))
    refine ⟨⟨d,e⟩ :: ps,?_,.cons (p := ⟨d,e⟩) ?_ htiling⟩
    · rw [List.mapM_cons, monthPeriod_of_nextMonth hd hstep, hps]
      rfl
    · exact (Date.first_lt_iff hd he).mpr (by omega)

theorem IsFollowed.exists_monthBounds {year month : Int} (h : IsFollowed year month) :
    ∃ first next, monthBounds year month = .ok (first,next) ∧ first.nextMonth = .ok next ∧
      ∀ d : Date, first ≤ d ∧ d < next ↔ (d.year : Int) = year ∧ (d.month : Int) = month := by
  obtain ⟨p,hp,hmonth⟩ := h.exists_monthPeriod
  obtain ⟨⟨first,next⟩,hbounds,rfl⟩ := map_eq_ok_iff.mp hp
  refine ⟨first,next,hbounds,hmonth.nextMonth,fun d => ?_⟩
  rw [← h.monthIndex_eq_iff, ← hmonth.mem_days, Period.mem_days]

/-- A month that another one follows is bounded by its first day and that of the next one, and has the days in
between. So the months of a run that ends before the last month of the calendar lie one after the other, no two
of them have a day in common, and they have all days from the first of the first month up to the month after
the last one, and no others. -/
theorem monthBounds_tiling :
    (∀ year month : Int, IsFollowed year month →
      ∃ first next, monthBounds year month = .ok (first,next) ∧ first.nextMonth = .ok next ∧
        ∀ d : Date, first ≤ d ∧ d < next ↔ (d.year : Int) = year ∧ (d.month : Int) = month) ∧
    ∀ first last : Date, first ≤ last → ¬(last.year = 9999 ∧ last.month = 12) →
      ∃ ps next, (monthRun first last).starts.mapM (fun m => monthPeriod m.year m.month) = .ok ps ∧
        last.nextMonth = .ok next ∧ Period.Tiling next first.monthStart ps ∧
        ps.Pairwise (fun p q => ∀ d : Date, ¬((p.start ≤ d ∧ d < p.stop) ∧ q.start ≤ d ∧ d < q.stop)) ∧
        ∀ d : Date, (∃ p ∈ ps, p.start ≤ d ∧ d < p.stop) ↔ first.monthStart ≤ d ∧ d < next := by
  refine ⟨fun year month h => h.exists_monthBounds,fun first last hle hlast => ?_⟩
  obtain ⟨next,hnext⟩ := Date.exists_nextMonth hlast
  have hindex := Date.nextMonth_eq_ok_iff.mp hnext
  have hmono := Date.monthIndex_mono hle
  have hstart := first.monthStart_first
  have hfirst : first.monthStart ≤ next := (Date.first_le_iff hstart.1 hindex.1).mpr (by omega)
  have hwalk : MonthWalk last.monthStart first.monthStart (monthRun first last) := monthWalk_iff.mpr rfl
  obtain ⟨ps,hps,htiling⟩ := hwalk.tiling last.monthStart_first.1 (last.nextMonth_monthStart.trans hnext)
    hstart.1 hfirst
  refine ⟨ps,next,hps,hnext,htiling,htiling.pairwise.imp ?_,htiling.cover⟩
  rintro p q hpq d ⟨⟨-,hp⟩,hq,-⟩
  exact absurd (Nat.lt_of_lt_of_le hp hpq) (Nat.not_lt_of_le hq)

/-- The twenty-ninth of February of a leap year. -/
def leapDay : Date := (Date.ofCivil? 2024 2 29).getD default

/-- The months from a December to a February of 29 days. -/
theorem monthBounds_tiling_leapYear :
    (∃ first next, monthBounds 2024 2 = .ok (first,next) ∧ first.nextMonth = .ok next ∧ first ≤ leapDay ∧
      leapDay < next) ∧
    ∃ ps next, (monthRun (dayIn2023 350) leapDay).starts.mapM (fun m => monthPeriod m.year m.month) = .ok ps ∧
      leapDay.nextMonth = .ok next ∧ Period.Tiling next (dayIn2023 350).monthStart ps ∧
      ∃ p ∈ ps, p.start ≤ leapDay ∧ leapDay < p.stop := by
  constructor
  · obtain ⟨first,next,hbounds,hnext,hdays⟩ := monthBounds_tiling.1 2024 2
      ⟨by decide,by decide,by decide,by decide,by decide⟩
    obtain ⟨hfirst,hlast⟩ := (hdays leapDay).mpr ⟨by decide +kernel,by decide +kernel⟩
    exact ⟨first,next,hbounds,hnext,hfirst,hlast⟩
  · obtain ⟨ps,next,hps,hnext,htiling,-,hcover⟩ := monthBounds_tiling.2 (dayIn2023 350) leapDay
      (by decide +kernel) (by decide +kernel)
    have hmarch : leapDay.nextMonth = .ok (dayIn2023 426) := by decide +kernel
    obtain rfl := Except.ok.inj (hnext.symm.trans hmarch)
    exact ⟨ps,_,hps,hnext,htiling,(hcover leapDay).mpr ⟨by decide +kernel,by decide +kernel⟩⟩

end Flextime

import Flextime.Calendar.Month
import Flextime.Proofs.Calendar.Days
import Mathlib.Tactic.Linarith

/-! # Months of the calendar

Months are numbered from January of year 1. A month has the days behind those of all months before
it, so year and month of a date are found again from its number, and months abut.
-/
namespace Flextime

theorem daysBeforeYear_succ {y : Nat} (hy : 1 ≤ y) :
    daysBeforeYear (y + 1) = daysBeforeYear y + if isLeapYear y then 366 else 365 := by
  obtain ⟨k,rfl⟩ : ∃ k, y = k + 1 := ⟨y - 1,by omega⟩
  simp only [daysBeforeYear, Nat.add_sub_cancel]
  by_cases h4 : (k + 1) % 4 = 0
  · by_cases h100 : (k + 1) % 100 = 0
    · by_cases h400 : (k + 1) % 400 = 0
      · have hleap : isLeapYear (k + 1) = true := by simp [isLeapYear, h4, h400]
        rw [if_pos hleap]
        omega
      · have hleap : ¬isLeapYear (k + 1) = true := by simp [isLeapYear, h100, h400]
        rw [if_neg hleap]
        omega
    · have hleap : isLeapYear (k + 1) = true := by simp [isLeapYear, h4, h100]
      rw [if_pos hleap]
      omega
  · have hleap : ¬isLeapYear (k + 1) = true := by simp [isLeapYear, h4]
    have hquot4 : (k + 1) / 4 = k / 4 := by omega
    have hquot100 : (k + 1) / 100 = k / 100 := by omega
    have hquot400 : (k + 1) / 400 = k / 400 := by omega
    rw [if_neg hleap, hquot4, hquot100, hquot400]
    omega

theorem daysBeforeMonth_one (y : Nat) : daysBeforeMonth y 1 = 0 := rfl

theorem daysBeforeMonth_succ (y : Nat) {m : Nat} (hm : 1 ≤ m) :
    daysBeforeMonth y (m + 1) = daysBeforeMonth y m + monthLength y m := by
  obtain ⟨k,rfl⟩ : ∃ k, m = k + 1 := ⟨m - 1,by omega⟩
  simp only [daysBeforeMonth, Nat.add_sub_cancel, List.range_succ, List.foldl_append, List.foldl_cons,
    List.foldl_nil]

theorem daysBeforeMonth_end (y : Nat) : daysBeforeMonth y 13 = if isLeapYear y then 366 else 365 := by
  cases h : isLeapYear y <;> simp [daysBeforeMonth, monthLength, h, List.range_succ]

theorem monthLength_pos (y m : Nat) : 1 ≤ monthLength y m := by
  unfold monthLength
  repeat' split
  all_goals decide

theorem daysBeforeMonth_mono (y : Nat) {m n : Nat} (hm : 1 ≤ m) (h : m ≤ n) :
    daysBeforeMonth y m ≤ daysBeforeMonth y n := by
  induction n, h using Nat.le_induction with
  | base => exact le_refl _
  | succ n hn ih =>
    rw [daysBeforeMonth_succ y (hm.trans hn)]
    omega

/-- Days before month `k`, counted from January of year 1 as month 0. -/
def daysBefore (k : Nat) : Nat := daysBeforeYear (k / 12 + 1) + daysBeforeMonth (k / 12 + 1) (k % 12 + 1)

theorem daysBefore_succ (k : Nat) :
    daysBefore (k + 1) = daysBefore k + monthLength (k / 12 + 1) (k % 12 + 1) := by
  have hnext := daysBeforeMonth_succ (k / 12 + 1) (m := k % 12 + 1) (by omega)
  unfold daysBefore
  by_cases h : k % 12 = 11
  · have hend := daysBeforeMonth_end (k / 12 + 1)
    have hyear := daysBeforeYear_succ (y := k / 12 + 1) (by omega)
    simp only [h, Nat.reduceAdd] at hnext ⊢
    rw [show (k + 1) / 12 = k / 12 + 1 by omega, show (k + 1) % 12 = 0 by omega, hyear, daysBeforeMonth_one]
    omega
  · rw [show (k + 1) / 12 = k / 12 by omega, show (k + 1) % 12 = k % 12 + 1 by omega, hnext]
    omega

theorem daysBefore_strictMono : StrictMono daysBefore := by
  apply strictMono_nat_of_lt_succ
  intro k
  rw [daysBefore_succ]
  have := monthLength_pos (k / 12 + 1) (k % 12 + 1)
  omega

/-- The calendar ends with December 9999, which is month 119987. -/
theorem daysBefore_end : daysBefore 119988 = lastDayNumber := by decide

/-- When a property stays lost once it is lost, the numbers that have it are those below their count. -/
theorem lt_length_filter_iff {p : Nat → Bool} (hp : ∀ i j, i ≤ j → p j = true → p i = true) (n : Nat) :
    ∀ k < n, (p k = true ↔ k < ((List.range n).filter p).length) := by
  induction n with
  | zero => exact fun k hk => absurd hk (Nat.not_lt_zero k)
  | succ n ih =>
    intro k hk
    rw [List.range_succ, List.filter_append, List.length_append]
    cases hn : p n with
    | true =>
      have hall : (List.range n).filter p = List.range n :=
        List.filter_eq_self.mpr fun i hi => hp i n (List.mem_range.mp hi).le hn
      rw [hall, List.length_range, List.filter_cons_of_pos hn]
      exact ⟨fun _ => hk,fun _ => hp k n (Nat.lt_succ_iff.mp hk) hn⟩
    | false =>
      have hle := List.length_filter_le p (List.range n)
      rw [List.length_range] at hle
      rw [List.filter_cons_of_neg (by rw [hn]; exact Bool.false_ne_true)]
      rcases Nat.lt_succ_iff_lt_or_eq.mp hk with hk | rfl
      · exact ih k hk
      · constructor
        · intro h
          rw [hn] at h
          exact nomatch h
        · intro h
          simp only [List.filter_nil, List.length_nil, add_zero] at h
          omega

namespace Date

theorem number_of_year (d : Date) :
    1 ≤ d.year ∧ daysBeforeYear d.year < d.number ∧ d.number ≤ daysBeforeYear (d.year + 1) := by
  have h1 := d.one_le
  -- the estimate is at most one year off
  unfold year daysBeforeYear
  dsimp only
  split
  · omega
  · split
    · omega
    · omega

theorem number_of_month (d : Date) :
    1 ≤ d.month ∧ d.month ≤ 12 ∧ daysBeforeMonth d.year d.month < d.dayOfYear ∧
      d.dayOfYear ≤ daysBeforeMonth d.year (d.month + 1) := by
  obtain ⟨hy,hlow,hhigh⟩ := d.number_of_year
  rw [daysBeforeYear_succ hy, ← daysBeforeMonth_end] at hhigh
  have hpos : 1 ≤ d.dayOfYear := by
    unfold dayOfYear
    omega
  have hlast : d.dayOfYear ≤ daysBeforeMonth d.year 13 := by
    unfold dayOfYear
    omega
  have hcount : ∀ k < 12, daysBeforeMonth d.year (k + 1) < d.dayOfYear ↔ k < d.month := by
    intro k hk
    rw [month, ← lt_length_filter_iff _ 12 k hk, decide_eq_true_eq]
    intro i j hij hj
    rw [decide_eq_true_eq] at hj ⊢
    exact (daysBeforeMonth_mono d.year (by omega) (by omega)).trans_lt hj
  have hmonth : d.month ≤ 12 := (List.length_filter_le _ _).trans (by rw [List.length_range])
  have hfirst : 1 ≤ d.month := (hcount 0 (by omega)).mp (by rw [daysBeforeMonth_one]; omega)
  refine ⟨hfirst,hmonth,?_,?_⟩
  · have h := (hcount (d.month - 1) (by omega)).mpr (by omega)
    rwa [Nat.sub_add_cancel hfirst] at h
  · rcases Nat.lt_or_eq_of_le hmonth with hlt | heq
    · exact Nat.le_of_not_lt fun h => absurd ((hcount d.month hlt).mp h) (Nat.lt_irrefl _)
    · rw [heq]
      exact hlast

theorem year_of_monthIndex (d : Date) : d.year = d.monthIndex / 12 + 1 := by
  have hy := d.number_of_year.1
  obtain ⟨hm,hm12,-⟩ := d.number_of_month
  unfold monthIndex
  omega

theorem month_of_monthIndex (d : Date) : d.month = d.monthIndex % 12 + 1 := by
  obtain ⟨hm,hm12,-⟩ := d.number_of_month
  unfold monthIndex
  omega

theorem number_of_monthIndex (d : Date) :
    daysBefore d.monthIndex < d.number ∧ d.number ≤ daysBefore (d.monthIndex + 1) := by
  obtain ⟨hy,hlow,-⟩ := d.number_of_year
  obtain ⟨hm,-,hmlow,hmhigh⟩ := d.number_of_month
  rw [daysBefore_succ, daysBefore, ← year_of_monthIndex, ← month_of_monthIndex, add_assoc,
    ← daysBeforeMonth_succ d.year hm]
  unfold dayOfYear at hmlow hmhigh
  omega

/-- The month of a date is the only one with the date among its days. -/
theorem monthIndex_eq_iff {d : Date} {k : Nat} :
    d.monthIndex = k ↔ daysBefore k < d.number ∧ d.number ≤ daysBefore (k + 1) := by
  constructor
  · rintro rfl
    exact d.number_of_monthIndex
  · rintro ⟨hlow,hhigh⟩
    obtain ⟨hlow',hhigh'⟩ := d.number_of_monthIndex
    have h1 := daysBefore_strictMono.lt_iff_lt.mp (hlow.trans_le hhigh')
    have h2 := daysBefore_strictMono.lt_iff_lt.mp (hlow'.trans_le hhigh)
    omega

theorem number_of_day (d : Date) : 1 ≤ d.day ∧ d.number = daysBefore d.monthIndex + d.day := by
  obtain ⟨-,hlow,-⟩ := d.number_of_year
  obtain ⟨-,-,hmlow,-⟩ := d.number_of_month
  rw [daysBefore, ← year_of_monthIndex, ← month_of_monthIndex, day]
  unfold dayOfYear at hmlow ⊢
  omega

theorem number_of_monthStart (d : Date) : d.monthStart.number = daysBefore d.monthIndex + 1 := by
  obtain ⟨hday,hnumber⟩ := d.number_of_day
  have hlast := d.le_last
  obtain ⟨first,hfirst⟩ : ∃ first, ofNumber? ((d.number : Int) - d.day + 1) = some first :=
    ⟨⟨daysBefore d.monthIndex + 1,by omega,by omega⟩,ofNumber?_eq_some_iff.mpr (by dsimp only; omega)⟩
  have hn := ofNumber?_eq_some_iff.mp hfirst
  rw [monthStart, hfirst, Option.getD_some]
  omega

theorem monthIndex_mono {d e : Date} (h : d ≤ e) : d.monthIndex ≤ e.monthIndex := by
  have hd := d.number_of_monthIndex.1
  have he := e.number_of_monthIndex.2
  rw [le_iff] at h
  exact Nat.lt_succ_iff.mp (daysBefore_strictMono.lt_iff_lt.mp (hd.trans_le (h.trans he)))

/-- The first of a month that is over or has begun is no later than the first of the current one. -/
theorem le_monthStart {d e : Date} (hd : d.day = 1) (h : d ≤ e) : d ≤ e.monthStart := by
  rw [le_iff, number_of_monthStart, d.number_of_day.2, hd]
  exact Nat.add_le_add_right (daysBefore_strictMono.monotone (monthIndex_mono h)) 1

end Date

/-- A month of the calendar that another one follows: every one but December 9999. -/
def IsFollowed (year month : Int) : Prop :=
  1 ≤ month ∧ month ≤ 12 ∧ 1 ≤ year ∧ year ≤ 9999 ∧ ¬(year = 9999 ∧ month = 12)

def monthNumber (year month : Int) : Nat := 12 * (year.toNat - 1) + (month.toNat - 1)

theorem IsFollowed.monthNumber_lt {year month : Int} (h : IsFollowed year month) :
    monthNumber year month < 119987 := by
  obtain ⟨hm,hm12,hy,hy9999,hdec⟩ := h
  unfold monthNumber
  omega

theorem IsFollowed.monthIndex_eq_iff {year month : Int} (h : IsFollowed year month) (d : Date) :
    d.monthIndex = monthNumber year month ↔ (d.year : Int) = year ∧ (d.month : Int) = month := by
  obtain ⟨hm,hm12,hy,hy9999,hdec⟩ := h
  have hdy := d.number_of_year.1
  obtain ⟨hdm,hdm12,-⟩ := d.number_of_month
  unfold Date.monthIndex monthNumber
  omega

def IsMonth (k : Nat) (p : Period) : Prop :=
  p.start.number = daysBefore k + 1 ∧ p.stop.number = daysBefore (k + 1) + 1

theorem IsMonth.lt {k : Nat} {p : Period} (h : IsMonth k p) : p.start < p.stop := by
  have hlt := daysBefore_strictMono (Nat.lt_add_one k)
  rw [Date.lt_iff, h.1, h.2]
  omega

theorem IsMonth.le {k : Nat} {p : Period} (h : IsMonth k p) : p.start ≤ p.stop := Nat.le_of_lt h.lt

theorem IsMonth.mem_days {k : Nat} {p : Period} (h : IsMonth k p) {d : Date} :
    d ∈ p.days ↔ d.monthIndex = k := by
  rw [Period.mem_days, Date.monthIndex_eq_iff, Date.le_iff, Date.lt_iff, h.1, h.2]
  omega

theorem ofCivil?_eq {k i : Nat} (hk : k < 119988) (hi : 1 ≤ i)
    (hlen : i ≤ monthLength (k / 12 + 1) (k % 12 + 1)) :
    ∃ d : Date, Date.ofCivil? (k / 12 + 1) (k % 12 + 1) i = some d ∧ d.number = daysBefore k + i := by
  have hlast : daysBefore (k + 1) ≤ lastDayNumber := by
    rw [← daysBefore_end]
    exact daysBefore_strictMono.monotone (by omega)
  rw [daysBefore_succ] at hlast
  refine ⟨⟨daysBefore k + i,by omega,by omega⟩,?_,rfl⟩
  rw [Date.ofCivil?, if_pos ⟨by omega,by omega,by omega,by omega,hi,hlen⟩, Date.ofNumber?_eq_some_iff]
  rfl

theorem exists_monthPeriod {k : Nat} (hk : k < 119987) :
    ∃ p, monthPeriod (k / 12 + 1 : Nat) (k % 12 + 1 : Nat) = .ok p ∧ IsMonth k p := by
  have hlen := monthLength_pos (k / 12 + 1) (k % 12 + 1)
  obtain ⟨first,hfirst,hn⟩ := ofCivil?_eq (k := k) (by omega) (le_refl 1) hlen
  obtain ⟨last,hlast,hl⟩ := ofCivil?_eq (k := k) (by omega) hlen (le_refl _)
  rw [← daysBefore_succ] at hl
  have hend : daysBefore (k + 1) < lastDayNumber := by
    rw [← daysBefore_end]
    exact daysBefore_strictMono (by omega)
  obtain ⟨next,hnext⟩ : ∃ next : Date, last.plus? 1 = some next :=
    ⟨⟨last.number + 1,by omega,by omega⟩,Date.plus?_eq_some_iff.mpr rfl⟩
  refine ⟨⟨first,next⟩,?_,hn,?_⟩
  · have hm : ¬(((k % 12 + 1 : Nat) : Int) < 1 ∨ (12 : Int) < (k % 12 + 1 : Nat)) := by omega
    have hy : ¬(((k / 12 + 1 : Nat) : Int) < 1 ∨ (9999 : Int) < (k / 12 + 1 : Nat)) := by omega
    simp only [monthPeriod, monthBounds, if_neg hm, if_neg hy, Int.toNat_natCast, hfirst, hlast, hnext]
    rfl
  · have h := Date.plus?_eq_some_iff.mp hnext
    change next.number = _
    omega

theorem IsFollowed.exists_monthPeriod {year month : Int} (h : IsFollowed year month) :
    ∃ p, monthPeriod year month = .ok p ∧ IsMonth (monthNumber year month) p := by
  have hp := Flextime.exists_monthPeriod h.monthNumber_lt
  obtain ⟨hm,hm12,hy,hy9999,hdec⟩ := h
  have hyear : ((monthNumber year month / 12 + 1 : Nat) : Int) = year := by
    unfold monthNumber
    omega
  have hmonth : ((monthNumber year month % 12 + 1 : Nat) : Int) = month := by
    unfold monthNumber
    omega
  rwa [hyear, hmonth] at hp

/-- Only the months that another one follows are periods. -/
theorem exists_monthPeriod_iff {year month : Int} :
    (∃ p, monthPeriod year month = .ok p) ↔ IsFollowed year month := by
  constructor
  · rintro ⟨p,hp⟩
    unfold monthPeriod monthBounds at hp
    by_cases hm : month < 1 ∨ 12 < month
    · rw [if_pos hm] at hp
      exact nomatch hp
    rw [if_neg hm] at hp
    by_cases hy : year < 1 ∨ 9999 < year
    · rw [if_pos hy] at hp
      exact nomatch hp
    rw [if_neg hy] at hp
    refine ⟨by omega,by omega,by omega,by omega,?_⟩
    rintro ⟨rfl,rfl⟩
    exact nomatch hp
  · intro h
    obtain ⟨p,hp,-⟩ := h.exists_monthPeriod
    exact ⟨p,hp⟩

end Flextime

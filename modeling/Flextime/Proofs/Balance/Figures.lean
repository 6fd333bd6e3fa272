import Flextime.Proofs.Balance.Month
import Flextime.Proofs.Balance.Overtime

/-! # Reported figures in whole minutes

The month view rounds each category and adds up, the overtime view adds up and rounds once. Every category
that is rounded up by half a minute, and the target, move the two apart, but not far.
-/
namespace Flextime
open Duration

theorem Category.sum_update (f : Category → Int) (k : Category) (n : Int) :
    (all.map fun c => if c = k then n else f c).sum + f k = (all.map f).sum + n := by
  cases k <;> simp [all] <;> omega

theorem Tally.sum_eq_categories (t : Tally) : t.sum = (Category.all.map fun c => (t.get c).micros).sum := by
  obtain ⟨es,hes⟩ := t
  simp only [Tally.sum, durations, Tally.get, get?]
  induction es with
  | nil => rfl
  | cons e es ih =>
    obtain ⟨hnew,hes⟩ := List.nodup_cons.mp hes
    have hnone : es.lookup e.1 = none := by
      rw [List.lookup_eq_none_iff]
      intro p hp
      simp only [bne_iff_ne, ne_eq]
      rintro heq
      exact hnew (heq ▸ List.mem_map_of_mem hp)
    have hupdate := Category.sum_update (fun c => ((es.lookup c).getD .zero).micros) e.1 e.2.micros
    have hzero : Duration.zero.micros = 0 := rfl
    rw [hnone, Option.getD_none, hzero, add_zero] at hupdate
    rw [List.map_cons, List.map_cons, List.sum_cons, ih hes, add_comm, ← hupdate]
    congr 1
    refine List.map_congr_left fun c _ => ?_
    rw [Assoc.lookup_cons]
    split <;> rfl

theorem WorkSummary.roundedMinutes_excess {s : WorkSummary} (hs : s.tally.Nonneg) :
    -29999999 * 5 ≤ s.roundedMinutes * microsPerMinute - s.tally.sum ∧
      s.roundedMinutes * microsPerMinute - s.tally.sum ≤ 30000000 * 5 := by
  have hnonneg : ∀ n ∈ Category.all.map fun cat => (s.elapsed cat).micros, 0 ≤ n := by
    intro n hn
    obtain ⟨cat,-,rfl⟩ := List.mem_map.mp hn
    exact hs.get cat
  have hexcess := sum_nearestMinutes_excess hnonneg
  rw [List.map_map, List.length_map] at hexcess
  rw [s.tally.sum_eq_categories]
  exact hexcess

/-- A month whose figures all come from whole minutes: `m` of its categories, `t` of its target and `r` that
are required of it so far. Each figure is related to its minutes by `P`. -/
structure MonthBalance.InMinutes (P : Int → Binary64 → Prop) (b : MonthBalance) (m : Category → Int)
    (t r : Int) : Prop where
  categories : ∀ cat, P (m cat) (b.categoryHours.get cat)
  actual : P (Category.all.map m).sum b.actualHours
  target : P t b.targetHours
  required : P r b.requiredHours
  balance : P ((Category.all.map m).sum - r) b.balanceHours
  overtime : P (max ((Category.all.map m).sum - r) 0) b.overtimeHours
  undertime : P (max (r - (Category.all.map m).sum) 0) b.undertimeHours
  remaining : P (max (t - (Category.all.map m).sum) 0) b.remainingHours

theorem MonthBalance.InMinutes.imp {P Q : Int → Binary64 → Prop} (hPQ : ∀ {n x}, P n x → Q n x)
    {b : MonthBalance} {m : Category → Int} {t r : Int} (h : b.InMinutes P m t r) : b.InMinutes Q m t r where
  categories cat := hPQ (h.categories cat)
  actual := hPQ h.actual
  target := hPQ h.target
  required := hPQ h.required
  balance := hPQ h.balance
  overtime := hPQ h.overtime
  undertime := hPQ h.undertime
  remaining := hPQ h.remaining

theorem IsHoursOf.split {n : Int} {x : Binary64} (h : IsHoursOf n x) :
    IsHoursOf (max n 0) (splitBalance x).1 ∧ IsHoursOf (max (-n) 0) (splitBalance x).2 := by
  by_cases hn : 0 ≤ n
  · rw [splitBalance, if_pos (h.nonneg_iff.mpr hn), max_eq_left hn, max_eq_right (by omega)]
    exact ⟨h,of_zero⟩
  · rw [splitBalance, if_neg (mt h.nonneg_iff.mp hn), max_eq_right (by omega), max_eq_left (by omega)]
    exact ⟨of_zero,h.neg (not_le.mp hn)⟩

section
variable {c : Contract} {s : WorkSummary} {today : Date} {b : MonthBalance}

theorem monthBalance_hours (h : (monthBalance c s today).outcome = .ok b) :
    ∃ target required, (targetDuration c.workingHours s.period).outcome = .ok target ∧
      (requiredDuration c s.period today).outcome = .ok required ∧
      b.InMinutes IsHoursOf (fun cat => nearestMinutes (s.elapsed cat).micros)
        (nearestMinutes target.micros) (nearestMinutes required.micros) := by
  obtain ⟨m,rfl⟩ := monthBalance_eq_ok_iff.mp h
  have hrequired := micros_of_roundToMinute m.roundedRequired_eq
  have hbalance : IsHoursOf (s.roundedMinutes - nearestMinutes m.required.micros) m.balance.hours := by
    refine ⟨m.balance,?_,rfl⟩
    rw [micros_of_sub m.balance_eq, m.actual_micros, hrequired, sub_mul]
  obtain ⟨hover,hunder⟩ := hbalance.split
  rw [neg_sub] at hunder
  refine ⟨m.target,m.required,m.target_eq,m.required_eq,m.isHoursOf_categories,⟨_,m.actual_micros,rfl⟩,
    ⟨_,m.target_micros,rfl⟩,⟨_,hrequired,rfl⟩,hbalance,hover,hunder,?_⟩
  refine isHoursOf_max ?_ (Int.zero_mul _).symm
  rw [micros_of_sub m.remaining_eq, m.target_micros, m.actual_micros, sub_mul]
  rfl

theorem monthBalance_split (h : (monthBalance c s today).outcome = .ok b) :
    (b.overtimeHours,b.undertimeHours) = splitBalance b.balanceHours := by
  obtain ⟨m,rfl⟩ := monthBalance_eq_ok_iff.mp h
  rfl

theorem monthBalance_minutes (h : (monthBalance c s today).outcome = .ok b) :
    ∃ required, (requiredDuration c s.period today).outcome = .ok required ∧
      IsHoursOf s.roundedMinutes b.actualHours ∧
      IsHoursOf (s.roundedMinutes - nearestMinutes required.micros) b.balanceHours := by
  obtain ⟨_,required,-,hrequired,hfigures⟩ := monthBalance_hours h
  exact ⟨required,hrequired,hfigures.actual,hfigures.balance⟩

end

theorem MonthBalance.InMinutes.sum_categories {b : MonthBalance} {m : Category → Int} {t r : Int}
    (h : b.InMinutes IsHoursOf m t r) :
    (b.categoryHours.values.map wholeMinutes).sum = wholeMinutes b.actualHours := by
  rw [h.actual.wholeMinutes, PerCategory.values, List.map_map]
  exact congrArg List.sum (List.map_congr_left fun cat _ => (h.categories cat).wholeMinutes)

theorem splitBalance_sub (x : Binary64) : (splitBalance x).1.value - (splitBalance x).2.value = x.value := by
  unfold splitBalance
  split <;> simp

theorem splitBalance_zero (x : Binary64) :
    (splitBalance x).1 = .zero false ∨ (splitBalance x).2 = .zero false := by
  unfold splitBalance
  split
  · exact .inr rfl
  · exact .inl rfl

theorem overtimeBalance_minutes {c : Contract} {s : WorkSummary} {b : OvertimeBalance}
    (h : (overtimeBalance c s).outcome = .ok b) :
    ∃ target, (targetDuration c.workingHours s.period).outcome = .ok target ∧
      IsHoursOf (nearestMinutes (carriedMicros c s.period)) b.initialHours ∧
      IsHoursOf (nearestMinutes target.micros) b.targetHours ∧
      IsHoursOf (nearestMinutes s.tally.sum) b.actualHours ∧
      IsHoursOf (nearestMinutes (carriedMicros c s.period + s.tally.sum - target.micros)) b.balanceHours := by
  obtain ⟨o,rfl⟩ := overtimeBalance_eq_ok_iff.mp h
  have hsum : o.actual.micros = s.tally.sum := micros_of_sum o.actual_eq
  have hbalance := isHoursOf_of_roundedHours o.balanceHours_eq
  rw [micros_of_balanceDuration o.difference_eq] at hbalance
  rw [← micros_of_carriedOvertime o.carry_eq, ← hsum]
  exact ⟨o.target,o.target_eq,isHoursOf_of_roundedHours o.initialHours_eq,
    isHoursOf_of_roundedHours o.targetHours_eq,isHoursOf_of_roundedHours o.actualHours_eq,hbalance⟩

theorem overtimeBalance_split {c : Contract} {s : WorkSummary} {b : OvertimeBalance}
    (h : (overtimeBalance c s).outcome = .ok b) :
    (b.overtimeHours,b.undertimeHours) = splitBalance b.balanceHours := by
  obtain ⟨o,rfl⟩ := overtimeBalance_eq_ok_iff.mp h
  rfl

/-- On the last day of a period, all of its target is required. -/
theorem requiredDuration_of_over {c : Contract} {p : Period} {today : Date} (hp : p.start < p.stop)
    (hover : p.stop.number ≤ today.number + 1) {d : Duration}
    (h : (requiredDuration c p today).outcome = .ok d) :
    (targetDuration c.workingHours p).outcome = .ok d := by
  obtain ⟨tomorrow,htomorrow,hcases⟩ := requiredDuration_eq_ok_iff.mp h
  have hnext := Date.plus?_eq_some_iff.mp htomorrow
  have hmin : min tomorrow p.stop = p.stop := by
    apply Date.ext_number
    rw [Date.number_min]
    omega
  rw [hmin] at hcases
  exact hcases.elim (fun hstop => absurd hstop.1 (Nat.not_le_of_lt hp)) And.right

/-- The two ways of rounding one summary: its actual times are at most two minutes apart, and so are, at
most three minutes, its balances once the period is over, when nothing is carried into it. -/
theorem rounding_policies_near {c : Contract} {s : WorkSummary} {today : Date} {m : MonthBalance}
    {o : OvertimeBalance} (hs : s.tally.Nonneg) (hm : (monthBalance c s today).outcome = .ok m)
    (ho : (overtimeBalance c s).outcome = .ok o) :
    |wholeMinutes m.actualHours - wholeMinutes o.actualHours| ≤ 2 ∧
      (s.period.start < s.period.stop → s.period.stop.number ≤ today.number + 1 →
        s.period.start ≠ c.firstDay → |wholeMinutes m.balanceHours - wholeMinutes o.balanceHours| ≤ 3) := by
  obtain ⟨required,hrequired,hactual,hbalance⟩ := monthBalance_minutes hm
  obtain ⟨target,htarget,-,-,hactual',hbalance'⟩ := overtimeBalance_minutes ho
  have hcategories := WorkSummary.roundedMinutes_excess hs
  rw [hactual.wholeMinutes, hactual'.wholeMinutes, hbalance.wholeMinutes, hbalance'.wholeMinutes]
  constructor
  · -- Halves go up, so the five categories and the total are together off by less than three minutes.
    have htotal := nearestMinutes_excess (n := s.tally.sum) (sum_map_nonneg hs)
    rw [microsPerMinute] at hcategories htotal
    exact abs_le.mpr (by omega)
  · intro hp hover hfirst
    obtain rfl : required = target :=
      Except.ok.inj ((requiredDuration_of_over hp hover hrequired).symm.trans htarget)
    rw [carriedMicros, if_neg hfirst, zero_add]
    -- A balance may be negative, so its halves can go either way.
    have htargetRounding := nearestMinutes_within required.micros
    have hbalanceRounding := nearestMinutes_within (s.tally.sum - required.micros)
    rw [microsPerMinute] at hcategories htargetRounding hbalanceRounding
    exact abs_le.mpr (by omega)

def halfMinutes : Tally where
  entries := Category.all.map fun c => (c,⟨30000000,by decide,by decide⟩)
  nodup := by decide

def oneMonday : WorkSummary := ⟨⟨dayIn2023 2,dayIn2023 3⟩,halfMinutes⟩

/-- A contract from the day before, with half a minute less a second beyond eight hours a day. -/
def oddContract : Contract where
  firstDay := dayIn2023 1
  initialOvertime := .zero false
  initialVacation := .zero false
  workingHours := ⟨[⟨dayIn2023 1,Binary64.ofFraction false 28829 3600⟩],by decide,by decide +kernel⟩
  vacationDays := .empty

/-- Five half minutes are five minutes or three, and the balances are three minutes apart. -/
theorem rounding_policies_near_tight :
    ∃ m o, (monthBalance oddContract oneMonday (dayIn2023 2)).outcome = .ok m ∧
      (overtimeBalance oddContract oneMonday).outcome = .ok o ∧
      |wholeMinutes m.actualHours - wholeMinutes o.actualHours| ≤ 2 ∧
      |wholeMinutes m.balanceHours - wholeMinutes o.balanceHours| ≤ 3 ∧
      wholeMinutes m.actualHours = wholeMinutes o.actualHours + 2 ∧
      wholeMinutes m.balanceHours = wholeMinutes o.balanceHours + 3 := by
  have hmonth : ((monthBalance oddContract oneMonday (dayIn2023 2)).outcome.map fun m =>
      (wholeMinutes m.actualHours,wholeMinutes m.balanceHours)) = .ok (5,-475) := by decide +kernel
  have hovertime : ((overtimeBalance oddContract oneMonday).outcome.map fun o =>
      (wholeMinutes o.actualHours,wholeMinutes o.balanceHours)) = .ok (3,-478) := by decide +kernel
  obtain ⟨m,hm,hm'⟩ := map_eq_ok_iff.mp hmonth
  obtain ⟨o,ho,ho'⟩ := map_eq_ok_iff.mp hovertime
  obtain ⟨hactual,hbalance⟩ := rounding_policies_near (by decide) hm ho
  refine ⟨m,o,hm,ho,hactual,hbalance (by decide) (by decide) (by decide +kernel),?_,?_⟩
  · rw [(Prod.mk.inj hm').1, (Prod.mk.inj ho').1]
    rfl
  · rw [(Prod.mk.inj hm').2, (Prod.mk.inj ho').2]
    rfl

/-- All figures of a month are the numbers nearest to the hours of whole minutes, which are sums and differences
of the minutes of its categories, its target and what is required: each of these is rounded once, and nothing
made from them is rounded to minutes again. -/
theorem monthBalance_adds_up {c : Contract} {s : WorkSummary} {today : Date} {b : MonthBalance}
    (h : (monthBalance c s today).outcome = .ok b) :
    ∃ (target required : Duration) (m : Category → Int) (t r : Int),
      (targetDuration c.workingHours s.period).outcome = .ok target ∧
      (requiredDuration c s.period today).outcome = .ok required ∧
      (∀ cat, IsNearestMinute (s.elapsed cat).micros (m cat)) ∧
      IsNearestMinute target.micros t ∧ IsNearestMinute required.micros r ∧
      b.InMinutes IsNearestHours m t r ∧
      (b.categoryHours.values.map wholeMinutes).sum = wholeMinutes b.actualHours ∧
      b.overtimeHours.value - b.undertimeHours.value = b.balanceHours.value ∧
      (b.overtimeHours = .zero false ∨ b.undertimeHours = .zero false) := by
  obtain ⟨target,required,htarget,hrequired,hfigures⟩ := monthBalance_hours h
  obtain ⟨hover,hunder⟩ := Prod.mk.inj (monthBalance_split h)
  refine ⟨target,required,_,_,_,htarget,hrequired,fun cat => isNearestMinute _,isNearestMinute _,
    isNearestMinute _,hfigures.imp IsHoursOf.isNearestHours,hfigures.sum_categories,?_,?_⟩
  · rw [hover, hunder]
    exact splitBalance_sub _
  · rw [hover, hunder]
    exact splitBalance_zero _

/-- Two hours and half a minute of work, and less than half a minute of illness. -/
def shortMonday : WorkSummary where
  period := ⟨dayIn2023 2,dayIn2023 3⟩
  tally := ⟨[(.work,⟨7230000000,by decide,by decide⟩),(.illness,⟨29999999,by decide,by decide⟩)],by decide⟩

theorem monthBalance_adds_up_undertime :
    ∃ b, (monthBalance oddContract shortMonday (dayIn2023 2)).outcome = .ok b ∧
      b.InMinutes IsNearestHours (fun cat => if cat = .work then 121 else 0) 480 480 ∧
      IsNearestHours (-359) b.balanceHours ∧ IsNearestHours 0 b.overtimeHours ∧
      IsNearestHours 359 b.undertimeHours := by
  obtain ⟨b,hb⟩ : ∃ b, (monthBalance oddContract shortMonday (dayIn2023 2)).outcome = .ok b :=
    exists_of_isOk (by decide +kernel)
  obtain ⟨target,required,m,t,r,htarget,hrequired,hm,ht,hr,hfigures,-⟩ := monthBalance_adds_up hb
  have height : (targetDuration oddContract.workingHours shortMonday.period).outcome =
      .ok ⟨28829000000,by decide,by decide⟩ := by decide +kernel
  have hdue : (requiredDuration oddContract shortMonday.period (dayIn2023 2)).outcome =
      .ok ⟨28829000000,by decide,by decide⟩ := by decide +kernel
  obtain rfl := Except.ok.inj (htarget.symm.trans height)
  obtain rfl := Except.ok.inj (hrequired.symm.trans hdue)
  obtain rfl : t = 480 := ht.unique (isNearestMinute _)
  obtain rfl : r = 480 := hr.unique (isNearestMinute _)
  obtain rfl : m = fun cat => if cat = .work then 121 else 0 := by
    funext cat
    refine (hm cat).unique ?_
    cases cat <;> exact isNearestMinute _
  exact ⟨b,hb,hfigures,hfigures.balance,hfigures.overtime,hfigures.undertime⟩

end Flextime

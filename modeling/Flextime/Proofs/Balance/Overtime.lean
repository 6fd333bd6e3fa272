import Flextime.Balance.Overtime
import Flextime.Proofs.Balance.Target
import Flextime.Proofs.Duration.Rounding
import Flextime.Proofs.Entry.Logged
import Mathlib.Algebra.Order.Group.Abs

/-! # Overtime over a row of periods

The balance of a period is what is carried in, plus the time logged in it, less the time owed for
it. Logged and owed time add up at every cut, and only a period that starts with the contract
carries anything in, so the balances of consecutive periods from the first day of the contract on
are together the balance of the whole.
-/
namespace Flextime
open Duration

def unroundedOvertime (c : Contract) (s : WorkSummary) : Except Fault Duration := do
  let carry ← carriedOvertime c s.period
  let actual ← s.total
  let target ← (targetDuration c.workingHours s.period).outcome
  balanceDuration carry actual target

/-- The overtime of the entries of a period, and the same before it is rounded. -/
def overtimeOf (c : Contract) (es : List Entry) (p : Period) : Except Fault OvertimeBalance := do
  (overtimeBalance c (← summarize es p)).outcome

def unroundedOvertimeOf (c : Contract) (es : List Entry) (p : Period) : Except Fault Duration := do
  unroundedOvertime c (← summarize es p)

structure OvertimeSteps (c : Contract) (s : WorkSummary) where
  carry : Duration
  actual : Duration
  target : Duration
  difference : Duration
  initialHours : Binary64
  targetHours : Binary64
  actualHours : Binary64
  balanceHours : Binary64
  carry_eq : carriedOvertime c s.period = .ok carry
  actual_eq : s.total = .ok actual
  target_eq : (targetDuration c.workingHours s.period).outcome = .ok target
  difference_eq : balanceDuration carry actual target = .ok difference
  initialHours_eq : carry.roundedHours = .ok initialHours
  targetHours_eq : target.roundedHours = .ok targetHours
  actualHours_eq : actual.roundedHours = .ok actualHours
  balanceHours_eq : difference.roundedHours = .ok balanceHours

def OvertimeSteps.result {c : Contract} {s : WorkSummary} (o : OvertimeSteps c s) : OvertimeBalance where
  period := s.period
  initialHours := o.initialHours
  targetHours := o.targetHours
  actualHours := o.actualHours
  balanceHours := o.balanceHours
  overtimeHours := (splitBalance o.balanceHours).1
  undertimeHours := (splitBalance o.balanceHours).2

theorem overtimeBalance_eq_ok_iff {c : Contract} {s : WorkSummary} {b : OvertimeBalance} :
    (overtimeBalance c s).outcome = .ok b ↔ ∃ o : OvertimeSteps c s, o.result = b := by
  unfold overtimeBalance
  simp only [Traced.outcome_bind, Traced.outcome_liftM, Traced.outcome_report, Traced.outcome_pure,
    bind_eq_ok_iff]
  constructor
  · rintro ⟨carry,hcarry,actual,hactual,target,htarget,_,-,difference,hdifference,balanceHours,hbalanceHours,
      initialHours,hinitialHours,targetHours,htargetHours,actualHours,hactualHours,hb⟩
    exact ⟨⟨carry,actual,target,difference,initialHours,targetHours,actualHours,balanceHours,hcarry,hactual,
      htarget,hdifference,hinitialHours,htargetHours,hactualHours,hbalanceHours⟩,Except.ok.inj hb⟩
  · rintro ⟨o,rfl⟩
    exact ⟨_,o.carry_eq,_,o.actual_eq,_,o.target_eq,(),trivial,_,o.difference_eq,_,o.balanceHours_eq,_,
      o.initialHours_eq,_,o.targetHours_eq,_,o.actualHours_eq,rfl⟩

theorem unrounded_of_overtimeBalance {c : Contract} {s : WorkSummary} {b : OvertimeBalance}
    (h : (overtimeBalance c s).outcome = .ok b) :
    ∃ u, unroundedOvertime c s = .ok u ∧ u.roundedHours = .ok b.balanceHours := by
  obtain ⟨o,rfl⟩ := overtimeBalance_eq_ok_iff.mp h
  refine ⟨o.difference,?_,o.balanceHours_eq⟩
  simp only [unroundedOvertime, bind_eq_ok_iff]
  exact ⟨_,o.carry_eq,_,o.actual_eq,_,o.target_eq,o.difference_eq⟩

theorem unrounded_of_overtimeOf {c : Contract} {es : List Entry} {p : Period} {b : OvertimeBalance}
    (h : overtimeOf c es p = .ok b) :
    ∃ u, unroundedOvertimeOf c es p = .ok u ∧
      ∃ r, u.roundToMinute = .ok r ∧ b.balanceHours = r.hours := by
  obtain ⟨s,hs,hb⟩ := bind_eq_ok_iff.mp h
  obtain ⟨u,hu,hx⟩ := unrounded_of_overtimeBalance hb
  exact ⟨u,bind_eq_ok_iff.mpr ⟨s,hs,hu⟩,roundedHours_eq_ok_iff.mp hx⟩

/-- Microseconds of initial overtime that a period takes over. -/
def carriedMicros (c : Contract) (p : Period) : Int :=
  if p.start = c.firstDay then hoursMicros c.initialOvertime else 0

/-- Microseconds logged in a period beyond those owed for it. -/
def surplus (c : Contract) (es : List Entry) (p : Period) : Int :=
  logged es p - c.workingHours.owed p.days

theorem micros_of_carriedOvertime {c : Contract} {p : Period} {d : Duration}
    (h : carriedOvertime c p = .ok d) : d.micros = carriedMicros c p := by
  unfold carriedOvertime at h
  unfold carriedMicros
  by_cases hp : p.start = c.firstDay
  · rw [if_pos hp] at h ⊢
    exact micros_of_ofHours h
  · rw [if_neg hp] at h ⊢
    obtain rfl := pure_eq_ok_iff.mp h
    rfl

theorem micros_of_balanceDuration {carry actual target d : Duration}
    (h : balanceDuration carry actual target = .ok d) :
    d.micros = carry.micros + actual.micros - target.micros := by
  obtain ⟨sum,hsum,hd⟩ := bind_eq_ok_iff.mp h
  rw [micros_of_sub hd, micros_of_add hsum]

theorem micros_of_unroundedOvertimeOf {c : Contract} {es : List Entry} {p : Period} {u : Duration}
    (hp : p.start ≤ p.stop) (h : unroundedOvertimeOf c es p = .ok u) :
    u.micros = carriedMicros c p + surplus c es p := by
  obtain ⟨s,hs,hu⟩ := bind_eq_ok_iff.mp h
  simp only [unroundedOvertime, bind_eq_ok_iff] at hu
  obtain ⟨carry,hcarry,actual,hactual,target,htarget,hd⟩ := hu
  have hperiod := (summarize_eq_ok_iff.mp hs).1
  rw [hperiod] at hcarry htarget
  rw [micros_of_balanceDuration hd, micros_of_carriedOvertime hcarry, micros_of_total hs hactual,
    micros_of_targetDuration htarget hp, surplus]
  omega

theorem carry_of_unroundedOvertimeOf {c : Contract} {es : List Entry} {z : Date} {u : Duration}
    (h : unroundedOvertimeOf c es ⟨c.firstDay,z⟩ = .ok u) :
    (∃ carry, ofHours c.initialOvertime = .ok carry) ∧ ∀ e ∈ es, e.check = .ok () := by
  obtain ⟨s,hs,hu⟩ := bind_eq_ok_iff.mp h
  obtain ⟨carry,hcarry,-⟩ := bind_eq_ok_iff.mp hu
  obtain ⟨hperiod,ht⟩ := summarize_eq_ok_iff.mp hs
  rw [hperiod, carriedOvertime, if_pos rfl] at hcarry
  exact ⟨⟨carry,hcarry⟩,(tallied ht).2.2⟩

theorem surplus_split {c : Contract} {es : List Entry} (hes : ∀ e ∈ es, e.check = .ok ())
    (a b d : Date) (hab : a ≤ b) (hbd : b ≤ d) :
    surplus c es ⟨a,b⟩ + surplus c es ⟨b,d⟩ = surplus c es ⟨a,d⟩ := by
  have hlogged := logged_split hes hab hbd
  have howed := RateTimeline.owed_days (t := c.workingHours) a b d hab hbd
  unfold surplus
  omega

/-- Only the first of several periods in a row takes the initial overtime over. -/
theorem sum_carriedMicros {c : Contract} {d : Date} {rest : List Date}
    (hcuts : (c.firstDay :: d :: rest).Pairwise (· < ·)) :
    ((Period.between (c.firstDay :: d :: rest)).map (carriedMicros c)).sum =
      hoursMicros c.initialOvertime := by
  obtain ⟨hfirst,-⟩ := List.pairwise_cons.mp hcuts
  have hlater : ∀ q ∈ Period.between (d :: rest), carriedMicros c q = 0 := by
    intro q hq
    have hlt := hfirst q.start (Period.ends_of_mem_between hq).1
    refine if_neg fun h => ?_
    rw [h] at hlt
    exact Nat.lt_irrefl _ hlt
  rw [Period.between_cons, List.map_cons, List.sum_cons, List.map_congr_left hlater, List.map_const',
    List.sum_replicate, nsmul_zero, add_zero]
  exact if_pos rfl

theorem exists_unrounded {c : Contract} {es : List Entry} {ps : List Period}
    {bs : List OvertimeBalance} (h : ps.mapM (overtimeOf c es) = .ok bs) :
    ∃ us rs : List Duration, ps.mapM (unroundedOvertimeOf c es) = .ok us ∧
      us.mapM roundToMinute = .ok rs ∧ bs.map (·.balanceHours) = rs.map hours := by
  simp only [mapM_eq_ok_iff] at h ⊢
  induction h with
  | nil => exact ⟨[],[],.nil,.nil,rfl⟩
  | cons hb _ ih =>
    obtain ⟨u,hu,r,hr,hx⟩ := unrounded_of_overtimeOf hb
    obtain ⟨us,rs,hus,hrs,hxs⟩ := ih
    exact ⟨u :: us,r :: rs,.cons hu hus,.cons hr hrs,by rw [List.map_cons, List.map_cons, hx, hxs]⟩

theorem sum_unrounded {c : Contract} {es : List Entry} {cuts : List Date}
    (hcuts : cuts.Pairwise (· ≤ ·)) {us : List Duration}
    (h : (Period.between cuts).mapM (unroundedOvertimeOf c es) = .ok us) :
    (us.map micros).sum = ((Period.between cuts).map (carriedMicros c)).sum +
      ((Period.between cuts).map (surplus c es)).sum := by
  have hin := fun q hq => (Period.cut_of_mem_between hcuts (p := q) hq).1
  rw [mapM_eq_ok_iff] at h
  rw [← List.sum_map_add]
  generalize Period.between cuts = ps at h hin
  induction h with
  | nil => rfl
  | cons hu _ ih =>
    rw [List.map_cons, List.map_cons, List.sum_cons, List.sum_cons,
      micros_of_unroundedOvertimeOf (hin _ List.mem_cons_self) hu,
      ih fun q hq => hin q (List.mem_cons_of_mem _ hq)]

/-- Unrounded, the balances of consecutive periods from the first day of the contract on are the
balance of the whole, with the initial overtime in it once. Rounded to whole minutes they differ
from it by at most half a minute for each period and for the whole. -/
theorem overtime_tiling {c : Contract} {es : List Entry} {d z : Date} {rest : List Date}
    (hcuts : (c.firstDay :: d :: rest).Pairwise (· < ·)) (hz : (d :: rest).getLast? = some z)
    {bs : List OvertimeBalance} {whole : OvertimeBalance}
    (hbs : (Period.between (c.firstDay :: d :: rest)).mapM (overtimeOf c es) = .ok bs)
    (hwhole : overtimeOf c es ⟨c.firstDay,z⟩ = .ok whole) :
    ∃ (us rs : List Duration) (u r carry : Duration),
      (Period.between (c.firstDay :: d :: rest)).mapM (unroundedOvertimeOf c es) = .ok us ∧
      unroundedOvertimeOf c es ⟨c.firstDay,z⟩ = .ok u ∧
      (us.map micros).sum = u.micros ∧
      ofHours c.initialOvertime = .ok carry ∧
      u.micros = carry.micros + logged es ⟨c.firstDay,z⟩ -
        c.workingHours.owed (Period.days ⟨c.firstDay,z⟩) ∧
      us.mapM roundToMinute = .ok rs ∧ bs.map (·.balanceHours) = rs.map hours ∧
      u.roundToMinute = .ok r ∧ whole.balanceHours = r.hours ∧
      2 * |(rs.map micros).sum - r.micros| ≤ ((d :: rest).length + 1) * microsPerMinute := by
  have hle : (c.firstDay :: d :: rest).Pairwise (· ≤ ·) := hcuts.imp fun h => Nat.le_of_lt h
  have hfz : c.firstDay ≤ z := (List.pairwise_cons.mp hle).1 z (List.mem_of_getLast? hz)
  obtain ⟨us,rs,hus,hrs,hreported⟩ := exists_unrounded hbs
  obtain ⟨u,hu,r,hr,hx⟩ := unrounded_of_overtimeOf hwhole
  obtain ⟨⟨carry,hcarry⟩,hes⟩ := carry_of_unroundedOvertimeOf hu
  have hcarried : carry.micros = hoursMicros c.initialOvertime := micros_of_ofHours hcarry
  have hu' := micros_of_unroundedOvertimeOf hfz hu
  have hus' : (us.map micros).sum = hoursMicros c.initialOvertime + surplus c es ⟨c.firstDay,z⟩ := by
    rw [sum_unrounded hle hus, sum_carriedMicros hcuts,
      Period.sum_between (surplus_split hes) hle (by rw [List.getLast?_cons_cons, hz])]
  have hsum : (us.map micros).sum = u.micros := by
    rw [hus', hu', carriedMicros, if_pos rfl]
  have hlength : us.length = (d :: rest).length := by
    rw [← (mapM_eq_ok_iff.mp hus).length_eq, Period.length_between]
  refine ⟨us,rs,u,r,carry,hus,hu,hsum,hcarry,?_,hrs,hreported,hr,hx,?_⟩
  · rw [hu', hcarried, carriedMicros, if_pos rfl, surplus, add_sub_assoc]
  · have hpieces := sum_rounded_near hrs
    have hone := roundToMinute_near hr
    have htri := abs_sub_le (rs.map micros).sum u.micros r.micros
    rw [hsum, hlength] at hpieces
    rw [abs_sub_comm u.micros] at htri
    rw [add_mul, one_mul]
    omega

/-- Hours that shrink from a Saturday on, and an hour and a half carried into the Thursday before. -/
def shrinkingContract : Contract where
  firstDay := dayIn2023 12
  initialOvertime := Binary64.ofFraction false 3 2
  initialVacation := .zero false
  workingHours := shrinkingHours
  vacationDays := .empty

/-- From late on Thursday to half a minute into Saturday. -/
def longShift : Entry where
  label := "work"
  start := ⟨dayIn2023 12,79169000000,none,by decide⟩
  stop := ⟨dayIn2023 14,31000000,none,by decide⟩

/-- The contract up to the Monday, cut in front of the Friday. -/
def shrinkingCuts : List Date := [shrinkingContract.firstDay,dayIn2023 13,dayIn2023 16]

def shrinkingLifetime : Period := ⟨shrinkingContract.firstDay,dayIn2023 16⟩

theorem overtime_tiling_longShift :
    ∃ bs whole, (Period.between shrinkingCuts).mapM (overtimeOf shrinkingContract [longShift]) = .ok bs ∧
      overtimeOf shrinkingContract [longShift] shrinkingLifetime = .ok whole ∧
      ∃ us u,
        (Period.between shrinkingCuts).mapM (unroundedOvertimeOf shrinkingContract [longShift]) = .ok us ∧
        unroundedOvertimeOf shrinkingContract [longShift] shrinkingLifetime = .ok u ∧
        (us.map micros).sum = u.micros := by
  obtain ⟨bs,hbs⟩ : ∃ bs, (Period.between shrinkingCuts).mapM (overtimeOf shrinkingContract [longShift]) =
      .ok bs := exists_of_isOk (by decide +kernel)
  obtain ⟨whole,hwhole⟩ : ∃ b, overtimeOf shrinkingContract [longShift] shrinkingLifetime = .ok b :=
    exists_of_isOk (by decide +kernel)
  obtain ⟨us,_,u,_,_,hus,hu,hsum,-⟩ := overtime_tiling (by decide) rfl hbs hwhole
  exact ⟨bs,whole,hbs,hwhole,us,u,hus,hu,hsum⟩

end Flextime

import Flextime.Proofs.Balance.MonthSteps
import Flextime.Proofs.Calendar.Months
import Flextime.Proofs.Intake.Contract

/-! # Targets of months

The target of a month, and what is required of it by a day, are owed for all working days of the
month, those before the contract begins among them. So the months of a contract add up to its target
from the first day on and what its first month owes before that day.
-/
namespace Flextime
open Duration

def Contract.begun (c : Contract) (ds : List Date) : List Date := ds.filter fun d => !decide (d < c.firstDay)

def Contract.early (c : Contract) (ds : List Date) : List Date := ds.filter fun d => decide (d < c.firstDay)

theorem Contract.owed_split (c : Contract) (ds : List Date) :
    c.workingHours.owed ds = c.workingHours.owed (c.begun ds) + c.workingHours.owed (c.early ds) := by
  rw [add_comm]
  exact (RateTimeline.owed_filter (fun d => decide (d < c.firstDay)) ds).symm

/-- Days up to and including `today`. -/
def daysUntil (today : Date) (ds : List Date) : List Date := ds.filter fun d => decide (d ≤ today)

theorem daysUntil_days {today tomorrow : Date} (h : today.plus? 1 = some tomorrow) (p : Period) :
    daysUntil today p.days = Period.days ⟨p.start,min tomorrow p.stop⟩ := by
  have hnext := Date.plus?_eq_some_iff.mp h
  rw [← Period.filter_days_lt]
  refine List.filter_congr fun d _ => ?_
  rw [decide_eq_decide, Date.le_iff, Date.lt_iff]
  omega

theorem owed_daysUntil_le {t : RateTimeline} (h : t.WithinDay) (today : Date) (ds : List Date) :
    t.owed (daysUntil today ds) ≤ t.owed ds := RateTimeline.owed_filter_le h _ ds

theorem requiredDuration_eq_ok_iff {c : Contract} {p : Period} {today : Date} {required : Duration} :
    (requiredDuration c p today).outcome = .ok required ↔ ∃ tomorrow, today.plus? 1 = some tomorrow ∧
      (min tomorrow p.stop ≤ p.start ∧ required = .zero ∨ p.start < min tomorrow p.stop ∧
        (targetDuration c.workingHours ⟨p.start,min tomorrow p.stop⟩).outcome = .ok required) := by
  unfold requiredDuration
  cases today.plus? 1 with
  | none => simp
  | some tomorrow =>
    simp only [Option.some.injEq, exists_eq_left']
    by_cases hstop : min tomorrow p.stop ≤ p.start
    · have hnone : ¬p.start < min tomorrow p.stop := Nat.not_lt_of_le hstop
      simp [hstop, hnone, eq_comm]
    · have hsome : p.start < min tomorrow p.stop := Nat.lt_of_not_le hstop
      simp [hstop, hsome]

theorem micros_of_requiredDuration {c : Contract} {p : Period} {today : Date} {required : Duration}
    (h : (requiredDuration c p today).outcome = .ok required) :
    required.micros = c.workingHours.owed (daysUntil today p.days) := by
  obtain ⟨tomorrow,htomorrow,⟨hstop,rfl⟩ | ⟨hstop,htarget⟩⟩ := requiredDuration_eq_ok_iff.mp h
  · rw [daysUntil_days htomorrow, Period.days_of_le hstop]
    rfl
  · rw [daysUntil_days htomorrow, micros_of_target htarget, RateTimeline.due_of_le (Nat.le_of_lt hstop)]

/-- With rates of a day, what a period requires by a day is a duration, unless the calendar ends with
that day. -/
theorem exists_requiredDuration {c : Contract} (h : c.workingHours.WithinDay) (p : Period) {today : Date}
    (htoday : today.number < lastDayNumber) :
    ∃ d, (requiredDuration c p today).outcome = .ok d ∧
      d.micros = c.workingHours.owed (daysUntil today p.days) := by
  obtain ⟨tomorrow,htomorrow⟩ : ∃ t : Date, today.plus? 1 = some t :=
    ⟨⟨today.number + 1,by omega,by omega⟩,Date.plus?_eq_some_iff.mpr rfl⟩
  obtain ⟨d,hd⟩ : ∃ d, (requiredDuration c p today).outcome = .ok d := by
    simp only [requiredDuration_eq_ok_iff]
    by_cases hstop : min tomorrow p.stop ≤ p.start
    · exact ⟨.zero,tomorrow,htomorrow,Or.inl ⟨hstop,rfl⟩⟩
    · obtain ⟨d,hd,-⟩ := exists_targetDuration h ⟨p.start,min tomorrow p.stop⟩
      exact ⟨d,tomorrow,htomorrow,Or.inr ⟨Nat.lt_of_not_le hstop,hd⟩⟩
  exact ⟨d,hd,micros_of_requiredDuration hd⟩

theorem monthBalance_targets {c : Contract} {s : WorkSummary} {today : Date} {b : MonthBalance}
    (h : (monthBalance c s today).outcome = .ok b) {target required : Duration}
    (ht : (targetDuration c.workingHours s.period).outcome = .ok target)
    (hr : (requiredDuration c s.period today).outcome = .ok required) :
    target.roundedHours = .ok b.targetHours ∧ required.roundedHours = .ok b.requiredHours := by
  obtain ⟨m,rfl⟩ := monthBalance_eq_ok_iff.mp h
  obtain rfl := Except.ok.inj (ht.symm.trans m.target_eq)
  obtain rfl := Except.ok.inj (hr.symm.trans m.required_eq)
  exact ⟨roundedHours_eq_ok_iff.mpr ⟨_,m.roundedTarget_eq,rfl⟩,
    roundedHours_eq_ok_iff.mpr ⟨_,m.roundedRequired_eq,rfl⟩⟩

def monthTarget (c : Contract) (year month : Int) : Except Fault Duration := do
  (targetDuration c.workingHours (← monthPeriod year month)).outcome

/-- The targets of `n` months in a row, by the number of the first. -/
def monthTargets (c : Contract) (k n : Nat) : Except Fault (List Duration) :=
  (List.range' k n).mapM fun i => monthTarget c (i / 12 + 1 : Nat) (i % 12 + 1 : Nat)

/-- Months in a row are together the period from the start of the first to the end of the last. -/
theorem sum_monthTargets {c : Contract} (h : c.workingHours.WithinDay) {k n : Nat} (hn : k + n ≤ 119987)
    {a z : Date} (ha : a.number = daysBefore k + 1) (hz : z.number = daysBefore (k + n) + 1) :
    ∃ ts, monthTargets c k n = .ok ts ∧ (ts.map micros).sum = c.workingHours.owed (Period.days ⟨a,z⟩) := by
  induction n generalizing k a with
  | zero =>
    rw [Period.days_of_le (by rw [Date.le_iff]; exact (hz.trans ha.symm).le)]
    exact ⟨[],rfl,rfl⟩
  | succ n ih =>
    obtain ⟨p,hp,hmonth⟩ := exists_monthPeriod (k := k) (by omega)
    obtain ⟨t,ht,hmicros⟩ := exists_targetDuration h p
    have hstart : p.start = a := Date.ext_number (hmonth.1.trans ha.symm)
    obtain ⟨ts,hts,hsum⟩ := ih (k := k + 1) (by omega) hmonth.2 (by rw [hz]; congr 2; omega)
    have hle : p.stop ≤ z := by
      rw [Date.le_iff, hmonth.2, hz]
      exact Nat.add_le_add_right (daysBefore_strictMono.monotone (by omega)) 1
    refine ⟨t :: ts,?_,?_⟩
    · rw [monthTargets, List.range'_succ, mapM_eq_ok_iff]
      exact .cons (bind_eq_ok_iff.mpr ⟨p,hp,ht⟩) (mapM_eq_ok_iff.mp hts)
    · rw [List.map_cons, List.sum_cons, hsum, hmicros, RateTimeline.due_of_le hmonth.le, ← hstart]
      exact RateTimeline.owed_days p.start p.stop z hmonth.le hle

/-- The days of the month in which the contract begins that lie before its first day. -/
theorem early_days {c : Contract} {p : Period} (h : IsMonth c.firstDay.monthIndex p) :
    c.early p.days = Period.days ⟨p.start,c.firstDay⟩ ∧ p.start ≤ c.firstDay := by
  obtain ⟨hlow,hhigh⟩ := c.firstDay.number_of_monthIndex
  have hstart : p.start ≤ c.firstDay := by
    rw [Date.le_iff, h.1]
    omega
  have hmin : min c.firstDay p.stop = c.firstDay := by
    apply Date.ext_number
    rw [Date.number_min, h.2]
    omega
  refine ⟨?_,hstart⟩
  rw [Contract.early, Period.filter_days_lt, hmin]

theorem owed_begun_iff {c : Contract} (h : c.workingHours.WithinDay) (ds : List Date) :
    c.workingHours.owed ds = c.workingHours.owed (c.begun ds) ↔
      ∀ day ∈ c.early ds, day.isWorkingDay = true → hoursMicros (c.workingHours.rateAt day) = 0 := by
  rw [c.owed_split, ← RateTimeline.owed_eq_zero_iff h]
  omega

/-- The month view of an accepted contract charges the days before the contract begins like all
others. A month's target, and what is required by a day, are owed for the days on which the contract
has begun and also for the earlier ones, so they are what the contract owes exactly when nothing is
owed for a working day before it. Months in a row from the first on exceed the target of the
contract by what its first month owes before it begins. -/
theorem monthBalance_owed {v : Json} {d : ContractDraft} {c : Contract} (hd : Intake.contract v = .ok d)
    (hc : d.terms = .ok c) :
    (∀ (year month : Int) (today : Date), IsFollowed year month → today.number < lastDayNumber →
      ∃ (p : Period) (target required : Duration),
        monthPeriod year month = .ok p ∧
        (∀ day, day ∈ p.days ↔ (day.year : Int) = year ∧ (day.month : Int) = month) ∧
        (targetDuration c.workingHours p).outcome = .ok target ∧
        (requiredDuration c p today).outcome = .ok required ∧
        (∀ s b, s.period = p → (monthBalance c s today).outcome = .ok b →
          target.roundedHours = .ok b.targetHours ∧ required.roundedHours = .ok b.requiredHours) ∧
        target.micros = c.workingHours.owed (c.begun p.days) + c.workingHours.owed (c.early p.days) ∧
        required.micros = c.workingHours.owed (c.begun (daysUntil today p.days)) +
          c.workingHours.owed (c.early (daysUntil today p.days)) ∧
        (target.micros = c.workingHours.owed (c.begun p.days) ↔
          ∀ day ∈ c.early p.days, day.isWorkingDay = true →
            hoursMicros (c.workingHours.rateAt day) = 0) ∧
        (required.micros = c.workingHours.owed (c.begun (daysUntil today p.days)) ↔
          ∀ day ∈ c.early (daysUntil today p.days), day.isWorkingDay = true →
            hoursMicros (c.workingHours.rateAt day) = 0)) ∧
    (∀ (year month : Int), IsFollowed year month → c.firstDay.monthIndex ≤ monthNumber year month →
      ∃ (first last : Period) (ts : List Duration) (whole : Duration),
        monthPeriod c.firstDay.year c.firstDay.month = .ok first ∧
        monthPeriod year month = .ok last ∧
        monthTargets c c.firstDay.monthIndex (monthNumber year month + 1 - c.firstDay.monthIndex) = .ok ts ∧
        (targetDuration c.workingHours ⟨c.firstDay,last.stop⟩).outcome = .ok whole ∧
        (ts.map micros).sum = whole.micros + c.workingHours.owed (c.early first.days) ∧
        ((ts.map micros).sum = whole.micros ↔
          ∀ day ∈ c.early first.days, day.isWorkingDay = true →
            hoursMicros (c.workingHours.rateAt day) = 0)) := by
  have hday := (Intake.contract_wellFormed hd).withinDay hc
  constructor
  · intro year month today hfollowed htoday
    obtain ⟨p,hp,hmonth⟩ := hfollowed.exists_monthPeriod
    obtain ⟨target,ht,htarget⟩ := exists_targetDuration hday p
    obtain ⟨required,hr,hrequired⟩ := exists_requiredDuration hday p htoday
    rw [RateTimeline.due_of_le hmonth.le] at htarget
    refine ⟨p,target,required,hp,?_,ht,hr,?_,?_,?_,?_,?_⟩
    · intro day
      rw [hmonth.mem_days, hfollowed.monthIndex_eq_iff]
    · rintro s b rfl hb
      exact monthBalance_targets hb ht hr
    · rw [htarget, c.owed_split]
    · rw [hrequired, c.owed_split]
    · rw [htarget, owed_begun_iff hday]
    · rw [hrequired, owed_begun_iff hday]
  · intro year month hfollowed hlater
    have hlt := hfollowed.monthNumber_lt
    obtain ⟨last,hlast,hlastMonth⟩ := hfollowed.exists_monthPeriod
    obtain ⟨first,hfirst,hfirstMonth⟩ := exists_monthPeriod (k := c.firstDay.monthIndex) (by omega)
    obtain ⟨whole,hwhole,hmicros⟩ := exists_targetDuration hday ⟨c.firstDay,last.stop⟩
    obtain ⟨hearly,hstart⟩ := early_days hfirstMonth
    have hstop : c.firstDay ≤ last.stop := by
      have hin := c.firstDay.number_of_monthIndex.2
      have hmono := daysBefore_strictMono.monotone (Nat.add_le_add_right hlater 1)
      rw [Date.le_iff, hlastMonth.2]
      omega
    obtain ⟨ts,hts,hsum⟩ := sum_monthTargets hday
      (n := monthNumber year month + 1 - c.firstDay.monthIndex) (z := last.stop) (by omega) hfirstMonth.1 (by
        rw [hlastMonth.2]
        congr 2
        omega)
    have htotal : (ts.map micros).sum = whole.micros + c.workingHours.owed (c.early first.days) := by
      rw [hsum, hmicros, RateTimeline.due_of_le hstop, hearly, add_comm]
      exact (RateTimeline.owed_days first.start c.firstDay last.stop hstart hstop).symm
    refine ⟨first,last,ts,whole,?_,hlast,hts,hwhole,htotal,?_⟩
    · rw [c.firstDay.year_of_monthIndex, c.firstDay.month_of_monthIndex]
      exact hfirst
    · rw [htotal, ← RateTimeline.owed_eq_zero_iff hday]
      omega

/-- A contract from the middle of March 2023 on, with eight hours a day from the first of March. -/
def midMonthContract : Json := .object [
  ("first_day",.string "2023-03-15"),
  ("working_hours",.array [.object [("first_day",.string "2023-03-01"),("hours",.int 8)]]),
  ("vacation_days",.array [.object [("first_day",.string "2023-03-01"),("days",.int 0)]])]

def midMonthDraft : ContractDraft where
  firstDay := dayIn2023 74
  initialOvertime := .zero false
  initialVacation := .zero false
  workingHours := [⟨dayIn2023 60,Binary64.ofInt 8⟩]
  vacationDays := [⟨dayIn2023 60,.zero false⟩]

def midMonthTerms : Contract where
  firstDay := midMonthDraft.firstDay
  initialOvertime := .zero false
  initialVacation := .zero false
  workingHours := ⟨midMonthDraft.workingHours,by decide,by decide +kernel⟩
  vacationDays := ⟨midMonthDraft.vacationDays,by decide,by decide +kernel⟩

def march2023 : Period := ⟨dayIn2023 60,dayIn2023 91⟩

def endOfMarch2023 : Date := dayIn2023 90

theorem monthBalance_owed_midMonth :
    ∃ (p : Period) (target required : Duration), monthPeriod 2023 3 = .ok p ∧
      (targetDuration midMonthTerms.workingHours p).outcome = .ok target ∧
      (requiredDuration midMonthTerms p endOfMarch2023).outcome = .ok required ∧
      target.micros = midMonthTerms.workingHours.owed (midMonthTerms.begun p.days) +
        midMonthTerms.workingHours.owed (midMonthTerms.early p.days) := by
  have haccepted : Intake.contract midMonthContract = .ok midMonthDraft := by decide +kernel
  have hterms : midMonthDraft.terms = .ok midMonthTerms := by decide +kernel
  have hmarch : IsFollowed 2023 3 := by
    unfold IsFollowed
    decide
  obtain ⟨p,target,required,hp,-,ht,hr,-,htarget,-⟩ :=
    (monthBalance_owed haccepted hterms).1 2023 3 endOfMarch2023 hmarch (by decide)
  exact ⟨p,target,required,hp,ht,hr,htarget⟩

/-- In March the month view charges 184 hours where the contract owes 104. -/
theorem midMonth_charged :
    Intake.contract midMonthContract = .ok midMonthDraft ∧ midMonthDraft.terms = .ok midMonthTerms ∧
      monthPeriod 2023 3 = .ok march2023 ∧
      (targetDuration midMonthTerms.workingHours march2023).outcome =
        .ok ⟨184 * 3600000000,by decide,by decide⟩ ∧
      (requiredDuration midMonthTerms march2023 endOfMarch2023).outcome =
        .ok ⟨184 * 3600000000,by decide,by decide⟩ ∧
      (targetDuration midMonthTerms.workingHours ⟨midMonthTerms.firstDay,march2023.stop⟩).outcome =
        .ok ⟨104 * 3600000000,by decide,by decide⟩ ∧
      midMonthTerms.workingHours.owed (midMonthTerms.begun march2023.days) = 104 * 3600000000 := by
  decide +kernel

end Flextime

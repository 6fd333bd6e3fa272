import Flextime.Proofs.Balance.Figures
import Flextime.Proofs.Balance.Lifetime

/-! # Balances of accepted contracts

Intake holds the daily hours of a contract between nothing and a day, and the calendar has few days. What a
contract carries over and what is logged under it are not bounded there. While they stay below a billion
hours and a hundred million days, no figure on the way to a balance leaves the range of durations,
whichever way the period runs.
-/
namespace Flextime
open Duration

/-- Time that can be logged without a balance going out of range. -/
def loggedLimit : Int := 10 ^ 8 * microsPerDay

theorem calendarMicros_lt_days : calendarMicros < 10 ^ 7 * 86400000000 := by decide

theorem abs_hoursMicros_le {x : Binary64} {n : ℕ} (h : |x.value| ≤ n) :
    |hoursMicros x| ≤ n * microsPerHour := by
  have hnear := hoursMicros_near x
  have hlarge : |x.value * microsPerHour| ≤ n * microsPerHour := by
    rw [abs_mul, Nat.abs_cast]
    exact mul_le_mul_of_nonneg_right h (Nat.cast_nonneg _)
  have hlt : |(hoursMicros x : ℚ)| < n * microsPerHour + 1 := by
    calc |(hoursMicros x : ℚ)|
        = |hoursMicros x - x.value * microsPerHour + x.value * microsPerHour| := by rw [sub_add_cancel]
      _ ≤ |hoursMicros x - x.value * microsPerHour| + |x.value * microsPerHour| := abs_add_le _ _
      _ ≤ 1 / 2 + 2 ^ (-22 : ℤ) + n * microsPerHour := add_le_add hnear hlarge
      _ < n * microsPerHour + 1 := by
        rw [add_comm]
        gcongr
        norm_num
  exact Int.lt_add_one_iff.mp (by exact_mod_cast hlt)

theorem Tally.Nonneg.get_le_sum {t : Tally} (h : t.Nonneg) (c : Category) : (t.get c).micros ≤ t.sum := by
  rw [t.sum_eq_categories]
  exact Category.le_sum h.get c

section
variable {c : Contract} {s : WorkSummary}

theorem abs_carriedMicros_le (h : |c.initialOvertime.value| ≤ 10 ^ 9) (p : Period) :
    |carriedMicros c p| ≤ 10 ^ 9 * microsPerHour := by
  unfold carriedMicros
  split
  · exact abs_hoursMicros_le (n := 10 ^ 9) (by exact_mod_cast h)
  · decide

theorem fitsMonth_of_lt (hday : c.workingHours.WithinDay) (hs : s.tally.Nonneg)
    (hsum : s.tally.sum < loggedLimit) : s.FitsMonth c := by
  have hexcess := WorkSummary.roundedMinutes_excess hs
  have hsum0 : 0 ≤ s.tally.sum := sum_map_nonneg hs
  have hdue := abs_le.mp (abs_due_le hday s.period)
  have hround := nearestMinutes_within (c.workingHours.due s.period)
  have hcalendar := calendarMicros_lt_days
  rw [loggedLimit, microsPerDay] at hsum
  refine ⟨fun cat => ?_,⟨by omega,by omega⟩,⟨by omega,by omega⟩⟩
  have hlow := hs.get cat
  have hhigh := hs.get_le_sum cat
  unfold WorkSummary.elapsed
  exact ⟨by omega,by omega⟩

theorem fitsOvertime_of_lt (hday : c.workingHours.WithinDay) (hfin : c.initialOvertime.isFinite = true)
    (hcarry : |c.initialOvertime.value| ≤ 10 ^ 9) (hs : s.tally.Nonneg) (hsum : s.tally.sum < loggedLimit) :
    s.FitsOvertime c := by
  have hsum0 : 0 ≤ s.tally.sum := sum_map_nonneg hs
  have hdue := abs_le.mp (abs_due_le hday s.period)
  have hcarried := abs_le.mp (abs_carriedMicros_le hcarry s.period)
  have hinitial := abs_le.mp (abs_hoursMicros_le (n := 10 ^ 9) (by exact_mod_cast hcarry))
  have hcalendar := calendarMicros_lt_days
  rw [loggedLimit, microsPerDay] at hsum
  rw [microsPerHour] at hcarried hinitial
  exact ⟨fun _ => ⟨hfin,by omega,by omega⟩,⟨by omega,by omega⟩,⟨by omega,by omega⟩,⟨by omega,by omega⟩⟩

end

/-- What an accepted contract owes for a period, its overtime and its balance of a month are values,
whichever way the period runs, unless more than a billion hours are carried over, a hundred million days
logged, or the calendar ends with today. Each percentage is a share of the hours of the larger of target and
actual, a finite number, and nothing is divided by it unless it is positive. -/
theorem balances_total {v : Json} {d : ContractDraft} {c : Contract} (hd : Intake.contract v = .ok d)
    (hc : d.terms = .ok c) (hfin : c.initialOvertime.isFinite = true)
    (hcarry : |c.initialOvertime.value| ≤ 10 ^ 9) {s : WorkSummary} (hs : s.tally.Nonneg)
    (hsum : s.tally.sum < loggedLimit) {today : Date} (htoday : today.number < lastDayNumber) :
    (∃ target, (targetDuration c.workingHours s.period).outcome = .ok target) ∧
      (∃ hours, (targetHours c.workingHours s.period).outcome = .ok hours) ∧
      (∃ required, (requiredDuration c s.period today).outcome = .ok required) ∧
      (∃ overtime, (overtimeBalance c s).outcome = .ok overtime) ∧
      ∃ month, (monthBalance c s today).outcome = .ok month ∧
        ∃ (target : Duration) (total : Binary64), (targetDuration c.workingHours s.period).outcome = .ok target ∧
          IsHoursOf (max (nearestMinutes target.micros) s.roundedMinutes) total ∧ total.isFinite = true ∧
          (total.le (.zero false) = true ∨ 0 < total.value) ∧
          ∀ cat, percentage (month.categoryHours.get cat) total = .ok (month.percentages.get cat) := by
  have hday := (Intake.contract_wellFormed hd).withinDay hc
  obtain ⟨target,htarget,hmicros⟩ := exists_targetDuration hday s.period
  obtain ⟨required,hrequired,-⟩ := exists_requiredDuration hday s.period htoday
  obtain ⟨month,hmonth⟩ := exists_monthBalance hday htoday hs (fitsMonth_of_lt hday hs hsum)
  have hovertime := (exists_overtimeBalance_iff_fits hday hs).mpr (fitsOvertime_of_lt hday hfin hcarry hs hsum)
  refine ⟨⟨target,htarget⟩,?_,⟨required,hrequired⟩,hovertime,month,hmonth,?_⟩
  · have hround := roundable_due hday s.period
    rw [← hmicros] at hround
    obtain ⟨hours,hhours⟩ := exists_roundedHours_iff.mpr hround
    refine ⟨hours,?_⟩
    unfold targetHours
    rw [Traced.outcome_bind, htarget]
    exact hhours
  · obtain ⟨target,total,htarget,htotal,hshares⟩ := monthBalance_shares hmonth
    refine ⟨target,total,htarget,htotal,htotal.isFinite,?_,fun cat => (hshares cat).2⟩
    rw [Binary64.le_iff_value htotal.isFinite rfl, Binary64.value_zero]
    exact le_or_gt _ _

/-- A contract from the last day of the calendar on, with a billion hours carried over. -/
def lastDayContract : Json := .object [
  ("first_day",.string "9999-12-31"),
  ("init_overtime_hours",.int 1000000000),
  ("working_hours",.array [.object [("first_day",.string "0001-01-01"),("hours",.int 24)]]),
  ("vacation_days",.array [.object [("first_day",.string "0001-01-01"),("days",.int 0)]])]

def lastDayDraft : ContractDraft where
  firstDay := (Date.ofNumber? lastDayNumber).getD default
  initialOvertime := Binary64.ofInt 1000000000
  initialVacation := .zero false
  workingHours := [⟨default,Binary64.ofInt 24⟩]
  vacationDays := [⟨default,.zero false⟩]

/-- Back over the whole calendar, with a microsecond less than the limit at work. -/
def backwards : WorkSummary where
  period := ⟨lastDayDraft.firstDay,default⟩
  tally := ⟨[(.work,⟨8639999999999999999,by decide,by decide⟩)],by decide⟩

theorem balances_total_backwards :
    ∃ c, Intake.contract lastDayContract = .ok lastDayDraft ∧ lastDayDraft.terms = .ok c ∧
      (∃ target, (targetDuration c.workingHours backwards.period).outcome = .ok target) ∧
      (∃ overtime, (overtimeBalance c backwards).outcome = .ok overtime) ∧
      ∃ month, (monthBalance c backwards default).outcome = .ok month := by
  have haccepted : Intake.contract lastDayContract = .ok lastDayDraft := by decide +kernel
  obtain ⟨c,hc⟩ := (Intake.contract_wellFormed haccepted).exists_terms
  have hinitial : c.initialOvertime = Binary64.ofInt 1000000000 :=
    (ContractDraft.terms_of_eq_ok hc).initialOvertime
  obtain ⟨hfin,hvalue⟩ : c.initialOvertime.isFinite = true ∧ c.initialOvertime.value = (1000000000 : ℕ) := by
    rw [hinitial]
    exact Binary64.ofInt_natCast (by decide)
  have hcarry : |c.initialOvertime.value| ≤ 10 ^ 9 := by
    rw [hvalue]
    norm_num
  have htoday : (default : Date).number < lastDayNumber := by decide
  obtain ⟨htarget,-,-,hovertime,month,hmonth,-⟩ :=
    balances_total haccepted hc hfin hcarry (s := backwards) (by decide) (by decide) htoday
  exact ⟨c,haccepted,hc,htarget,hovertime,month,hmonth⟩

end Flextime

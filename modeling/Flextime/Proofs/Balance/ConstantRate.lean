import Flextime.Proofs.Balance.Figures
import Flextime.Proofs.Balance.Lifetime
import Flextime.Proofs.Duration.Conversion

/-! # Working what is due at a constant rate

At a constant rate the target is the microseconds of a day, once for every working day. The hours of all days
at once are rounded and converted once, so that time logged as these is another one in general. The calendar is
not long enough for the two to come half a minute apart.
-/
namespace Flextime
open Duration

namespace RateTimeline
variable {t : RateTimeline} {c : RateChange}

theorem rateAt_single (h : t.changes = [c]) {day : Date} (hday : c.effective ≤ day) : t.rateAt day = c.rate := by
  rw [rateAt, h, List.takeWhile_cons_of_pos (by simpa using hday)]
  rfl

theorem WithinDay.single (h : t.changes = [c]) (hc : IsDayRate c.rate) : t.WithinDay := by
  unfold WithinDay
  rwa [h, List.forall_mem_singleton]

theorem due_single (h : t.changes = [c]) {p : Period} (hc : c.effective ≤ p.start) (hp : p.start ≤ p.stop) :
    t.due p = p.workdays.length * hoursMicros c.rate := by
  rw [due_of_le hp]
  exact owed_of_constant fun d hd => rateAt_single h (Nat.le_trans hc (Period.mem_days.mp hd).1)

end RateTimeline

theorem carriedMicros_of_isZero {c : Contract} (h : c.initialOvertime.isZero = true) (p : Period) :
    carriedMicros c p = 0 := by
  rw [carriedMicros, hoursMicros_of_isZero h, ite_self]

theorem roundable_of_near {t : RateTimeline} (ht : t.WithinDay) {p : Period} (hp : p.start ≤ p.stop) {n : Int}
    (h : |n - t.due p| < 30000000) : Roundable n := by
  have hlow := RateTimeline.due_nonneg ht hp
  have hhigh := (abs_le.mp (abs_due_le ht p)).2
  have hlarge := calendarMicros_lt
  obtain ⟨hbelow,habove⟩ := abs_lt.mp h
  exact ⟨by omega,by omega⟩

section
variable {c : Contract} {s : WorkSummary}

/-- A total that is less than half a minute from what is due leaves no balance. -/
theorem overtimeBalance_of_near (hday : c.workingHours.WithinDay) (hinitial : c.initialOvertime.isZero = true)
    (hp : s.period.start ≤ s.period.stop) {actual : Duration} (hactual : s.total = .ok actual)
    (hnear : |actual.micros - c.workingHours.due s.period| < 30000000) :
    ∃ b, (overtimeBalance c s).outcome = .ok b ∧ b.balanceHours = .zero false ∧
      b.overtimeHours = .zero false ∧ b.undertimeHours = .zero false := by
  have hcarried := carriedMicros_of_isZero hinitial s.period
  rw [show actual.micros = s.tally.sum from micros_of_sum hactual] at hnear
  have hlogged := roundable_of_near hday hp hnear
  -- every figure on the way lies near the target or near nothing
  have hfits : s.FitsOvertime c := by
    refine ⟨fun _ => .of_isZero hinitial,hlogged,?_,?_⟩
    · rw [hcarried, zero_add]
      exact hlogged.inRange
    · obtain ⟨hbelow,habove⟩ := abs_lt.mp hnear
      rw [hcarried, zero_add]
      exact ⟨by omega,by omega⟩
  obtain ⟨b,hb⟩ := hfits.exists_overtimeBalance hday hactual
  obtain ⟨target,htarget,-,-,-,hbalance⟩ := overtimeBalance_minutes hb
  rw [hcarried, micros_of_target htarget, zero_add, nearestMinutes_of_near (n := 0) (by rwa [zero_mul, sub_zero])]
    at hbalance
  obtain ⟨hover,hunder⟩ := Prod.mk.inj (overtimeBalance_split hb)
  refine ⟨b,hb,hbalance.eq_zero,?_,?_⟩
  · rw [hover]
    exact hbalance.split.1.eq_zero
  · rw [hunder]
    exact hbalance.split.2.eq_zero

/-- Whoever logs the working days of a period times the rate, where a single rate is in effect all the time and
nothing is carried in, has no overtime and no undertime. -/
theorem overtimeBalance_constantRate {r : Binary64} {day : Date} {n : Int}
    (hinitial : c.initialOvertime.isZero = true) (hr : IsDayRate r)
    (hchanges : c.workingHours.changes = [⟨day,r⟩]) (hday : day ≤ s.period.start)
    (hp : s.period.start ≤ s.period.stop) (hn : countWorkingDays s.period.start s.period.stop = .ok n)
    (htotal : s.total = ofHours (Binary64.ofInt n * r)) :
    ∃ b, (overtimeBalance c s).outcome = .ok b ∧ b.balanceHours = .zero false ∧
      b.overtimeHours = .zero false ∧ b.undertimeHours = .zero false := by
  have hwithin := RateTimeline.WithinDay.single hchanges hr
  have hlength := s.period.length_workdays_le
  rw [countWorkingDays_eq, ← Period.length_workdays hp] at hn
  obtain rfl := Except.ok.inj hn
  have hnear := (hoursMicros_mul_near hr hlength).trans (by decide : (2000000 : Int) < 30000000)
  rw [← RateTimeline.due_single hchanges hday hp] at hnear
  obtain ⟨actual,hactual⟩ := exists_ofHours_iff.mpr
    ⟨(days_mul_near hr hlength).1,(roundable_of_near hwithin hp hnear).inRange⟩
  rw [← micros_of_ofHours hactual] at hnear
  exact overtimeBalance_of_near hwithin hinitial hp (htotal.trans hactual) hnear

end

/-- From the first day of the calendar up to its last. -/
def wholeCalendar : Period := ⟨default,(Date.ofNumber? lastDayNumber).getD default⟩

/-- Eight hours and almost half a microsecond. -/
def unevenRate : Binary64 := Binary64.ofFraction false 2880000000049 360000000000

def lifelongContract : Contract where
  firstDay := wholeCalendar.start
  initialOvertime := .zero true
  initialVacation := .zero false
  workingHours := ⟨[⟨wholeCalendar.start,unevenRate⟩],by decide,by decide +kernel⟩
  vacationDays := .empty

/-- Work for all working days of the calendar at that rate. -/
def lifelongSummary : WorkSummary where
  period := wholeCalendar
  tally := ⟨[(.work,⟨75128083201278220,by decide,by decide⟩)],by decide⟩

/-- More than a second beyond the target is still no overtime. -/
theorem overtimeBalance_constantRate_calendar :
    (targetDuration lifelongContract.workingHours wholeCalendar).outcome =
      .ok ⟨75128083200000000,by decide,by decide⟩ ∧
      ∃ b, (overtimeBalance lifelongContract lifelongSummary).outcome = .ok b ∧ b.balanceHours = .zero false ∧
        b.overtimeHours = .zero false ∧ b.undertimeHours = .zero false := by
  have hrate : IsDayRate unevenRate := ⟨by decide +kernel,by decide +kernel⟩
  have hdays : countWorkingDays wholeCalendar.start wholeCalendar.stop = .ok 2608614 := by decide +kernel
  have htotal : lifelongSummary.total = ofHours (Binary64.ofInt 2608614 * unevenRate) := by decide +kernel
  refine ⟨by decide +kernel,?_⟩
  exact overtimeBalance_constantRate (by decide) hrate rfl (by decide) (by decide) hdays htotal

end Flextime

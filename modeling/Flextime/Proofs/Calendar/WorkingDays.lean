import Flextime.Proofs.Binary64.Arithmetic
import Flextime.Proofs.Calendar.Days
import Flextime.Proofs.Outcome

/-! # Working days from Monday to Monday

No date is too early to have a Monday before it, because the calendar begins with one. Between two
Mondays lie whole weeks, few enough for their quotient to be exact, and what is put right at both ends
is what a count from the first day of the calendar has there.
-/
namespace Flextime

namespace Date

theorem weekday_lt (d : Date) : d.weekday < d.number := by
  have h := d.one_le
  unfold weekday
  omega

theorem exists_monday (d : Date) : ∃ m, d.monday = .ok m ∧ m.number + d.weekday = d.number := by
  have hweek := d.weekday_lt
  have hlast := d.le_last
  let m : Date := ⟨d.number - d.weekday,by omega,by omega⟩
  have hm : m.number + d.weekday = d.number := Nat.sub_add_cancel hweek.le
  refine ⟨m,?_,hm⟩
  have hplus : d.plus? (-d.weekday) = some m := by
    rw [plus?_eq_some_iff]
    omega
  simp [monday, hplus]

end Date

theorem weeksIn_whole {k : Int} (hk : k.natAbs < significandBound) : weeksIn (k * 7) = k := by
  obtain ⟨-,hval⟩ := Binary64.ofFraction_whole false (n := k * 7) (d := 7) (by decide) hk (by simp)
  have hd := (Binary64.ofFraction false (k * 7) 7).denominator_pos
  unfold weeksIn
  generalize Binary64.ofFraction false (k * 7) 7 = quotient at hval hd ⊢
  have hd' : (quotient.denominator : ℚ) ≠ 0 := by exact_mod_cast hd.ne'
  have hnum : quotient.numerator = k * quotient.denominator := by
    rw [Binary64.value, div_eq_iff hd'] at hval
    exact_mod_cast hval
  apply le_antisymm
  · exact Binary64.divNearest_le hd hnum.le
  · exact Binary64.le_divNearest hd hnum.ge

/-- The count by weeks agrees with the one from the first day of the calendar. -/
theorem countWorkingDays_eq (a b : Date) : countWorkingDays a b = .ok (workingDays a b) := by
  obtain ⟨first,hfirst,ha⟩ := a.exists_monday
  obtain ⟨last,hlast,hb⟩ := b.exists_monday
  have ha1 := a.one_le
  have hb1 := b.one_le
  have hmax := a.le_last
  have hmax' := b.le_last
  unfold Date.weekday at ha hb
  rw [lastDayNumber] at hmax hmax'
  -- both are Mondays, so that the days between them are whole weeks
  obtain ⟨k,hk⟩ : ∃ k : Int, (last.number : Int) - first.number = k * 7 :=
    ⟨((b.number - 1) / 7 : Nat) - ((a.number - 1) / 7 : Nat),by omega⟩
  have hweeks : weeksIn (last.number - first.number) = k := by
    rw [hk]
    apply weeksIn_whole
    rw [significandBound]
    omega
  simp only [countWorkingDays, hfirst, hlast, hweeks, ok_bind]
  apply congrArg Except.ok
  unfold workingDays workingDaysBefore Date.weekday
  omega

/-- Counting by weeks never fails and is exact: the Mondays to Fridays of a period, and of a reversed
one less than nothing. The counts add up over any three days. -/
theorem countWorkingDays_exact (a b : Date) :
    countWorkingDays a b = .ok (if a ≤ b then ((Period.workdays ⟨a,b⟩).length : Int)
      else -((Period.workdays ⟨b,a⟩).length : Int)) ∧
    ∀ c, ∃ m n : Int, countWorkingDays a b = .ok m ∧ countWorkingDays b c = .ok n ∧
      countWorkingDays a c = .ok (m + n) := by
  constructor
  · rw [countWorkingDays_eq]
    split
    next h => rw [Period.length_workdays h]
    next h => rw [Period.length_workdays (Nat.le_of_not_le h), workingDays_swap a b, neg_neg]
  · intro c
    refine ⟨_,_,countWorkingDays_eq a b,countWorkingDays_eq b c,?_⟩
    rw [countWorkingDays_eq, workingDays_add]

/-- From a Sunday in the first week of the calendar to the Saturday before it. -/
example : countWorkingDays ⟨7,by decide,by decide⟩ ⟨6,by decide,by decide⟩ = .ok 0 := by decide +kernel

end Flextime

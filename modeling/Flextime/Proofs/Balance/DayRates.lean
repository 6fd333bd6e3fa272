import Flextime.Proofs.Balance.Target
import Mathlib.Algebra.Order.BigOperators.Group.List

/-! # Targets at rates of a day

When every rate is one of a day, a period owes at most a day for each of its days. The calendar is
short enough for every target to be a duration then.
-/
namespace Flextime
open Duration

def RateTimeline.WithinDay (t : RateTimeline) : Prop := ∀ c ∈ t.changes, IsDayRate c.rate

theorem isDayRate_zero : IsDayRate (.zero false) := ⟨by decide +kernel,by decide +kernel⟩

def calendarMicros : Int := lastDayNumber * microsPerDay

theorem calendarMicros_lt : calendarMicros + 30000000 < 999999999 * 86400000000 := by decide

namespace RateTimeline
variable {t : RateTimeline}

theorem WithinDay.rateAt (h : t.WithinDay) (day : Date) : IsDayRate (t.rateAt day) := by
  unfold RateTimeline.rateAt
  split
  next c hc =>
    have hmem := List.mem_of_getLast? hc
    exact h c ((List.takeWhile_sublist _).mem hmem)
  next => exact isDayRate_zero

theorem owed_nonneg (h : t.WithinDay) (ds : List Date) : 0 ≤ t.owed ds :=
  sum_map_nonneg fun d _ => (hoursMicros_bounds (h.rateAt d)).1

theorem owed_eq_zero_iff (h : t.WithinDay) (ds : List Date) :
    t.owed ds = 0 ↔ ∀ d ∈ ds, d.isWorkingDay = true → hoursMicros (t.rateAt d) = 0 := by
  induction ds with
  | nil => simp
  | cons d ds ih =>
    have hrate := (hoursMicros_bounds (h.rateAt d)).1
    have hrest := owed_nonneg h ds
    rw [owed_cons, List.forall_mem_cons, ← ih]
    cases hd : d.isWorkingDay with
    | false => simp
    | true => simp only [↓reduceIte, true_implies]; omega

theorem owed_filter_le (h : t.WithinDay) (q : Date → Bool) (ds : List Date) :
    t.owed (ds.filter q) ≤ t.owed ds := by
  have hsplit := owed_filter (t := t) q ds
  have hrest := owed_nonneg h (ds.filter fun d => !q d)
  omega

theorem owed_le (h : t.WithinDay) (ds : List Date) : t.owed ds ≤ ds.length * microsPerDay := by
  have hsum := List.sum_le_card_nsmul ((ds.filter Date.isWorkingDay).map fun d => hoursMicros (t.rateAt d))
    (microsPerDay : Int) (by
      intro n hn
      obtain ⟨d,-,rfl⟩ := List.mem_map.mp hn
      exact (hoursMicros_bounds (h.rateAt d)).2)
  rw [List.length_map, nsmul_eq_mul] at hsum
  have hlength := List.length_filter_le Date.isWorkingDay ds
  exact hsum.trans (Int.mul_le_mul_of_nonneg_right (by exact_mod_cast hlength) (Int.natCast_nonneg _))

theorem owed_days_le (h : t.WithinDay) (p : Period) : t.owed p.days ≤ calendarMicros := by
  refine (owed_le h p.days).trans (Int.mul_le_mul_of_nonneg_right ?_ (Int.natCast_nonneg _))
  have hlength := p.length_days_le
  exact_mod_cast hlength

end RateTimeline

/-- What is due for a period: the time owed for its days, or, for a reversed one, less than nothing
at the rate of its start. -/
def RateTimeline.due (t : RateTimeline) (p : Period) : Int :=
  if p.start ≤ p.stop then t.owed p.days
  else -((Period.workdays ⟨p.stop,p.start⟩).length * hoursMicros (t.rateAt p.start))

theorem RateTimeline.due_of_le {t : RateTimeline} {p : Period} (h : p.start ≤ p.stop) :
    t.due p = t.owed p.days := if_pos h

theorem RateTimeline.due_of_reversed {t : RateTimeline} {p : Period} (h : p.stop ≤ p.start) :
    t.due p = pieceMicros t p := by
  unfold due
  by_cases hp : p.start ≤ p.stop
  · have heq : p.stop = p.start := Date.ext_number (Nat.le_antisymm h hp)
    rw [if_pos hp, Period.days_of_le h, pieceMicros, heq, workingDays_self, zero_mul]
    rfl
  · rw [if_neg hp, Period.length_workdays h, workingDays_swap, neg_mul, neg_neg, pieceMicros]

theorem RateTimeline.due_nonneg {t : RateTimeline} (ht : t.WithinDay) {p : Period} (h : p.start ≤ p.stop) :
    0 ≤ t.due p := by
  rw [due_of_le h]
  exact owed_nonneg ht _

theorem micros_of_target {t : RateTimeline} {p : Period} {d : Duration}
    (h : (targetDuration t p).outcome = .ok d) : d.micros = t.due p := by
  rcases Nat.le_total p.start.number p.stop.number with hp | hp
  · rw [RateTimeline.due_of_le hp, micros_of_targetDuration h hp]
  · rw [RateTimeline.due_of_reversed hp, (micros_of_reversed h hp).2]

theorem abs_due_le {t : RateTimeline} (h : t.WithinDay) (p : Period) : |t.due p| ≤ calendarMicros := by
  by_cases hp : p.start ≤ p.stop
  · rw [RateTimeline.due_of_le hp, abs_of_nonneg (RateTimeline.owed_nonneg h _)]
    exact RateTimeline.owed_days_le h p
  · have hrate := hoursMicros_bounds (h.rateAt p.start)
    have hlength := Period.length_workdays_le ⟨p.stop,p.start⟩
    rw [RateTimeline.due, if_neg hp, abs_neg, abs_of_nonneg (Int.mul_nonneg (Int.natCast_nonneg _) hrate.1)]
    exact Int.mul_le_mul (by exact_mod_cast hlength) hrate.2 hrate.1 (Int.natCast_nonneg _)

theorem exists_addPiece {t : RateTimeline} (h : t.WithinDay) (total : Duration) {q : Period}
    (hpart : InRange (pieceMicros t q)) (hsum : InRange (total.micros + pieceMicros t q)) :
    ∃ d, (addPiece t total q).outcome = .ok d ∧ d.micros = total.micros + pieceMicros t q := by
  obtain ⟨u,hu⟩ := exists_ofHours (h.rateAt q.start)
  rw [pieceMicros, ← micros_of_ofHours hu] at hpart hsum ⊢
  obtain ⟨part,hp⟩ := exists_ofMicros_iff.mpr hpart
  rw [← micros_of_ofMicros hp] at hsum ⊢
  obtain ⟨d,hd⟩ := exists_add_iff.mpr hsum
  exact ⟨d,addPiece_eq_ok_iff.mpr ⟨u,hu,part,hp,hd⟩,micros_of_add hd⟩

/-- Pieces that owe nothing negative are added up as long as the whole is a duration. -/
theorem exists_addPieces {t : RateTimeline} (h : t.WithinDay) {ps : List Period}
    (hps : ∀ q ∈ ps, 0 ≤ pieceMicros t q) (total : Duration) (h0 : 0 ≤ total.micros)
    (hsum : total.micros + (ps.map (pieceMicros t)).sum < 1000000000 * 86400000000) :
    ∃ d, (ps.foldlM (addPiece t) total).outcome = .ok d := by
  induction ps generalizing total with
  | nil => exact ⟨total,rfl⟩
  | cons q ps ih =>
    rw [List.map_cons, List.sum_cons] at hsum
    have hq := hps q List.mem_cons_self
    have hrest := sum_map_nonneg fun r hr => hps r (List.mem_cons_of_mem q hr)
    obtain ⟨next,hnext,hmicros⟩ := exists_addPiece h total (q := q) ⟨by omega,by omega⟩ ⟨by omega,by omega⟩
    obtain ⟨d,hd⟩ := ih (fun r hr => hps r (List.mem_cons_of_mem _ hr)) next (by omega) (by omega)
    refine ⟨d,?_⟩
    rw [List.foldlM_cons, Traced.outcome_bind, hnext]
    exact hd

theorem exists_targetDuration {t : RateTimeline} (h : t.WithinDay) (p : Period) :
    ∃ d, (targetDuration t p).outcome = .ok d ∧ d.micros = t.due p := by
  have hbound := abs_due_le h p
  have hlarge := calendarMicros_lt
  suffices hok : ∃ d, (targetDuration t p).outcome = .ok d by
    obtain ⟨d,hd⟩ := hok
    exact ⟨d,hd,micros_of_target hd⟩
  unfold targetDuration
  rcases Nat.le_total p.start.number p.stop.number with hp | hp
  · apply exists_addPieces h
    · intro q hq
      rw [pieceMicros_eq_owed hp hq]
      exact RateTimeline.owed_nonneg h _
    · exact le_refl _
    · have hle := RateTimeline.owed_days_le h p
      rw [sum_pieceMicros hp]
      change 0 + _ < _
      omega
  · rw [RateTimeline.due_of_reversed hp] at hbound
    obtain ⟨hlow,hhigh⟩ := abs_le.mp hbound
    have hrange : InRange (pieceMicros t p) := ⟨by omega,by omega⟩
    obtain ⟨d,hd,-⟩ := exists_addPiece h .zero hrange (by
      change InRange (0 + _)
      rwa [zero_add])
    rw [pieces_eq, RateTimeline.cuts_reversed hp]
    refine ⟨d,?_⟩
    rw [Period.between_cons, Period.between_single, List.foldlM_cons, Traced.outcome_bind, hd]
    rfl

theorem roundable_due {t : RateTimeline} (h : t.WithinDay) (p : Period) : Roundable (t.due p) := by
  have hlarge := calendarMicros_lt
  obtain ⟨hlow,hhigh⟩ := abs_le.mp (abs_due_le h p)
  exact ⟨by omega,by omega⟩

end Flextime

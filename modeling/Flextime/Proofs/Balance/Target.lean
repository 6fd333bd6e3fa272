import Flextime.Proofs.Calendar.WorkingDays
import Flextime.Proofs.Duration.Hours
import Flextime.Proofs.Outcome
import Flextime.Proofs.RateTimeline.Pieces
import Mathlib.Algebra.Ring.Int.Defs

/-! # Contracted time day by day

The target of a period is computed piece by piece. It is the sum over the working days of the
period, each at the rate of that day.
-/
namespace Flextime
open Duration

/-- Microseconds owed for the working days among the given ones, each at its own rate. -/
def RateTimeline.owed (t : RateTimeline) (days : List Date) : Int :=
  ((days.filter Date.isWorkingDay).map fun d => hoursMicros (t.rateAt d)).sum

namespace RateTimeline
variable {t : RateTimeline}

@[simp] theorem owed_nil : t.owed [] = 0 := rfl

theorem owed_append (ds es : List Date) : t.owed (ds ++ es) = t.owed ds + t.owed es := by
  simp only [owed, List.filter_append, List.map_append, List.sum_append]

theorem owed_days (a b c : Date) (hab : a ≤ b) (hbc : b ≤ c) :
    t.owed (Period.days ⟨a,b⟩) + t.owed (Period.days ⟨b,c⟩) = t.owed (Period.days ⟨a,c⟩) := by
  rw [Period.days_append hab hbc, owed_append]

theorem owed_cons (d : Date) (ds : List Date) :
    t.owed (d :: ds) = (if d.isWorkingDay then hoursMicros (t.rateAt d) else 0) + t.owed ds := by
  unfold owed
  by_cases h : d.isWorkingDay = true
  · rw [List.filter_cons_of_pos h, if_pos h, List.map_cons, List.sum_cons]
  · rw [List.filter_cons_of_neg h, if_neg h, zero_add]

theorem owed_filter (q : Date → Bool) (ds : List Date) :
    t.owed (ds.filter q) + t.owed (ds.filter fun d => !q d) = t.owed ds := by
  induction ds with
  | nil => rfl
  | cons d ds ih =>
    rw [owed_cons, ← ih]
    cases h : q d <;> simp only [List.filter_cons, h, Bool.not_true, Bool.not_false, Bool.false_eq_true,
      ↓reduceIte, owed_cons] <;> omega

theorem owed_of_constant {ds : List Date} {r : Binary64} (h : ∀ d ∈ ds, t.rateAt d = r) :
    t.owed ds = (ds.filter Date.isWorkingDay).length * hoursMicros r := by
  have hr : ∀ d ∈ ds.filter Date.isWorkingDay, hoursMicros (t.rateAt d) = hoursMicros r :=
    fun d hd => by rw [h d (List.mem_filter.mp hd).1]
  rw [owed, List.map_congr_left hr, List.map_const', List.sum_replicate, nsmul_eq_mul]

end RateTimeline

def pieceMicros (t : RateTimeline) (piece : Period) : Int :=
  workingDays piece.start piece.stop * hoursMicros (t.rateAt piece.start)

/-- The working days from one day up to another, each at the same hours. -/
def timeAtRate (hours : Binary64) (start stop : Date) : Except Fault Duration := do
  let days ← countWorkingDays start stop
  (← ofHours hours).times days

theorem timeAtRate_eq_ok_iff {hours : Binary64} {start stop : Date} {d : Duration} :
    timeAtRate hours start stop = .ok d ↔
      ∃ u, ofHours hours = .ok u ∧ times (workingDays start stop) u = .ok d := by
  simp only [timeAtRate, countWorkingDays_eq, ok_bind, bind_eq_ok_iff]

theorem outcome_addPiece (t : RateTimeline) (total : Duration) (piece : Period) :
    (addPiece t total piece).outcome = timeAtRate (t.rateAt piece.start) piece.start piece.stop >>= total.add := by
  simp only [addPiece, timeAtRate, countWorkingDays_eq, Traced.outcome_bind, Traced.outcome_report,
    Traced.outcome_liftM, ok_bind, bind_assoc]

theorem addPiece_eq_ok_iff {t : RateTimeline} {total d : Duration} {piece : Period} :
    (addPiece t total piece).outcome = .ok d ↔
      ∃ u, ofHours (t.rateAt piece.start) = .ok u ∧
        ∃ part, times (workingDays piece.start piece.stop) u = .ok part ∧ total.add part = .ok d := by
  rw [outcome_addPiece, bind_eq_ok_iff]
  simp only [timeAtRate_eq_ok_iff]
  constructor
  · rintro ⟨part,⟨u,hu,hpart⟩,hd⟩
    exact ⟨u,hu,part,hpart,hd⟩
  · rintro ⟨u,hu,part,hpart,hd⟩
    exact ⟨part,⟨u,hu,hpart⟩,hd⟩

theorem micros_of_addPieces {t : RateTimeline} {ps : List Period} {total d : Duration}
    (h : (ps.foldlM (addPiece t) total).outcome = .ok d) :
    d.micros = total.micros + (ps.map (pieceMicros t)).sum ∧
      ∀ q ∈ ps, ∃ u, ofHours (t.rateAt q.start) = .ok u := by
  induction ps generalizing total with
  | nil =>
    obtain rfl : total = d := pure_eq_ok_iff.mp h
    simp
  | cons q ps ih =>
    rw [List.foldlM_cons, Traced.outcome_bind, bind_eq_ok_iff] at h
    obtain ⟨next,hq,hps⟩ := h
    obtain ⟨u,hu,part,hpart,hnext⟩ := addPiece_eq_ok_iff.mp hq
    obtain ⟨hsum,hall⟩ := ih hps
    have hpiece : part.micros = pieceMicros t q := by
      rw [micros_of_times hpart, micros_of_ofHours hu, pieceMicros]
    refine ⟨?_,?_⟩
    · rw [hsum, micros_of_add hnext, hpiece, List.map_cons, List.sum_cons, add_assoc]
    · intro r hr
      rcases List.mem_cons.mp hr with rfl | hr
      · exact ⟨u,hu⟩
      · exact hall r hr

theorem pieceMicros_eq_owed {t : RateTimeline} {p piece : Period} (h : p.start ≤ p.stop)
    (hp : piece ∈ pieces t p) : pieceMicros t piece = t.owed piece.days := by
  have hle := (Period.cut_of_mem_between (RateTimeline.cuts_sorted h) hp).1
  rw [RateTimeline.owed_of_constant fun d hd => rateAt_of_mem_piece h hp (Period.mem_days.mp hd),
    pieceMicros, ← Period.length_workdays hle]
  rfl

theorem sum_pieceMicros {t : RateTimeline} {p : Period} (h : p.start ≤ p.stop) :
    ((pieces t p).map (pieceMicros t)).sum = t.owed p.days := by
  rw [List.map_congr_left fun q hq => pieceMicros_eq_owed h hq, pieces_eq, RateTimeline.cuts]
  refine Period.sum_between (f := fun q => t.owed q.days) RateTimeline.owed_days ?_ ?_
  · exact RateTimeline.cuts_sorted h
  · rw [← List.cons_append, List.getLast?_concat]

theorem micros_of_targetDuration {t : RateTimeline} {p : Period} {d : Duration}
    (h : (targetDuration t p).outcome = .ok d) (hp : p.start ≤ p.stop) : d.micros = t.owed p.days := by
  rw [(micros_of_addPieces h).1, sum_pieceMicros hp]
  exact zero_add _

/-- Every day of a period lies in a piece, so its rate was converted on the way. -/
theorem ofHours_of_targetDuration {t : RateTimeline} {p : Period} {d : Duration}
    (h : (targetDuration t p).outcome = .ok d) {day : Date} (hday : day ∈ p.days) :
    ∃ u, ofHours (t.rateAt day) = .ok u := by
  obtain ⟨hstart,hstop⟩ := Period.mem_days.mp hday
  have hp : p.start ≤ p.stop := Nat.le_of_lt (Nat.lt_of_le_of_lt hstart hstop)
  have hlast : (t.cuts p).getLast? = some p.stop := by
    rw [RateTimeline.cuts, ← List.cons_append, List.getLast?_concat]
  obtain ⟨q,hq,hin⟩ := Period.exists_mem_between hlast hstart hstop
  rw [rateAt_of_mem_piece hp hq hin]
  exact (micros_of_addPieces h).2 q hq

/-- A reversed period is a single piece. -/
theorem micros_of_reversed {t : RateTimeline} {p : Period} {d : Duration}
    (h : (targetDuration t p).outcome = .ok d) (hp : p.stop ≤ p.start) :
    (∃ u, ofHours (t.rateAt p.start) = .ok u) ∧ d.micros = pieceMicros t p := by
  obtain ⟨hsum,hall⟩ := micros_of_addPieces h
  rw [pieces_eq, RateTimeline.cuts_reversed hp] at hsum hall
  refine ⟨hall p List.mem_cons_self,?_⟩
  rw [hsum]
  simp [Duration.zero]

/-- The target of a period is the sum of the durations owed for its working days, each at the rate
of that day. Of a reversed period it is minus the duration owed for a day at its start, once for
each working day between its ends. -/
theorem targetDuration_daily {t : RateTimeline} {p : Period} {d : Duration}
    (h : (targetDuration t p).outcome = .ok d) :
    (p.start ≤ p.stop → ∃ us : List Duration,
      p.workdays.mapM (fun day => ofHours (t.rateAt day)) = .ok us ∧
        d.micros = (us.map Duration.micros).sum) ∧
    (p.stop < p.start → ∃ u, ofHours (t.rateAt p.start) = .ok u ∧
      d.micros = -((Period.workdays ⟨p.stop,p.start⟩).length * u.micros)) := by
  constructor
  · intro hp
    have hall : ∀ day ∈ p.workdays, ∃ u, ofHours (t.rateAt day) = .ok u := fun day hday =>
      ofHours_of_targetDuration h (List.mem_filter.mp hday).1
    obtain ⟨us,hus⟩ := exists_mapM hall
    refine ⟨us,hus,?_⟩
    rw [map_of_mapM (fun _ _ hu => micros_of_ofHours hu) hus, micros_of_targetDuration h hp]
    rfl
  · intro hp
    obtain ⟨⟨u,hu⟩,hd⟩ := micros_of_reversed h (Nat.le_of_lt hp)
    refine ⟨u,hu,?_⟩
    rw [hd, Period.length_workdays (Nat.le_of_lt hp), workingDays_swap, micros_of_ofHours hu, pieceMicros,
      neg_mul, neg_neg]

/-- Eight hours a day, six from a Saturday on, and for the Monday after it first four and then two. -/
def shrinkingHours : RateTimeline where
  changes := [⟨dayIn2023 1,Binary64.ofInt 8⟩,⟨dayIn2023 14,Binary64.ofInt 6⟩,
    ⟨dayIn2023 16,Binary64.ofInt 4⟩,⟨dayIn2023 16,Binary64.ofInt 2⟩]
  sorted := by decide
  admissible := by decide +kernel

/-- From a Friday up to the Wednesday after it. -/
def overWeekend : Period := ⟨dayIn2023 13,dayIn2023 18⟩

theorem targetDuration_overWeekend :
    (targetDuration shrinkingHours overWeekend).outcome = .ok ⟨43200000000,by decide,by decide⟩ ∧
      ∃ us : List Duration,
        overWeekend.workdays.mapM (fun day => ofHours (shrinkingHours.rateAt day)) = .ok us ∧
          43200000000 = (us.map Duration.micros).sum := by
  have h : (targetDuration shrinkingHours overWeekend).outcome =
      .ok ⟨43200000000,by decide,by decide⟩ := by decide +kernel
  exact ⟨h,(targetDuration_daily h).1 (by decide)⟩

end Flextime

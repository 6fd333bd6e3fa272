import Flextime.Duration
import Flextime.Proofs.Outcome
import Mathlib.Algebra.Order.Ring.Int

/-! # Ranges and rounding to whole minutes

A number of microseconds is a duration when it lies in the range of durations, and can be rounded
when it is not within half a minute of the upper end. A rounded duration is at most half a minute
off, and the sum of several at most half a minute for each of them. Rounding is the same on both sides of
zero, and keeps the order.
-/
namespace Flextime.Duration

/-- The microseconds of a duration. -/
def InRange (n : Int) : Prop := -999999999 * 86400000000 ≤ n ∧ n < 1000000000 * 86400000000

/-- Those of a duration whose nearest whole minutes are a duration as well. -/
def Roundable (n : Int) : Prop := -999999999 * 86400000000 ≤ n ∧ n + 30000000 < 1000000000 * 86400000000

theorem Roundable.inRange {n : Int} (h : Roundable n) : InRange n := ⟨h.1,by have := h.2; omega⟩

theorem exists_ofMicros_iff {n : Int} : (∃ d, ofMicros n = .ok d) ↔ InRange n := by
  unfold ofMicros
  constructor
  · rintro ⟨d,hd⟩
    split at hd
    next h => exact h
    next => cases hd
  · intro h
    exact ⟨_,dif_pos h⟩

theorem exists_add_iff {a b : Duration} : (∃ d, a.add b = .ok d) ↔ InRange (a.micros + b.micros) :=
  exists_ofMicros_iff

theorem exists_sub_iff {a b : Duration} : (∃ d, a.sub b = .ok d) ↔ InRange (a.micros - b.micros) :=
  exists_ofMicros_iff

theorem exists_roundToMinute_iff {d : Duration} : (∃ r, d.roundToMinute = .ok r) ↔ Roundable d.micros := by
  have hlow := d.lower
  have hhigh := d.upper
  refine exists_ofMicros_iff.trans ?_
  simp only [InRange, Roundable, nearestMinutes, microsPerMinute]
  split <;> omega

theorem nearestMinutes_neg (n : Int) : nearestMinutes (-n) = -nearestMinutes n := by
  simp only [nearestMinutes, Int.natAbs_neg, microsPerMinute]
  split <;> split <;> omega

theorem nearestMinutes_within (n : Int) : -30000000 ≤ nearestMinutes n * microsPerMinute - n ∧
    nearestMinutes n * microsPerMinute - n ≤ 30000000 := by
  simp only [nearestMinutes, microsPerMinute]
  split <;> omega

theorem nearestMinutes_near (n : Int) :
    2 * |nearestMinutes n * microsPerMinute - n| ≤ microsPerMinute := by
  have h := nearestMinutes_within n
  have hminute : (microsPerMinute : Int) = 60000000 := rfl
  rcases abs_choice (nearestMinutes n * microsPerMinute - n) with ha | ha <;> omega

/-- The whole minutes nearest to `n` microseconds, and those away from zero where two are equally near. -/
structure IsNearestMinute (n m : Int) : Prop where
  near : 2 * |m * microsPerMinute - n| ≤ microsPerMinute
  away : 2 * |m * microsPerMinute - n| = microsPerMinute → |n| < |m * microsPerMinute|

theorem isNearestMinute (n : Int) : IsNearestMinute n (nearestMinutes n) := by
  refine ⟨nearestMinutes_near n,?_⟩
  simp only [nearestMinutes, microsPerMinute, Int.abs_eq_natAbs]
  split <;> omega

theorem IsNearestMinute.unique {n m k : Int} (hm : IsNearestMinute n m) (hk : IsNearestMinute n k) : m = k := by
  obtain ⟨hnear,haway⟩ := hm
  obtain ⟨hnear',haway'⟩ := hk
  simp only [microsPerMinute, Int.abs_eq_natAbs] at hnear haway hnear' haway'
  omega

theorem nearestMinutes_mono {n k : Int} (h : n ≤ k) : nearestMinutes n ≤ nearestMinutes k := by
  simp only [nearestMinutes, microsPerMinute]
  split <;> split <;> omega

theorem micros_of_roundToMinute {d r : Duration} (h : d.roundToMinute = .ok r) :
    r.micros = nearestMinutes d.micros * microsPerMinute := micros_of_ofMicros h

theorem roundToMinute_near {d r : Duration} (h : d.roundToMinute = .ok r) :
    2 * |r.micros - d.micros| ≤ microsPerMinute := by
  rw [micros_of_roundToMinute h]
  exact nearestMinutes_near d.micros

theorem sum_rounded_near {ds rs : List Duration} (h : ds.mapM roundToMinute = .ok rs) :
    2 * |(rs.map micros).sum - (ds.map micros).sum| ≤ ds.length * microsPerMinute := by
  rw [mapM_eq_ok_iff] at h
  induction h with
  | nil => simp
  | @cons d r ds rs hd _ ih =>
    have h1 := roundToMinute_near hd
    have h2 := abs_add_le (r.micros - d.micros) ((rs.map micros).sum - (ds.map micros).sum)
    rw [List.map_cons, List.map_cons, List.sum_cons, List.sum_cons, List.length_cons, Nat.cast_succ,
      add_mul, one_mul, add_sub_add_comm]
    omega

theorem roundedHours_eq_ok_iff {d : Duration} {x : Binary64} :
    d.roundedHours = .ok x ↔ ∃ r, d.roundToMinute = .ok r ∧ x = r.hours := by
  simp only [roundedHours, bind_eq_ok_iff, pure_eq_ok_iff, eq_comm (a := x)]

theorem exists_roundedHours_iff {d : Duration} : (∃ x, d.roundedHours = .ok x) ↔ Roundable d.micros := by
  rw [← exists_roundToMinute_iff]
  simp only [roundedHours_eq_ok_iff]
  exact ⟨fun ⟨_,r,hr,_⟩ => ⟨r,hr⟩,fun ⟨r,hr⟩ => ⟨r.hours,r,hr,rfl⟩⟩

theorem nearestMinutes_whole (m : Int) : nearestMinutes (m * microsPerMinute) = m := by
  refine (isNearestMinute _).unique ⟨?_,?_⟩
  · rw [sub_self]
    decide
  · rw [sub_self]
    exact fun h => absurd h (by decide)

/-- 999999999 days and 23:59:30. From there on, half a minute before the end of the range, rounding leads out of
it. -/
def roundableEnd : Int := 999999999 * microsPerDay + ((23 * 60 + 59) * 60 + 30) * 1000000

theorem roundable_iff {d : Duration} : Roundable d.micros ↔ d.micros < roundableEnd := by
  have hlow := d.lower
  simp only [Roundable, roundableEnd, microsPerDay]
  omega

theorem roundToMinute_eq_error {d : Duration} (h : roundableEnd ≤ d.micros) :
    d.roundToMinute = .error (.durationRange 1000000000) := by
  have hhigh := d.upper
  have hminutes : nearestMinutes d.micros * microsPerMinute = 1000000000 * microsPerDay := by
    simp only [roundableEnd, nearestMinutes, microsPerMinute, microsPerDay] at h ⊢
    split <;> omega
  rw [roundToMinute, hminutes]
  rfl

/-- Every duration but those of the last half minute of the range, which are refused, is rounded to the nearest
minute, and to the one farther from zero where two are equally near. To round again changes nothing, durations
that are opposite are rounded to opposite minutes, and those in order to minutes in order. -/
theorem roundToMinute_nearest (d : Duration) :
    (roundableEnd ≤ d.micros → d.roundToMinute = .error (.durationRange 1000000000)) ∧
    (d.micros < roundableEnd → ∃ r m, d.roundToMinute = .ok r ∧ r.micros = m * microsPerMinute ∧
      IsNearestMinute d.micros m ∧ r.roundToMinute = .ok r ∧
      ∀ e s, roundToMinute e = .ok s →
        (e.micros = -d.micros → s.micros = -r.micros) ∧ (d.micros ≤ e.micros → r.micros ≤ s.micros)) := by
  refine ⟨roundToMinute_eq_error,fun hd => ?_⟩
  obtain ⟨r,hr⟩ := exists_roundToMinute_iff.mpr (roundable_iff.mpr hd)
  have hmicros := micros_of_roundToMinute hr
  refine ⟨r,nearestMinutes d.micros,hr,hmicros,isNearestMinute d.micros,?_,fun e s hs => ⟨fun hopposite => ?_,
    fun hle => ?_⟩⟩
  · rw [roundToMinute, hmicros, nearestMinutes_whole, ← hmicros, ofMicros_micros]
  · rw [micros_of_roundToMinute hs, hmicros, hopposite, nearestMinutes_neg, neg_mul]
  · rw [micros_of_roundToMinute hs, hmicros]
    exact mul_le_mul_of_nonneg_right (nearestMinutes_mono hle) (Int.natCast_nonneg _)

/-- Two minutes and a half. -/
def halfPast : Duration := ⟨150000000,by decide,by decide⟩

/-- As much less than nothing. -/
def halfOwed : Duration := ⟨-150000000,by decide,by decide⟩

/-- The last duration of the range. -/
def longest : Duration := ⟨1000000000 * 86400000000 - 1,by decide,by decide⟩

/-- Half a minute goes away from zero on both sides, and the last duration has no nearest minute. -/
theorem roundToMinute_nearest_half : ∃ r, halfOwed.roundToMinute = .ok r ∧ r.micros = -180000000 ∧
    r.roundToMinute = .ok r ∧ (∀ s, halfPast.roundToMinute = .ok s → s.micros = 180000000) ∧
    longest.roundToMinute = .error (.durationRange 1000000000) := by
  obtain ⟨r,m,hr,hmicros,hnearest,hagain,hothers⟩ := (roundToMinute_nearest halfOwed).2 (by decide)
  obtain rfl : m = -3 := hnearest.unique ⟨by decide,by decide⟩
  refine ⟨r,hr,hmicros,hagain,fun s hs => ?_,(roundToMinute_nearest longest).1 (by decide)⟩
  rw [(hothers halfPast s hs).1 rfl, hmicros]
  rfl

end Flextime.Duration

import Flextime.Proofs.Binary64.Difference
import Flextime.Proofs.Duration.Minutes

/-! # From durations to hours and back

The number of hours nearest to a duration is so near, up to two million hours, that the way back ends at the
same microsecond, and over the whole range of durations at the same minute. Hours that are subtracted move the
microseconds of the difference by less than half a minute, and the three figures in minutes by at most one.
-/
namespace Flextime
open Binary64
namespace Duration

theorem abs_mul_hour_le {x b : ℚ} (h : |x| ≤ b) : |x * microsPerHour| ≤ b * microsPerHour := by
  rw [abs_mul, Nat.abs_cast]
  exact mul_le_mul_of_nonneg_right h (Nat.cast_nonneg _)

theorem hoursMicros_hours_near {d : Duration} {ε : ℚ} (h : |d.hours.value - d.micros / microsPerHour| ≤ ε) :
    |(hoursMicros d.hours : ℚ) - d.micros| ≤ 1 / 2 + 2 ^ (-22 : ℤ) + ε * microsPerHour := by
  have hthere := abs_mul_hour_le h
  rw [sub_mul, div_mul_cancel₀ _ (by norm_num [microsPerHour])] at hthere
  exact (abs_sub_le _ _ _).trans (add_le_add (hoursMicros_near _) hthere)

theorem hoursMicros_hours {d : Duration} (h : |d.micros| < 2 ^ 21 * microsPerHour) :
    hoursMicros d.hours = d.micros := by
  have hhour : (0 : ℚ) < microsPerHour := by norm_num [microsPerHour]
  have hsmall : |(d.micros : ℚ) / microsPerHour| < 2 ^ (-33 + 54 : ℤ) := by
    rw [abs_div, abs_of_pos hhour, div_lt_iff₀ hhour, show (-33 + 54 : ℤ) = (21 : ℕ) by rfl, zpow_natCast]
    exact_mod_cast h
  have hnear := hoursMicros_hours_near (d.isRounded_hours.abs_error_le d.hours_le.1 (by decide) hsmall)
  have hclose := hnear.trans_lt (by norm_num [microsPerHour] : _ < (1 : ℚ))
  exact sub_eq_zero.mp (Int.abs_lt_one_iff.mp (by exact_mod_cast hclose))

theorem hoursMicros_hours_lt (d : Duration) : |hoursMicros d.hours - d.micros| < 20000 := by
  have hclose := (hoursMicros_hours_near d.hours_near).trans_lt
    (by norm_num [microsPerHour] : _ < (20000 : ℚ))
  exact_mod_cast hclose

theorem ofHours_hours {d : Duration} (h : |d.micros| < 2 ^ 21 * microsPerHour) :
    ofHours d.hours = .ok d := by
  have hmicros := hoursMicros_hours h
  obtain ⟨u,hu⟩ := exists_ofHours_iff.mpr ⟨d.hours_le.1,hmicros ▸ ⟨d.lower,d.upper⟩⟩
  rw [hu, ext_micros ((micros_of_ofHours hu).trans hmicros)]

theorem abs_value_lt {x : Binary64} (h : InRange (hoursMicros x)) : |x.value| < 2 ^ (35 : ℤ) := by
  have hhour : (0 : ℚ) < microsPerHour := by norm_num [microsPerHour]
  have hnear := hoursMicros_near x
  have hmicros : |hoursMicros x| ≤ 86400000000000000000 := abs_le.mpr (by unfold InRange at h; omega)
  have hmicros' : |(hoursMicros x : ℚ)| ≤ 86400000000000000000 := by exact_mod_cast hmicros
  have htri := abs_sub_abs_le_abs_sub (x.value * microsPerHour) (hoursMicros x)
  rw [abs_sub_comm, abs_mul, abs_of_pos hhour] at htri
  refine lt_of_mul_lt_mul_right ?_ hhour.le
  calc |x.value| * microsPerHour ≤ 86400000000000000000 + (1 / 2 + 2 ^ (-22 : ℤ)) := by linarith
    _ < 2 ^ (35 : ℤ) * microsPerHour := by norm_num [microsPerHour]

theorem abs_add_sub_add_le (k l m n : ℚ) : |k + l - m + n| ≤ |k| + |l| + |m| + |n| := by
  calc |k + l - m + n| ≤ |k + l - m| + |n| := abs_add_le _ _
    _ ≤ |k + l| + |m| + |n| := add_le_add_left (abs_sub _ _) _
    _ ≤ |k| + |l| + |m| + |n| := by
        gcongr
        exact abs_add_le _ _

/-- A difference of hours that are durations is off by less than twenty milliseconds. -/
theorem hoursMicros_sub_near {x y : Binary64} (hx : x.isFinite = true) (hy : y.isFinite = true)
    (hfin : (x - y).isFinite = true) (hxr : InRange (hoursMicros x)) (hyr : InRange (hoursMicros y)) :
    |hoursMicros (x - y) - (hoursMicros x - hoursMicros y)| < 20000 := by
  have hlarge : |x.value - y.value| < 2 ^ (-18 + 54 : ℤ) :=
    calc |x.value - y.value| ≤ |x.value| + |y.value| := abs_sub _ _
      _ < 2 ^ (35 : ℤ) + 2 ^ (35 : ℤ) := add_lt_add (abs_value_lt hxr) (abs_value_lt hyr)
      _ = 2 ^ (-18 + 54 : ℤ) := by norm_num
  have hround := abs_mul_hour_le ((isRounded_sub hx hy).abs_error_le hfin (by decide) hlarge)
  have hsplit : (hoursMicros (x - y) : ℚ) - (hoursMicros x - hoursMicros y) =
      hoursMicros (x - y) - (x - y).value * microsPerHour +
        ((x - y).value - (x.value - y.value)) * microsPerHour -
        (hoursMicros x - x.value * microsPerHour) + (hoursMicros y - y.value * microsPerHour) := by ring
  -- the three conversions and the subtraction each have an error
  have herrors := add_le_add (add_le_add (add_le_add (hoursMicros_near (x - y)) hround)
    (hoursMicros_near x)) (hoursMicros_near y)
  have hsum : |((hoursMicros (x - y) : ℚ) - (hoursMicros x - hoursMicros y))| < 20000 := by
    rw [hsplit]
    refine ((abs_add_sub_add_le _ _ _ _).trans herrors).trans_lt ?_
    norm_num [microsPerHour]
  exact_mod_cast hsum

theorem days_mul_near {r : Binary64} (hr : IsDayRate r) {n : ℕ} (hn : n ≤ lastDayNumber) :
    (ofInt n * r).isFinite = true ∧ |(ofInt n * r).value - n * r.value| ≤ 2 ^ (-27 : ℤ) := by
  obtain ⟨hdays,hdaysValue⟩ := ofInt_natCast (hn.trans_lt (by decide : lastDayNumber < significandBound))
  have hround := isRounded_mul hdays hr.isFinite
  obtain ⟨h0,h24⟩ := hr.value_bounds
  rw [hdaysValue] at hround
  have hlarge : |n * r.value| < 2 ^ (-27 + 54 : ℤ) := by
    rw [abs_of_nonneg (mul_nonneg n.cast_nonneg h0)]
    calc (n : ℚ) * r.value ≤ lastDayNumber * 24 :=
          mul_le_mul (by exact_mod_cast hn) h24 h0 (Nat.cast_nonneg _)
      _ < 2 ^ (-27 + 54 : ℤ) := by norm_num [lastDayNumber]
  have hfin := (hround.le_two_zpow (by decide) (by decide) hlarge.le).1
  exact ⟨hfin,hround.abs_error_le hfin (by decide) hlarge⟩

/-- The hours of a day are off by half a microsecond and hardly more, and the calendar has too few days for that
to make two seconds. -/
theorem hoursMicros_mul_near {r : Binary64} (hr : IsDayRate r) {n : ℕ} (hn : n ≤ lastDayNumber) :
    |hoursMicros (ofInt n * r) - n * hoursMicros r| < 2000000 := by
  have hproduct := abs_mul_hour_le (days_mul_near hr hn).2
  have hdaily : |(n : ℚ) * (hoursMicros r - r.value * microsPerHour)| ≤
      lastDayNumber * (1 / 2 + 2 ^ (-22 : ℤ)) := by
    rw [abs_mul, Nat.abs_cast]
    exact mul_le_mul (by exact_mod_cast hn) (hoursMicros_near r) (abs_nonneg _) (Nat.cast_nonneg _)
  have hsplit : (hoursMicros (ofInt n * r) : ℚ) - n * hoursMicros r =
      hoursMicros (ofInt n * r) - (ofInt n * r).value * microsPerHour +
        ((ofInt n * r).value - n * r.value) * microsPerHour -
        n * (hoursMicros r - r.value * microsPerHour) := by ring
  -- the product is converted once, the hours of a day once for every day
  have herrors := add_le_add (add_le_add (hoursMicros_near (ofInt n * r)) hproduct) hdaily
  have hsum : |(hoursMicros (ofInt n * r) : ℚ) - n * hoursMicros r| < 2000000 := by
    rw [hsplit]
    refine ((abs_sub _ _).trans (add_le_add_left (abs_add_le _ _) _)).trans_lt (herrors.trans_lt ?_)
    norm_num [microsPerHour, lastDayNumber]
  exact_mod_cast hsum

/-- Three figures are each rounded to minutes: what holds between them is off by at most one. -/
theorem nearestMinutes_sub_near {k m n : Int} (h : |k - (m - n)| < 30000000) :
    |nearestMinutes k - (nearestMinutes m - nearestMinutes n)| ≤ 1 := by
  have hk := nearestMinutes_within k
  have hm := nearestMinutes_within m
  have hn := nearestMinutes_within n
  rw [abs_lt] at h
  rw [microsPerMinute] at hk hm hn
  exact abs_le.mpr (by omega)

theorem nearestMinutes_of_near {k n : Int} (h : |k - n * microsPerMinute| < 30000000) : nearestMinutes k = n := by
  have hk := nearestMinutes_within k
  rw [microsPerMinute] at h hk
  rw [abs_lt] at h
  omega

def least : Duration := ⟨-999999999 * 86400000000,by decide,by decide⟩

theorem hoursMicros_least : hoursMicros least.hours = least.micros := by decide +kernel

/-- The hours of whole minutes do not lead out of the range, which goes on for a minute above them and ends below
with whole hours. -/
theorem inRange_hoursMicros {d : Duration} {n : Int} (hd : d.micros = n * microsPerMinute) :
    InRange (hoursMicros d.hours) := by
  by_cases hleast : d.micros = least.micros
  · rw [ext_micros hleast, hoursMicros_least]
    exact ⟨least.lower,least.upper⟩
  · have hnear := abs_lt.mp d.hoursMicros_hours_lt
    have hlow := d.lower
    have hhigh := d.upper
    change d.micros ≠ -999999999 * 86400000000 at hleast
    rw [hd, microsPerMinute] at hnear hlow hhigh hleast
    exact ⟨by omega,by omega⟩

theorem isHoursOf_of_roundHours {x y : Binary64} (h : roundHours x = .ok y) :
    IsHoursOf (nearestMinutes (hoursMicros x)) y := by
  obtain ⟨u,hu,hround⟩ := bind_eq_ok_iff.mp h
  rw [← micros_of_ofHours hu]
  exact isHoursOf_of_roundedHours hround

end Duration

/-- Whole minutes can be read off their hours by the conversion to a duration. -/
theorem IsHoursOf.readBack {n : Int} {x : Binary64} (h : IsHoursOf n x) :
    ∃ u r, Duration.ofHours x = .ok u ∧ u.roundToMinute = .ok r ∧ r.micros = n * microsPerMinute ∧
      r.hours = x := by
  obtain ⟨r,hr,rfl⟩ := h
  obtain ⟨u,hu⟩ := Duration.exists_ofHours_iff.mpr ⟨r.hours_le.1,Duration.inRange_hoursMicros hr⟩
  have hminutes : Duration.nearestMinutes u.micros = n := by
    apply Duration.nearestMinutes_of_near
    rw [Duration.micros_of_ofHours hu, ← hr]
    exact r.hoursMicros_hours_lt.trans (by decide)
  refine ⟨u,r,hu,?_,hr,rfl⟩
  rw [Duration.roundToMinute, hminutes, ← hr, Duration.ofMicros_micros]

theorem IsHoursOf.roundHours {n : Int} {x : Binary64} (h : IsHoursOf n x) : roundHours x = .ok x := by
  obtain ⟨u,r,hu,hr,-,hx⟩ := h.readBack
  exact bind_eq_ok_iff.mpr ⟨u,hu,Duration.roundedHours_eq_ok_iff.mpr ⟨r,hr,hx.symm⟩⟩

end Flextime

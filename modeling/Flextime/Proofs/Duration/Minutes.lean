import Flextime.Proofs.Binary64.Nearest
import Flextime.Proofs.Duration.Hours

/-! # Minutes and their hours

Reported hours are those of whole minutes, as the nearest number. The number is so near that the minutes
can be read off it again.
-/
namespace Flextime
open Binary64

/-- The whole minutes nearest to a number of hours. -/
def wholeMinutes (h : Binary64) : Int := divNearest (60 * h.numerator) h.denominator

theorem wholeMinutes_near (h : Binary64) : 2 * |60 * h.value - wholeMinutes h| ≤ 1 := by
  have hquot : ((60 * h.numerator : ℤ) : ℚ) / h.denominator = 60 * h.value := by
    rw [value]
    push_cast
    ring
  rw [← hquot]
  exact (divNearest_quotient _ h.denominator_pos).1

namespace Duration

theorem hours_near (d : Duration) : |d.hours.value - d.micros / microsPerHour| ≤ 2 ^ (-18 : ℤ) :=
  d.isRounded_hours.abs_error_le d.hours_le.1 (by decide) (d.abs_quotient_le.trans_lt (by norm_num))

end Duration

/-- A number of hours that stands for `n` whole minutes. -/
def IsHoursOf (n : Int) (x : Binary64) : Prop := ∃ d : Duration, d.micros = n * microsPerMinute ∧ x = d.hours

/-- The hours of `n` minutes, also where these are no duration. -/
def hoursOfMinutes (n : Int) : Binary64 := ofFraction false (n * microsPerMinute) microsPerHour

namespace IsHoursOf
variable {n : Int} {x : Binary64}

theorem eq_hoursOfMinutes (h : IsHoursOf n x) : x = hoursOfMinutes n := by
  obtain ⟨d,hd,rfl⟩ := h
  rw [hoursOfMinutes, ← hd]
  rfl

theorem isFinite (h : IsHoursOf n x) : x.isFinite = true := by
  obtain ⟨d,-,rfl⟩ := h
  exact d.hours_le.1

theorem quotient_eq {d : Duration} (hd : d.micros = n * microsPerMinute) :
    (d.micros : ℚ) / microsPerHour = n / 60 := by
  rw [hd]
  norm_num [microsPerMinute, microsPerHour]
  ring

theorem isRounded (h : IsHoursOf n x) : IsRounded ((n : ℚ) / 60) x := by
  obtain ⟨d,hd,rfl⟩ := h
  rw [← quotient_eq hd]
  exact d.isRounded_hours

theorem natAbs_lt (h : IsHoursOf n x) : n.natAbs < 2 ^ 41 := by
  obtain ⟨d,hd,-⟩ := h
  have hlower := d.lower
  have hupper := d.upper
  rw [hd, microsPerMinute] at hlower hupper
  omega

theorem lt (h : IsHoursOf n x) : n < 2 ^ 41 := by
  have habs := h.natAbs_lt
  omega

theorem within (h : IsHoursOf n x) (h0 : n ≠ 0) : Within roundoff ((n : ℚ) / 60) x.value := by
  have htiny : (2 : ℚ) ^ (-1022 : ℤ) ≤ 2 ^ (-6 : ℤ) := zpow_le_zpow_right₀ one_le_two (by decide)
  refine h.isRounded.within h.isFinite (htiny.trans ?_)
  have hone : (1 : ℚ) ≤ |(n : ℚ)| := by exact_mod_cast Int.one_le_abs h0
  rw [abs_div, le_div_iff₀ (by norm_num)]
  refine le_trans ?_ hone
  norm_num

/-- Quarters of an hour are numbers, so that nothing is rounded. -/
theorem quarters {i : ℤ} (h : IsHoursOf (15 * i) x) : x.value = i / 4 := by
  have hlt := h.natAbs_lt
  have hround := h.isRounded
  have hquarter : ((15 * i : ℤ) : ℚ) / 60 = i / 4 := by
    push_cast
    ring
  rw [hquarter] at hround
  refine (hround.exact (k := i) (e := -2) ?_ (by decide) (by decide) (by ring)).2
  rw [significandBound]
  omega

/-- Only quarters of an hour lie in the middle of two numbers, and these are numbers themselves. -/
theorem isNearest (h : IsHoursOf n x) : IsNearest ((n : ℚ) / 60) x := by
  refine h.isRounded.isNearest h.isFinite fun y _ hmiddle => ?_
  obtain ⟨i,rfl⟩ := fifteen_dvd_of_tie hmiddle
  rw [h.quarters] at hmiddle ⊢
  push_cast at hmiddle
  linarith

theorem le {m : Int} {y : Binary64} (hx : IsHoursOf m x) (hy : IsHoursOf n y) (h : m ≤ n) : x.le y = true := by
  rw [le_iff_value hx.isFinite hy.isFinite]
  refine hx.isNearest.mono hy.isNearest ?_
  gcongr

theorem of_zero : IsHoursOf 0 (zero false) := ⟨.zero,rfl,rfl⟩

theorem neg (h : IsHoursOf n x) (hn : n < 0) : IsHoursOf (-n) (-x) := by
  obtain ⟨d,hd,rfl⟩ := h
  have hneg : d.micros < 0 := by
    rw [hd, microsPerMinute]
    omega
  have hlower := d.lower
  refine ⟨⟨-d.micros,by omega,by omega⟩,?_,neg_ofFraction false hneg.ne microsPerHour⟩
  change -d.micros = _
  rw [hd, neg_mul]

/-- The hours of whole minutes are hours of no other whole minutes. -/
theorem wholeMinutes (h : IsHoursOf n x) : wholeMinutes x = n := by
  obtain ⟨d,hd,rfl⟩ := h
  have hnear := d.hours_near
  have hround := wholeMinutes_near d.hours
  rw [quotient_eq hd] at hnear
  have hclose : |(Flextime.wholeMinutes d.hours : ℚ) - n| < 1 := by
    have hsixty : 60 * d.hours.value - n = 60 * (d.hours.value - n / 60) := by ring
    calc |(Flextime.wholeMinutes d.hours : ℚ) - n|
        ≤ |Flextime.wholeMinutes d.hours - 60 * d.hours.value| + |60 * d.hours.value - n| :=
          abs_sub_le _ _ _
      _ ≤ 1 / 2 + 60 * 2 ^ (-18 : ℤ) := by
          rw [abs_sub_comm (Flextime.wholeMinutes d.hours : ℚ), hsixty, abs_mul,
            abs_of_pos (by norm_num : (0 : ℚ) < 60)]
          linarith
      _ < 1 := by norm_num
  exact sub_eq_zero.mp (Int.abs_lt_one_iff.mp (by exact_mod_cast hclose))

theorem eq_iff (h : IsHoursOf n x) {m : Int} {y : Binary64} (h' : IsHoursOf m y) : x = y ↔ n = m := by
  constructor
  · rintro rfl
    exact h.wholeMinutes.symm.trans h'.wholeMinutes
  · rintro rfl
    obtain ⟨d,hd,rfl⟩ := h
    obtain ⟨e,he,rfl⟩ := h'
    rw [Duration.ext_micros (hd.trans he.symm)]

theorem eq_zero (h : IsHoursOf 0 x) : x = zero false := (h.eq_iff of_zero).mpr rfl

theorem nonneg_iff (h : IsHoursOf n x) : (zero false).le x = true ↔ 0 ≤ n := by
  have hn := h.wholeMinutes
  obtain ⟨d,hd,rfl⟩ := h
  rw [le_iff_value rfl d.hours_le.1, value_zero]
  constructor
  · intro hvalue
    have hnum := numerator_nonneg_iff.mpr hvalue
    rw [← hn]
    exact le_divNearest d.hours.denominator_pos (by omega)
  · intro h0
    exact ofFraction_nonneg false (by decide) (hd ▸ Int.mul_nonneg h0 (Int.natCast_nonneg _))

theorem two_zpow_le_value (h : IsHoursOf n x) (hn : 0 < n) : 2 ^ (-6 : ℤ) ≤ x.value := by
  obtain ⟨d,hd,rfl⟩ := h
  apply Duration.two_zpow_le_hours
  rw [hd]
  exact le_mul_of_one_le_left (Int.natCast_nonneg _) hn

theorem value_pos (h : IsHoursOf n x) (hn : 0 < n) : 0 < x.value :=
  (two_zpow_pos (-6)).trans_le (h.two_zpow_le_value hn)

theorem nonpos_iff (h : IsHoursOf n x) : x.le (zero false) = true ↔ n ≤ 0 := by
  rw [le_iff_value h.isFinite rfl, value_zero]
  constructor
  · intro hvalue
    by_contra hn
    exact (h.value_pos (not_le.mp hn)).not_ge hvalue
  · intro hn
    obtain ⟨d,hd,rfl⟩ := h
    apply Duration.hours_nonpos
    rw [hd]
    exact Int.mul_nonpos_of_nonpos_of_nonneg hn (Int.natCast_nonneg _)

theorem ne_negative_zero (h : IsHoursOf n x) : x ≠ zero true := by
  rintro rfl
  have hlow := h.nonneg_iff.mp ((le_iff_value rfl rfl).mpr (by simp))
  have hhigh := h.nonpos_iff.mp ((le_iff_value rfl rfl).mpr (by simp))
  obtain rfl := le_antisymm hhigh hlow
  exact nomatch h.eq_zero

end IsHoursOf

/-- The number nearest to the hours of `n` minutes; a zero has no sign. -/
structure IsNearestHours (n : Int) (x : Binary64) : Prop where
  nearest : IsNearest ((n : ℚ) / 60) x
  unsigned : x ≠ zero true

theorem IsHoursOf.isNearestHours {n : Int} {x : Binary64} (h : IsHoursOf n x) : IsNearestHours n x :=
  ⟨h.isNearest,h.ne_negative_zero⟩

namespace Duration

theorem isHoursOf_of_roundedHours {d : Duration} {x : Binary64} (h : d.roundedHours = .ok x) :
    IsHoursOf (nearestMinutes d.micros) x := by
  obtain ⟨r,hr,rfl⟩ := roundedHours_eq_ok_iff.mp h
  exact ⟨r,micros_of_roundToMinute hr,rfl⟩

/-- Halves are rounded up, so nothing that is not negative is rounded down by half a minute. -/
theorem nearestMinutes_excess {n : Int} (h : 0 ≤ n) : -29999999 ≤ nearestMinutes n * microsPerMinute - n ∧
    nearestMinutes n * microsPerMinute - n ≤ 30000000 := by
  rw [nearestMinutes, if_neg h.not_gt, microsPerMinute]
  omega

theorem sum_nearestMinutes_excess {ns : List Int} (h : ∀ n ∈ ns, 0 ≤ n) :
    -29999999 * ns.length ≤ (ns.map nearestMinutes).sum * microsPerMinute - ns.sum ∧
      (ns.map nearestMinutes).sum * microsPerMinute - ns.sum ≤ 30000000 * ns.length := by
  induction ns with
  | nil => decide
  | cons n ns ih =>
    have hn := nearestMinutes_excess (h n List.mem_cons_self)
    have hns := ih fun k hk => h k (List.mem_cons_of_mem _ hk)
    simp only [List.map_cons, List.sum_cons, List.length_cons, add_mul, Nat.cast_succ]
    omega

end Duration
end Flextime

import Flextime.Proofs.Binary64.Error
import Flextime.Proofs.Duration.Rounding

/-! # Hours and durations

A rate between 0 and 24 hours makes a duration between nothing and a day. The hours of a duration are
a finite number, and positive from a minute on.
-/
namespace Flextime
open Binary64

/-- From nothing to the 24 hours of a day. -/
def IsDayRate (x : Binary64) : Prop := (zero false).le x = true ∧ x.le (ofInt 24) = true

theorem IsDayRate.isFinite {x : Binary64} (h : IsDayRate x) : x.isFinite = true :=
  isFinite_of_le rfl (ofInt_natCast (n := 24) (by decide)).1 h.1 h.2

theorem IsDayRate.value_bounds {x : Binary64} (h : IsDayRate x) : 0 ≤ x.value ∧ x.value ≤ 24 := by
  obtain ⟨h0,h24⟩ := h
  obtain ⟨hfin,hval⟩ : (ofInt 24).isFinite = true ∧ (ofInt 24).value = (24 : ℕ) :=
    ofInt_natCast (by decide)
  have hx := isFinite_of_le rfl hfin h0 h24
  rw [le_iff_value rfl hx, value_zero] at h0
  rw [le_iff_value hx hfin] at h24
  exact ⟨h0,h24.trans (by rw [hval]; norm_num)⟩

namespace Duration

theorem micros_of_ofHours {x : Binary64} {d : Duration} (h : ofHours x = .ok d) :
    d.micros = hoursMicros x := by
  cases x with
  | nan => exact nomatch h
  | infinite s => exact nomatch h
  | finite s m e hc => exact micros_of_ofMicros h

/-- The microseconds of the fraction of an hour are at most those of an hour. -/
theorem fraction_bounds {x : Binary64} (hx : 0 ≤ x.numerator) :
    0 ≤ (ofInt microsPerHour * x.fractionPart).value ∧
      (ofInt microsPerHour * x.fractionPart).value ≤ microsPerHour := by
  obtain ⟨hfin,hval⟩ := ofInt_natCast (n := microsPerHour) (by decide)
  obtain ⟨hpart,hpartValue⟩ := x.fractionPart_exact
  have hhour : (0 : ℚ) ≤ microsPerHour := Nat.cast_nonneg _
  have hpart0 : 0 ≤ x.fractionPart.value := by
    rw [hpartValue, sub_truncate]
    exact div_nonneg (by exact_mod_cast Int.tmod_nonneg _ hx) (Nat.cast_nonneg _)
  have hpart1 : x.fractionPart.value ≤ 1 := by
    rw [hpartValue]
    exact (le_abs_self _).trans x.abs_sub_truncate_lt.le
  refine (mul_le_natCast hfin hpart (hval ▸ hhour) hpart0 (b := microsPerHour) (by decide) ?_).2
  rw [hval]
  simpa using mul_le_mul_of_nonneg_left hpart1 hhour

/-- The hours that `x` has begun bound its microseconds. -/
theorem hoursMicros_within {x : Binary64} (hx : 0 ≤ x.numerator) :
    x.truncate * microsPerHour ≤ hoursMicros x ∧ hoursMicros x ≤ (x.truncate + 1) * microsPerHour := by
  obtain ⟨hlow,hhigh⟩ := fraction_bounds hx
  unfold hoursMicros
  generalize ofInt microsPerHour * x.fractionPart = part at hlow hhigh ⊢
  have hd := part.denominator_pos
  have hlow' : 0 ≤ part.numerator := numerator_nonneg_iff.mpr hlow
  have hhigh' : part.numerator ≤ microsPerHour * part.denominator := by
    rw [value, div_le_iff₀ (by exact_mod_cast hd)] at hhigh
    exact_mod_cast hhigh
  constructor
  · apply le_divNearest hd
    omega
  · apply divNearest_le hd
    rw [add_mul, add_mul, one_mul]
    omega

theorem hoursMicros_whole {x : Binary64} (h : x.numerator.tmod x.denominator = 0) :
    hoursMicros x = x.truncate * microsPerHour := by
  have hpart : (ofInt microsPerHour * x.fractionPart).numerator = 0 := by
    have hfin := (ofInt_natCast (n := microsPerHour) (by decide)).1
    obtain ⟨s,hs⟩ := mul_eq_ofFraction hfin (y := Binary64.zero x.isNegative) rfl
    rw [fractionPart, h, ofFraction_zero, hs, numerator_zero, mul_zero, ofFraction_zero, numerator_zero]
  have hd := (ofInt microsPerHour * x.fractionPart).denominator_pos
  rw [hoursMicros, hpart, add_zero]
  exact le_antisymm (divNearest_le hd le_rfl) (le_divNearest hd le_rfl)

theorem hoursMicros_of_isZero {x : Binary64} (h : x.isZero = true) : hoursMicros x = 0 := by
  obtain ⟨-,hnum⟩ := Bool.and_eq_true_iff.mp h
  rw [beq_iff_eq] at hnum
  rw [hoursMicros_whole (by rw [hnum, Int.zero_tmod]), truncate, hnum, Int.zero_tdiv, zero_mul]

/-- A rate of a whole day has no fraction. -/
theorem truncate_of_isDayRate {x : Binary64} (h : IsDayRate x) :
    0 ≤ x.truncate ∧ (x.truncate ≤ 23 ∨ x.truncate = 24 ∧ x.numerator.tmod x.denominator = 0) := by
  obtain ⟨h0,h24⟩ := h.value_bounds
  have hnum := numerator_nonneg_iff.mpr h0
  have hd : (0 : ℤ) < x.denominator := by exact_mod_cast x.denominator_pos
  have hnum24 : x.numerator ≤ 24 * x.denominator := by
    rw [value, div_le_iff₀ (by exact_mod_cast x.denominator_pos)] at h24
    exact_mod_cast h24
  have hsplit : x.numerator.tmod x.denominator + x.denominator * x.truncate = x.numerator :=
    Int.tmod_add_mul_tdiv x.numerator x.denominator
  have hmod := Int.tmod_nonneg (x.denominator : ℤ) hnum
  refine ⟨Int.tdiv_nonneg hnum hd.le,?_⟩
  by_cases hlast : x.truncate ≤ 23
  · exact Or.inl hlast
  · have hlow : x.denominator * 24 ≤ x.denominator * x.truncate :=
      Int.mul_le_mul_of_nonneg_left (by omega) hd.le
    have hhigh : x.denominator * x.truncate ≤ x.denominator * 24 := by omega
    have htrunc := le_of_mul_le_mul_left hhigh hd
    exact Or.inr ⟨by omega,by omega⟩

theorem hoursMicros_bounds {x : Binary64} (h : IsDayRate x) :
    0 ≤ hoursMicros x ∧ hoursMicros x ≤ microsPerDay := by
  obtain ⟨hlow,hhigh⟩ := hoursMicros_within (numerator_nonneg_iff.mpr h.value_bounds.1)
  obtain ⟨h0,htrunc | ⟨htrunc,hmod⟩⟩ := truncate_of_isDayRate h
  · rw [microsPerHour] at hlow hhigh
    rw [microsPerDay]
    omega
  · rw [hoursMicros_whole hmod, htrunc]
    decide

/-- The whole hours of a number are converted exactly. The microseconds of its fraction are rounded to a
number, which is off by less than `2 ^ (-22)`, and then to an integer. -/
theorem hoursMicros_near (x : Binary64) :
    |(hoursMicros x : ℚ) - x.value * microsPerHour| ≤ 1 / 2 + 2 ^ (-22 : ℤ) := by
  obtain ⟨hfin,hfrac⟩ := x.fractionPart_exact
  obtain ⟨hhour,hhourValue⟩ := ofInt_natCast (n := microsPerHour) (by decide)
  have hround := isRounded_mul hhour hfin
  have hlt : |(ofInt microsPerHour).value * x.fractionPart.value| < 2 ^ (-22 + 54 : ℤ) := by
    rw [abs_mul, hhourValue, hfrac, Nat.abs_cast]
    calc (microsPerHour : ℚ) * |x.value - x.truncate| ≤ microsPerHour * 1 :=
          mul_le_mul_of_nonneg_left x.abs_sub_truncate_lt.le (Nat.cast_nonneg _)
      _ < 2 ^ (-22 + 54 : ℤ) := by norm_num [microsPerHour]
  have hpartFin := (hround.le_two_zpow (by decide) (by decide) hlt.le).1
  have hpart := hround.abs_error_le hpartFin (by decide) hlt
  rw [hhourValue, hfrac] at hpart
  unfold hoursMicros
  dsimp only
  generalize ofInt microsPerHour * x.fractionPart = part at hpart ⊢
  have hd : (part.denominator : ℚ) ≠ 0 := by exact_mod_cast part.denominator_pos.ne'
  have hnear := (divNearest_quotient (x.truncate * microsPerHour * part.denominator + part.numerator)
    part.denominator_pos).1
  have hquot : ((x.truncate * microsPerHour * part.denominator + part.numerator : ℤ) : ℚ) / part.denominator =
      x.truncate * microsPerHour + part.value := by
    rw [value]
    push_cast
    field_simp
  rw [hquot] at hnear
  generalize divNearest _ _ = n at hnear ⊢
  have hsum : (n : ℚ) - x.value * microsPerHour =
      -(x.truncate * microsPerHour + part.value - n) + (part.value - microsPerHour * (x.value - x.truncate)) := by
    ring
  rw [hsum]
  refine (abs_add_le _ _).trans (add_le_add ?_ hpart)
  rw [abs_neg]
  linarith

theorem exists_ofHours_iff {x : Binary64} :
    (∃ u, ofHours x = .ok u) ↔ x.isFinite = true ∧ InRange (hoursMicros x) := by
  cases x with
  | nan => exact ⟨(fun ⟨_,h⟩ => nomatch h),fun h => nomatch h.1⟩
  | infinite s => exact ⟨(fun ⟨_,h⟩ => nomatch h),fun h => nomatch h.1⟩
  | finite s m e hc => exact exists_ofMicros_iff.trans (and_iff_right rfl).symm

theorem exists_ofHours {x : Binary64} (h : IsDayRate x) : ∃ u, ofHours x = .ok u := by
  obtain ⟨hlow,hhigh⟩ := hoursMicros_bounds h
  rw [microsPerDay] at hhigh
  exact exists_ofHours_iff.mpr ⟨h.isFinite,by omega,by omega⟩

def RoundableHours (x : Binary64) : Prop := x.isFinite = true ∧ Roundable (hoursMicros x)

theorem RoundableHours.of_isZero {x : Binary64} (h : x.isZero = true) : RoundableHours x := by
  refine ⟨(Bool.and_eq_true_iff.mp h).1,?_⟩
  rw [hoursMicros_of_isZero h]
  exact ⟨by decide,by decide⟩

theorem exists_roundHours_iff {x : Binary64} : (∃ y, roundHours x = .ok y) ↔ RoundableHours x := by
  constructor
  · rintro ⟨y,hy⟩
    obtain ⟨u,hu,hround⟩ := bind_eq_ok_iff.mp hy
    have hrange := exists_roundedHours_iff.mp ⟨y,hround⟩
    rw [micros_of_ofHours hu] at hrange
    exact ⟨(exists_ofHours_iff.mp ⟨u,hu⟩).1,hrange⟩
  · rintro ⟨hfin,hrange⟩
    obtain ⟨u,hu⟩ := exists_ofHours_iff.mpr ⟨hfin,hrange.inRange⟩
    rw [← micros_of_ofHours hu] at hrange
    obtain ⟨y,hy⟩ := exists_roundedHours_iff.mpr hrange
    exact ⟨y,bind_eq_ok_iff.mpr ⟨u,hu,hy⟩⟩

theorem abs_quotient_le (d : Duration) : |(d.micros : ℚ) / microsPerHour| ≤ 2 ^ (35 : ℤ) := by
  have h1 := d.lower
  have h2 := d.upper
  have habs : |d.micros| ≤ 86400000000000000000 := abs_le.mpr (by omega)
  have habs' : |(d.micros : ℚ)| ≤ 86400000000000000000 := by exact_mod_cast habs
  rw [abs_div, Nat.abs_cast, div_le_iff₀ (by norm_num [microsPerHour])]
  refine habs'.trans ?_
  norm_num [microsPerHour]

theorem isRounded_hours (d : Duration) : IsRounded ((d.micros : ℚ) / microsPerHour) d.hours :=
  ⟨false,d.micros,microsPerHour,by decide,rfl,rfl⟩

theorem hours_le (d : Duration) : d.hours.isFinite = true ∧ |d.hours.value| ≤ 2 ^ (35 : ℤ) :=
  d.isRounded_hours.le_two_zpow (by decide) (by decide) d.abs_quotient_le

theorem two_zpow_le_hours {d : Duration} (h : microsPerMinute ≤ d.micros) :
    2 ^ (-6 : ℤ) ≤ d.hours.value := by
  refine two_zpow_le_ofFraction false (by decide) (by decide) ?_ d.hours_le.1
  have h' : ((microsPerMinute : ℤ) : ℚ) ≤ d.micros := by exact_mod_cast h
  rw [le_div_iff₀ (by norm_num [microsPerHour])]
  refine le_trans ?_ h'
  norm_num [microsPerHour, microsPerMinute]

theorem hours_nonpos {d : Duration} (h : d.micros ≤ 0) : d.hours.value ≤ 0 :=
  ofFraction_nonpos false (by decide) h

end Duration
end Flextime

import Flextime.Proofs.Binary64.Nearest

/-! # Sums, differences and signs

A sum or a difference is the exact one, rounded. All numbers lie on the finest grid, so two that differ do so
by at least its step, and rounding never takes a difference to nothing or to the other side of it.
-/
namespace Flextime
namespace Binary64

theorem isFinite_neg (x : Binary64) : (-x).isFinite = x.isFinite := by cases x <;> rfl

theorem add_eq_ofFraction {x y : Binary64} (hx : x.isFinite = true) (hy : y.isFinite = true) :
    ∃ s, x + y = ofFraction s (x.numerator * y.denominator + y.numerator * x.denominator)
      (x.denominator * y.denominator) := by
  cases x with
  | finite s m e h =>
    cases y with
    | finite t n f k => exact ⟨s && t,rfl⟩
    | nan => exact nomatch hy
    | infinite t => exact nomatch hy
  | nan => exact nomatch hx
  | infinite s => exact nomatch hx

theorem sum_value (x y : Binary64) :
    ((x.numerator * y.denominator + y.numerator * x.denominator : ℤ) : ℚ) /
      ((x.denominator * y.denominator : ℕ) : ℚ) = x.value + y.value := by
  have hx : (x.denominator : ℚ) ≠ 0 := by exact_mod_cast x.denominator_pos.ne'
  have hy : (y.denominator : ℚ) ≠ 0 := by exact_mod_cast y.denominator_pos.ne'
  rw [value, value, div_add_div _ _ hx hy]
  push_cast
  ring

theorem isRounded_add {x y : Binary64} (hx : x.isFinite = true) (hy : y.isFinite = true) :
    IsRounded (x.value + y.value) (x + y) := by
  obtain ⟨s,hs⟩ := add_eq_ofFraction hx hy
  exact ⟨s,_,_,Nat.mul_pos x.denominator_pos y.denominator_pos,sum_value x y,hs⟩

theorem isRounded_sub {x y : Binary64} (hx : x.isFinite = true) (hy : y.isFinite = true) :
    IsRounded (x.value - y.value) (x - y) := by
  have h := isRounded_add hx ((isFinite_neg y).trans hy)
  rwa [value_neg, ← sub_eq_add_neg] at h

/-- What is not below the finest step is not rounded to nothing. -/
theorem IsRounded.pos_iff {q : ℚ} {x : Binary64} (h : IsRounded q x) (hfin : x.isFinite = true)
    (hstep : 0 < q → 2 ^ (-1074 : ℤ) ≤ q) : 0 < x.value ↔ 0 < q := by
  obtain ⟨s,n,d,hd,rfl,rfl⟩ := h
  constructor
  · intro hpos
    by_contra hq
    have hn : n ≤ 0 := by
      rw [not_lt, div_le_iff₀ (by exact_mod_cast hd), zero_mul] at hq
      exact_mod_cast hq
    exact (ofFraction_nonpos s hd hn).not_gt hpos
  · intro hq
    exact (two_zpow_pos _).trans_le (two_zpow_le_ofFraction s hd le_rfl (hstep hq) hfin)

theorem two_zpow_le_difference {x y : Binary64} (hx : x.isFinite = true) (hy : y.isFinite = true)
    (h : 0 < x.value - y.value) : 2 ^ (-1074 : ℤ) ≤ x.value - y.value := by
  obtain ⟨k,e,hk,-,he⟩ := exists_significand hx
  obtain ⟨l,f,hl,-,hf⟩ := exists_significand hy
  obtain ⟨m,hm⟩ := exists_multiple he k
  obtain ⟨n,hn⟩ := exists_multiple hf l
  have hstep := two_zpow_pos (-1074)
  rw [hk, hm, hl, hn, ← sub_mul] at h ⊢
  have hpos : (0 : ℚ) < m - n := pos_of_mul_pos_left h hstep.le
  have hone : (1 : ℚ) ≤ m - n := by exact_mod_cast hpos
  exact le_mul_of_one_le_left hstep.le hone

theorem lt_iff_value {x y : Binary64} (hx : x.isFinite = true) (hy : y.isFinite = true) :
    x.lt y = true ↔ x.value < y.value := by
  cases x with
  | finite s m e h =>
    cases y with
    | finite t n f k =>
      have h1 : (0 : ℚ) < (Binary64.finite s m e h).denominator := by exact_mod_cast denominator_pos _
      have h2 : (0 : ℚ) < (Binary64.finite t n f k).denominator := by exact_mod_cast denominator_pos _
      rw [Binary64.lt, decide_eq_true_eq, value, value, div_lt_div_iff₀ h1 h2]
      exact_mod_cast Iff.rfl
    | nan => exact absurd hy Bool.false_ne_true
    | infinite t => exact absurd hy Bool.false_ne_true
  | nan => exact absurd hx Bool.false_ne_true
  | infinite s => exact absurd hx Bool.false_ne_true

/-- A difference is positive exactly when it should be. -/
theorem sub_pos_iff {x y : Binary64} (hx : x.isFinite = true) (hy : y.isFinite = true)
    (hfin : (x - y).isFinite = true) : (zero false).lt (x - y) = true ↔ y.lt x = true := by
  rw [lt_iff_value rfl hfin, lt_iff_value hy hx, value_zero,
    (isRounded_sub hx hy).pos_iff hfin (two_zpow_le_difference hx hy), sub_pos]

theorem lt_eq_false_iff {x y : Binary64} : x.lt y = false ↔ x = .nan ∨ y = .nan ∨ y.le x = true := by
  cases x with
  | nan => simp [Binary64.lt]
  | infinite s =>
    cases y with
    | nan => simp [Binary64.lt]
    | infinite t => cases s <;> cases t <;> simp [Binary64.lt, Binary64.le]
    | finite t n f k => cases s <;> simp [Binary64.lt, Binary64.le]
  | finite s m e h =>
    cases y with
    | nan => simp [Binary64.lt]
    | infinite t => cases t <;> simp [Binary64.lt, Binary64.le]
    | finite t n f k => simp [Binary64.lt, Binary64.le]

theorem isNaN_of_le {x y : Binary64} (h : x.le y = true) : y.isNaN = false := by
  cases y with
  | nan => cases x <;> exact nomatch h
  | infinite s => rfl
  | finite s m e k => rfl

theorem zero_le_zero (s : Bool) : (zero false).le (zero s) = true := by
  rw [le_iff_value rfl rfl, value_zero, value_zero]

theorem zero_le_ofFraction (s : Bool) {n : ℤ} {d : ℕ} (hd : 0 < d) (hn : 0 ≤ n) :
    (zero false).le (ofFraction s n d) = true := by
  rcases hn.eq_or_lt with rfl | hpos
  · rw [ofFraction_zero]
    exact zero_le_zero s
  · have hvalue := ofFraction_nonneg s hd hn
    obtain ⟨-,-,⟨-,hfin,-⟩ | ⟨-,hinf⟩⟩ := ofFraction_rounds s hpos.ne' hd
    · rwa [le_iff_value rfl hfin, value_zero]
    · rw [hinf, decide_eq_false hpos.not_gt]
      rfl

/-- What is not negative stays so when it is divided by a positive number, which may be infinite. -/
theorem zero_le_div {x y : Binary64} (hx : x.isFinite = true) (h0 : 0 ≤ x.value)
    (hy : (zero false).lt y = true) : (zero false).le (x / y) = true := by
  by_cases hfin : y.isFinite = true
  · rw [lt_iff_value rfl hfin, value_zero] at hy
    obtain ⟨s,hs⟩ := div_eq_ofFraction hx hfin hy.ne'
    have hnum : y.numerator ≠ 0 := fun h => hy.ne' (by rw [value, h, Int.cast_zero, zero_div])
    have hsign := Int.sign_nonneg_iff.mpr (numerator_nonneg_iff.mpr hy.le)
    rw [hs]
    refine zero_le_ofFraction s (Nat.mul_pos x.denominator_pos (Int.natAbs_pos.mpr hnum)) ?_
    exact mul_nonneg (mul_nonneg (numerator_nonneg_iff.mpr h0) (Int.natCast_nonneg _)) hsign
  · cases y with
    | finite t n f k => exact absurd rfl hfin
    | nan => exact absurd hy Bool.false_ne_true
    | infinite t =>
      cases x with
      | finite s m e h => exact zero_le_zero (s ^^ t)
      | nan => exact absurd hx Bool.false_ne_true
      | infinite s => exact absurd hx Bool.false_ne_true

end Binary64
end Flextime

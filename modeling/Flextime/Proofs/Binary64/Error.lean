import Flextime.Proofs.Binary64.Arithmetic

/-! # Errors of rounding

The result of an operation is a rational number, rounded. Rounding is a function of that number, however
it is written as a fraction. It moves the number by at most half a step of its grid, which is a fixed part
of the number where the grid is not the finest one.
-/
namespace Flextime
namespace Binary64

/-- Nearest integers, of two the even one, keep the order of what they are nearest to. -/
theorem nearest_even_le {x y : ℚ} (h : x ≤ y) {m n : ℤ} (hm : 2 * |x - m| ≤ 1) (hm' : 2 * |x - m| = 1 → m % 2 = 0)
    (hn : 2 * |y - n| ≤ 1) (hn' : 2 * |y - n| = 1 → n % 2 = 0) : m ≤ n := by
  by_contra hlt
  have hstep : (n : ℚ) + 1 ≤ m := by exact_mod_cast not_le.mp hlt
  have hlow : (m : ℚ) - x ≤ |x - m| := by rw [abs_sub_comm]; exact le_abs_self _
  have hhigh : y - n ≤ |y - n| := le_abs_self _
  have hnext : m = n + 1 := by
    have hle : (m : ℚ) ≤ n + 1 := by linarith
    exact_mod_cast le_antisymm hle hstep
  -- both are half-way between the two integers
  have hm2 := hm' (by linarith)
  have hn2 := hn' (by linarith)
  omega

theorem Rounds.unique {x v w : ℚ} (hv : Rounds x v) (hw : Rounds x w) : v = w := by
  obtain ⟨m,rfl,hm,hm'⟩ := hv
  obtain ⟨n,rfl,hn,hn'⟩ := hw
  rw [le_antisymm (nearest_even_le le_rfl hm hm' hn hn') (nearest_even_le le_rfl hn hn' hm hm')]

/-- The part of a number by which rounding can move it. -/
def roundoff : ℚ := 2 ^ (-53 : ℤ)

theorem roundoff_bounds : 0 < roundoff ∧ roundoff < 2 ^ (-52 : ℤ) :=
  ⟨two_zpow_pos _,by norm_num [roundoff]⟩

/-- A value that is off by at most a part of what it stands for. -/
def Within (ε q v : ℚ) : Prop := |v - q| ≤ ε * |q|

/-- A number that is `q`, rounded. -/
def IsRounded (q : ℚ) (x : Binary64) : Prop :=
  ∃ (s : Bool) (n : ℤ) (d : ℕ), 0 < d ∧ (n : ℚ) / d = q ∧ x = ofFraction s n d

theorem isRounded_mul {x y : Binary64} (hx : x.isFinite = true) (hy : y.isFinite = true) :
    IsRounded (x.value * y.value) (x * y) := by
  obtain ⟨s,hs⟩ := mul_eq_ofFraction hx hy
  exact ⟨s,_,_,Nat.mul_pos x.denominator_pos y.denominator_pos,product_value x y,hs⟩

theorem isRounded_div {x y : Binary64} (hx : x.isFinite = true) (hy : y.isFinite = true) (hzero : y.value ≠ 0) :
    IsRounded (x.value / y.value) (x / y) := by
  obtain ⟨s,hs⟩ := div_eq_ofFraction hx hy hzero
  have hn : y.numerator ≠ 0 := fun h => hzero (by rw [value, h, Int.cast_zero, zero_div])
  exact ⟨s,_,_,Nat.mul_pos x.denominator_pos (Int.natAbs_pos.mpr hn),quotient_value hzero,hs⟩

namespace IsRounded
variable {q : ℚ} {x y : Binary64}

theorem value_zero (h : IsRounded 0 x) : x.value = 0 := by
  obtain ⟨s,n,d,hd,hq,rfl⟩ := h
  have hd' : (d : ℚ) ≠ 0 := by exact_mod_cast hd.ne'
  rw [div_eq_zero_iff, or_iff_left hd', Int.cast_eq_zero] at hq
  rw [hq, ofFraction_zero, Binary64.value_zero]

theorem fraction_ne_zero {n : ℤ} {d : ℕ} (hzero : (n : ℚ) / d ≠ 0) : n ≠ 0 := by
  rintro rfl
  simp at hzero

theorem rounds (h : IsRounded q x) (hzero : q ≠ 0) : ∃ v, Rounds |q| v ∧
    x.value = if v < 2 ^ (1024 : ℤ) then (if q < 0 then -1 else 1) * v else 0 := by
  obtain ⟨s,n,d,hd,rfl,rfl⟩ := h
  have hd' : (0 : ℚ) < d := by exact_mod_cast hd
  have hsign : n < 0 ↔ (n : ℚ) / d < 0 := by
    rw [div_lt_iff₀ hd', zero_mul]
    exact_mod_cast Iff.rfl
  obtain ⟨v,hv,⟨hlt,-,hval⟩ | ⟨hbig,hinf⟩⟩ := ofFraction_rounds s (fraction_ne_zero hzero) hd
  · refine ⟨v,hv,?_⟩
    simp only [hval, hlt, hsign, ↓reduceIte]
  · refine ⟨v,hv,?_⟩
    rw [hinf, value_infinite, if_neg hbig.not_gt]

theorem value_eq (hx : IsRounded q x) (hy : IsRounded q y) : x.value = y.value := by
  rcases eq_or_ne q 0 with rfl | hzero
  · rw [hx.value_zero, hy.value_zero]
  · obtain ⟨v,hv,hval⟩ := hx.rounds hzero
    obtain ⟨w,hw,hval'⟩ := hy.rounds hzero
    rw [hval, hval', hv.unique hw]

theorem le_two_zpow (h : IsRounded q x) {k : ℤ} (hk : -1074 ≤ k) (hk' : k < 1024) (hq : |q| ≤ 2 ^ k) :
    x.isFinite = true ∧ |x.value| ≤ 2 ^ k := by
  obtain ⟨s,n,d,hd,rfl,rfl⟩ := h
  exact ofFraction_le_two_zpow s hd hk hk' hq

theorem exact (h : IsRounded q x) {k e : ℤ} (hk : k.natAbs < significandBound) (he : -1074 ≤ e) (he' : e ≤ 971)
    (hq : q = k * 2 ^ e) : x.isFinite = true ∧ x.value = q := by
  obtain ⟨s,n,d,hd,rfl,rfl⟩ := h
  rw [hq]
  exact ofFraction_exact s hd hk he he' hq

/-- The error is at most half a step, on the grid of a power of two above the number. -/
theorem near (h : IsRounded q x) (hfin : x.isFinite = true) {k : ℤ} (hk : -1074 ≤ k) (hq : |q| < 2 ^ (k + 53)) :
    2 * |x.value - q| ≤ 2 ^ k := by
  rcases eq_or_ne q 0 with rfl | hzero
  · simp [h.value_zero, (two_zpow_pos k).le]
  · obtain ⟨s,n,d,hd,rfl,rfl⟩ := h
    have hn := fraction_ne_zero hzero
    obtain ⟨v,hv,herror⟩ := ofFraction_error s hn hd hfin
    rw [lt_two_zpow_iff (abs_pos_fraction hn hd)] at hq
    rw [herror]
    exact hv.near (by unfold gridExponent; omega)

/-- Half a step of the grid below `2 ^ (k + 54)`. -/
theorem abs_error_le (h : IsRounded q x) (hfin : x.isFinite = true) {k : ℤ} (hk : -1075 ≤ k)
    (hq : |q| < 2 ^ (k + 54)) : |x.value - q| ≤ 2 ^ k := by
  have hnear := h.near hfin (k := k + 1) (by omega) (by rwa [add_assoc])
  rwa [zpow_add_one₀ two_ne_zero, mul_comm, mul_le_mul_iff_left₀ two_pos] at hnear

theorem within (h : IsRounded q x) (hfin : x.isFinite = true) (hq : 2 ^ (-1022 : ℤ) ≤ |q|) :
    Within roundoff q x.value := by
  have hpos := (two_zpow_pos (-1022)).trans_le hq
  have hlog := (two_zpow_le_iff hpos _).mp hq
  have hstep := h.near hfin (k := Int.log 2 |q| - 52) (by omega) ((lt_two_zpow_iff hpos _).mpr (by omega))
  have hpower : (2 : ℚ) ^ (Int.log 2 |q| - 52) = 2 * (roundoff * 2 ^ Int.log 2 |q|) := by
    rw [roundoff, ← zpow_add₀ two_ne_zero, ← zpow_one_add₀ two_ne_zero]
    congr 1
    omega
  rw [hpower, mul_le_mul_iff_right₀ two_pos] at hstep
  refine hstep.trans (mul_le_mul_of_nonneg_left ?_ (two_zpow_pos _).le)
  exact (two_zpow_le_iff hpos _).mpr le_rfl

end IsRounded

namespace Within
variable {ε q v : ℚ}

theorem abs_le_mul (h : Within ε q v) : |v| ≤ (1 + ε) * |q| := by
  have htri := abs_sub_abs_le_abs_sub v q
  unfold Within at h
  linarith

theorem mul_abs_le (h : Within ε q v) : (1 - ε) * |q| ≤ |v| := by
  have htri := abs_sub_abs_le_abs_sub q v
  rw [abs_sub_comm] at htri
  unfold Within at h
  linarith

theorem ne_zero (h : Within ε q v) (hε : ε < 1) (hq : q ≠ 0) : v ≠ 0 := by
  have hpos := mul_pos (sub_pos.mpr hε) (abs_pos.mpr hq)
  exact abs_pos.mp (hpos.trans_le h.mul_abs_le)

theorem nonneg (h : Within ε q v) (hε : ε ≤ 1) (hq : 0 ≤ q) : 0 ≤ v := by
  have hbelow := (abs_le.mp h).1
  rw [abs_of_nonneg hq] at hbelow
  have hpart := mul_nonneg (sub_nonneg.mpr hε) hq
  linarith

theorem mul_right (h : Within ε q v) (k : ℚ) : Within ε (q * k) (v * k) := by
  unfold Within
  rw [← sub_mul, abs_mul, abs_mul, ← mul_assoc]
  exact mul_le_mul_of_nonneg_right h (abs_nonneg k)

theorem div {p w : ℚ} (hv : Within ε q v) (hw : Within ε p w) (hp : p ≠ 0) (h0 : 0 ≤ ε) (hε : 3 * ε ≤ 1) :
    Within (3 * ε) (q / p) (v / w) := by
  have hw0 : w ≠ 0 := hw.ne_zero (by linarith) hp
  have hlow := hw.mul_abs_le
  have hp' := abs_pos.mpr hp
  have hw' := abs_pos.mpr hw0
  have hcross : v / w - q / p = ((v - q) * p - q * (w - p)) / (w * p) := by
    field_simp
    ring
  unfold Within
  rw [hcross, abs_div, abs_div, abs_mul, div_le_iff₀ (mul_pos hw' hp')]
  have hcancel : 3 * ε * (|q| / |p|) * (|w| * |p|) = 3 * ε * |q| * |w| := by field_simp
  rw [hcancel]
  calc |(v - q) * p - q * (w - p)| ≤ |v - q| * |p| + |q| * |w - p| := by
        rw [← abs_mul, ← abs_mul]
        exact abs_sub _ _
    _ ≤ ε * |q| * |p| + |q| * (ε * |p|) :=
        add_le_add (mul_le_mul_of_nonneg_right hv hp'.le) (mul_le_mul_of_nonneg_left hw (abs_nonneg q))
    _ = ε * |q| * (2 * |p|) := by ring
    _ ≤ ε * |q| * (3 * |w|) := by
        refine mul_le_mul_of_nonneg_left ?_ (mul_nonneg h0 (abs_nonneg q))
        nlinarith
    _ = 3 * ε * |q| * |w| := by ring

/-- What is off by less than half of a number is not among the smallest ones. -/
theorem not_tiny (h : Within ε q v) (hε : ε ≤ 1 / 2) (hq : 2 ^ (-50 : ℤ) ≤ |q|) :
    2 ^ (-1022 : ℤ) ≤ |v| := by
  refine le_trans ?_ h.mul_abs_le
  calc (2 : ℚ) ^ (-1022 : ℤ) ≤ 2 ^ (-51 : ℤ) := zpow_le_zpow_right₀ one_le_two (by decide)
    _ = 1 / 2 * 2 ^ (-50 : ℤ) := by norm_num
    _ ≤ (1 - ε) * |q| := mul_le_mul (by linarith) hq (two_zpow_pos _).le (by linarith)

/-- Rounding such a value takes it off by no more than twice the roundoff. -/
theorem rounded {x : Binary64} (h : Within ε q v) (hx : IsRounded v x) (hfin : x.isFinite = true)
    (hv : 2 ^ (-1022 : ℤ) ≤ |v|) (hε : ε ≤ 1) : Within (ε + 2 * roundoff) q x.value := by
  have hround := hx.within hfin hv
  have hlarge : |v| ≤ 2 * |q| := h.abs_le_mul.trans (mul_le_mul_of_nonneg_right (by linarith) (abs_nonneg q))
  have hpart : roundoff * |v| ≤ roundoff * (2 * |q|) := mul_le_mul_of_nonneg_left hlarge (two_zpow_pos _).le
  have htri := abs_sub_le x.value v q
  unfold Within at h hround ⊢
  linarith

end Within

theorem truncate_eq_floor {x : Binary64} (h : 0 ≤ x.value) : x.truncate = ⌊x.value⌋ := by
  have hnum := numerator_nonneg_iff.mpr h
  rw [value, Rat.floor_intCast_div_natCast, truncate, Int.tdiv_eq_ediv_of_nonneg hnum]

/-- What is left behind the integer part has no more binary places than the number. -/
theorem fraction_places (x : Binary64) : ∃ e : ℤ, -1074 ≤ e ∧ e ≤ 0 ∧ (1 : ℚ) / x.denominator = 2 ^ e ∧
    (x.numerator.tmod x.denominator).natAbs < significandBound := by
  cases x with
  | nan => exact ⟨0,by decide,le_rfl,by simp [denominator],by decide⟩
  | infinite s => exact ⟨0,by decide,le_rfl,by simp [denominator],by simp [numerator, significandBound]⟩
  | finite s m e h =>
    have hlow := h.2.1
    refine ⟨min e 0,by omega,by omega,?_,?_⟩
    · rw [two_zpow_toNat, show (min e 0).toNat = 0 by omega, show (-min e 0).toNat = (-e).toNat by omega]
      simp [twoTo, denominator]
    · rw [Int.natAbs_tmod, Int.natAbs_natCast]
      rcases le_total 0 e with h0 | h0
      · -- a number without places behind the point leaves nothing
        have hone : (finite s m e h).denominator = 1 := by
          simp [denominator, show (-e).toNat = 0 by omega, twoTo]
        rw [hone, Nat.mod_one]
        decide
      · have hnum : (finite s m e h).numerator.natAbs = m := by
          cases s <;> simp [numerator, show e.toNat = 0 by omega, twoTo]
        rw [hnum]
        exact (Nat.mod_le _ _).trans_lt h.1

theorem sub_truncate (x : Binary64) :
    x.value - x.truncate = ((x.numerator.tmod x.denominator : ℤ) : ℚ) / x.denominator := by
  have hd : (x.denominator : ℚ) ≠ 0 := by exact_mod_cast x.denominator_pos.ne'
  have hsplit : (x.numerator : ℚ) = x.numerator.tmod x.denominator + x.denominator * x.truncate := by
    exact_mod_cast (Int.tmod_add_mul_tdiv x.numerator x.denominator).symm
  rw [value, hsplit]
  field_simp
  ring

theorem abs_sub_truncate_lt (x : Binary64) : |x.value - x.truncate| < 1 := by
  have hd : (0 : ℚ) < x.denominator := by exact_mod_cast x.denominator_pos
  have hmod : (x.numerator.tmod x.denominator).natAbs < x.denominator := by
    rw [Int.natAbs_tmod, Int.natAbs_natCast]
    exact Nat.mod_lt _ x.denominator_pos
  rw [sub_truncate, abs_div, Nat.abs_cast, div_lt_one hd, ← Int.cast_abs, ← Nat.cast_natAbs]
  exact_mod_cast hmod

/-- The integer part and what it leaves are together the number, with nothing rounded. -/
theorem fractionPart_exact (x : Binary64) :
    x.fractionPart.isFinite = true ∧ x.fractionPart.value = x.value - x.truncate := by
  have hround : IsRounded (x.value - x.truncate) x.fractionPart :=
    ⟨_,_,_,x.denominator_pos,x.sub_truncate.symm,rfl⟩
  obtain ⟨e,he,he',hplaces,hbound⟩ := x.fraction_places
  refine hround.exact hbound he (by omega) ?_
  rw [← hplaces, mul_one_div, sub_truncate]

end Binary64
end Flextime

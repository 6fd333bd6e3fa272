import Flextime.Binary64.Decimal
import Flextime.Proofs.Binary64.Fixed
import Flextime.Proofs.Binary64.Nearest

/-! # Decimals read back

What is shown of a number that is not zero is either nothing or far enough from zero to be read as a number that
is not zero.
-/
namespace Flextime
namespace Binary64

/-- More than half of the least number is not rounded to zero. -/
theorem Rounds.pos {x v : ℚ} (h : Rounds x v) (hx : 2 ^ (-1075 : ℤ) < x) : 0 < v := by
  obtain ⟨m,rfl,hm,-⟩ := h
  have hx0 := (two_zpow_pos (-1075)).trans hx
  have hgrid := two_zpow_pos (gridExponent x)
  have hhalf : (2 : ℚ) ^ (gridExponent x - 1) < x := by
    rcases le_total (Int.log 2 x - 52) (-1074) with hlog | hlog
    · rw [gridExponent, max_eq_left hlog]
      exact hx
    · rw [gridExponent, max_eq_right hlog]
      calc (2 : ℚ) ^ (Int.log 2 x - 52 - 1) < 2 ^ Int.log 2 x := zpow_lt_zpow_right₀ one_lt_two (by omega)
        _ ≤ x := (two_zpow_le_iff hx0 _).mpr le_rfl
  have hquot : 1 / 2 < x / 2 ^ gridExponent x := by
    rw [lt_div_iff₀ hgrid]
    rw [zpow_sub_one₀ two_ne_zero] at hhalf
    linarith
  have hlow : x / 2 ^ gridExponent x - m ≤ |x / 2 ^ gridExponent x - m| := le_abs_self _
  exact mul_pos (by linarith) hgrid

/-- No number but zero is nearer to zero than the least one. -/
theorem two_zpow_le_abs_value {x : Binary64} (hx : x.isFinite = true) (hzero : x.value ≠ 0) :
    2 ^ (-1074 : ℤ) ≤ |x.value| := by
  obtain ⟨k,e,hvalue,-,he⟩ := exists_significand hx
  have hk : k ≠ 0 := by
    rintro rfl
    exact hzero (by rw [hvalue, Int.cast_zero, zero_mul])
  have hone : (1 : ℚ) ≤ |(k : ℚ)| := by exact_mod_cast Int.one_le_abs hk
  calc (2 : ℚ) ^ (-1074 : ℤ) ≤ 2 ^ e := zpow_le_zpow_right₀ one_le_two he
    _ ≤ |(k : ℚ)| * 2 ^ e := le_mul_of_one_le_left (two_zpow_pos e).le hone
    _ = |x.value| := by rw [hvalue, abs_mul, abs_of_pos (two_zpow_pos e)]

/-- What is shown of a number and is not zero is more than half of the least number. -/
theorem lt_shown {x : Binary64} (hx : x.isFinite = true) {n : ℕ} (h : x.scaled n ≠ 0) :
    2 ^ (-1075 : ℤ) < (x.scaled n : ℚ) / 10 ^ n := by
  obtain ⟨hnear,-⟩ := isNearestEven_scaled n x
  have hone : (1 : ℚ) ≤ x.scaled n := by exact_mod_cast Nat.one_le_iff_ne_zero.mpr h
  have hunit : (0 : ℚ) < 10 ^ n := by positivity
  have hlow : |x.value| * 10 ^ n - x.scaled n ≤ |(|x.value| * 10 ^ n - x.scaled n)| := le_abs_self _
  have hzero : x.value ≠ 0 := fun hvalue => h (scaled_eq_zero hvalue)
  have hleast := two_zpow_le_abs_value hx hzero
  have hpower : (2 : ℚ) ^ (-1074 : ℤ) = 2 * 2 ^ (-1075 : ℤ) := by
    rw [← zpow_one_add₀ two_ne_zero]
    rfl
  rw [lt_div_iff₀ hunit]
  rcases lt_or_ge ((2 : ℚ) ^ (-1075 : ℤ) * 10 ^ n) 1 with hsmall | hlarge
  · exact hsmall.trans_le hone
  · -- a unit is less than the least number, so that almost all of the number is shown
    have hscaled : 2 * (2 ^ (-1075 : ℤ) * 10 ^ n) ≤ |x.value| * 10 ^ n := by
      rw [← mul_assoc, ← hpower]
      exact mul_le_mul_of_nonneg_right hleast hunit.le
    linarith

theorem isZero_nearest {p q : ℕ} (hp : 0 < p) (hq : 0 < q) (h : 2 ^ (-1075 : ℤ) < (p : ℚ) / q) (s : Bool) :
    (nearest s p q).isZero = false := by
  obtain ⟨v,hv,⟨-,hfin,hvalue⟩ | ⟨-,hinf⟩⟩ := nearest_rounds hp hq s
  · have hpos := hv.pos h
    rw [← Bool.not_eq_true, isZero_iff_value hfin, hvalue]
    cases s <;> simp [hpos.ne']
  · rw [hinf]
    rfl

/-- A decimal above a power of two has about as many binary places. -/
theorem three_mul_lt_log2 {k n j : ℕ} (h : 2 ^ (-(j : ℤ)) < (k : ℚ) / 10 ^ n) : 3 * n < k.log2 + 1 + j := by
  have hunit : (0 : ℚ) < 10 ^ n := by positivity
  have hpower : (0 : ℚ) < 2 ^ j := by positivity
  rw [lt_div_iff₀ hunit, zpow_neg, zpow_natCast, inv_mul_lt_iff₀ hpower] at h
  have hlt : 10 ^ n < 2 ^ j * k := by exact_mod_cast h
  have hk : k < 2 ^ (k.log2 + 1) := Nat.lt_log2_self
  have hpow : 2 ^ (3 * n) < 2 ^ (k.log2 + 1 + j) :=
    calc 2 ^ (3 * n) = 8 ^ n := pow_mul 2 3 n
      _ ≤ 10 ^ n := Nat.pow_le_pow_left (by decide) n
      _ < 2 ^ j * k := hlt
      _ ≤ 2 ^ j * 2 ^ (k.log2 + 1) := Nat.mul_le_mul_left _ hk.le
      _ = 2 ^ (k.log2 + 1 + j) := by rw [← pow_add, add_comm]
  exact (Nat.pow_lt_pow_iff_right (by decide)).mp hpow

/-- The units that are shown of a number are read as zero only when there are none. -/
theorem isZero_ofDecimal_iff {x : Binary64} (hx : x.isFinite = true) (s : Bool) (n : ℕ) :
    (ofDecimal s (x.scaled n) (-n)).isZero = true ↔ x.scaled n = 0 := by
  constructor
  · intro h
    by_contra hk
    have hlt := lt_shown hx hk
    have hplaces := three_mul_lt_log2 (j := 1075) hlt
    -- the exponent is neither so high nor so low that it decides the answer
    rw [ofDecimal, if_neg hk, if_neg (by omega), if_neg (by omega), neg_neg, Int.toNat_natCast, Int.toNat_neg_natCast,
      isZero_nearest (Nat.mul_pos (Nat.pos_of_ne_zero hk) (tenTo_pos 0)) (tenTo_pos n)] at h
    · exact nomatch h
    · simpa [tenTo_eq] using hlt
  · intro h
    rw [h]
    cases s <;> rfl

end Binary64
end Flextime

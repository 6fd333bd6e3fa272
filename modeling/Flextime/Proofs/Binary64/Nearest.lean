import Flextime.Proofs.Binary64.Error
import Mathlib.RingTheory.Coprime.Lemmas
import Mathlib.Tactic.NormNum.IsCoprime

/-! # Nearest numbers

No number is nearer to a fraction than the one it is rounded to. What lies on the grid of the fraction is a
multiple of its step, and what lies beside it is smaller than everything of the fraction's magnitude.
-/
namespace Flextime
namespace Binary64

/-- The number nearest to `q`: all others are farther away. -/
def IsNearest (q : ℚ) (x : Binary64) : Prop :=
  x.isFinite = true ∧ ∀ y : Binary64, y.isFinite = true → y.value ≠ x.value → |x.value - q| < |y.value - q|

/-- The nearest numbers keep the order of what they are nearest to. -/
theorem IsNearest.mono {q r : ℚ} {x y : Binary64} (hx : IsNearest q x) (hy : IsNearest r y) (h : q ≤ r) :
    x.value ≤ y.value := by
  by_contra hlt
  rw [not_le] at hlt
  have hq := sq_lt_sq.mpr (hx.2 y hy.1 hlt.ne)
  have hr := sq_lt_sq.mpr (hy.2 x hx.1 hlt.ne')
  have hprod := mul_nonneg (sub_nonneg.mpr h) (sub_nonneg.mpr hlt.le)
  linarith

theorem Rounds.le_multiple {x v : ℚ} (h : Rounds x v) (n : ℤ) : |v - x| ≤ |n * 2 ^ gridExponent x - x| := by
  obtain ⟨m,rfl,hm,-⟩ := h
  have hpos := two_zpow_pos (gridExponent x)
  have hscale : ∀ k : ℤ, |k * 2 ^ gridExponent x - x| = |k - x / 2 ^ gridExponent x| * 2 ^ gridExponent x := by
    intro k
    rw [← abs_of_pos hpos, ← abs_mul, abs_of_pos hpos, sub_mul, div_mul_cancel₀ _ hpos.ne']
  rw [hscale, hscale]
  refine mul_le_mul_of_nonneg_right ?_ hpos.le
  rw [abs_sub_comm] at hm
  by_cases hmn : m = n
  · rw [hmn]
  · have hstep : (1 : ℚ) ≤ |(m : ℚ) - n| := by exact_mod_cast Int.one_le_abs (sub_ne_zero.mpr hmn)
    have htri := abs_sub_le (m : ℚ) (x / 2 ^ gridExponent x) n
    rw [abs_sub_comm (x / 2 ^ gridExponent x) (n : ℚ)] at htri
    linarith

theorem exists_significand {y : Binary64} (hy : y.isFinite = true) :
    ∃ k e : ℤ, y.value = k * 2 ^ e ∧ |(k : ℚ)| < 2 ^ (53 : ℤ) ∧ -1074 ≤ e := by
  cases y with
  | nan => exact nomatch hy
  | infinite s => exact nomatch hy
  | finite s m e h =>
    refine ⟨if s then -m else m,e,?_,?_,h.2.1⟩
    · rw [value_finite]
      cases s <;> simp
    · have hm : (m : ℚ) < 2 ^ (53 : ℤ) := by exact_mod_cast h.1
      cases s <;> simpa using hm

theorem abs_value_lt {x : Binary64} (hx : x.isFinite = true) : |x.value| < 2 ^ (1024 : ℤ) := by
  cases x with
  | nan => exact nomatch hx
  | infinite s => exact nomatch hx
  | finite s m e h =>
    have hm : (m : ℚ) < 2 ^ (53 : ℤ) := by exact_mod_cast h.1
    have habs : |(finite s m e h).value| = m * 2 ^ e := by
      rw [value_finite]
      cases s <;> simp [abs_mul, abs_of_pos (two_zpow_pos e)]
    calc |(finite s m e h).value| = m * 2 ^ e := habs
      _ < 2 ^ (53 : ℤ) * 2 ^ e := mul_lt_mul_of_pos_right hm (two_zpow_pos e)
      _ ≤ 2 ^ (53 : ℤ) * 2 ^ (971 : ℤ) :=
        mul_le_mul_of_nonneg_left (zpow_le_zpow_right₀ one_le_two h.2.2.1) (two_zpow_pos 53).le
      _ = 2 ^ (1024 : ℤ) := by rw [← zpow_add₀ two_ne_zero]; rfl

/-- No number with 53 places is nearer than the one that `x` is rounded to. -/
theorem Rounds.nearest {x v : ℚ} (h : Rounds x v) (hx : 0 < x) {k e : ℤ} (hk : |(k : ℚ)| < 2 ^ (53 : ℤ))
    (he : -1074 ≤ e) : |v - x| ≤ |k * 2 ^ e - x| := by
  by_cases hgrid : gridExponent x ≤ e
  · obtain ⟨n,hn⟩ := exists_multiple hgrid k
    rw [hn]
    exact h.le_multiple n
  · -- the grid is not the finest one, so that `x` has all 53 places on it
    have hlog : gridExponent x = Int.log 2 x - 52 := by
      unfold gridExponent at hgrid ⊢
      omega
    have hlow : (2 : ℚ) ^ (gridExponent x + 52) ≤ x := (two_zpow_le_iff hx _).mpr (by omega)
    have hsmall : k * 2 ^ e ≤ (2 : ℚ) ^ (gridExponent x + 52) :=
      calc (k : ℚ) * 2 ^ e ≤ 2 ^ (53 : ℤ) * 2 ^ e :=
            mul_le_mul_of_nonneg_right ((le_abs_self _).trans hk.le) (two_zpow_pos e).le
        _ = 2 ^ (53 + e) := (zpow_add₀ two_ne_zero _ _).symm
        _ ≤ 2 ^ (gridExponent x + 52) := zpow_le_zpow_right₀ one_le_two (by omega)
    have hmultiple : ((2 ^ 52 : ℤ) : ℚ) * 2 ^ gridExponent x = 2 ^ (gridExponent x + 52) := by
      rw [add_comm, zpow_add₀ two_ne_zero]
      norm_num
    calc |v - x| ≤ |2 ^ (gridExponent x + 52) - x| := hmultiple ▸ h.le_multiple (2 ^ 52)
      _ = x - 2 ^ (gridExponent x + 52) := by rw [abs_sub_comm, abs_of_nonneg (sub_nonneg.mpr hlow)]
      _ ≤ x - k * 2 ^ e := sub_le_sub_left hsmall x
      _ ≤ |k * 2 ^ e - x| := by
        rw [abs_sub_comm]
        exact le_abs_self _

theorem IsRounded.nearest {q : ℚ} {x y : Binary64} (h : IsRounded q x) (hx : x.isFinite = true)
    (hy : y.isFinite = true) : |x.value - q| ≤ |y.value - q| := by
  rcases eq_or_ne q 0 with rfl | hzero
  · rw [h.value_zero, sub_zero, abs_zero]
    exact abs_nonneg _
  · obtain ⟨s,n,d,hd,rfl,rfl⟩ := h
    have hn := IsRounded.fraction_ne_zero hzero
    obtain ⟨v,hv,herror⟩ := ofFraction_error s hn hd hx
    obtain ⟨k,e,hvalue,hk,he⟩ := exists_significand hy
    rw [herror, hvalue]
    have hpos := abs_pos_fraction hn hd
    rcases abs_choice ((n : ℚ) / d) with habs | habs
    · have hsame : (k : ℚ) * 2 ^ e - n / d = k * 2 ^ e - |(n : ℚ) / d| := by rw [habs]
      rw [hsame]
      exact hv.nearest hpos hk he
    · have hflip : (k : ℚ) * 2 ^ e - n / d = -((-k : ℤ) * 2 ^ e - |(n : ℚ) / d|) := by
        rw [habs]
        push_cast
        ring
      rw [hflip, abs_neg]
      exact hv.nearest hpos (by simpa using hk) he

/-- Two numbers are equally far only from the middle between them. -/
theorem IsRounded.isNearest {q : ℚ} {x : Binary64} (h : IsRounded q x) (hx : x.isFinite = true)
    (htie : ∀ y : Binary64, y.isFinite = true → x.value + y.value = 2 * q → y.value = x.value) :
    IsNearest q x := by
  refine ⟨hx,fun y hy hne => (h.nearest hx hy).lt_of_ne fun heq => ?_⟩
  rcases abs_eq_abs.mp heq with hsame | hopposite
  · exact hne (by linarith)
  · exact hne (htie y hy (by linarith))

theorem exists_denominator (x : Binary64) : ∃ k, x.denominator = 2 ^ k := by
  cases x with
  | nan => exact ⟨0,rfl⟩
  | infinite s => exact ⟨0,rfl⟩
  | finite s m e h => exact ⟨_,rfl⟩

/-- Sixtieths between two numbers are quarters. -/
theorem fifteen_dvd_of_tie {x y : Binary64} {n : ℤ} (h : x.value + y.value = 2 * (n / 60)) : 15 ∣ n := by
  obtain ⟨i,hi⟩ := x.exists_denominator
  obtain ⟨j,hj⟩ := y.exists_denominator
  have hprod : 30 * (x.numerator * 2 ^ j + y.numerator * 2 ^ i) = n * 2 ^ (i + j) := by
    rw [value, value, hi, hj] at h
    push_cast at h
    field_simp at h
    rw [pow_add]
    have h' : (30 * (x.numerator * 2 ^ j + y.numerator * 2 ^ i) : ℚ) = n * (2 ^ i * 2 ^ j) := by linarith
    exact_mod_cast h'
  have hcoprime : IsCoprime (15 : ℤ) (2 ^ (i + j)) := IsCoprime.pow_right (by norm_num)
  refine hcoprime.dvd_of_dvd_mul_right ?_
  rw [← hprod]
  exact Dvd.dvd.mul_right (by decide) _

theorem neg_ofParts (s : Bool) (m : ℕ) (e : ℤ) : -ofParts s m e = ofParts (!s) m e := by
  unfold ofParts
  split <;> rfl

theorem neg_nearest (s : Bool) {p : ℕ} (hp : p ≠ 0) (q : ℕ) : -nearest s p q = nearest (!s) p q := by
  simp only [nearest, if_neg hp]
  split <;> exact neg_ofParts _ _ _

theorem neg_ofFraction (s : Bool) {n : ℤ} (hn : n ≠ 0) (d : ℕ) : -ofFraction s n d = ofFraction s (-n) d := by
  have hsign : decide (-n < 0) = !decide (n < 0) := by
    rw [← decide_not, decide_eq_decide]
    omega
  rw [ofFraction, ofFraction, if_neg hn, if_neg (neg_ne_zero.mpr hn), neg_nearest _ (Int.natAbs_ne_zero.mpr hn), hsign,
    Int.natAbs_neg]

end Binary64
end Flextime

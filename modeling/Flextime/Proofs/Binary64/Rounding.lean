import Flextime.Binary64.Basic
import Mathlib.Data.Int.Log
import Mathlib.Data.Rat.Floor
import Mathlib.Tactic.FieldSimp
import Mathlib.Tactic.Linarith
import Mathlib.Tactic.Positivity

/-! # The grid of double-precision numbers

A positive number is rounded on a grid whose step depends on its magnitude. What lies on the grid
of a number, or on a coarser one, is not passed over by rounding; bounds by whole numbers and by
powers of two are cases of this.
-/
namespace Flextime
namespace Binary64

/-- The number as a fraction, 0 for one that is not finite. -/
def value (x : Binary64) : ℚ := x.numerator / x.denominator

/-- The exponent of the step at which a positive number is rounded. -/
def gridExponent (x : ℚ) : ℤ := max (-1074) (Int.log 2 x - 52)

/-- `v` is the multiple of its step that is nearest to a positive `x`, and at a tie the even one. -/
def Rounds (x v : ℚ) : Prop :=
  ∃ m : ℤ, v = m * 2 ^ gridExponent x ∧ 2 * |x / 2 ^ gridExponent x - m| ≤ 1 ∧
    (2 * |x / 2 ^ gridExponent x - m| = 1 → m % 2 = 0)

theorem two_zpow_pos (k : ℤ) : (0 : ℚ) < 2 ^ k := zpow_pos (by norm_num) k

theorem two_zpow_le_iff {x : ℚ} (hx : 0 < x) (k : ℤ) : (2 : ℚ) ^ k ≤ x ↔ k ≤ Int.log 2 x := by
  exact_mod_cast Int.zpow_le_iff_le_log (b := 2) one_lt_two hx

theorem lt_two_zpow_iff {x : ℚ} (hx : 0 < x) (k : ℤ) : x < (2 : ℚ) ^ k ↔ Int.log 2 x < k := by
  exact_mod_cast Int.lt_zpow_iff_log_lt (b := 2) one_lt_two hx

theorem two_zpow_toNat (k : ℤ) : (2 : ℚ) ^ k = twoTo k.toNat / twoTo (-k).toNat := by
  have hcast : ∀ n : ℕ, (twoTo n : ℚ) = 2 ^ n := fun n => by simp [twoTo]
  rw [hcast, hcast]
  rcases le_total 0 k with h | h
  · obtain ⟨n, rfl⟩ := Int.eq_ofNat_of_zero_le h
    simp
  · obtain ⟨n, rfl⟩ : ∃ n : ℕ, k = -n := ⟨(-k).toNat,by omega⟩
    simp

theorem twoTo_cross {p q : ℕ} (hq : 0 < q) (k : ℤ) :
    q * twoTo k.toNat ≤ p * twoTo (-k).toNat ↔ (2 : ℚ) ^ k ≤ p / q := by
  have h1 : (0 : ℚ) < twoTo (-k).toNat := by exact_mod_cast twoTo_pos _
  have h2 : (0 : ℚ) < q := by exact_mod_cast hq
  rw [two_zpow_toNat, div_le_div_iff₀ h1 h2, mul_comm (twoTo k.toNat : ℚ)]
  exact_mod_cast Iff.rfl

theorem floorLog2_eq {p q : ℕ} (hp : 0 < p) (hq : 0 < q) : floorLog2 p q = Int.log 2 ((p : ℚ) / q) := by
  have hx : (0 : ℚ) < p / q := by positivity
  have hpl : (2 : ℚ) ^ p.log2 ≤ p := by exact_mod_cast Nat.log2_self_le (by omega)
  have hpu : (p : ℚ) < 2 ^ (p.log2 + 1) := by exact_mod_cast Nat.lt_log2_self
  have hql : (2 : ℚ) ^ q.log2 ≤ q := by exact_mod_cast Nat.log2_self_le (by omega)
  have hqu : (q : ℚ) < 2 ^ (q.log2 + 1) := by exact_mod_cast Nat.lt_log2_self
  have hlow : (p.log2 : ℤ) - q.log2 - 1 ≤ Int.log 2 ((p : ℚ) / q) := by
    rw [← two_zpow_le_iff hx, sub_sub, zpow_sub₀ two_ne_zero]
    exact div_le_div₀ (by positivity) (by exact_mod_cast hpl) (by positivity) (by exact_mod_cast hqu.le)
  have hhigh : Int.log 2 ((p : ℚ) / q) < (p.log2 : ℤ) - q.log2 + 1 := by
    rw [← lt_two_zpow_iff hx, sub_add_eq_add_sub, zpow_sub₀ two_ne_zero]
    exact div_lt_div₀ (by exact_mod_cast hpu) (by exact_mod_cast hql) (two_zpow_pos _).le (two_zpow_pos _)
  have hcross := (twoTo_cross (p := p) hq (p.log2 - q.log2)).trans (two_zpow_le_iff hx _)
  unfold floorLog2
  dsimp only
  split
  next h =>
    have := hcross.mp h
    omega
  next h =>
    have := mt hcross.mpr h
    omega

theorem exists_multiple {e k : ℤ} (h : e ≤ k) (c : ℤ) : ∃ n : ℤ, (c : ℚ) * 2 ^ k = n * 2 ^ e := by
  obtain ⟨j, rfl⟩ : ∃ j : ℕ, k = e + j := ⟨(k - e).toNat,by omega⟩
  refine ⟨c * 2 ^ j,?_⟩
  rw [zpow_add₀ two_ne_zero, zpow_natCast]
  push_cast
  ring

/-- Rounding passes over nothing that lies on the grid of `x` or on a coarser one. -/
theorem Rounds.le {x v : ℚ} (h : Rounds x v) {c k : ℤ} (hk : gridExponent x ≤ k) (hx : x ≤ c * 2 ^ k) :
    v ≤ c * 2 ^ k := by
  obtain ⟨m,rfl,hm,-⟩ := h
  obtain ⟨n,hn⟩ := exists_multiple hk c
  have hpos := two_zpow_pos (gridExponent x)
  rw [hn] at hx ⊢
  have hquot : x / 2 ^ gridExponent x ≤ n := (div_le_iff₀ hpos).mpr hx
  have hlt : (m : ℚ) < n + 1 := by linarith [neg_abs_le (x / 2 ^ gridExponent x - m)]
  have hmn : m ≤ n := Int.lt_add_one_iff.mp (by exact_mod_cast hlt)
  exact mul_le_mul_of_nonneg_right (by exact_mod_cast hmn) hpos.le

theorem Rounds.ge {x v : ℚ} (h : Rounds x v) {c k : ℤ} (hk : gridExponent x ≤ k) (hx : c * 2 ^ k ≤ x) :
    c * 2 ^ k ≤ v := by
  obtain ⟨m,rfl,hm,-⟩ := h
  obtain ⟨n,hn⟩ := exists_multiple hk c
  have hpos := two_zpow_pos (gridExponent x)
  rw [hn] at hx ⊢
  have hquot : n ≤ x / 2 ^ gridExponent x := (le_div_iff₀ hpos).mpr hx
  have hlt : (n : ℚ) < m + 1 := by linarith [le_abs_self (x / 2 ^ gridExponent x - m)]
  have hnm : n ≤ m := Int.lt_add_one_iff.mp (by exact_mod_cast hlt)
  exact mul_le_mul_of_nonneg_right (by exact_mod_cast hnm) hpos.le

theorem Rounds.near {x v : ℚ} (h : Rounds x v) {k : ℤ} (hk : gridExponent x ≤ k) : 2 * |v - x| ≤ 2 ^ k := by
  obtain ⟨m,rfl,hm,-⟩ := h
  have hpos := two_zpow_pos (gridExponent x)
  have hstep : (m : ℚ) * 2 ^ gridExponent x - x = (m - x / 2 ^ gridExponent x) * 2 ^ gridExponent x := by
    field_simp
  rw [hstep, abs_mul, abs_of_pos hpos, ← mul_assoc, abs_sub_comm]
  calc 2 * |x / 2 ^ gridExponent x - m| * 2 ^ gridExponent x ≤ 1 * 2 ^ gridExponent x :=
        mul_le_mul_of_nonneg_right hm hpos.le
    _ ≤ 2 ^ k := by
        rw [one_mul]
        exact zpow_le_zpow_right₀ one_le_two hk

theorem Rounds.nonneg {x v : ℚ} (h : Rounds x v) (hx : 0 ≤ x) : 0 ≤ v := by
  simpa using h.ge (c := 0) le_rfl (by simpa using hx)

/-- A multiple of a step with a factor below `2 ^ 53` lies on the grid of every number up to it. -/
theorem gridExponent_le {x : ℚ} (hpos : 0 < x) {n : ℕ} (hn : n < significandBound) {e : ℤ} (he : -1074 ≤ e)
    (hx : x ≤ n * 2 ^ e) : gridExponent x ≤ e := by
  have hlog : Int.log 2 x < 53 + e := by
    rw [← lt_two_zpow_iff hpos, zpow_add₀ two_ne_zero]
    have hbound : (n : ℚ) < 2 ^ (53 : ℤ) := by exact_mod_cast hn
    exact hx.trans_lt (mul_lt_mul_of_pos_right hbound (two_zpow_pos e))
  unfold gridExponent
  omega

theorem Rounds.exact {n : ℕ} {e : ℤ} {v : ℚ} (h : Rounds (n * 2 ^ e) v) (hpos : 0 < n) (hn : n < significandBound)
    (he : -1074 ≤ e) : v = n * 2 ^ e := by
  have hx : (0 : ℚ) < n * 2 ^ e := mul_pos (by exact_mod_cast hpos) (two_zpow_pos e)
  have hgrid := gridExponent_le hx hn he le_rfl
  apply le_antisymm
  · simpa using h.le (c := n) hgrid (by simp)
  · simpa using h.ge (c := n) hgrid (by simp)

theorem Rounds.le_natCast {x v : ℚ} (h : Rounds x v) (hpos : 0 < x) {n : ℕ} (hn : n < significandBound)
    (hx : x ≤ n) : v ≤ n := by
  have hgrid := gridExponent_le hpos hn (e := 0) (by decide) (by simpa using hx)
  simpa using h.le (c := n) hgrid (by simpa using hx)

theorem Rounds.le_two_zpow {x v : ℚ} (h : Rounds x v) (hpos : 0 < x) {k : ℤ} (hk : -1074 ≤ k)
    (hx : x ≤ 2 ^ k) : v ≤ 2 ^ k := by
  have hlog : Int.log 2 x < k + 1 := by
    rw [← lt_two_zpow_iff hpos, zpow_add_one₀ two_ne_zero]
    linarith [two_zpow_pos k]
  have hgrid : gridExponent x ≤ k := by
    unfold gridExponent
    omega
  simpa using h.le (c := 1) hgrid (by simpa using hx)

theorem Rounds.two_zpow_le {x v : ℚ} (h : Rounds x v) {k : ℤ} (hk : -1074 ≤ k) (hx : 2 ^ k ≤ x) :
    2 ^ k ≤ v := by
  have hpos := (two_zpow_pos k).trans_le hx
  have hlog := (two_zpow_le_iff hpos k).mp hx
  have hgrid : gridExponent x ≤ Int.log 2 x := by
    unfold gridExponent
    omega
  have hv := h.ge (c := 1) hgrid (by simpa using (two_zpow_le_iff hpos _).mpr le_rfl)
  rw [Int.cast_one, one_mul] at hv
  exact (zpow_le_zpow_right₀ one_le_two hlog).trans hv

theorem le_divNearest {n c : ℤ} {d : ℕ} (hd : 0 < d) (h : c * d ≤ n) : c ≤ divNearest n d := by
  obtain ⟨hnear,-⟩ := divNearest_near n hd
  by_contra hlt
  have hstep : (divNearest n d + 1) * d ≤ c * d :=
    Int.mul_le_mul_of_nonneg_right (by omega) (Int.natCast_nonneg d)
  rw [add_mul, one_mul] at hstep
  omega

theorem divNearest_le {n c : ℤ} {d : ℕ} (hd : 0 < d) (h : n ≤ c * d) : divNearest n d ≤ c := by
  obtain ⟨-,hnear⟩ := divNearest_near n hd
  by_contra hlt
  have hstep : (c + 1) * d ≤ divNearest n d * d :=
    Int.mul_le_mul_of_nonneg_right (by omega) (Int.natCast_nonneg d)
  rw [add_mul, one_mul] at hstep
  omega

theorem divNearest_quotient (n : ℤ) {d : ℕ} (hd : 0 < d) :
    2 * |(n : ℚ) / d - divNearest n d| ≤ 1 ∧
      (2 * |(n : ℚ) / d - divNearest n d| = 1 → divNearest n d % 2 = 0) := by
  have hd' : (0 : ℚ) < d := by exact_mod_cast hd
  obtain ⟨h1,h2⟩ := divNearest_near n hd
  have h1' : 2 * ((n : ℚ) - divNearest n d * d) ≤ d := by exact_mod_cast h1
  have h2' : -(d : ℚ) ≤ 2 * ((n : ℚ) - divNearest n d * d) := by exact_mod_cast h2
  have hsub : (n : ℚ) / d - divNearest n d = (n - divNearest n d * d) / d := by field_simp
  rw [hsub, abs_div, abs_of_pos hd', ← mul_div_assoc, div_le_one hd', div_eq_one_iff_eq hd'.ne']
  constructor
  · rcases abs_choice ((n : ℚ) - divNearest n d * d) with h | h <;> rw [h] <;> linarith
  · intro h
    apply divNearest_even n hd
    rcases abs_choice ((n : ℚ) - divNearest n d * d) with ha | ha <;> rw [ha] at h
    · left
      exact_mod_cast h
    · right
      have h' : 2 * ((n : ℚ) - divNearest n d * d) = -d := by linarith
      exact_mod_cast h'

theorem rounds_divNearest {p q : ℕ} (hq : 0 < q) {e : ℤ} (he : e = gridExponent ((p : ℚ) / q)) :
    Rounds (p / q) (divNearest (p * twoTo (-e).toNat : ℕ) (q * twoTo e.toNat) * 2 ^ e) := by
  have hd : 0 < q * twoTo e.toNat := Nat.mul_pos hq (twoTo_pos _)
  have hquot : ((p * twoTo (-e).toNat : ℕ) : ℤ) / ((q * twoTo e.toNat : ℕ) : ℚ) = (p : ℚ) / q / 2 ^ e := by
    have h1 : (twoTo e.toNat : ℚ) ≠ 0 := by exact_mod_cast (twoTo_pos _).ne'
    have h2 : (twoTo (-e).toNat : ℚ) ≠ 0 := by exact_mod_cast (twoTo_pos _).ne'
    have h3 : (q : ℚ) ≠ 0 := by exact_mod_cast hq.ne'
    rw [two_zpow_toNat]
    push_cast
    field_simp
  obtain ⟨hnear,heven⟩ := divNearest_quotient (p * twoTo (-e).toNat : ℕ) hd
  subst he
  rw [hquot] at hnear heven
  exact ⟨_,rfl,hnear,heven⟩

theorem value_finite (s : Bool) (m : ℕ) (e : ℤ) (h : Canonical m e) :
    value (.finite s m e h) = (if s then -1 else 1) * (m * 2 ^ e) := by
  rw [value, two_zpow_toNat, numerator, denominator]
  cases s <;> push_cast <;> simp [neg_div, mul_div_assoc]

theorem ofParts_cases (s : Bool) {m : ℕ} {e : ℤ} (hm : m < significandBound) (he : -1074 ≤ e)
    (hnormal : significandBound ≤ 2 * m ∨ e = -1074) :
    (m * 2 ^ e : ℚ) < 2 ^ (1024 : ℤ) ∧ (ofParts s m e).isFinite = true ∧
        (ofParts s m e).value = (if s then -1 else 1) * (m * 2 ^ e) ∨
      (2 : ℚ) ^ (1024 : ℤ) ≤ m * 2 ^ e ∧ ofParts s m e = .infinite s := by
  by_cases h : e ≤ 971
  · have hc : Canonical m e := ⟨hm,he,h,hnormal⟩
    left
    rw [ofParts, dif_pos hc, value_finite]
    refine ⟨?_,rfl,rfl⟩
    have h1 : (m : ℚ) < 2 ^ (53 : ℤ) := by exact_mod_cast hm
    have h2 : (2 : ℚ) ^ e ≤ 2 ^ (971 : ℤ) := zpow_le_zpow_right₀ one_le_two h
    calc (m : ℚ) * 2 ^ e < 2 ^ (53 : ℤ) * 2 ^ e := mul_lt_mul_of_pos_right h1 (two_zpow_pos e)
      _ ≤ 2 ^ (53 : ℤ) * 2 ^ (971 : ℤ) := mul_le_mul_of_nonneg_left h2 (two_zpow_pos 53).le
      _ = 2 ^ (1024 : ℤ) := by rw [← zpow_add₀ two_ne_zero]; rfl
  · have hc : ¬Canonical m e := fun hc => h hc.2.2.1
    right
    rw [ofParts, dif_neg hc]
    refine ⟨?_,rfl⟩
    have hm52 : 2 ^ 52 ≤ m := by
      have := hnormal.resolve_right (by omega)
      rw [significandBound] at this
      omega
    have h1 : (2 : ℚ) ^ (52 : ℤ) ≤ m := by exact_mod_cast hm52
    have h2 : (2 : ℚ) ^ (972 : ℤ) ≤ 2 ^ e := zpow_le_zpow_right₀ one_le_two (by omega)
    calc (2 : ℚ) ^ (1024 : ℤ) = 2 ^ (52 : ℤ) * 2 ^ (972 : ℤ) := by rw [← zpow_add₀ two_ne_zero]; rfl
      _ ≤ m * 2 ^ e := mul_le_mul h1 h2 (two_zpow_pos _).le (Nat.cast_nonneg m)

/-- A significand on the grid has at most 53 places, and all of them where the grid is not the
finest one. -/
theorem significand_bounds {x : ℚ} (hx : 0 < x) {m e : ℤ} (he : e = gridExponent x)
    (h : Rounds x (m * 2 ^ e)) : 0 ≤ m ∧ m ≤ significandBound ∧ (significandBound ≤ 2 * m ∨ e = -1074) := by
  have hpos := two_zpow_pos e
  have hgrid : Int.log 2 x - 52 ≤ e ∧ (e = Int.log 2 x - 52 ∨ e = -1074) := by
    rw [he, gridExponent]
    omega
  refine ⟨?_,?_,?_⟩
  · have hv := h.nonneg hx.le
    exact_mod_cast nonneg_of_mul_nonneg_left hv hpos
  · have hb : x ≤ ((significandBound : ℤ) : ℚ) * 2 ^ e := by
      have h53 : ((significandBound : ℤ) : ℚ) = 2 ^ (53 : ℤ) := by norm_num [significandBound]
      rw [h53, ← zpow_add₀ two_ne_zero]
      exact ((lt_two_zpow_iff hx _).mpr (by omega)).le
    have hv := h.le he.ge hb
    exact_mod_cast le_of_mul_le_mul_right hv hpos
  · refine hgrid.2.imp_left fun hlog => ?_
    have hb : ((2 ^ 52 : ℤ) : ℚ) * 2 ^ e ≤ x := by
      have h52 : ((2 ^ 52 : ℤ) : ℚ) = 2 ^ (52 : ℤ) := by norm_num
      rw [h52, ← zpow_add₀ two_ne_zero, two_zpow_le_iff hx]
      omega
    have hv := le_of_mul_le_mul_right (h.ge he.ge hb) hpos
    have h52 : (2 ^ 52 : ℤ) ≤ m := by exact_mod_cast hv
    rw [significandBound]
    omega

/-- A quotient is rounded on its grid; where that is past the largest number, it is infinite. -/
theorem nearest_rounds {p q : ℕ} (hp : 0 < p) (hq : 0 < q) (s : Bool) :
    ∃ v, Rounds ((p : ℚ) / q) v ∧
      (v < 2 ^ (1024 : ℤ) ∧ (nearest s p q).isFinite = true ∧
          (nearest s p q).value = (if s then -1 else 1) * v ∨
        2 ^ (1024 : ℤ) ≤ v ∧ nearest s p q = .infinite s) := by
  have hx : (0 : ℚ) < p / q := by positivity
  obtain ⟨e,he⟩ : ∃ e, e = gridExponent ((p : ℚ) / q) := ⟨_,rfl⟩
  obtain ⟨m,hm⟩ : ∃ m, m = divNearest (p * twoTo (-e).toNat : ℕ) (q * twoTo e.toNat) := ⟨_,rfl⟩
  have hunfold : nearest s p q =
      if m.toNat < significandBound then ofParts s m.toNat e else ofParts s (m.toNat / 2) (e + 1) := by
    rw [nearest, if_neg hp.ne', floorLog2_eq hp hq, hm, he]
    rfl
  have hround := rounds_divNearest hq he
  rw [← hm] at hround
  obtain ⟨hnonneg,hle,hnormal⟩ := significand_bounds hx he hround
  have hlow : -1074 ≤ e := he ▸ le_max_left _ _
  refine ⟨m * 2 ^ e,hround,?_⟩
  obtain ⟨n, rfl⟩ := Int.eq_ofNat_of_zero_le hnonneg
  rw [hunfold, Int.toNat_natCast]
  by_cases hn : n < significandBound
  · rw [if_pos hn]
    exact_mod_cast ofParts_cases s hn hlow (by exact_mod_cast hnormal)
  · -- a significand that is rounded up to the bound has one place less on the next grid
    obtain rfl : n = significandBound := by omega
    rw [if_neg hn]
    have hhalf : ((significandBound : ℤ) : ℚ) * 2 ^ e = ((significandBound / 2 : ℕ) : ℚ) * 2 ^ (e + 1) := by
      rw [zpow_add_one₀ two_ne_zero]
      norm_num [significandBound]
      ring
    rw [show (((significandBound : ℕ) : ℤ) : ℚ) = ((significandBound : ℤ) : ℚ) from rfl, hhalf]
    exact ofParts_cases s (by decide) (by omega) (Or.inl (by decide))

end Binary64
end Flextime

import Flextime.Proofs.Binary64.Rounding

/-! # Bounds of arithmetic

The result of an operation is its exact value, rounded once. A bound by a power of two or by a whole
number holds of the result as soon as it holds of the exact value, and the result is then finite.
-/
namespace Flextime
namespace Binary64

@[simp] theorem value_zero (s : Bool) : (zero s).value = 0 := by simp [zero, value_finite]

@[simp] theorem value_infinite (s : Bool) : (infinite s).value = 0 := zero_div _

@[simp] theorem value_neg (x : Binary64) : (-x).value = -x.value := by
  cases x with
  | nan =>
    change nan.value = -nan.value
    simp [value, numerator]
  | infinite s =>
    change (infinite !s).value = _
    simp
  | finite s m e h =>
    change (finite (!s) m e h).value = _
    cases s <;> simp [value_finite]

@[simp] theorem numerator_zero (s : Bool) : (zero s).numerator = 0 := by cases s <;> rfl

/-- A number is the value of its exact fraction, rounded, or infinite where that is past the largest
number. -/
theorem ofFraction_rounds (s : Bool) {n : ℤ} {d : ℕ} (hn : n ≠ 0) (hd : 0 < d) :
    ∃ v, Rounds |(n : ℚ) / d| v ∧
      (v < 2 ^ (1024 : ℤ) ∧ (ofFraction s n d).isFinite = true ∧
          (ofFraction s n d).value = (if n < 0 then -1 else 1) * v ∨
        2 ^ (1024 : ℤ) ≤ v ∧ ofFraction s n d = .infinite (n < 0)) := by
  have habs : |(n : ℚ) / d| = (n.natAbs : ℚ) / d := by
    rw [abs_div, Nat.abs_cast, Nat.cast_natAbs, Int.cast_abs]
  rw [habs, ofFraction, if_neg hn]
  simpa using nearest_rounds (Int.natAbs_pos.mpr hn) hd (decide (n < 0))

theorem ofFraction_zero (s : Bool) (d : ℕ) : ofFraction s 0 d = zero s := if_pos rfl

theorem abs_pos_fraction {n : ℤ} {d : ℕ} (hn : n ≠ 0) (hd : 0 < d) : 0 < |(n : ℚ) / d| := by
  have hn' : (n : ℚ) ≠ 0 := by exact_mod_cast hn
  have hd' : (d : ℚ) ≠ 0 := by exact_mod_cast hd.ne'
  exact abs_pos.mpr (div_ne_zero hn' hd')

/-- A finite result is as far from the exact fraction as rounding takes its magnitude. -/
theorem ofFraction_error (s : Bool) {n : ℤ} {d : ℕ} (hn : n ≠ 0) (hd : 0 < d)
    (hfin : (ofFraction s n d).isFinite = true) :
    ∃ v, Rounds |(n : ℚ) / d| v ∧ |(ofFraction s n d).value - n / d| = |v - (|(n : ℚ) / d|)| := by
  obtain ⟨v,hv,⟨-,-,hval⟩ | ⟨-,hinf⟩⟩ := ofFraction_rounds s hn hd
  · refine ⟨v,hv,?_⟩
    have hd' : (0 : ℚ) < d := by exact_mod_cast hd
    rw [hval]
    by_cases hneg : n < 0
    · have hx : (n : ℚ) / d < 0 := div_neg_of_neg_of_pos (by exact_mod_cast hneg) hd'
      rw [if_pos hneg, abs_of_neg hx, neg_one_mul, ← neg_add', abs_neg, sub_neg_eq_add]
    · have hx : 0 ≤ (n : ℚ) / d := div_nonneg (by exact_mod_cast not_lt.mp hneg) hd'.le
      rw [if_neg hneg, abs_of_nonneg hx, one_mul]
  · rw [hinf] at hfin
    exact absurd hfin Bool.false_ne_true

theorem abs_signed (n : ℤ) (v : ℚ) : |(if n < 0 then -1 else 1) * v| = |v| := by
  split <;> simp

theorem ofFraction_le_two_zpow (s : Bool) {n : ℤ} {d : ℕ} (hd : 0 < d) {k : ℤ} (hk : -1074 ≤ k)
    (hk' : k < 1024) (h : |(n : ℚ) / d| ≤ 2 ^ k) :
    (ofFraction s n d).isFinite = true ∧ |(ofFraction s n d).value| ≤ 2 ^ k := by
  by_cases hn : n = 0
  · rw [hn, ofFraction_zero, value_zero, abs_zero]
    exact ⟨rfl,(two_zpow_pos k).le⟩
  · have hpos := abs_pos_fraction hn hd
    obtain ⟨v,hv,⟨-,hfin,hval⟩ | ⟨hbig,-⟩⟩ := ofFraction_rounds s hn hd
    · rw [hval, abs_signed, abs_of_nonneg (hv.nonneg hpos.le)]
      exact ⟨hfin,hv.le_two_zpow hpos hk h⟩
    · have hsmall := hv.le_two_zpow hpos hk h
      have hlt : (2 : ℚ) ^ k < 2 ^ (1024 : ℤ) := zpow_lt_zpow_right₀ one_lt_two hk'
      exact absurd (hbig.trans hsmall) hlt.not_ge

theorem two_zpow_le_ofFraction (s : Bool) {n : ℤ} {d : ℕ} (hd : 0 < d) {k : ℤ} (hk : -1074 ≤ k)
    (h : 2 ^ k ≤ (n : ℚ) / d) (hfin : (ofFraction s n d).isFinite = true) :
    2 ^ k ≤ (ofFraction s n d).value := by
  have hx : 0 < (n : ℚ) / d := (two_zpow_pos k).trans_le h
  have hn : 0 < n := by
    have hd' : (0 : ℚ) < d := by exact_mod_cast hd
    exact_mod_cast (div_pos_iff_of_pos_right hd').mp hx
  obtain ⟨v,hv,⟨-,-,hval⟩ | ⟨-,hinf⟩⟩ := ofFraction_rounds s hn.ne' hd
  · rw [hval, if_neg hn.not_gt, one_mul]
    exact hv.two_zpow_le hk (by rwa [abs_of_pos hx])
  · rw [hinf] at hfin
    exact nomatch hfin

theorem ofFraction_nonneg (s : Bool) {n : ℤ} {d : ℕ} (hd : 0 < d) (hn : 0 ≤ n) :
    0 ≤ (ofFraction s n d).value := by
  rcases hn.eq_or_lt with rfl | hn
  · rw [ofFraction_zero, value_zero]
  · obtain ⟨v,hv,⟨-,-,hval⟩ | ⟨-,hinf⟩⟩ := ofFraction_rounds s hn.ne' hd
    · rw [hval, if_neg hn.not_gt, one_mul]
      exact hv.nonneg (abs_nonneg _)
    · rw [hinf, value_infinite]

theorem ofFraction_le_natCast (s : Bool) {n : ℤ} {d : ℕ} (hd : 0 < d) (hn : 0 ≤ n) {b : ℕ}
    (hb : b < significandBound) (h : (n : ℚ) / d ≤ b) :
    (ofFraction s n d).isFinite = true ∧ (ofFraction s n d).value ≤ b := by
  rcases hn.eq_or_lt with rfl | hn
  · rw [ofFraction_zero, value_zero]
    exact ⟨rfl,Nat.cast_nonneg b⟩
  · have hpos := abs_pos_fraction hn.ne' hd
    have hx : |(n : ℚ) / d| = n / d := abs_of_nonneg (by positivity)
    obtain ⟨v,hv,hcases⟩ := ofFraction_rounds s hn.ne' hd
    have hle : v ≤ b := hv.le_natCast hpos hb (by rwa [hx])
    rcases hcases with ⟨-,hfin,hval⟩ | ⟨hbig,-⟩
    · rw [hval, if_neg hn.not_gt, one_mul]
      exact ⟨hfin,hle⟩
    · have hb' : (b : ℚ) < 2 ^ (53 : ℤ) := by exact_mod_cast hb
      have hlt : (2 : ℚ) ^ (53 : ℤ) < 2 ^ (1024 : ℤ) := zpow_lt_zpow_right₀ one_lt_two (by decide)
      exact absurd (hbig.trans (hle.trans hb'.le)) hlt.not_ge

theorem ofFraction_nonpos (s : Bool) {n : ℤ} {d : ℕ} (hd : 0 < d) (hn : n ≤ 0) :
    (ofFraction s n d).value ≤ 0 := by
  rcases hn.eq_or_lt with rfl | hn
  · rw [ofFraction_zero, value_zero]
  · obtain ⟨v,hv,⟨-,-,hval⟩ | ⟨-,hinf⟩⟩ := ofFraction_rounds s hn.ne hd
    · rw [hval, if_pos hn]
      linarith [hv.nonneg (abs_nonneg _)]
    · rw [hinf, value_infinite]

/-- A fraction with at most 53 binary places, within the range of exponents, is not rounded. -/
theorem ofFraction_exact (s : Bool) {n k e : ℤ} {d : ℕ} (hd : 0 < d) (hk : k.natAbs < significandBound)
    (he : -1074 ≤ e) (he' : e ≤ 971) (h : (n : ℚ) / d = k * 2 ^ e) :
    (ofFraction s n d).isFinite = true ∧ (ofFraction s n d).value = k * 2 ^ e := by
  have hd' : (0 : ℚ) < d := by exact_mod_cast hd
  have hstep := two_zpow_pos e
  by_cases hn : n = 0
  · rw [← h, hn, ofFraction_zero, value_zero, Int.cast_zero, zero_div]
    exact ⟨rfl,rfl⟩
  · have hk0 : k ≠ 0 := by
      rintro rfl
      rw [Int.cast_zero, zero_mul, div_eq_zero_iff, or_iff_left hd'.ne'] at h
      exact hn (by exact_mod_cast h)
    have habs : |(n : ℚ) / d| = k.natAbs * 2 ^ e := by
      rw [h, abs_mul, abs_of_pos hstep, Nat.cast_natAbs, Int.cast_abs]
    obtain ⟨v,hv,hcases⟩ := ofFraction_rounds s hn hd
    rw [habs] at hv
    obtain rfl := hv.exact (Int.natAbs_pos.mpr hk0) hk he
    rcases hcases with ⟨-,hfin,hval⟩ | ⟨hbig,-⟩
    · refine ⟨hfin,hval.trans ?_⟩
      rw [← habs, ← h]
      by_cases hneg : n < 0
      · rw [if_pos hneg, abs_of_neg (div_neg_of_neg_of_pos (by exact_mod_cast hneg) hd')]
        ring
      · rw [if_neg hneg, abs_of_nonneg (div_nonneg (by exact_mod_cast not_lt.mp hneg) hd'.le), one_mul]
    · have hk' : (k.natAbs : ℚ) < 2 ^ (53 : ℤ) := by exact_mod_cast hk
      have hlast : (2 : ℚ) ^ e ≤ 2 ^ (971 : ℤ) := zpow_le_zpow_right₀ one_le_two he'
      have hlt : (k.natAbs : ℚ) * 2 ^ e < 2 ^ (1024 : ℤ) :=
        calc (k.natAbs : ℚ) * 2 ^ e < 2 ^ (53 : ℤ) * 2 ^ e := mul_lt_mul_of_pos_right hk' hstep
          _ ≤ 2 ^ (53 : ℤ) * 2 ^ (971 : ℤ) := mul_le_mul_of_nonneg_left hlast (two_zpow_pos 53).le
          _ = 2 ^ (1024 : ℤ) := by rw [← zpow_add₀ two_ne_zero]; rfl
      exact absurd hbig hlt.not_ge

/-- Nor is one that is a whole number below `2 ^ 53`. -/
theorem ofFraction_whole (s : Bool) {n k : ℤ} {d : ℕ} (hd : 0 < d) (hk : k.natAbs < significandBound)
    (h : (n : ℚ) / d = k) : (ofFraction s n d).isFinite = true ∧ (ofFraction s n d).value = k := by
  simpa using ofFraction_exact s hd hk (e := 0) (by decide) (by decide) (by simpa using h)

/-- Whole numbers below `2 ^ 53` are numbers. -/
theorem ofInt_natCast {n : ℕ} (hn : n < significandBound) :
    (ofInt n).isFinite = true ∧ (ofInt n).value = n :=
  ofFraction_whole false (k := n) Nat.one_pos hn (by simp)

theorem numerator_nonneg_iff {x : Binary64} : 0 ≤ x.numerator ↔ 0 ≤ x.value := by
  have hd : (0 : ℚ) < x.denominator := by exact_mod_cast x.denominator_pos
  rw [value, le_div_iff₀ hd, zero_mul]
  exact_mod_cast Iff.rfl

theorem isFinite_of_le {a x b : Binary64} (ha : a.isFinite = true) (hb : b.isFinite = true)
    (hax : a.le x = true) (hxb : x.le b = true) : x.isFinite = true := by
  cases x with
  | finite s m e h => rfl
  | nan => exact nomatch hxb
  | infinite s =>
    cases a with
    | nan => exact nomatch ha
    | infinite t => exact nomatch ha
    | finite t n f k =>
      cases b with
      | nan => exact nomatch hb
      | infinite u => exact nomatch hb
      | finite u l g j => cases s with
        | false => exact nomatch hxb
        | true => exact nomatch hax

theorem le_iff_value {x y : Binary64} (hx : x.isFinite = true) (hy : y.isFinite = true) :
    x.le y = true ↔ x.value ≤ y.value := by
  cases x with
  | finite s m e h =>
    cases y with
    | finite t n f k =>
      have h1 : (0 : ℚ) < (Binary64.finite s m e h).denominator := by exact_mod_cast denominator_pos _
      have h2 : (0 : ℚ) < (Binary64.finite t n f k).denominator := by exact_mod_cast denominator_pos _
      rw [Binary64.le, decide_eq_true_eq, value, value, div_le_div_iff₀ h1 h2]
      exact_mod_cast Iff.rfl
    | nan => exact absurd hy Bool.false_ne_true
    | infinite t => exact absurd hy Bool.false_ne_true
  | nan => exact absurd hx Bool.false_ne_true
  | infinite s => exact absurd hx Bool.false_ne_true

theorem not_lt_of_le {x y : Binary64} (h : x.le y = true) : y.lt x = false := by
  cases x with
  | nan => exact nomatch h
  | infinite s =>
    cases y with
    | nan => exact nomatch h
    | infinite t => cases s <;> cases t <;> first | rfl | exact nomatch h
    | finite t n f k => cases s <;> first | rfl | exact nomatch h
  | finite s m e k =>
    cases y with
    | nan => exact nomatch h
    | infinite t => cases t <;> first | rfl | exact nomatch h
    | finite t n f j =>
      simp only [Binary64.le, Binary64.lt, decide_eq_true_eq, decide_eq_false_iff_not, not_lt] at h ⊢
      exact h

theorem isZero_iff_value {x : Binary64} (hx : x.isFinite = true) : x.isZero = true ↔ x.value = 0 := by
  have hd : (x.denominator : ℚ) ≠ 0 := by exact_mod_cast x.denominator_pos.ne'
  rw [isZero, hx, Bool.true_and, beq_iff_eq, value, div_eq_zero_iff, or_iff_left hd]
  exact_mod_cast Iff.rfl

/-- A product is the exact one, rounded. -/
theorem mul_eq_ofFraction {x y : Binary64} (hx : x.isFinite = true) (hy : y.isFinite = true) :
    ∃ s, x * y = ofFraction s (x.numerator * y.numerator) (x.denominator * y.denominator) := by
  cases x with
  | finite s m e h =>
    cases y with
    | finite t n f k => exact ⟨s ^^ t,rfl⟩
    | nan => exact nomatch hy
    | infinite t => exact nomatch hy
  | nan => exact nomatch hx
  | infinite s => exact nomatch hx

theorem product_value (x y : Binary64) :
    ((x.numerator * y.numerator : ℤ) : ℚ) / ((x.denominator * y.denominator : ℕ) : ℚ) =
      x.value * y.value := by
  rw [value, value, div_mul_div_comm]
  push_cast
  rfl

theorem div_eq_ofFraction {x y : Binary64} (hx : x.isFinite = true) (hy : y.isFinite = true)
    (hzero : y.value ≠ 0) :
    ∃ s, x / y = ofFraction s (x.numerator * y.denominator * y.numerator.sign)
      (x.denominator * y.numerator.natAbs) := by
  have hz := mt (isZero_iff_value hy).mp hzero
  cases x with
  | finite s m e h =>
    cases y with
    | finite t n f k => exact ⟨s ^^ t,if_neg hz⟩
    | nan => exact nomatch hy
    | infinite t => exact nomatch hy
  | nan => exact nomatch hx
  | infinite s => exact nomatch hx

theorem quotient_value {x y : Binary64} (hzero : y.value ≠ 0) :
    ((x.numerator * y.denominator * y.numerator.sign : ℤ) : ℚ) /
      ((x.denominator * y.numerator.natAbs : ℕ) : ℚ) = x.value / y.value := by
  have hn : (y.numerator : ℚ) ≠ 0 := fun h => hzero (by rw [value, h, zero_div])
  have hn' : y.numerator ≠ 0 := by exact_mod_cast hn
  have hx : (x.denominator : ℚ) ≠ 0 := by exact_mod_cast x.denominator_pos.ne'
  have hy : (y.denominator : ℚ) ≠ 0 := by exact_mod_cast y.denominator_pos.ne'
  have hsign : (y.numerator.sign : ℚ) * y.numerator = y.numerator.natAbs := by
    rw [Nat.cast_natAbs]
    exact_mod_cast Int.sign_mul_self_eq_abs _
  have habs : (y.numerator.natAbs : ℚ) ≠ 0 := by exact_mod_cast (Int.natAbs_pos.mpr hn').ne'
  rw [value, value, div_div_div_eq, div_eq_div_iff (by push_cast; positivity) (mul_ne_zero hx hn)]
  push_cast at hsign ⊢
  rw [← hsign]
  ring

theorem mul_le_two_zpow {x y : Binary64} (hx : x.isFinite = true) (hy : y.isFinite = true) {k : ℤ}
    (hk : -1074 ≤ k) (hk' : k < 1024) (h : |x.value * y.value| ≤ 2 ^ k) :
    (x * y).isFinite = true ∧ |(x * y).value| ≤ 2 ^ k := by
  obtain ⟨s,hs⟩ := mul_eq_ofFraction hx hy
  rw [hs]
  refine ofFraction_le_two_zpow s (Nat.mul_pos x.denominator_pos y.denominator_pos) hk hk' ?_
  rwa [product_value]

theorem div_le_two_zpow {x y : Binary64} (hx : x.isFinite = true) (hy : y.isFinite = true)
    (hzero : y.value ≠ 0) {k : ℤ} (hk : -1074 ≤ k) (hk' : k < 1024) (h : |x.value / y.value| ≤ 2 ^ k) :
    (x / y).isFinite = true ∧ |(x / y).value| ≤ 2 ^ k := by
  obtain ⟨s,hs⟩ := div_eq_ofFraction hx hy hzero
  have hn : y.numerator ≠ 0 := fun h => hzero (by rw [value, h, Int.cast_zero, zero_div])
  rw [hs]
  refine ofFraction_le_two_zpow s (Nat.mul_pos x.denominator_pos (Int.natAbs_pos.mpr hn)) hk hk' ?_
  rwa [quotient_value hzero]

/-- A product of numbers that are not negative keeps a whole bound of the exact one. -/
theorem mul_le_natCast {x y : Binary64} (hx : x.isFinite = true) (hy : y.isFinite = true)
    (hx0 : 0 ≤ x.value) (hy0 : 0 ≤ y.value) {b : ℕ} (hb : b < significandBound)
    (h : x.value * y.value ≤ b) :
    (x * y).isFinite = true ∧ 0 ≤ (x * y).value ∧ (x * y).value ≤ b := by
  obtain ⟨s,hs⟩ := mul_eq_ofFraction hx hy
  have hd := Nat.mul_pos x.denominator_pos y.denominator_pos
  have hn := Int.mul_nonneg (numerator_nonneg_iff.mpr hx0) (numerator_nonneg_iff.mpr hy0)
  rw [← product_value] at h
  obtain ⟨hfin,hle⟩ := ofFraction_le_natCast s hd hn hb h
  rw [hs]
  exact ⟨hfin,ofFraction_nonneg s hd hn,hle⟩

end Binary64
end Flextime

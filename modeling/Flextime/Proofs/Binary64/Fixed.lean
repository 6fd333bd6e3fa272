import Flextime.Binary64.Fixed
import Flextime.Proofs.Binary64.Error
import Flextime.Proofs.Text.Decimal

/-! # Fixed places

A number in fixed places is a whole number of units of the last place, the nearest one and at a tie the even one.
Its text has the digits of that whole number, with a point in front of the last places.
-/
namespace Flextime
open Text

/-- The whole number nearest to `q`, and of two the even one. -/
def IsNearestEven (q : ℚ) (k : ℕ) : Prop := 2 * |q - k| ≤ 1 ∧ (2 * |q - k| = 1 → k % 2 = 0)

theorem IsNearestEven.mono {q r : ℚ} {j k : ℕ} (hj : IsNearestEven q j) (hk : IsNearestEven r k) (h : q ≤ r) :
    j ≤ k := by
  obtain ⟨hnear,heven⟩ := hj
  obtain ⟨hnear',heven'⟩ := hk
  have hle : (j : ℤ) ≤ k := Binary64.nearest_even_le h (by exact_mod_cast hnear) (by exact_mod_cast heven)
    (by exact_mod_cast hnear') (by exact_mod_cast heven')
  exact_mod_cast hle

theorem isNearestEven_natCast (k : ℕ) : IsNearestEven k k := by simp [IsNearestEven]

theorem IsNearestEven.eq_zero {k : ℕ} (h : IsNearestEven 0 k) : k = 0 := by
  have hk : 2 * (k : ℚ) ≤ 1 := by simpa [abs_sub_comm] using h.1
  have hk' : 2 * k ≤ 1 := by exact_mod_cast hk
  omega

/-- The text of `k` units of the last of `n` places: digits of the whole part, without zeros that are not needed,
and behind a point those of the places, when there are any. -/
def IsDecimalText (n k : ℕ) (cs : List Char) : Prop :=
  ∃ whole fraction, cs = whole ++ (if n = 0 then [] else '.' :: fraction) ∧ fraction.length = n ∧
    (∀ c ∈ whole ++ fraction, isDigit c = true) ∧ natOfDigits (whole ++ fraction) = k ∧ whole ≠ [] ∧
    ∀ rest, whole = '0' :: rest → rest = []

/-- The units are known from the text. -/
theorem IsDecimalText.unique {n j k : ℕ} {cs : List Char} (hj : IsDecimalText n j cs) (hk : IsDecimalText n k cs) :
    j = k := by
  obtain ⟨whole,fraction,rfl,hlength,-,rfl,-⟩ := hj
  obtain ⟨whole',fraction',hcs,hlength',-,rfl,-⟩ := hk
  by_cases hn : n = 0
  · rw [if_pos hn, if_pos hn, List.append_nil, List.append_nil] at hcs
    rw [hn] at hlength hlength'
    rw [hcs, List.length_eq_zero_iff.mp hlength, List.length_eq_zero_iff.mp hlength']
  · rw [if_neg hn, if_neg hn] at hcs
    obtain ⟨hwhole,hrest⟩ := List.append_inj' hcs (by simp [hlength, hlength'])
    rw [hwhole, (List.cons.inj hrest).2]

theorem tenTo_eq (n : ℕ) : tenTo n = 10 ^ n := rfl

theorem toString_leadingZero {n : ℕ} {rest : List Char} (h : (toString n).toList = '0' :: rest) : rest = [] := by
  by_contra hne
  have hlength : (toString n).length = rest.length + 1 := by rw [← String.length_toList, h, List.length_cons]
  have hvalue : natOfDigits rest = n := by
    rw [← natOfDigits_toString n, h]
    rfl
  have hdigits : ∀ c ∈ rest, isDigit c = true := fun c hc =>
    isDigit_of_mem_toString (n := n) (h ▸ List.mem_cons_of_mem _ hc)
  have hlt := natOfDigits_lt hdigits
  rw [hvalue] at hlt
  have hle := (Nat.length_repr_le_iff (List.length_pos_iff.mpr hne)).mpr hlt
  rw [Nat.toString_eq_repr] at hlength
  omega

namespace Binary64

theorem isDecimalText_placesText (n k : ℕ) : IsDecimalText n k (placesText n k).toList := by
  refine ⟨(toString (k / 10 ^ n)).toList,if n = 0 then [] else (padded n (k % 10 ^ n)).toList,?_,?_,?_,?_,?_,?_⟩
  · by_cases hn : n = 0
    · simp [placesText, tenTo_eq, hn]
    · simp [placesText, tenTo_eq, hn]
  · by_cases hn : n = 0
    · simp [hn]
    · rw [if_neg hn]
      exact length_padded (Nat.pos_of_ne_zero hn) (Nat.mod_lt _ (Nat.pow_pos (by decide)))
  · refine List.forall_mem_append.mpr ⟨fun _ => isDigit_of_mem_toString,?_⟩
    by_cases hn : n = 0
    · simp [hn]
    · rw [if_neg hn]
      exact fun _ => isDigit_of_mem_padded
  · by_cases hn : n = 0
    · rw [if_pos hn, List.append_nil, natOfDigits_toString, hn, pow_zero, Nat.div_one]
    · rw [if_neg hn, natOfDigits_append, natOfDigits_toString, natOfDigits_padded,
        length_padded (Nat.pos_of_ne_zero hn) (Nat.mod_lt _ (Nat.pow_pos (by decide))), Nat.div_add_mod]
  · rw [Nat.toString_eq_repr, Nat.toList_repr]
    exact Nat.toDigits_ne_nil
  · exact fun rest => toString_leadingZero

/-- A number in fixed places is rounded once, to the nearest whole number of units. -/
theorem isNearestEven_scaled (n : ℕ) (x : Binary64) : IsNearestEven (|x.value| * 10 ^ n) (x.scaled n) := by
  have hd := x.denominator_pos
  obtain ⟨hnear,heven⟩ := divNearest_quotient (x.numerator.natAbs * tenTo n : ℕ) hd
  obtain ⟨m,hm⟩ := Int.eq_ofNat_of_zero_le
    (le_divNearest (n := (x.numerator.natAbs * tenTo n : ℕ)) hd (c := 0) (by rw [zero_mul]; exact Int.natCast_nonneg _))
  have hscaled : x.scaled n = m := by rw [scaled, hm, Int.toNat_natCast]
  have hvalue : (((x.numerator.natAbs * tenTo n : ℕ) : ℤ) : ℚ) / x.denominator = |x.value| * 10 ^ n := by
    have habs : ((x.numerator.natAbs : ℕ) : ℚ) = |(x.numerator : ℚ)| := by rw [Nat.cast_natAbs, Int.cast_abs]
    rw [value, abs_div, Nat.abs_cast, tenTo_eq, Int.cast_natCast, Nat.cast_mul, habs, Nat.cast_pow, Nat.cast_ofNat]
    ring
  rw [hm, hvalue] at hnear heven
  rw [hscaled]
  exact ⟨by exact_mod_cast hnear,fun h => by exact_mod_cast heven (by exact_mod_cast h)⟩

theorem scaled_eq_zero {n : ℕ} {x : Binary64} (h : x.value = 0) : x.scaled n = 0 := by
  have hnear := isNearestEven_scaled n x
  rw [h, abs_zero, zero_mul] at hnear
  exact hnear.eq_zero

theorem scaled_abs (n : ℕ) (x : Binary64) : x.abs.scaled n = x.scaled n := by
  cases x with
  | nan => rfl
  | infinite s => rfl
  | finite s m e h => cases s <;> simp [scaled, Binary64.abs, numerator, denominator]

end Binary64
end Flextime

import Flextime.Text.Digits
import Mathlib.Algebra.Order.Ring.Nat
import Mathlib.Data.List.Induction

/-! # Numbers in decimal digits

A number is found again from its digits, with or without zeros in front. The other way round, digits are known
from their number and their count.
-/
namespace Flextime.Text

theorem natOfDigits_eq (cs : List Char) : natOfDigits cs = Nat.ofDigitChars 10 cs 0 := rfl

theorem natOfDigits_append (cs ds : List Char) :
    natOfDigits (cs ++ ds) = 10 ^ ds.length * natOfDigits cs + natOfDigits ds := by
  rw [natOfDigits_eq, Nat.ofDigitChars_append, Nat.ofDigitChars_eq_ofDigitChars_zero]
  rfl

theorem natOfDigits_concat (cs : List Char) (c : Char) :
    natOfDigits (cs ++ [c]) = 10 * natOfDigits cs + digitValue c := by
  simp [natOfDigits]

theorem isDigit_iff {c : Char} : isDigit c = true ↔ 48 ≤ c.toNat ∧ c.toNat ≤ 57 := by
  rw [isDigit, Bool.and_eq_true, decide_eq_true_eq, decide_eq_true_eq]
  exact Iff.rfl

theorem digitValue_le {c : Char} (h : isDigit c = true) : digitValue c ≤ 9 := by
  have hc := isDigit_iff.mp h
  unfold digitValue
  omega

theorem digitValue_inj {c d : Char} (hc : isDigit c = true) (hd : isDigit d = true)
    (h : digitValue c = digitValue d) : c = d := by
  have hc' := isDigit_iff.mp hc
  have hd' := isDigit_iff.mp hd
  unfold digitValue at h
  apply Char.toNat_inj.mp
  omega

theorem natOfDigits_lt {cs : List Char} (h : ∀ c ∈ cs, isDigit c = true) : natOfDigits cs < 10 ^ cs.length := by
  induction cs using List.reverseRecOn with
  | nil => decide
  | append_singleton cs c ih =>
    have hcs := ih fun d hd => h d (List.mem_append_left _ hd)
    have hc := digitValue_le (h c (by simp))
    rw [natOfDigits_concat, List.length_append, List.length_singleton, Nat.pow_succ]
    omega

theorem natOfDigits_cons (c : Char) (cs : List Char) :
    natOfDigits (c :: cs) = 10 ^ cs.length * digitValue c + natOfDigits cs := by
  have happend := natOfDigits_append [c] cs
  rwa [List.singleton_append, show natOfDigits [c] = digitValue c from by simp [natOfDigits]] at happend

/-- The zeros in front apart, the digits of a number are as many as it needs. -/
theorem length_dropWhile_le_iff {cs : List Char} (h : ∀ c ∈ cs, isDigit c = true) {m : Nat} :
    (cs.dropWhile (· == '0')).length ≤ m ↔ natOfDigits cs < 10 ^ m := by
  induction cs with
  | nil => simp [natOfDigits]
  | cons d ds ih =>
    obtain ⟨hd,hds⟩ := List.forall_mem_cons.mp h
    by_cases hzero : d = '0'
    · have hvalue : natOfDigits (d :: ds) = natOfDigits ds := by
        rw [natOfDigits_cons, hzero]
        simp [digitValue]
      rw [List.dropWhile_cons_of_pos (by simp [hzero]), hvalue]
      exact ih hds
    · have hpos : 1 ≤ digitValue d := by
        refine Nat.one_le_iff_ne_zero.mpr fun hvalue => hzero ?_
        exact digitValue_inj hd (by decide) hvalue
      have hlow : 10 ^ ds.length ≤ natOfDigits (d :: ds) := by
        rw [natOfDigits_cons]
        exact (Nat.le_mul_of_pos_right _ hpos).trans (Nat.le_add_right _ _)
      have hhigh := natOfDigits_lt h
      rw [List.dropWhile_cons_of_neg (by simp [hzero])]
      constructor
      · exact fun hle => hhigh.trans_le (Nat.pow_le_pow_right (by decide) hle)
      · exact fun hlt => (Nat.pow_lt_pow_iff_right (by decide)).mp (hlow.trans_lt hlt)

/-- Digits are known from their number and their count. -/
theorem natOfDigits_inj {cs ds : List Char} (hcs : ∀ c ∈ cs, isDigit c = true) (hds : ∀ d ∈ ds, isDigit d = true)
    (hlength : cs.length = ds.length) (h : natOfDigits cs = natOfDigits ds) : cs = ds := by
  induction cs using List.reverseRecOn generalizing ds with
  | nil => exact (List.length_eq_zero_iff.mp hlength.symm).symm
  | append_singleton cs c ih =>
    cases ds using List.reverseRecOn with
    | nil => simp at hlength
    | append_singleton ds d =>
      have hc := hcs c (by simp)
      have hd := hds d (by simp)
      have hc9 := digitValue_le hc
      have hd9 := digitValue_le hd
      rw [natOfDigits_concat, natOfDigits_concat] at h
      have hlast : c = d := digitValue_inj hc hd (by omega)
      have hfront : cs = ds := ih (fun e he => hcs e (List.mem_append_left _ he))
        (fun e he => hds e (List.mem_append_left _ he)) (by simpa using hlength) (by omega)
      rw [hlast, hfront]

theorem natOfDigits_toString (n : Nat) : natOfDigits (toString n).toList = n := by
  rw [Nat.toString_eq_repr, Nat.toList_repr, natOfDigits_eq, Nat.ofDigitChars_ten_toDigits]

theorem isDigit_of_mem_toString {n : Nat} {c : Char} (h : c ∈ (toString n).toList) : isDigit c = true := by
  rw [Nat.toString_eq_repr, Nat.toList_repr] at h
  have hc := Nat.isDigit_of_mem_toDigits (by decide) (by decide) h
  rw [Char.isDigit, Bool.and_eq_true, decide_eq_true_eq, decide_eq_true_eq] at hc
  exact isDigit_iff.mpr hc

theorem toList_padded (width n : Nat) :
    (padded width n).toList = List.replicate (width - (toString n).length) '0' ++ (toString n).toList := by
  simp [padded, zeros]

theorem natOfDigits_padded (width n : Nat) : natOfDigits (padded width n).toList = n := by
  rw [toList_padded, natOfDigits_append, natOfDigits_toString, natOfDigits_eq, Nat.ofDigitChars_replicate_zero]
  omega

theorem isDigit_of_mem_padded {width n : Nat} {c : Char} (h : c ∈ (padded width n).toList) : isDigit c = true := by
  rw [toList_padded, List.mem_append] at h
  rcases h with h | h
  · rw [List.eq_of_mem_replicate h]
    decide
  · exact isDigit_of_mem_toString h

theorem length_padded {width n : Nat} (hwidth : 0 < width) (hn : n < 10 ^ width) :
    (padded width n).toList.length = width := by
  have hle : (toString n).length ≤ width := by
    rw [Nat.toString_eq_repr]
    exact (Nat.length_repr_le_iff hwidth).mpr hn
  rw [toList_padded, List.length_append, List.length_replicate, String.length_toList]
  omega

/-- Digits are written again from their number when zeros are put in front up to their count. -/
theorem padded_natOfDigits {ds : List Char} (hds : ∀ d ∈ ds, isDigit d = true) (hne : ds ≠ []) :
    (padded ds.length (natOfDigits ds)).toList = ds :=
  natOfDigits_inj (fun _ hc => isDigit_of_mem_padded hc) hds
    (length_padded (List.length_pos_iff.mpr hne) (natOfDigits_lt hds)) (natOfDigits_padded _ _)

end Flextime.Text

import Flextime.Intake.Numeral
import Flextime.Proofs.Binary64.Fixed
import Mathlib.Data.List.TakeWhile

/-! # Reading fixed places

The text of a number in fixed places, with a sign in front of it, is read as that number of units of the last place.
-/
namespace Flextime
open Text

namespace Text

theorem isDigit_point : isDigit '.' = false := by decide

theorem isBlank_of_isDigit {c : Char} (h : isDigit c = true) : isBlank c = false := by
  have hc := isDigit_iff.mp h
  simp [isBlank]
  omega

theorem trim_of_not_blank {cs : List Char} (h : ∀ c ∈ cs, isBlank c = false) : trim cs = cs := by
  have hdrop : ∀ ds : List Char, (∀ c ∈ ds, isBlank c = false) → ds.dropWhile isBlank = ds := by
    intro ds hds
    cases ds with
    | nil => rfl
    | cons d ds => rw [List.dropWhile_cons_of_neg (by simp [hds d List.mem_cons_self])]
  rw [trim, hdrop cs h, hdrop cs.reverse fun c hc => h c (List.mem_reverse.mp hc), List.reverse_reverse]

theorem takeDigits_append_point {ds : List Char} (h : ∀ d ∈ ds, isDigit d = true) (rest : List Char) :
    takeDigits (ds ++ '.' :: rest) = (ds,'.' :: rest) := by
  rw [takeDigits, List.takeWhile_append_of_pos h, List.dropWhile_append_of_pos h,
    List.takeWhile_cons_of_neg (by simp [isDigit_point]), List.dropWhile_cons_of_neg (by simp [isDigit_point]),
    List.append_nil]

theorem takeDigits_all {ds : List Char} (h : ∀ d ∈ ds, isDigit d = true) : takeDigits ds = (ds,[]) := by
  have hfront : (ds ++ []).takeWhile isDigit = ds ++ [] := List.takeWhile_append_of_pos h
  rw [List.append_nil] at hfront
  rw [takeDigits, hfront, List.dropWhile_eq_nil_iff.mpr h]

end Text

namespace Intake

/-- What begins with a digit is no word. -/
theorem lower_ne {c d : Char} {cs ds : List Char} (hc : isDigit c = true) (hd : isDigit d = false) :
    lower (c :: cs) ≠ String.ofList (d :: ds) := by
  intro h
  have hlist := congrArg String.toList h
  simp only [lower, List.map_cons, String.toList_ofList] at hlist
  have hlow : c.toLower = c := by
    apply dif_neg
    rintro ⟨hupper,-⟩
    have hcode : 65 ≤ c.toNat := UInt32.le_iff_toNat_le.mp hupper
    have hrange := isDigit_iff.mp hc
    omega
  rw [← (List.cons.inj hlist).1, hlow, hc] at hd
  exact Bool.noConfusion hd

theorem decimal?_eq {n k : Nat} {cs : List Char} (h : IsDecimalText n k cs) (negative : Bool) :
    decimal? negative cs = some (Binary64.ofDecimal negative k (-n)) := by
  obtain ⟨whole,fraction,rfl,hlength,hdigits,rfl,hne,-⟩ := h
  obtain ⟨hwhole,hfraction⟩ := List.forall_mem_append.mp hdigits
  have hempty : whole.isEmpty = false := by simp [hne]
  by_cases hn : n = 0
  · obtain rfl : fraction = [] := List.length_eq_zero_iff.mp (hlength.trans hn)
    rw [if_pos hn, List.append_nil]
    simp [decimal?, takeDigits_all hwhole, hempty, exponent?, Binary64.ofDigits, hn]
  · rw [if_neg hn]
    simp [decimal?, takeDigits_append_point hwhole, takeDigits_all hfraction, hempty, exponent?, Binary64.ofDigits,
      hlength]

theorem not_blank_of_isDecimalText {n k : Nat} {cs : List Char} (h : IsDecimalText n k cs) :
    ∀ c ∈ cs, isBlank c = false := by
  obtain ⟨whole,fraction,rfl,-,hdigits,-⟩ := h
  obtain ⟨hwhole,hfraction⟩ := List.forall_mem_append.mp hdigits
  refine List.forall_mem_append.mpr ⟨fun c hc => isBlank_of_isDigit (hwhole c hc),?_⟩
  by_cases hn : n = 0
  · simp [hn]
  · rw [if_neg hn]
    exact List.forall_mem_cons.mpr ⟨by decide,fun c hc => isBlank_of_isDigit (hfraction c hc)⟩

/-- A sign and fixed places are a number. -/
theorem number?_signed {n k : Nat} {cs : List Char} (h : IsDecimalText n k cs) (negative : Bool) :
    number? (String.ofList ((if negative then '-' else '+') :: cs)) =
      some (Binary64.ofDecimal negative k (-n)) := by
  have hsign : ∀ c ∈ (if negative then '-' else '+') :: cs, isBlank c = false :=
    List.forall_mem_cons.mpr ⟨by cases negative <;> decide,not_blank_of_isDecimalText h⟩
  have hfirst : ∃ c rest, cs = c :: rest ∧ isDigit c = true := by
    obtain ⟨whole,fraction,rfl,-,hdigits,-,hne,-⟩ := h
    obtain ⟨c,rest,rfl⟩ := List.exists_cons_of_ne_nil hne
    exact ⟨c,_,rfl,hdigits c (by simp)⟩
  have hplain : plainNumber? ((if negative then '-' else '+') :: cs) =
      some (Binary64.ofDecimal negative k (-n)) := by
    have hread := decimal?_eq h negative
    obtain ⟨c,rest,rfl,hc⟩ := hfirst
    have hnan : lower (c :: rest) ≠ "nan" := lower_ne hc (by decide : isDigit 'n' = false)
    have hinf : lower (c :: rest) ≠ "inf" := lower_ne hc (by decide : isDigit 'i' = false)
    have hinfinity : lower (c :: rest) ≠ "infinity" := lower_ne hc (by decide : isDigit 'i' = false)
    cases negative <;> simpa [plainNumber?, sign, hnan, hinf, hinfinity] using hread
  rw [number?, String.toList_ofList, trim_of_not_blank hsign, hplain]

end Intake
end Flextime

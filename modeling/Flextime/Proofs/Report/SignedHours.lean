import Flextime.Proofs.Binary64.Decimal
import Flextime.Proofs.Intake.Numeral
import Flextime.Proofs.Outcome
import Flextime.Report.Format

/-! # Signed hours

Hours are shown in fixed places with a sign in front, a minus only when the number that is shown is below zero. To
find that out the text is read back, which fails for a text of too many digits and for no other.
-/
namespace Flextime
namespace Binary64

theorem isNegative_iff_value {x : Binary64} (hx : x.isFinite = true) (hzero : x.value ≠ 0) :
    x.isNegative = true ↔ x.value < 0 := by
  cases x with
  | nan => exact nomatch hx
  | infinite s => exact nomatch hx
  | finite s m e h =>
    rw [value_finite] at hzero ⊢
    have hmagnitude : (0 : ℚ) ≤ m * 2 ^ e := mul_nonneg (Nat.cast_nonneg m) (two_zpow_pos e).le
    cases s with
    | false => simpa [isNegative] using hmagnitude
    | true =>
      have hpos : (0 : ℚ) < m * 2 ^ e := lt_of_le_of_ne hmagnitude (by simpa [eq_comm] using hzero)
      simpa [isNegative] using hpos

theorem magnitudeText_of_isFinite {x : Binary64} (hx : x.isFinite = true) (n : ℕ) :
    x.magnitudeText n = placesText n (x.scaled n) := by
  cases x with
  | nan => exact nomatch hx
  | infinite s => exact nomatch hx
  | finite s m e h => rfl

theorem fixedText_abs (n : ℕ) (x : Binary64) : x.abs.fixedText n = x.magnitudeText n := by
  cases x with
  | nan => rfl
  | infinite s => rfl
  | finite s m e h =>
    have hscaled := scaled_abs n (.finite s m e h)
    simpa [fixedText, magnitudeText, Binary64.abs, isNegative] using congrArg (placesText n) hscaled

/-- The number that is shown of a finite one: units of the last of `n` places, with the sign in front. -/
def shown (n : ℕ) (x : Binary64) : ℚ := (if x.value < 0 then -1 else 1) * (x.scaled n / 10 ^ n)

section
variable {x y : Binary64} {n : ℕ}

theorem abs_shown : |x.shown n| = x.scaled n / 10 ^ n := by
  have hunits : (0 : ℚ) ≤ x.scaled n / 10 ^ n := by positivity
  rw [shown, abs_mul, abs_of_nonneg hunits]
  split <;> simp

theorem shown_nonneg (h : 0 ≤ x.value) : 0 ≤ x.shown n := by
  rw [shown, if_neg (not_lt.mpr h), one_mul]
  positivity

theorem shown_nonpos (h : x.value ≤ 0) : x.shown n ≤ 0 := by
  rcases h.lt_or_eq with hneg | hzero
  · rw [shown, if_pos hneg, neg_one_mul]
    exact neg_nonpos.mpr (by positivity)
  · rw [shown, scaled_eq_zero hzero]
    simp

theorem shown_neg_iff : x.shown n < 0 ↔ x.value < 0 ∧ x.scaled n ≠ 0 := by
  constructor
  · intro h
    refine ⟨not_le.mp fun hvalue => absurd h (not_lt.mpr (shown_nonneg hvalue)),fun hscaled => ?_⟩
    rw [shown, hscaled] at h
    simp at h
  · rintro ⟨hvalue,hscaled⟩
    have hunits : (0 : ℚ) < x.scaled n := by exact_mod_cast Nat.pos_of_ne_zero hscaled
    rw [shown, if_pos hvalue, neg_one_mul]
    exact neg_neg_of_pos (by positivity)

/-- Of two numbers with one sign, the one farther from zero is shown farther from zero. -/
theorem scaled_mono (h : |x.value| ≤ |y.value|) : (x.scaled n / 10 ^ n : ℚ) ≤ y.scaled n / 10 ^ n := by
  have hscaled : x.scaled n ≤ y.scaled n :=
    (isNearestEven_scaled n x).mono (isNearestEven_scaled n y) (mul_le_mul_of_nonneg_right h (by positivity))
  exact div_le_div_of_nonneg_right (by exact_mod_cast hscaled) (by positivity)

theorem shown_mono (h : x.value ≤ y.value) : x.shown n ≤ y.shown n := by
  rcases lt_or_ge y.value 0 with hy | hy
  · have hx := h.trans_lt hy
    rw [shown, shown, if_pos hx, if_pos hy, neg_one_mul, neg_one_mul, neg_le_neg_iff]
    apply scaled_mono
    rw [abs_of_neg hx, abs_of_neg hy]
    exact neg_le_neg h
  · rcases lt_or_ge x.value 0 with hx | hx
    · exact (shown_nonpos hx.le).trans (shown_nonneg hy)
    · rw [shown, shown, if_neg (not_lt.mpr hx), if_neg (not_lt.mpr hy), one_mul, one_mul]
      apply scaled_mono
      rwa [abs_of_nonneg hx, abs_of_nonneg hy]

theorem scaled_div_le {b : ℕ} (h : |x.value| ≤ b) (n : ℕ) : x.scaled n / 10 ^ n ≤ b := by
  have hbound : |x.value| * 10 ^ n ≤ (b * 10 ^ n : ℕ) := by
    push_cast
    exact mul_le_mul_of_nonneg_right h (by positivity)
  have hscaled := (isNearestEven_scaled n x).mono (isNearestEven_natCast _) hbound
  exact Nat.div_le_of_le_mul (by rwa [mul_comm])

end
end Binary64

namespace Report
open Binary64

/-- The text says `q` in `n` places behind a sign. -/
def Shows (n : ℕ) (text : String) (q : ℚ) : Prop :=
  ∃ sign k cs, text.toList = sign :: cs ∧ IsDecimalText n k cs ∧
    (sign = '+' ∧ q = k / 10 ^ n ∨ sign = '-' ∧ q = -(k / 10 ^ n))

/-- A text says only one number. -/
theorem Shows.unique {n : ℕ} {text : String} {q r : ℚ} (hq : Shows n text q) (hr : Shows n text r) : q = r := by
  obtain ⟨sign,j,cs,htext,hj,hsign⟩ := hq
  obtain ⟨sign',k,cs',htext',hk,hsign'⟩ := hr
  obtain ⟨rfl,rfl⟩ := List.cons.inj (htext.symm.trans htext')
  obtain rfl := hj.unique hk
  rcases hsign with ⟨rfl,rfl⟩ | ⟨rfl,rfl⟩
  · exact ((hsign'.resolve_right (by simp)).2).symm
  · exact ((hsign'.resolve_left (by simp)).2).symm

/-- A finite number is shown in few enough digits to be read back: its places, and those in front of the point
when they are not a zero alone. What is not finite is shown as a word, which is read back. -/
def IsReadBack (n : ℕ) (x : Binary64) : Prop :=
  x.isFinite = true → n ≤ longestReadBack ∧ x.scaled n / 10 ^ n < 10 ^ (longestReadBack - n)

theorem isReadBack_of_not_isFinite {x : Binary64} (hx : x.isFinite = false) (n : ℕ) : IsReadBack n x :=
  fun hfin => nomatch hx.symm.trans hfin

/-- Up to some hundred places below the limit every number is read back. -/
theorem isReadBack_of_le {n : ℕ} (h : n + 309 ≤ longestReadBack) (x : Binary64) : IsReadBack n x := by
  intro hx
  have hvalue : |x.value| ≤ (2 ^ 1024 : ℕ) := by
    rw [Nat.cast_pow]
    exact (abs_value_lt hx).le
  obtain ⟨m,hm,hdigits⟩ : ∃ m, m ≤ longestReadBack - n ∧ 2 ^ 1024 < 10 ^ m := ⟨309,by omega,by decide +kernel⟩
  refine ⟨by omega,?_⟩
  calc x.scaled n / 10 ^ n ≤ 2 ^ 1024 := scaled_div_le hvalue n
    _ < 10 ^ m := hdigits
    _ ≤ 10 ^ (longestReadBack - n) := Nat.pow_le_pow_right (by decide) hm

/-- A sign apart, the digits that count are the places and those of a whole part that is not zero. -/
theorem countedDigits_le_iff {n k m : ℕ} {cs : List Char} (h : IsDecimalText n k cs) (sign : Char) :
    countedDigits (String.ofList (sign :: cs)) ≤ m ↔ n ≤ m ∧ k / 10 ^ n < 10 ^ (m - n) := by
  obtain ⟨whole,fraction,rfl,hlength,hdigits,rfl,-⟩ := h
  obtain ⟨hwhole,hfraction⟩ := List.forall_mem_append.mp hdigits
  have hcounted : countedDigits (String.ofList (sign :: (whole ++ if n = 0 then [] else '.' :: fraction))) =
      (whole.dropWhile (· == '0')).length + n := by
    by_cases hn : n = 0
    · have hnone : Text.takeDigits [] = ([],[]) := rfl
      simp [countedDigits, hn, Text.takeDigits_all hwhole, hnone]
    · simp [countedDigits, hn, Text.takeDigits_append_point hwhole, Text.takeDigits_all hfraction, hlength]
  have hquot : Text.natOfDigits (whole ++ fraction) / 10 ^ n = Text.natOfDigits whole := by
    rw [Text.natOfDigits_append, hlength, Nat.mul_add_div (Nat.pow_pos (by decide)),
      Nat.div_eq_of_lt (hlength ▸ Text.natOfDigits_lt hfraction), add_zero]
  have hsplit : (whole.dropWhile (· == '0')).length + n ≤ m ↔
      n ≤ m ∧ (whole.dropWhile (· == '0')).length ≤ m - n := by omega
  rw [hcounted, hquot, hsplit, Text.length_dropWhile_le_iff hwhole]

/-- The numbers of places that a number can be written with. -/
def Writable (n : Int) : Prop := 0 ≤ n ∧ n ≤ 2147483647

theorem places_of_writable {n : Int} (h : Writable n) : places n = .ok n.toNat := by
  obtain ⟨hlow,hhigh⟩ := h
  rw [places, if_neg (by omega), if_neg (by omega)]

theorem exists_places_iff {n : Int} : (∃ k, places n = .ok k) ↔ Writable n := by
  refine ⟨?_,fun h => ⟨_,places_of_writable h⟩⟩
  rintro ⟨k,hk⟩
  unfold places at hk
  split at hk
  · exact nomatch hk
  · split at hk
    · exact nomatch hk
    · exact ⟨by omega,by omega⟩

theorem signedText_eq_ofList (n : ℕ) (x : Binary64) :
    x.signedText n = String.ofList ((if x.isNegative then '-' else '+') :: (x.magnitudeText n).toList) := by
  apply String.toList_inj.mp
  rw [signedText, String.toList_append, String.toList_ofList]
  split <;> rfl

section
variable {x : Binary64} {n : ℕ}

/-- What is no number in digits is read back as it stands. -/
theorem repaired?_of_not_isFinite (hx : x.isFinite = false) : repaired? (x.signedText n) = some (x.signedText n) := by
  cases x with
  | nan => exact (by decide +kernel : repaired? "+nan" = some "+nan")
  | infinite s =>
    cases s with
    | false => exact (by decide +kernel : repaired? "+inf" = some "+inf")
    | true => exact (by decide +kernel : repaired? "-inf" = some "-inf")
  | finite s m e h => exact nomatch hx

theorem isDecimalText_magnitudeText (hx : x.isFinite = true) (n : ℕ) :
    IsDecimalText n (x.scaled n) (x.magnitudeText n).toList := by
  rw [magnitudeText_of_isFinite hx]
  exact isDecimalText_placesText n _

theorem countedDigits_signedText_le_iff (hx : x.isFinite = true) :
    countedDigits (x.signedText n) ≤ longestReadBack ↔ IsReadBack n x := by
  rw [signedText_eq_ofList, countedDigits_le_iff (isDecimalText_magnitudeText hx n)]
  exact ⟨fun h _ => h,fun h => h hx⟩

/-- Reading back what was written finds the numbers of which only zeros are shown. -/
theorem repaired?_of_isFinite (hx : x.isFinite = true) (h : IsReadBack n x) :
    repaired? (x.signedText n) = some ((if x.shown n < 0 then "-" else "+") ++ x.magnitudeText n) := by
  have hread := Intake.number?_signed (isDecimalText_magnitudeText hx n) x.isNegative
  have hshort := (countedDigits_signedText_le_iff hx).mpr h
  rw [← signedText_eq_ofList] at hread
  rw [repaired?, readBack?, if_neg (by omega), hread, Option.map_some]
  congr 1
  by_cases hzero : x.scaled n = 0
  · rw [if_pos ((isZero_ofDecimal_iff hx _ n).mpr hzero), if_neg fun hneg => (shown_neg_iff.mp hneg).2 hzero,
      signedText_eq_ofList, String.toList_ofList, List.tail_cons, String.ofList_toList]
  · have hvalue : x.value ≠ 0 := fun hvalue => hzero (scaled_eq_zero hvalue)
    rw [if_neg fun hread => hzero ((isZero_ofDecimal_iff hx _ n).mp hread), signedText]
    simp only [isNegative_iff_value hx hvalue, shown_neg_iff, hzero, ne_eq, not_false_eq_true, and_true]

/-- Reading back fails for a number of too many digits alone. -/
theorem repaired?_eq_none_iff : repaired? (x.signedText n) = none ↔ ¬IsReadBack n x := by
  cases hx : x.isFinite with
  | false => simp [repaired?_of_not_isFinite hx, isReadBack_of_not_isFinite hx]
  | true =>
    by_cases h : IsReadBack n x
    · simp [repaired?_of_isFinite hx h, h]
    · have hlong := mt (countedDigits_signedText_le_iff hx).mp h
      rw [repaired?, readBack?, if_pos (by omega)]
      simp [h]

end

theorem signedHours_of_writable {n : Int} (h : Writable n) (x : Binary64) :
    signedHours n x = match repaired? (x.signedText n.toNat) with
      | some t => .ok t
      | none => .error (.unreadText (x.signedText n.toNat)) := by
  rw [signedHours, places_of_writable h]
  rfl

/-- Hours are signed exactly when they can be written and the text is read back. -/
theorem exists_signedHours_iff {n : Int} {x : Binary64} :
    (∃ t, signedHours n x = .ok t) ↔ Writable n ∧ IsReadBack n.toNat x := by
  constructor
  · rintro ⟨t,ht⟩
    obtain ⟨k,hk,-⟩ := bind_eq_ok_iff.mp ht
    have hwritable := exists_places_iff.mp ⟨k,hk⟩
    refine ⟨hwritable,by_contra fun h => ?_⟩
    rw [signedHours_of_writable hwritable, repaired?_eq_none_iff.mpr h] at ht
    exact nomatch ht
  · rintro ⟨hwritable,h⟩
    rw [signedHours_of_writable hwritable]
    cases hrepaired : repaired? (x.signedText n.toNat) with
    | none => exact absurd h (repaired?_eq_none_iff.mp hrepaired)
    | some t => exact ⟨t,rfl⟩

/-- A text that is not read back ends with a fault that quotes it. -/
theorem signedHours_of_not_isReadBack {n : Int} {x : Binary64} (hn : Writable n) (h : ¬IsReadBack n.toNat x) :
    signedHours n x = .error (.unreadText (x.signedText n.toNat)) := by
  rw [signedHours_of_writable hn, repaired?_eq_none_iff.mpr h]

theorem IsReadBack.writable {x : Binary64} {n : ℕ} (h : IsReadBack n x) (hx : x.isFinite = true) : Writable n := by
  have hn := (h hx).1
  unfold longestReadBack at hn
  exact ⟨by omega,by omega⟩

theorem signedHours_eq {x : Binary64} (hx : x.isFinite = true) {n : ℕ} (h : IsReadBack n x) :
    signedHours n x = .ok ((if x.shown n < 0 then "-" else "+") ++ x.magnitudeText n) := by
  rw [signedHours_of_writable (h.writable hx), Int.toNat_natCast, repaired?_of_isFinite hx h]

theorem shows_shown {x : Binary64} (hx : x.isFinite = true) (n : ℕ) :
    Shows n ((if x.shown n < 0 then "-" else "+") ++ x.magnitudeText n) (x.shown n) := by
  rw [magnitudeText_of_isFinite hx]
  have hplaces := isDecimalText_placesText n (x.scaled n)
  by_cases h : x.shown n < 0
  · refine ⟨'-',_,_,by rw [if_pos h, String.toList_append]; rfl,hplaces,Or.inr ⟨rfl,?_⟩⟩
    rw [shown, if_pos (shown_neg_iff.mp h).1, neg_one_mul]
  · refine ⟨'+',_,_,by rw [if_neg h, String.toList_append]; rfl,hplaces,Or.inl ⟨rfl,?_⟩⟩
    rw [← abs_shown, abs_of_nonneg (not_lt.mp h)]

/-- Hours are shown exactly when the text is read back, which it always is up to some hundred places below the
limit. What is shown is a sign and the hours without their sign in `n` places, which are the exact number rounded
once, at a tie to the even digit. The sign is a minus exactly when the number shown is below zero, and no number is
shown on the other side of zero. This is the signed text with a plus for its sign when reading it back finds zero. A
number that is not less is not shown as less. -/
theorem signedHours_shown {x : Binary64} (hx : x.isFinite = true) (n : ℕ) :
    ((∃ text, signedHours n x = .ok text) ↔ IsReadBack n x) ∧ (n + 309 ≤ longestReadBack → IsReadBack n x) ∧
    (IsReadBack n x → ∃ (sign number : String) (k : ℕ) (q : ℚ), signedHours n x = .ok (sign ++ number) ∧
      (sign = "+" ∨ sign = "-") ∧ plainHours n x.abs = .ok number ∧ IsDecimalText n k number.toList ∧
      IsNearestEven (|x.value| * 10 ^ n) k ∧ |q| = k / 10 ^ n ∧ Shows n (sign ++ number) q ∧
      (sign = "-" ↔ q < 0) ∧ (0 ≤ x.value → 0 ≤ q) ∧ (x.value ≤ 0 → q ≤ 0) ∧
      repaired? (x.signedText n) = some (sign ++ number) ∧
      ∀ y text r, y.isFinite = true → x.le y = true → signedHours n y = .ok text → Shows n text r → q ≤ r) := by
  refine ⟨?_,fun hn => isReadBack_of_le hn x,fun h => ?_⟩
  · rw [exists_signedHours_iff, Int.toNat_natCast]
    exact ⟨And.right,fun h => ⟨h.writable hx,h⟩⟩
  have hplain : plainHours n x.abs = .ok (x.magnitudeText n) :=
    bind_eq_ok_iff.mpr ⟨n,places_of_writable (h.writable hx),congrArg Except.ok (fixedText_abs n x)⟩
  refine ⟨if x.shown n < 0 then "-" else "+",x.magnitudeText n,x.scaled n,x.shown n,signedHours_eq hx h,?_,hplain,
    isDecimalText_magnitudeText hx n,isNearestEven_scaled n x,abs_shown,shows_shown hx n,?_,shown_nonneg,shown_nonpos,
    repaired?_of_isFinite hx h,?_⟩
  · split
    · exact Or.inr rfl
    · exact Or.inl rfl
  · split <;> simp [*]
  · intro y text r hy hle htext hr
    have hread : IsReadBack n y := (exists_signedHours_iff.mp ⟨text,htext⟩).2
    obtain rfl := Except.ok.inj ((signedHours_eq hy hread).symm.trans htext)
    rw [hr.unique (shows_shown hy n)]
    exact shown_mono ((le_iff_value hx hy).mp hle)

/-- An eighth of an hour below zero. -/
def eighthOwed : Binary64 := ofFraction false (-1) 8

/-- A few seconds below zero. -/
def secondsOwed : Binary64 := ofFraction false (-1) 1024

/-- A tie is shown with an even digit, and a few seconds owed as no deficit. -/
theorem signedHours_shown_owed :
    eighthOwed.isFinite = true ∧ secondsOwed.isFinite = true ∧ eighthOwed.le secondsOwed = true ∧
      signedHours 2 eighthOwed = .ok "-0.12" ∧ signedHours 2 secondsOwed = .ok "+0.00" ∧
      ∃ q r, Shows 2 "-0.12" q ∧ Shows 2 "+0.00" r ∧ q < 0 ∧ r = 0 ∧ q ≤ r := by
  have heighth : signedHours 2 eighthOwed = .ok "-0.12" := by decide +kernel
  have hseconds : signedHours 2 secondsOwed = .ok "+0.00" := by decide +kernel
  have hle : eighthOwed.le secondsOwed = true := by decide +kernel
  obtain ⟨-,hshort,hall⟩ := signedHours_shown (by decide +kernel : eighthOwed.isFinite = true) 2
  obtain ⟨-,hshort',hall'⟩ := signedHours_shown (by decide +kernel : secondsOwed.isFinite = true) 2
  obtain ⟨sign,number,-,q,htext,hsign,-,-,-,-,hq,hneg,-,-,-,hmono⟩ := hall (hshort (by decide))
  obtain ⟨sign',number',-,r,htext',hsign',-,-,-,-,hr,hneg',-,hnonpos,-,-⟩ := hall' (hshort' (by decide))
  have hshown : "-0.12" = sign ++ number := Except.ok.inj (heighth.symm.trans htext)
  have hshown' : "+0.00" = sign' ++ number' := Except.ok.inj (hseconds.symm.trans htext')
  rw [← hshown] at hq
  rw [← hshown'] at hr
  have hminus : sign = "-" := by
    refine hsign.resolve_left ?_
    rintro rfl
    simpa using congrArg String.toList hshown
  have hplus : sign' ≠ "-" := by
    rintro rfl
    simpa using congrArg String.toList hshown'
  refine ⟨by decide +kernel,by decide +kernel,hle,heighth,hseconds,q,r,hq,hr,hneg.mp hminus,?_,?_⟩
  · exact le_antisymm (hnonpos (by decide +kernel)) (not_lt.mp fun h => hplus (hneg'.mpr h))
  · exact hmono secondsOwed "+0.00" r (by decide +kernel) hle hseconds hr

end Report
end Flextime

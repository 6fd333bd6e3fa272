import Flextime.Command.Options
import Flextime.Proofs.Calendar.Months
import Flextime.Proofs.Text.Decimal
import Mathlib.Data.Option.Basic

/-! # Months on the command line

A month is written in decimal digits of any script, and a line break may follow it. One that is read is shown
again as it was written, unless it has other digits than the ASCII ones or the line break, and it is a month of
the calendar, unless its year is 0.
-/
namespace Flextime
namespace Text

/-- The number that decimal digits of any script write. -/
inductive IsNumeral : List Char → Nat → Prop where
  | nil : IsNumeral [] 0
  | concat {ds : List Char} {n v : Nat} {c : Char} (h : IsNumeral ds n) (hc : numeralValue? c = some v) :
      IsNumeral (ds ++ [c]) (10 * n + v)

theorem chars?_eq_some_iff {t : Text} {cs : List Char} : t.chars? = some cs ↔ t = ofChars cs := by
  constructor
  · intro h
    unfold chars? at h
    induction t generalizing cs with
    | nil =>
      cases h
      rfl
    | cons l t ih =>
      cases l with
      | surrogate half => simp [Letter.char?] at h
      | char c =>
        simp only [List.mapM_cons, Letter.char?, Option.bind_eq_bind, Option.bind_some, Option.bind_eq_some_iff,
          Option.pure_def, Option.some.injEq] at h
        obtain ⟨ds,hds,rfl⟩ := h
        rw [ih hds]
        rfl
  · rintro rfl
    exact chars?_ofChars cs

theorem ofChars_inj {cs ds : List Char} : ofChars cs = ofChars ds ↔ cs = ds := by
  rw [← chars?_eq_some_iff, chars?_ofChars, Option.some.injEq]

theorem numeralValue?_le {c : Char} {v : Nat} (h : numeralValue? c = some v) : v ≤ 9 := by
  rw [numeralValue?, Option.map_eq_some_iff] at h
  obtain ⟨z,hz,rfl⟩ := h
  have hrange := List.find?_some hz
  simp only [Bool.and_eq_true, decide_eq_true_eq] at hrange
  omega

theorem numeralValue?_of_isDigit {c : Char} (h : isDigit c = true) : numeralValue? c = some (digitValue c) := by
  have hc := isDigit_iff.mp h
  rw [numeralValue?, zeroDigits, List.find?_cons_of_pos (by simp; omega)]
  rfl

namespace IsNumeral
variable {ds : List Char} {n : Nat}

theorem nil_iff : IsNumeral [] n ↔ n = 0 := by
  constructor
  · intro h
    generalize hcs : ([] : List Char) = cs at h
    cases h with
    | nil => rfl
    | concat => simp at hcs
  · rintro rfl
    exact .nil

theorem concat_iff {c : Char} :
    IsNumeral (ds ++ [c]) n ↔ ∃ k v, IsNumeral ds k ∧ numeralValue? c = some v ∧ n = 10 * k + v := by
  constructor
  · intro h
    generalize hcs : ds ++ [c] = cs at h
    cases h with
    | nil => simp at hcs
    | concat h hc =>
      obtain ⟨rfl,hlast⟩ := List.append_inj' hcs rfl
      obtain rfl := List.singleton_inj.mp hlast
      exact ⟨_,_,h,hc,rfl⟩
  · rintro ⟨k,v,h,hc,rfl⟩
    exact .concat h hc

theorem lt (h : IsNumeral ds n) : n < 10 ^ ds.length := by
  induction h with
  | nil => decide
  | concat _ hc ih =>
    have hv := numeralValue?_le hc
    rw [List.length_append, List.length_singleton, Nat.pow_succ]
    omega

theorem exists_value (h : IsNumeral ds n) {c : Char} (hc : c ∈ ds) : ∃ v, numeralValue? c = some v := by
  induction h with
  | nil => exact absurd hc List.not_mem_nil
  | concat _ hlast ih =>
    rcases List.mem_append.mp hc with hc | hc
    · exact ih hc
    · exact ⟨_,List.mem_singleton.mp hc ▸ hlast⟩

theorem of_isDigit (h : ∀ d ∈ ds, isDigit d = true) : IsNumeral ds (natOfDigits ds) := by
  induction ds using List.reverseRecOn with
  | nil => exact .nil
  | append_singleton ds d ih =>
    rw [natOfDigits_concat]
    exact .concat (ih fun e he => h e (List.mem_append_left _ he)) (numeralValue?_of_isDigit (h d (by simp)))

theorem eq_natOfDigits (h : IsNumeral ds n) (hds : ∀ d ∈ ds, isDigit d = true) : n = natOfDigits ds := by
  induction h with
  | nil => rfl
  | @concat ds n v c _ hc ih =>
    rw [numeralValue?_of_isDigit (hds c (by simp))] at hc
    rw [natOfDigits_concat, ih fun e he => hds e (List.mem_append_left _ he), Option.some.inj hc]

end IsNumeral
end Text

namespace Command
open Text

theorem numerals?_eq_some_iff {n v : Nat} {cs rest : List Char} :
    numerals? n cs = some (v,rest) ↔ ∃ ds, ds.length = n ∧ IsNumeral ds v ∧ cs = ds ++ rest := by
  induction n generalizing v rest with
  | zero =>
    constructor
    · intro h
      cases h
      exact ⟨[],rfl,.nil,rfl⟩
    · rintro ⟨ds,hlength,hds,rfl⟩
      obtain rfl := List.length_eq_zero_iff.mp hlength
      obtain rfl := IsNumeral.nil_iff.mp hds
      rfl
  | succ n ih =>
    constructor
    · intro h
      obtain ⟨⟨k,more⟩,hfront,hlast⟩ := Option.bind_eq_some_iff.mp h
      obtain ⟨ds,hlength,hds,rfl⟩ := ih.mp hfront
      cases more with
      | nil => exact nomatch hlast
      | cons c more =>
        obtain ⟨w,hw,heq⟩ := Option.bind_eq_some_iff.mp hlast
        cases heq
        exact ⟨ds ++ [c],by simp [hlength],.concat hds hw,by simp⟩
    · rintro ⟨ds,hlength,hds,rfl⟩
      cases ds using List.reverseRecOn with
      | nil => simp at hlength
      | append_singleton ds c =>
        obtain ⟨k,w,hfront,hw,rfl⟩ := IsNumeral.concat_iff.mp hds
        have hread : numerals? n (ds ++ [c] ++ rest) = some (k,c :: rest) :=
          ih.mpr ⟨ds,by simpa using hlength,hfront,by simp⟩
        exact Option.bind_eq_some_iff.mpr ⟨_,hread,Option.bind_eq_some_iff.mpr ⟨w,hw,rfl⟩⟩

/-- The text of a month: a year of four digits, a hyphen and a month of two, and perhaps a line break. -/
def IsMonthText (t : Text) (y m : Nat) : Prop :=
  ∃ ys ms tail, t = ofChars (ys ++ '-' :: (ms ++ tail)) ∧ ys.length = 4 ∧ IsNumeral ys y ∧ ms.length = 2 ∧
    IsNumeral ms m ∧ (tail = [] ∨ tail = ['\n']) ∧ 1 ≤ m ∧ m ≤ 12

theorem month?_eq_some_iff {t : Text} {y m : Nat} : month? t = some (y,m) ↔ IsMonthText t y m := by
  constructor
  · intro h
    obtain ⟨cs,hcs,hread⟩ := Option.bind_eq_some_iff.mp h
    obtain ⟨⟨y',rest⟩,hyear,hmore⟩ := Option.bind_eq_some_iff.mp hread
    obtain ⟨ys,hys,hynum,rfl⟩ := numerals?_eq_some_iff.mp hyear
    dsimp only at hmore
    split at hmore
    next rest =>
      obtain ⟨⟨m',tail⟩,hmonth,hend⟩ := Option.bind_eq_some_iff.mp hmore
      obtain ⟨ms,hms,hmnum,rfl⟩ := numerals?_eq_some_iff.mp hmonth
      obtain ⟨_,hguard,heq⟩ := Option.bind_eq_some_iff.mp hend
      obtain ⟨htail,hm⟩ := (Option.guard_eq_some' _).mp hguard
      cases heq
      exact ⟨ys,ms,tail,chars?_eq_some_iff.mp hcs,hys,hynum,hms,hmnum,htail,hm⟩
    next => exact nomatch hmore
  · rintro ⟨ys,ms,tail,rfl,hys,hynum,hms,hmnum,htail,hm⟩
    have hyear : numerals? 4 (ys ++ '-' :: (ms ++ tail)) = some (y,'-' :: (ms ++ tail)) :=
      numerals?_eq_some_iff.mpr ⟨ys,hys,hynum,rfl⟩
    have hmonth : numerals? 2 (ms ++ tail) = some (m,tail) := numerals?_eq_some_iff.mpr ⟨ms,hms,hmnum,rfl⟩
    have hguard : (guard ((tail = [] ∨ tail = ['\n']) ∧ 1 ≤ m ∧ m ≤ 12) : Option Unit) = some () := if_pos ⟨htail,hm⟩
    simp [month?, chars?_ofChars, hyear, hmonth, hguard]

/-- The plain text of a month: ASCII digits and a hyphen, and a month of the calendar. -/
def IsPlainMonth (t : Text) (y m : Nat) : Prop :=
  ∃ ys ms, t = ofChars (ys ++ '-' :: ms) ∧ ys.length = 4 ∧ ms.length = 2 ∧ (∀ c ∈ ys ++ ms, isDigit c = true) ∧
    y = natOfDigits ys ∧ m = natOfDigits ms ∧ (1 ≤ y ∧ y ≤ 9999) ∧ 1 ≤ m ∧ m ≤ 12

/-- The letters of a plain text. -/
def isPlainLetter : Letter → Bool
  | .char c => isDigit c || c == '-'
  | .surrogate _ => false

theorem toList_monthLabel (y m : Nat) :
    (monthLabel y m).toList = (padded 4 y).toList ++ '-' :: (padded 2 m).toList := by
  simp [monthLabel]

section
variable {t : Text} {y m : Nat}

theorem IsMonthText.year_le (h : IsMonthText t y m) : y ≤ 9999 := by
  obtain ⟨ys,-,-,-,hys,hy,-⟩ := h
  have hlt := hy.lt
  rw [hys] at hlt
  omega

theorem ofString_monthLabel_eq_iff {ys ms tail : List Char} (hys : ys.length = 4) (hy : IsNumeral ys y)
    (hms : ms.length = 2) (hm : IsNumeral ms m) :
    ofString (monthLabel y m) = ofChars (ys ++ '-' :: (ms ++ tail)) ↔
      tail = [] ∧ ∀ c ∈ ys ++ ms, isDigit c = true := by
  have hyear := hy.lt
  have hmonth := hm.lt
  rw [hys] at hyear
  rw [hms] at hmonth
  have hylength := length_padded (by decide) hyear
  have hmlength := length_padded (by decide) hmonth
  rw [ofString, ofChars_inj, toList_monthLabel]
  constructor
  · intro h
    obtain ⟨hfront,hback⟩ := List.append_inj h (hylength.trans hys.symm)
    have hback' : (padded 2 m).toList ++ [] = ms ++ tail := by
      rw [List.append_nil]
      exact (List.cons.inj hback).2
    obtain ⟨hmiddle,htail⟩ := List.append_inj hback' (hmlength.trans hms.symm)
    refine ⟨htail.symm,?_⟩
    rw [← hfront, ← hmiddle]
    exact List.forall_mem_append.mpr ⟨fun _ => isDigit_of_mem_padded,fun _ => isDigit_of_mem_padded⟩
  · rintro ⟨rfl,hdigits⟩
    obtain ⟨hydigits,hmdigits⟩ := List.forall_mem_append.mp hdigits
    have hytext := padded_natOfDigits hydigits (List.ne_nil_of_length_eq_add_one hys)
    have hmtext := padded_natOfDigits hmdigits (List.ne_nil_of_length_eq_add_one hms)
    rw [hys, ← hy.eq_natOfDigits hydigits] at hytext
    rw [hms, ← hm.eq_natOfDigits hmdigits] at hmtext
    rw [hytext, hmtext, List.append_nil]

theorem isPlainLetter_char_iff {c : Char} : isPlainLetter (.char c) = true ↔ isDigit c = true ∨ c = '-' := by
  rw [isPlainLetter, Bool.or_eq_true, beq_iff_eq]

/-- A numeral is plain when it has ASCII digits. -/
theorem isDigit_of_isPlainLetter {ds : List Char} {n : Nat} (h : IsNumeral ds n) {c : Char} (hc : c ∈ ds)
    (hplain : isPlainLetter (.char c) = true) : isDigit c = true := by
  rcases isPlainLetter_char_iff.mp hplain with hdigit | rfl
  · exact hdigit
  · obtain ⟨v,hv⟩ := h.exists_value hc
    exact nomatch (show numeralValue? '-' = none by decide).symm.trans hv

/-- A month that was read is shown as it was written when all its letters are plain. -/
theorem IsMonthText.shown_iff (h : IsMonthText t y m) :
    ofString (monthLabel y m) = t ↔ ∀ l ∈ t, isPlainLetter l = true := by
  obtain ⟨ys,ms,tail,rfl,hys,hy,hms,hm,htail,-⟩ := h
  rw [ofString_monthLabel_eq_iff hys hy hms hm]
  simp only [ofChars, List.forall_mem_map, List.forall_mem_append, List.forall_mem_cons]
  constructor
  · rintro ⟨rfl,hydigits,hmdigits⟩
    refine ⟨?_,rfl,?_,?_⟩
    · exact fun c hc => isPlainLetter_char_iff.mpr (Or.inl (hydigits c hc))
    · exact fun c hc => isPlainLetter_char_iff.mpr (Or.inl (hmdigits c hc))
    · exact fun c hc => absurd hc List.not_mem_nil
  · rintro ⟨hyplain,-,hmplain,htplain⟩
    refine ⟨htail.resolve_right ?_,?_,?_⟩
    · rintro rfl
      exact nomatch htplain '\n' List.mem_cons_self
    · exact fun c hc => isDigit_of_isPlainLetter hy hc (hyplain c hc)
    · exact fun c hc => isDigit_of_isPlainLetter hm hc (hmplain c hc)

theorem exists_firstDay_iff (hy : y ≤ 9999) (hm : 1 ≤ m ∧ m ≤ 12) :
    (∃ d, Date.ofCivil? y m 1 = some d) ↔ 1 ≤ y := by
  constructor
  · rintro ⟨d,hd⟩
    unfold Date.ofCivil? at hd
    split at hd
    next hrange => exact hrange.1
    next => exact nomatch hd
  · intro h1
    have hyear : (12 * (y - 1) + (m - 1)) / 12 + 1 = y := by omega
    have hmonth : (12 * (y - 1) + (m - 1)) % 12 + 1 = m := by omega
    obtain ⟨d,hd,-⟩ := ofCivil?_eq (k := 12 * (y - 1) + (m - 1)) (by omega) le_rfl (monthLength_pos _ _)
    rw [hyear, hmonth] at hd
    exact ⟨d,hd⟩

theorem isPlainMonth_iff : IsPlainMonth t y m ↔
    month? t = some (y,m) ∧ ofString (monthLabel y m) = t ∧ ∃ d, Date.ofCivil? y m 1 = some d := by
  constructor
  · rintro ⟨ys,ms,rfl,hys,hms,hdigits,rfl,rfl,hy,hm⟩
    obtain ⟨hydigits,hmdigits⟩ := List.forall_mem_append.mp hdigits
    have hread : IsMonthText (ofChars (ys ++ '-' :: ms)) (natOfDigits ys) (natOfDigits ms) :=
      ⟨ys,ms,[],by rw [List.append_nil],hys,.of_isDigit hydigits,hms,.of_isDigit hmdigits,Or.inl rfl,hm⟩
    have hshown := (ofString_monthLabel_eq_iff hys (.of_isDigit hydigits) hms (.of_isDigit hmdigits)).mpr
      ⟨rfl,hdigits⟩
    rw [List.append_nil] at hshown
    exact ⟨month?_eq_some_iff.mpr hread,hshown,(exists_firstDay_iff hy.2 hm).mpr hy.1⟩
  · rintro ⟨hread,hshown,hday⟩
    have h := month?_eq_some_iff.mp hread
    have hyear := h.year_le
    obtain ⟨ys,ms,tail,rfl,hys,hy,hms,hm,-,hrange⟩ := h
    obtain ⟨rfl,hdigits⟩ := (ofString_monthLabel_eq_iff hys hy hms hm).mp hshown
    obtain ⟨hydigits,hmdigits⟩ := List.forall_mem_append.mp hdigits
    exact ⟨ys,ms,by rw [List.append_nil],hys,hms,hdigits,hy.eq_natOfDigits hydigits,hm.eq_natOfDigits hmdigits,
      ⟨(exists_firstDay_iff hyear hrange).mp hday,hyear⟩,hrange⟩

end

/-- What is read as a month are four decimal digits, a hyphen and two decimal digits of a month, in any script and
with or without a line break; everything else is refused. What is read is shown as it was written exactly when its
letters are plain, and has a first day exactly when its year is not 0. The plain texts are those read for which both
hold. -/
theorem monthText_accepted (t : Text) :
    (∀ y m, month? t = some (y,m) ↔ IsMonthText t y m) ∧
    (∀ o : Options, (∃ y m, IsMonthText t y m ∧ o.setValue .month t = .ok { o with month? := some (y,m) }) ∨
      (¬∃ y m, IsMonthText t y m) ∧ o.setValue .month t = .error (.badMonth t)) ∧
    (∀ y m, IsPlainMonth t y m ↔
      month? t = some (y,m) ∧ ofString (monthLabel y m) = t ∧ ∃ d, Date.ofCivil? y m 1 = some d) ∧
    ∀ y m, month? t = some (y,m) →
      (ofString (monthLabel y m) = t ↔ ∀ l ∈ t, isPlainLetter l = true) ∧
      ((∃ d, Date.ofCivil? y m 1 = some d) ↔ 1 ≤ y) := by
  refine ⟨fun y m => month?_eq_some_iff,fun o => ?_,fun y m => isPlainMonth_iff,fun y m hread => ?_⟩
  · cases hread : month? t with
    | none =>
      refine Or.inr ⟨?_,by simp [Options.setValue, hread]⟩
      rintro ⟨y,m,h⟩
      exact nomatch hread.symm.trans (month?_eq_some_iff.mpr h)
    | some read =>
      exact Or.inl ⟨read.1,read.2,month?_eq_some_iff.mp hread,by simp [Options.setValue, hread]⟩
  · have h := month?_eq_some_iff.mp hread
    have hyear := h.year_le
    obtain ⟨-,-,-,-,-,-,-,-,-,hrange⟩ := id h
    exact ⟨h.shown_iff,exists_firstDay_iff hyear hrange⟩

/-- March 2023 in full-width digits. -/
def fullWidthMonth : Text := "２０２３-０３"

theorem monthText_accepted_fullWidth :
    month? fullWidthMonth = some (2023,3) ∧ IsMonthText fullWidthMonth 2023 3 ∧
      ofString (monthLabel 2023 3) ≠ fullWidthMonth ∧ (∃ d, Date.ofCivil? 2023 3 1 = some d) ∧
      ¬IsPlainMonth fullWidthMonth 2023 3 := by
  obtain ⟨hgrammar,-,hplain,hread⟩ := monthText_accepted fullWidthMonth
  have hmonth : month? fullWidthMonth = some (2023,3) := by decide +kernel
  obtain ⟨hshown,hday⟩ := hread 2023 3 hmonth
  have hletters : ofString (monthLabel 2023 3) ≠ fullWidthMonth := fun h =>
    absurd (hshown.mp h) (by decide +kernel)
  exact ⟨hmonth,(hgrammar 2023 3).mp hmonth,hletters,hday.mpr (by decide),fun h =>
    hletters ((hplain 2023 3).mp h).2.1⟩

/-- The text of March 2023 with a line break behind it. -/
def brokenMonth : Text := "2023-03\n"

/-- January of the year 0. -/
def yearZeroMonth : Text := "0000-01"

theorem not_isPlainMonth {t : Text} {y m : Nat} (hread : month? t = some (y,m))
    (h : ofString (monthLabel y m) ≠ t ∨ Date.ofCivil? y m 1 = none) : ¬∃ y' m', IsPlainMonth t y' m' := by
  rintro ⟨y',m',hplain⟩
  obtain ⟨hread',hshown,d,hd⟩ := isPlainMonth_iff.mp hplain
  obtain ⟨rfl,rfl⟩ := Prod.mk.inj (Option.some.inj (hread.symm.trans hread'))
  rcases h with h | h
  · exact h hshown
  · exact nomatch h.symm.trans hd

/-- More is read than plain texts: a line break behind the month and the year 0 are taken as well. -/
theorem monthText_lineBreak :
    ¬((∃ y m, month? brokenMonth = some (y,m)) ↔ ∃ y m, IsPlainMonth brokenMonth y m) ∧
    ¬((∃ y m, month? yearZeroMonth = some (y,m)) ↔ ∃ y m, IsPlainMonth yearZeroMonth y m) ∧
    month? brokenMonth = some (2023,3) ∧ ofString (monthLabel 2023 3) ≠ brokenMonth := by
  have hbroken : month? brokenMonth = some (2023,3) := by decide +kernel
  have hzero : month? yearZeroMonth = some (0,1) := by decide +kernel
  have hshown : ofString (monthLabel 2023 3) ≠ brokenMonth := by decide +kernel
  refine ⟨fun h => ?_,fun h => ?_,hbroken,hshown⟩
  · exact not_isPlainMonth hbroken (Or.inl hshown) (h.mp ⟨2023,3,hbroken⟩)
  · exact not_isPlainMonth hzero (Or.inr rfl) (h.mp ⟨0,1,hzero⟩)

end Command
end Flextime

import Flextime.Proofs.Balance.Percentages
import Flextime.Proofs.Report.Build

/-! # Decimals asked for in the settings

The settings take any whole number as a number of decimals, and a format only those from zero up to a bound of
its own. So what the process or its environment file asks for decides alone whether hours and days are written.
Hours with a sign are read back, too, which asks for fewer digits; there the figure counts, but only next to the
bound.
-/
namespace Flextime
namespace Settings
open Intake
variable {file env : List (String × String)} {name : String}

/-- A variable of the file counts only where the process has none of its name. -/
theorem fromEnvironment?_append :
    fromEnvironment? (file ++ env) name = (fromEnvironment? env name).or (fromEnvironment? file name) := by
  simp only [fromEnvironment?, List.reverse_append, List.find?_append, Option.map_or]

theorem setting_eq_ok_iff {α : Type} {read : String → Except Problem α} {absent a : α} :
    setting env name read absent = .ok a ↔
      (fromEnvironment? env name = none ∧ absent = a) ∨
        ∃ text, fromEnvironment? env name = some text ∧ read text = .ok a := by
  unfold setting
  cases fromEnvironment? env name with
  | none => simp
  | some text => cases hread : read text <;> simp [under, refuse, Except.mapError, hread]

/-- The decimals of accepted settings are each read from a variable of its own. -/
theorem decimals_of_sources {s : Settings} (h : ofSources file env = .ok s) :
    setting (file ++ env) "hours_decimals" integer 2 = .ok s.hoursDecimals ∧
      setting (file ++ env) "days_decimals" integer 1 = .ok s.daysDecimals := by
  simp only [ofSources, ofEnvironment, map_eq_ok_iff, both_eq_ok_iff] at h
  obtain ⟨_,⟨-,-,-,-,hhours,hdays⟩,rfl⟩ := h
  exact ⟨hhours,hdays⟩

end Settings

namespace Report
open Settings

/-- The process asks for no number under a name, nor does its environment file, or for one of which `P` holds. -/
def Asks (file env : List (String × String)) (name : String) (P : Int → Prop) : Prop :=
  ∀ text n, (fromEnvironment? env name).or (fromEnvironment? file name) = some text →
    Intake.integer text = .ok n → P n

theorem asks_iff {file env : List (String × String)} {name : String} {P : Int → Prop} {absent n : Int}
    (habsent : P absent) (h : setting (file ++ env) name Intake.integer absent = .ok n) :
    Asks file env name P ↔ P n := by
  unfold Asks
  rw [setting_eq_ok_iff, fromEnvironment?_append] at h
  obtain ⟨hnone,rfl⟩ | ⟨text,htext,hn⟩ := h
  · refine iff_of_true (fun text n htext => ?_) habsent
    rw [hnone] at htext
    exact nomatch htext
  · constructor
    · exact fun hasks => hasks text n htext hn
    · intro hP text' n' htext' hn'
      obtain rfl := Option.some.inj (htext.symm.trans htext')
      obtain rfl := Except.ok.inj (hn.symm.trans hn')
      exact hP

/-- What a number of decimals that cannot be written ends a text with. -/
def IsUnwritten (n : Int) (f : Fault) : Prop :=
  (n < 0 ∧ f = .negativePlaces) ∨ (2147483647 < n ∧ f = .excessivePlaces n.toNat)

/-- A number can be written with a sign when it can be written and is read back. -/
def Signable (x : Binary64) (n : Int) : Prop := Writable n ∧ IsReadBack n.toNat x

/-- What a number that cannot be written with a sign ends a text with. -/
def IsUnsigned (x : Binary64) (n : Int) (f : Fault) : Prop :=
  IsUnwritten n f ∨ (Writable n ∧ ¬IsReadBack n.toNat x ∧ f = .unreadText (x.signedText n.toNat))

instance (n : Int) : Decidable (Writable n) := inferInstanceAs (Decidable (_ ∧ _))

instance (n : Int) (f : Fault) : Decidable (IsUnwritten n f) := inferInstanceAs (Decidable (_ ∧ _ ∨ _ ∧ _))

theorem signable_of_le {n : Int} (h0 : 0 ≤ n) (hn : n + 309 ≤ longestReadBack) (x : Binary64) : Signable x n := by
  have hread : n.toNat + 309 ≤ longestReadBack := by omega
  unfold longestReadBack at hn
  exact ⟨⟨h0,by omega⟩,isReadBack_of_le hread x⟩

theorem not_signable_of_lt {n : Int} (h : (longestReadBack : Int) < n) {x : Binary64} (hx : x.isFinite = true) :
    ¬Signable x n := by
  rintro ⟨-,hread⟩
  have hle := (hread hx).1
  omega

theorem places_eq_error_iff {n : Int} {f : Fault} : places n = .error f ↔ IsUnwritten n f := by
  unfold places IsUnwritten
  split
  next hneg =>
    have hle : ¬2147483647 < n := by omega
    simp [hneg, hle, eq_comm]
  next hneg =>
    split
    next hlarge => simp [hneg, hlarge, eq_comm]
    next hlarge => simp [hneg, hlarge]

theorem writable_or_isUnwritten (n : Int) : Writable n ∨ ∃ f, IsUnwritten n f := by
  cases hplaces : places n with
  | ok k => exact .inl (exists_places_iff.mp ⟨k,hplaces⟩)
  | error f => exact .inr ⟨f,places_eq_error_iff.mp hplaces⟩

theorem written_eq_error_iff {n : Int} {f : Fault} (g : Nat → String) :
    (places n >>= fun k => pure (g k)) = .error f ↔ IsUnwritten n f := by
  rw [← places_eq_error_iff]
  cases places n with
  | ok k => exact iff_of_false nofun nofun
  | error e => exact ⟨fun h => congrArg _ (Except.error.inj h),fun h => congrArg _ (Except.error.inj h)⟩

section
variable {n : Int} {x : Binary64} {s : Settings} {f : Fault}

theorem plainHours_eq_error_iff : plainHours n x = .error f ↔ IsUnwritten n f := written_eq_error_iff x.fixedText

theorem days_eq_error_iff : days n x = .error f ↔ IsUnwritten n f :=
  written_eq_error_iff fun k => x.fixedText k ++ " days"

theorem signable_or_isUnsigned (x : Binary64) (n : Int) : Signable x n ∨ ∃ f, IsUnsigned x n f := by
  obtain hwritable | ⟨f,hf⟩ := writable_or_isUnwritten n
  · by_cases hread : IsReadBack n.toNat x
    · exact .inl ⟨hwritable,hread⟩
    · exact .inr ⟨_,.inr ⟨hwritable,hread,rfl⟩⟩
  · exact .inr ⟨f,.inl hf⟩

theorem signedHours_eq_error_iff : signedHours n x = .error f ↔ IsUnsigned x n f := by
  apply eq_error_iff_of_cases
  · rintro g (hg | ⟨hwritable,hread,rfl⟩)
    · rw [signedHours, places_eq_error_iff.mpr hg]
      rfl
    · exact signedHours_of_not_isReadBack hwritable hread
  · exact (signable_or_isUnsigned x n).imp_left exists_signedHours_iff.mpr

/-- The hours without a sign come first, and fail with the same fault when none can be written. -/
theorem lifetimeText_of_hours {b : LifetimeBalance} (h : IsUnsigned b.overtime.balanceHours s.hoursDecimals f) :
    lifetimeText s b = .error f := by
  have hbalance := signedHours_eq_error_iff.mpr h
  obtain hhours | ⟨hwritable,-,-⟩ := h
  · rw [lifetimeText, plainHours_eq_error_iff.mpr hhours]
    rfl
  · have hplain := plainHours_of_writable hwritable
    rw [lifetimeText, hplain b.overtime.targetHours, hplain b.overtime.actualHours, hbalance]
    rfl

theorem lifetimeText_of_days {b : LifetimeBalance} (hhours : Signable b.overtime.balanceHours s.hoursDecimals)
    (h : IsUnwritten s.daysDecimals f) : lifetimeText s b = .error f := by
  obtain ⟨balance,hbalance⟩ := exists_signedHours_iff.mpr hhours
  have hplain := plainHours_of_writable hhours.1
  rw [lifetimeText, hplain b.overtime.targetHours, hplain b.overtime.actualHours, hbalance, days_eq_error_iff.mpr h]
  rfl

/-- The hours are written first, so their decimals are the first to end the text. -/
theorem lifetimeText_eq_error_iff {b : LifetimeBalance} :
    lifetimeText s b = .error f ↔ IsUnsigned b.overtime.balanceHours s.hoursDecimals f ∨
      (Signable b.overtime.balanceHours s.hoursDecimals ∧ IsUnwritten s.daysDecimals f) := by
  apply eq_error_iff_of_cases
  · rintro g (hg | ⟨hhours,hg⟩)
    · exact lifetimeText_of_hours hg
    · exact lifetimeText_of_days hhours hg
  · obtain hhours | ⟨g,hg⟩ := signable_or_isUnsigned b.overtime.balanceHours s.hoursDecimals
    · obtain hdays | ⟨g,hg⟩ := writable_or_isUnwritten s.daysDecimals
      · exact .inl (exists_lifetimeText_iff.mpr ⟨hhours.1,hhours.2,hdays⟩)
      · exact .inr ⟨g,.inr ⟨hhours,hg⟩⟩
    · exact .inr ⟨g,.inl hg⟩

theorem monthText_of_hours {b : MonthBalance} (h : IsUnsigned b.balanceHours s.hoursDecimals f) :
    monthText s b = .error f := by
  have hbalance := signedHours_eq_error_iff.mpr h
  obtain hhours | ⟨hwritable,-,-⟩ := h
  · have hlines : Category.all.mapM (categoryLine s b) = .error f := by
      rw [Category.all, List.mapM_cons, categoryLine, plainHours_eq_error_iff.mpr hhours]
      rfl
    rw [monthText, hlines]
    rfl
  · obtain ⟨lines,hlines⟩ := exists_categoryLines hwritable b
    have hplain := plainHours_of_writable hwritable
    rw [monthText, hlines, hplain b.targetHours, hplain b.actualHours, hplain b.requiredHours, hbalance]
    rfl

theorem monthText_eq_error_iff {b : MonthBalance} :
    monthText s b = .error f ↔ IsUnsigned b.balanceHours s.hoursDecimals f := by
  apply eq_error_iff_of_cases
  · exact fun g hg => monthText_of_hours hg
  · exact (signable_or_isUnsigned _ _).imp_left exists_monthText_iff.mpr

end

/-- The condition on which a text is made, and the faults that it ends with otherwise. -/
def IsMadeIf (text : Except Fault String) (made : Prop) (ends : Fault → Prop) : Prop :=
  ((∃ t, text = .ok t) ↔ made) ∧ ∀ f, text = .error f ↔ ends f

/-- Under accepted settings the number of decimals that the process or its file asks for decides alone whether
hours are written, and another one whether days are. With a sign, hours also have to be read back, and so has
the balance in either text: every number is, up to some hundred places below the limit, and no finite one above
it. The lifetime balance needs the decimals of the days, too. A text that is not made ends with the fault of the
first number that cannot be written. -/
theorem texts_of_sources {file env : List (String × String)} {s : Settings} (h : ofSources file env = .ok s) :
    (∀ x, IsMadeIf (plainHours s.hoursDecimals x) (Asks file env "hours_decimals" Writable)
      (IsUnwritten s.hoursDecimals)) ∧
    (∀ x, IsMadeIf (signedHours s.hoursDecimals x) (Asks file env "hours_decimals" (Signable x))
      (IsUnsigned x s.hoursDecimals)) ∧
    (∀ x, IsMadeIf (days s.daysDecimals x) (Asks file env "days_decimals" Writable)
      (IsUnwritten s.daysDecimals)) ∧
    (∀ b, IsMadeIf (lifetimeText s b)
      (Asks file env "hours_decimals" (Signable b.overtime.balanceHours) ∧ Asks file env "days_decimals" Writable)
      fun f => IsUnsigned b.overtime.balanceHours s.hoursDecimals f ∨
        (Asks file env "hours_decimals" (Signable b.overtime.balanceHours) ∧ IsUnwritten s.daysDecimals f)) ∧
    (∀ b, IsMadeIf (monthText s b) (Asks file env "hours_decimals" (Signable b.balanceHours))
      (IsUnsigned b.balanceHours s.hoursDecimals)) ∧
    (∀ x (n : Int), 0 ≤ n → n + 309 ≤ longestReadBack → Signable x n) ∧
    ∀ x (n : Int), x.isFinite = true → longestReadBack < n → ¬Signable x n := by
  obtain ⟨hhours,hdays⟩ := decimals_of_sources h
  have hwritable := asks_iff (by decide) hhours (P := Writable)
  have hsignable := fun x => asks_iff (signable_of_le (by decide) (by decide) x) hhours
  have hdaysWritable := asks_iff (by decide) hdays (P := Writable)
  refine ⟨fun x => ?_,fun x => ?_,fun x => ?_,fun b => ?_,fun b => ?_,fun x n h0 hn => signable_of_le h0 hn x,
    fun x n hx hn => not_signable_of_lt hn hx⟩
  · rw [hwritable]
    exact ⟨exists_plainHours_iff,fun f => plainHours_eq_error_iff⟩
  · rw [hsignable]
    exact ⟨exists_signedHours_iff,fun f => signedHours_eq_error_iff⟩
  · rw [hdaysWritable]
    exact ⟨exists_days_iff,fun f => days_eq_error_iff⟩
  · rw [hsignable, hdaysWritable]
    exact ⟨exists_lifetimeText_iff.trans and_assoc.symm,fun f => lifetimeText_eq_error_iff⟩
  · rw [hsignable]
    exact ⟨exists_monthText_iff,fun f => monthText_eq_error_iff⟩

/-- A file that asks for hours in vain, and for days with one decimal more than can be written. -/
def fileDecimals : List (String × String) :=
  [("worklog_hours_decimals","-3"),("Worklog_Days_Decimals","2147483648")]

/-- Hours asked for twice, the last time with white space. -/
def mixedDecimals : List (String × String) :=
  [("WORKLOG_HOURS_DECIMALS","-1"),("worklog_hours_decimals"," 4 ")]

def mixedSettings : Settings := { hoursDecimals := 4, daysDecimals := 2147483648 }

theorem texts_of_sources_mixed :
    ofSources fileDecimals mixedDecimals = .ok mixedSettings ∧ (∀ b, ∃ t, monthText mixedSettings b = .ok t) ∧
      ∀ b, lifetimeText mixedSettings b = .error (.excessivePlaces 2147483648) := by
  have hsettings : ofSources fileDecimals mixedDecimals = .ok mixedSettings := by decide +kernel
  obtain ⟨-,-,-,hlifetime,hmonth,hsignable,-⟩ := texts_of_sources hsettings
  have hhours : ∀ x, Asks fileDecimals mixedDecimals "hours_decimals" (Signable x) := fun x =>
    (asks_iff (hsignable x 2 (by decide) (by decide)) (decimals_of_sources hsettings).1).mpr
      (hsignable x 4 (by decide) (by decide))
  refine ⟨hsettings,fun b => (hmonth b).1.mpr (hhours _),fun b => ?_⟩
  exact ((hlifetime b).2 _).mpr (.inr ⟨hhours _,by decide⟩)

/-- A number of decimals below zero is accepted, and then neither balance is written. -/
theorem negativeDecimals_unwritten :
    ofSources [] [("WORKLOG_HOURS_DECIMALS","-1")] = .ok { hoursDecimals := -1 } ∧
      (∃ b, (lifetimeBalance fiveHourContract twentyNineHours (dayIn2023 59)).outcome = .ok b ∧
        lifetimeText { hoursDecimals := -1 } b = .error .negativePlaces) ∧
      ∃ b, (monthBalance fiveHourContract twentyNineHours (dayIn2023 59)).outcome = .ok b ∧
        monthText { hoursDecimals := -1 } b = .error .negativePlaces := by
  have hunwritten : IsUnwritten (-1) .negativePlaces := by decide
  refine ⟨by decide +kernel,?_,?_⟩
  · obtain ⟨b,hb⟩ : ∃ b, (lifetimeBalance fiveHourContract twentyNineHours (dayIn2023 59)).outcome = .ok b :=
      exists_of_isOk (by decide +kernel)
    exact ⟨b,hb,lifetimeText_of_hours (.inl hunwritten)⟩
  · obtain ⟨b,hb⟩ : ∃ b, (monthBalance fiveHourContract twentyNineHours (dayIn2023 59)).outcome = .ok b :=
      exists_of_isOk (by decide +kernel)
    exact ⟨b,hb,monthText_of_hours (.inl hunwritten)⟩

end Report
end Flextime

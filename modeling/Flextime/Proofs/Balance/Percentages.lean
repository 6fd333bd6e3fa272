import Flextime.Proofs.Balance.Month
import Mathlib.Data.Rat.Floor

/-! # Percentages

A percentage is the integer part of a rounded quotient, times a hundred and rounded again. The roundings
move a share by far less than the shares of whole minutes lie apart. So it can only be wrong where the
exact share is a whole percentage, and then by one, if rounding ends just below.
-/
namespace Flextime
open Duration Binary64

/-- The share that a percentage cuts off. -/
def scaledShare (hours total : Binary64) : Binary64 := hours / total * ofInt 100

/-- The share of `m` minutes in `n` is a whole percentage, and ends below it when it is rounded. -/
def FallsShort (m n : ℤ) : Prop :=
  n ∣ 100 * m ∧ (scaledShare (hoursOfMinutes m) (hoursOfMinutes n)).value < (100 * m / n : ℤ)

instance (m n : ℤ) : Decidable (FallsShort m n) := inferInstanceAs (Decidable (_ ∧ _))

theorem scaledShare_rounded {h t : Binary64} (hh : h.isFinite = true) (ht : t.isFinite = true)
    (hzero : t.value ≠ 0) (hq : |h.value / t.value| ≤ 2) :
    IsRounded (h.value / t.value) (h / t) ∧ (h / t).isFinite = true ∧
      IsRounded ((h / t).value * 100) (scaledShare h t) ∧ (scaledShare h t).isFinite = true := by
  obtain ⟨hhundred,hhundredValue⟩ := value_hundred
  have hquot := isRounded_div hh ht hzero
  obtain ⟨hfin,hle⟩ := hquot.le_two_zpow (k := 1) (by decide) (by decide) (by simpa using hq)
  have hshare := isRounded_mul hfin hhundred
  rw [hhundredValue] at hshare
  refine ⟨hquot,hfin,hshare,(hshare.le_two_zpow (k := 8) (by decide) (by decide) ?_).1⟩
  rw [abs_mul]
  norm_num at hle ⊢
  linarith

theorem scaledShare_congr {h t h' t' : Binary64} (hh : h.isFinite = true) (ht : t.isFinite = true)
    (hh' : h'.isFinite = true) (ht' : t'.isFinite = true) (hzero : t.value ≠ 0) (hzero' : t'.value ≠ 0)
    (hq : |h.value / t.value| ≤ 2) (heq : h.value / t.value = h'.value / t'.value) :
    (scaledShare h t).value = (scaledShare h' t').value := by
  obtain ⟨hquot,-,hshare,-⟩ := scaledShare_rounded hh ht hzero hq
  rw [heq] at hq hquot
  obtain ⟨hquot',-,hshare',-⟩ := scaledShare_rounded hh' ht' hzero' hq
  rw [hquot.value_eq hquot'] at hshare
  exact hshare.value_eq hshare'

/-- The two roundings behind a quotient that is off by three times the roundoff. -/
theorem scaledShare_near {h t : Binary64} (hh : h.isFinite = true) (ht : t.isFinite = true)
    (hzero : t.value ≠ 0) {q : ℚ} (hq : Within (3 * roundoff) q (h.value / t.value))
    (hlow : 2 ^ (-50 : ℤ) ≤ q) (hhigh : q ≤ 1) :
    Within (7 * roundoff) (q * 100) (scaledShare h t).value := by
  obtain ⟨hu0,hu⟩ := roundoff_bounds
  norm_num at hu
  have hpos : 0 < q := (two_zpow_pos _).trans_le hlow
  rw [← abs_of_pos hpos] at hlow
  have hlarge : |h.value / t.value| ≤ 2 := by
    refine hq.abs_le_mul.trans ?_
    rw [abs_of_pos hpos]
    nlinarith
  obtain ⟨hround,hfin,hround',hfin'⟩ := scaledShare_rounded hh ht hzero hlarge
  have hfirst := (hq.rounded hround hfin (hq.not_tiny (by linarith) hlow) (by linarith)).mul_right 100
  have hlow' : 2 ^ (-50 : ℤ) ≤ |q * 100| := by
    rw [abs_mul]
    norm_num at hlow ⊢
    linarith
  have hsecond := hfirst.rounded hround' hfin' (hfirst.not_tiny (by linarith) hlow') (by linarith)
  convert hsecond using 1
  ring

section
variable {m n : ℤ} {h t : Binary64}

/-- The hours, their quotient and the product are rounded, in all by less than a part in a million billion. -/
theorem scaledShare_within (hm : IsHoursOf m h) (ht : IsHoursOf n t) (h0 : 0 < m) (hle : m ≤ n) :
    Within (7 * roundoff) ((100 * m : ℤ) / n) (scaledShare h t).value := by
  have hn : (0 : ℚ) < n := by exact_mod_cast h0.trans_le hle
  have hm0 : (1 : ℚ) ≤ m := by exact_mod_cast h0
  have hmn : (m : ℚ) ≤ n := by exact_mod_cast hle
  have hn' : (n : ℚ) < 2 ^ 41 := by exact_mod_cast ht.lt
  obtain ⟨hu0,hu⟩ := roundoff_bounds
  norm_num at hu
  have hmw := hm.within h0.ne'
  have htw := ht.within (h0.trans_le hle).ne'
  have hquot := hmw.div htw (by positivity) hu0.le (by linarith)
  have hshare : (m : ℚ) / 60 / (n / 60) = m / n := by field_simp
  rw [hshare] at hquot
  have hone : (m : ℚ) / n ≤ 1 := (div_le_one hn).mpr hmn
  have hleast : 1 / 2 ^ 41 ≤ (m : ℚ) / n := div_le_div₀ (by linarith) hm0 hn hn'.le
  have hnear := scaledShare_near hm.isFinite ht.isFinite (htw.ne_zero (by linarith) (by positivity)) hquot
    (le_trans (by norm_num) hleast) hone
  convert hnear using 1
  push_cast
  ring

end

/-- Less than the distance of two fractions over `n` away from one of them, a number has the same integer
part, unless the fraction is an integer and the number lies below it. -/
theorem floor_of_near {a n : ℤ} (hn : 0 < n) {v : ℚ} (h : |v - a / n| < 1 / n) :
    ⌊v⌋ = if n ∣ a ∧ v < (a / n : ℤ) then a / n - 1 else a / n := by
  have hn' : (0 : ℚ) < n := by exact_mod_cast hn
  have hsplit : v - a / n = (v * n - a) / n := by field_simp
  rw [hsplit, abs_div, abs_of_pos hn', div_lt_div_iff_of_pos_right hn'] at h
  obtain ⟨hlow,hhigh⟩ := abs_lt.mp h
  have hfloor := Int.floor_le v
  have hceil := Int.lt_floor_add_one v
  generalize ⌊v⌋ = f at hfloor hceil ⊢
  have hbelow : f * n < a + 1 := by
    have hle := mul_le_mul_of_nonneg_right hfloor hn'.le
    exact_mod_cast (show (f : ℚ) * n < a + 1 by linarith)
  have habove : a < (f + 1) * n + 1 := by
    have hlt := mul_lt_mul_of_pos_right hceil hn'
    exact_mod_cast (show (a : ℚ) < (f + 1) * n + 1 by linarith)
  -- the fraction lies between two integers, or on the one above the number
  rcases (Int.lt_add_one_iff.mp habove).lt_or_eq with hlt | rfl
  · have hquot : a / n = f := by
      rw [add_one_mul] at hlt
      exact (Int.ediv_eq_iff_of_pos hn).mpr ⟨Int.lt_add_one_iff.mp hbelow,hlt⟩
    rw [hquot, if_neg fun hshort => hshort.2.not_ge hfloor]
  · rw [Int.mul_ediv_cancel _ hn.ne', add_sub_cancel_right, if_pos]
    exact ⟨Dvd.intro_left _ rfl,by exact_mod_cast hceil⟩

theorem percentage_eq_truncate {h t : Binary64} (ht : t.le (.zero false) = false) {k : ℤ}
    (hk : percentage h t = .ok k) : k = (scaledShare h t).truncate := by
  rw [percentage, if_neg (Bool.eq_false_iff.mp ht)] at hk
  change integerPart (scaledShare h t) = .ok k at hk
  exact (integerPart_eq_ok_iff.mp hk).2.symm

section
variable {m n : ℤ} {h t : Binary64}

theorem scaledShare_zero (hm : IsHoursOf 0 h) (ht : IsHoursOf n t) (hn : 0 < n) :
    (scaledShare h t).value = 0 := by
  have hround := hm.isRounded
  rw [Int.cast_zero, zero_div] at hround
  have hquot : h.value / t.value = 0 := by rw [hround.value_zero, zero_div]
  obtain ⟨hdiv,-,hshare,-⟩ :=
    scaledShare_rounded hm.isFinite ht.isFinite (ht.value_pos hn).ne' (by rw [hquot]; norm_num)
  rw [hquot] at hdiv
  rw [hdiv.value_zero, zero_mul] at hshare
  exact hshare.value_zero

/-- What is within the error of a share is nearer to it than any other fraction over the total. -/
theorem near_of_within (hm0 : 0 ≤ m) (hle : m ≤ n) (hn : 0 < n) (hsize : n < 2 ^ 41) {v : ℚ}
    (hv : Within (7 * roundoff) ((100 * m : ℤ) / n) v) : |v - (100 * m : ℤ) / n| < 1 / n := by
  have hn' : (0 : ℚ) < n := by exact_mod_cast hn
  have hm' : (m : ℚ) < 2 ^ 41 := by exact_mod_cast hle.trans_lt hsize
  have hm0' : (0 : ℚ) ≤ m := by exact_mod_cast hm0
  refine lt_of_le_of_lt hv ?_
  rw [abs_of_nonneg (by positivity), ← mul_div_assoc]
  gcongr
  push_cast
  norm_num [roundoff] at hm' ⊢
  linarith

/-- A percentage of whole minutes is the exact one, cut off, or one less where it falls short. -/
theorem percentage_of_minutes (hm : IsHoursOf m h) (ht : IsHoursOf n t) (h0 : 0 ≤ m) (hle : m ≤ n)
    (hn : 0 < n) {k : ℤ} (hk : percentage h t = .ok k) :
    k = if FallsShort m n then 100 * m / n - 1 else 100 * m / n := by
  have hpos : t.le (.zero false) = false := by
    rw [Bool.eq_false_iff, Ne, ht.nonpos_iff]
    omega
  rw [percentage_eq_truncate hpos hk]
  obtain rfl := hm.eq_hoursOfMinutes
  obtain rfl := ht.eq_hoursOfMinutes
  -- a relative error says nothing about nothing
  rcases h0.eq_or_lt with rfl | hm0
  · have hzero := scaledShare_zero hm ht hn
    rw [truncate_eq_floor hzero.ge]
    simp [FallsShort, hzero]
  · have hwithin := scaledShare_within hm ht hm0 hle
    have hshare : (0 : ℚ) ≤ (100 * m : ℤ) / n :=
      div_nonneg (by exact_mod_cast (by omega : 0 ≤ 100 * m)) (by exact_mod_cast hn.le)
    rw [truncate_eq_floor (hwithin.nonneg (by norm_num [roundoff]) hshare)]
    exact floor_of_near hn (near_of_within h0 hle hn ht.lt hwithin)

theorem not_fallsShort_zero (hm : IsHoursOf 0 h) (ht : IsHoursOf n t) (hn : 0 < n) : ¬FallsShort 0 n := by
  have hzero := scaledShare_zero hm ht hn
  rw [hm.eq_hoursOfMinutes, ht.eq_hoursOfMinutes] at hzero
  simp [FallsShort, hzero]

/-- The whole percentages that come out one too low when only the quotient of the hours is rounded. -/
def shortPercentages : List ℤ := [29,57,58]

theorem scaledShare_percent {k : ℕ} (hk : k ≤ 100) :
    (scaledShare (ofInt k) (ofInt 100)).value < k ↔ (k : ℤ) ∈ shortPercentages := by
  have hall : ∀ i : Fin 101, (scaledShare (ofInt i) (ofInt 100)).numerator <
      i * (scaledShare (ofInt i) (ofInt 100)).denominator ↔ (i : ℤ) ∈ shortPercentages := by
    decide +kernel
  rw [← hall ⟨k,by omega⟩, value, div_lt_iff₀ (by exact_mod_cast denominator_pos _)]
  exact_mod_cast Iff.rfl

/-- A share that is a whole percentage before any rounding depends on nothing else. -/
theorem scaledShare_lt_iff (hh : h.isFinite = true) (ht : t.isFinite = true) (hzero : t.value ≠ 0) {k : ℕ}
    (hk : k ≤ 100) (hq : h.value / t.value = k / 100) :
    (scaledShare h t).value < k ↔ (k : ℤ) ∈ shortPercentages := by
  obtain ⟨hfin,hvalue⟩ := ofInt_natCast (n := k) (by rw [significandBound]; omega)
  obtain ⟨hhundred,hhundredValue⟩ := value_hundred
  have hk' : (k : ℚ) ≤ 100 := by exact_mod_cast hk
  have hle : |h.value / t.value| ≤ 2 := by
    rw [hq, abs_of_nonneg (by positivity), div_le_iff₀ (by norm_num)]
    linarith
  have hcongr := scaledShare_congr hh ht hfin hhundred hzero (by rw [hhundredValue]; norm_num) hle
    (by rw [hq, hvalue, hhundredValue])
  rw [hcongr]
  exact scaledShare_percent hk

theorem fallsShort_quarters_iff (hm : IsHoursOf m h) (ht : IsHoursOf n t) (h0 : 0 ≤ m) (hle : m ≤ n)
    (hn : 0 < n) (hm15 : 15 ∣ m) (hn15 : 15 ∣ n) :
    FallsShort m n ↔ n ∣ 100 * m ∧ 100 * m / n ∈ shortPercentages := by
  refine and_congr_right fun ⟨q,hq⟩ => ?_
  obtain ⟨i,rfl⟩ := hm15
  obtain ⟨j,rfl⟩ := hn15
  have hquot : 100 * (15 * i) / (15 * j) = q := by rw [hq, Int.mul_ediv_cancel_left q hn.ne']
  have hq0 : 0 ≤ q := by
    rw [← hquot]
    exact Int.ediv_nonneg (by omega) hn.le
  have hq100 : q ≤ 100 := by
    rw [← hquot]
    exact Int.ediv_le_of_le_mul hn (by omega)
  lift q to ℕ using hq0
  have hj : (0 : ℚ) < j := by exact_mod_cast (by omega : 0 < j)
  have hi' := hm.quarters
  have hj' := ht.quarters
  have hq' : (100 : ℚ) * i = j * q := by exact_mod_cast (by linarith : 100 * i = j * (q : ℤ))
  rw [hquot, ← hm.eq_hoursOfMinutes, ← ht.eq_hoursOfMinutes]
  apply scaledShare_lt_iff hm.isFinite ht.isFinite (by rw [hj']; positivity) (by exact_mod_cast hq100)
  rw [hi', hj', div_div_div_cancel_right₀ (by norm_num), div_eq_div_iff hj.ne' (by norm_num)]
  linarith

theorem not_fallsShort_all (ht : IsHoursOf n t) (hn : 0 < n) : ¬FallsShort n n := by
  rintro ⟨-,hlt⟩
  have hpos := ht.value_pos hn
  have hquot : t.value / t.value = (100 : ℕ) / 100 := by
    rw [div_self hpos.ne']
    norm_num
  have hshort := scaledShare_lt_iff ht.isFinite ht.isFinite hpos.ne' le_rfl hquot
  rw [Int.mul_ediv_cancel _ hn.ne', ← ht.eq_hoursOfMinutes] at hlt
  exact absurd (hshort.mp hlt) (by decide)

end

theorem WorkSummary.minutes_bounds {s : WorkSummary} (hs : s.tally.Nonneg) (cat : Category) :
    0 ≤ nearestMinutes (s.elapsed cat).micros ∧ nearestMinutes (s.elapsed cat).micros ≤ s.roundedMinutes :=
  ⟨nearestMinutes_nonneg (hs.get cat),Category.le_sum (fun c => nearestMinutes_nonneg (hs.get c)) cat⟩

/-- A percentage is the share in whole minutes, cut off, except where the share is a whole percentage by
itself and falls short of it when it is rounded; there it is one less. Nothing and all of the total never
fall short, and in quarters of an hour only 29, 57 and 58 percent do. -/
theorem monthBalance_percentages {c : Contract} {s : WorkSummary} {today : Date} {b : MonthBalance}
    (hs : s.tally.Nonneg) (hb : (monthBalance c s today).outcome = .ok b) :
    ∃ (target : Duration) (n : ℤ), (targetDuration c.workingHours s.period).outcome = .ok target ∧
      n = max (nearestMinutes target.micros) s.roundedMinutes ∧
      ∀ cat, ∃ m : ℤ, m = nearestMinutes (s.elapsed cat).micros ∧
        b.categoryHours.get cat = hoursOfMinutes m ∧ 0 ≤ m ∧ m ≤ n ∧
        (n = 0 → b.percentages.get cat = 0) ∧
        (0 < n →
          (b.percentages.get cat = if FallsShort m n then 100 * m / n - 1 else 100 * m / n) ∧
          (m = 0 ∨ m = n → ¬FallsShort m n) ∧
          (15 ∣ m → 15 ∣ n → (FallsShort m n ↔ n ∣ 100 * m ∧ 100 * m / n ∈ shortPercentages))) := by
  obtain ⟨target,total,htarget,htotal,hshares⟩ := monthBalance_shares hb
  refine ⟨target,_,htarget,rfl,fun cat => ?_⟩
  obtain ⟨hm,hpercent⟩ := hshares cat
  obtain ⟨h0,hle⟩ := WorkSummary.minutes_bounds hs cat
  have hmn := hle.trans (le_max_right (nearestMinutes target.micros) s.roundedMinutes)
  refine ⟨_,rfl,hm.eq_hoursOfMinutes,h0,hmn,fun hn => ?_,fun hn => ⟨?_,?_,?_⟩⟩
  · rw [percentage, if_pos (htotal.nonpos_iff.mpr hn.le)] at hpercent
    exact (Except.ok.inj hpercent).symm
  · exact percentage_of_minutes hm htotal h0 hmn hn hpercent
  · rintro (hzero | hall)
    · rw [hzero] at hm ⊢
      exact not_fallsShort_zero hm htotal hn
    · rw [hall]
      exact not_fallsShort_all htotal hn
  · exact fallsShort_quarters_iff hm htotal h0 hmn hn

/-- Five hours a day, of which February 2023 has twenty. -/
def fiveHourContract : Contract where
  firstDay := dayIn2023 32
  initialOvertime := .zero false
  initialVacation := .zero false
  workingHours := ⟨[⟨dayIn2023 32,ofInt 5⟩],by decide,by decide +kernel⟩
  vacationDays := .empty

def twentyNineHours : WorkSummary where
  period := ⟨dayIn2023 32,dayIn2023 60⟩
  tally := ⟨[(.work,⟨29 * 3600000000,by decide,by decide⟩)],by decide⟩

theorem monthBalance_percentages_twentyNine :
    twentyNineHours.tally.Nonneg ∧
      ∃ b, (monthBalance fiveHourContract twentyNineHours (dayIn2023 59)).outcome = .ok b ∧
        FallsShort 1740 6000 ∧ b.percentages.get .work = 28 := by
  have hnonneg : twentyNineHours.tally.Nonneg := by decide
  obtain ⟨b,hb⟩ : ∃ b, (monthBalance fiveHourContract twentyNineHours (dayIn2023 59)).outcome = .ok b :=
    exists_of_isOk (by decide +kernel)
  have hhundred : (targetDuration fiveHourContract.workingHours twentyNineHours.period).outcome =
      .ok ⟨100 * 3600000000,by decide,by decide⟩ := by decide +kernel
  have hshort : FallsShort 1740 6000 := by decide +kernel
  obtain ⟨target,n,htarget,hn,hpercentages⟩ := monthBalance_percentages hnonneg hb
  obtain rfl := Except.ok.inj (htarget.symm.trans hhundred)
  obtain rfl : n = 6000 := hn
  obtain ⟨m,hm,-,-,-,-,hpercent⟩ := hpercentages .work
  obtain rfl : m = 1740 := hm
  refine ⟨hnonneg,b,hb,hshort,?_⟩
  rw [(hpercent (by decide)).1, if_pos hshort]
  rfl

/-- Of 29 hours in 100, the month view says 28 percent. -/
theorem twentyNine_shown_as_twentyEight :
    twentyNineHours.tally.Nonneg ∧
      (targetDuration fiveHourContract.workingHours twentyNineHours.period).outcome =
        .ok ⟨100 * 3600000000,by decide,by decide⟩ ∧
      nearestMinutes (twentyNineHours.elapsed .work).micros = 1740 ∧
      max (nearestMinutes (100 * 3600000000)) twentyNineHours.roundedMinutes = 6000 ∧
      (100 * 1740 / 6000 : ℤ) = 29 ∧
      (monthBalance fiveHourContract twentyNineHours (dayIn2023 59)).outcome.map
        (fun b => (b.percentages.get .work,b.remainingPercentage)) = .ok (28,72) := by
  decide +kernel

end Flextime

import Flextime.Command.Run
import Flextime.Proofs.Balance.Figures
import Flextime.Proofs.Balance.Lifetime
import Flextime.Proofs.Report.SignedHours

/-! # When a report is made

A payload is refused with findings, or it is accepted and its figures are computed. Acceptance says
nothing about the size of the figures, so a report of an accepted payload is made exactly when they
fit; otherwise the run ends with a fault.
-/
namespace Flextime.Report
open Duration

/-- The balance of a contract so far, in whole minutes. -/
def lifetimeMinutes (c : Contract) (es : List Entry) (asOf : Date) : Int :=
  nearestMinutes (hoursMicros c.initialOvertime + logged es (lifetimePeriod c asOf) -
    c.workingHours.due (lifetimePeriod c asOf))

/-- The balance of a month up to a day, in the whole minutes of each category and of what is required. -/
def monthMinutes (c : Contract) (es : List Entry) (p : Period) (today : Date) : Int :=
  (Category.all.map fun cat => nearestMinutes (loggedAs es p cat)).sum -
    nearestMinutes (c.workingHours.owed (daysUntil today p.days))

/-- The figures of a report are in range, the calendar goes on after its day and its month, and both balances
have few enough digits to be read back. -/
structure Fits (s : Settings) (c : Contract) (es : List Entry) (asOf : Date) (year month : Int) : Prop where
  hoursDecimals : Writable s.hoursDecimals
  daysDecimals : Writable s.daysDecimals
  overtime : OvertimeFits c es (lifetimePeriod c asOf)
  overtimeReadBack : IsReadBack s.hoursDecimals.toNat (hoursOfMinutes (lifetimeMinutes c es asOf))
  vacation : VacationFits c es asOf
  followed : IsFollowed year month
  monthReadBack : ∀ p, monthPeriod year month = .ok p →
    IsReadBack s.hoursDecimals.toNat (hoursOfMinutes (monthMinutes c es p asOf))
  month : ∀ p, monthPeriod year month = .ok p → MonthFits c es p

section
variable {c : Contract} {es : List Entry}

theorem balanceHours_of_lifetimeBalance {asOf : Date} {s : WorkSummary} {b : LifetimeBalance}
    (hs : summarize es (lifetimePeriod c asOf) = .ok s) (hb : (lifetimeBalance c s asOf).outcome = .ok b) :
    b.overtime.balanceHours = hoursOfMinutes (lifetimeMinutes c es asOf) := by
  obtain ⟨target,htarget,-,-,-,hbalance⟩ := overtimeBalance_minutes (overtime_of_lifetimeBalance hb)
  have hcarried : carriedMicros c (lifetimePeriod c asOf) = hoursMicros c.initialOvertime := if_pos rfl
  rw [micros_of_target htarget, (summarize_eq_ok_iff.mp hs).1, hcarried, sum_of_summarize hs] at hbalance
  exact hbalance.eq_hoursOfMinutes

theorem balanceHours_of_monthBalance {p : Period} {today : Date} {s : WorkSummary} {b : MonthBalance}
    (hs : summarize es p = .ok s) (hb : (monthBalance c s today).outcome = .ok b) :
    b.balanceHours = hoursOfMinutes (monthMinutes c es p today) := by
  obtain ⟨required,hrequired,-,hbalance⟩ := monthBalance_minutes hb
  rw [micros_of_requiredDuration hrequired, (summarize_eq_ok_iff.mp hs).1, WorkSummary.roundedMinutes] at hbalance
  simp only [micros_of_elapsed hs] at hbalance
  exact hbalance.eq_hoursOfMinutes

end

theorem exists_written_iff {n : Int} (f : Nat → String) :
    (∃ t, (places n >>= fun k => pure (f k)) = .ok t) ↔ Writable n := by
  rw [← exists_places_iff]
  simp only [bind_eq_ok_iff]
  exact ⟨fun ⟨_,k,hk,_⟩ => ⟨k,hk⟩,fun ⟨k,hk⟩ => ⟨f k,k,hk,rfl⟩⟩

theorem exists_plainHours_iff {n : Int} {x : Binary64} : (∃ t, plainHours n x = .ok t) ↔ Writable n :=
  exists_written_iff x.fixedText

theorem plainHours_of_writable {n : Int} (h : Writable n) (x : Binary64) :
    plainHours n x = .ok (x.fixedText n.toNat) := by
  rw [plainHours, places_of_writable h]
  rfl

theorem exists_days_iff {n : Int} {x : Binary64} : (∃ t, days n x = .ok t) ↔ Writable n :=
  exists_written_iff fun k => x.fixedText k ++ " days"

theorem exists_lifetimeText_iff {s : Settings} {b : LifetimeBalance} :
    (∃ t, lifetimeText s b = .ok t) ↔ Writable s.hoursDecimals ∧
      IsReadBack s.hoursDecimals.toNat b.overtime.balanceHours ∧ Writable s.daysDecimals := by
  simp only [lifetimeText, bind_eq_ok_iff]
  constructor
  · rintro ⟨t,_,-,_,-,balance,hbalance,left,hleft,-⟩
    obtain ⟨hhours,hread⟩ := exists_signedHours_iff.mp ⟨balance,hbalance⟩
    exact ⟨hhours,hread,exists_days_iff.mp ⟨left,hleft⟩⟩
  · rintro ⟨hhours,hread,hdays⟩
    obtain ⟨balance,hbalance⟩ := exists_signedHours_iff.mpr ⟨hhours,hread⟩
    obtain ⟨left,hleft⟩ := (exists_days_iff (x := b.vacation.remainingDays)).mpr hdays
    have hplain := plainHours_of_writable hhours
    exact ⟨_,_,hplain _,_,hplain _,balance,hbalance,left,hleft,rfl⟩

theorem exists_categoryLines {s : Settings} (h : Writable s.hoursDecimals) (b : MonthBalance) :
    ∃ lines, Category.all.mapM (categoryLine s b) = .ok lines := by
  apply exists_mapM
  intro c _
  exact ⟨_,bind_eq_ok_iff.mpr ⟨_,plainHours_of_writable h _,rfl⟩⟩

theorem exists_monthText_iff {s : Settings} {b : MonthBalance} :
    (∃ t, monthText s b = .ok t) ↔
      Writable s.hoursDecimals ∧ IsReadBack s.hoursDecimals.toNat b.balanceHours := by
  simp only [monthText, bind_eq_ok_iff]
  constructor
  · rintro ⟨t,_,-,_,-,_,-,_,-,balance,hbalance,-⟩
    exact exists_signedHours_iff.mp ⟨balance,hbalance⟩
  · rintro ⟨hhours,hread⟩
    obtain ⟨lines,hlines⟩ := exists_categoryLines hhours b
    obtain ⟨balance,hbalance⟩ := exists_signedHours_iff.mpr ⟨hhours,hread⟩
    have hplain := plainHours_of_writable hhours
    exact ⟨_,lines,hlines,_,hplain _,_,hplain _,_,hplain _,balance,hbalance,_,hplain _,rfl⟩

/-- A day before the last month of the calendar is not its last day. -/
theorem lt_lastDayNumber {asOf : Date} (h : ¬(asOf.year = 9999 ∧ asOf.month = 12)) :
    asOf.number < lastDayNumber := by
  refine Nat.lt_of_le_of_ne asOf.le_last fun heq => h ?_
  obtain rfl : asOf = ⟨lastDayNumber,by decide,by decide⟩ := Date.ext_number heq
  decide

/-- The text of accepted input is made exactly when its figures fit. -/
theorem exists_text_iff {s : Settings} {d : Draft} {c : Contract} (hc : d.contract.terms = .ok c)
    (hday : c.workingHours.WithinDay) (hes : ∀ e ∈ d.entries.map EntryDraft.entry, e.IsValid) (asOf : Date)
    (year month : Int) :
    (∃ t, (text s d asOf year month).outcome = .ok t) ↔
      Fits s c (d.entries.map EntryDraft.entry) asOf year month := by
  simp only [text, Traced.outcome_bind, Traced.outcome_liftM, Traced.outcome_pure, bind_eq_ok_iff, hc]
  constructor
  · rintro ⟨t,_,⟨⟩,life,hlife,soFar,hsoFar,p,hp,sum,hsum,b,hb,first,hfirst,second,hsecond,-⟩
    obtain ⟨hovertime,hvacation⟩ := (exists_lifetimeBalance_iff hday hes asOf).mp ⟨life,soFar,hlife,hsoFar⟩
    obtain ⟨hhours,hreadSoFar,hdays⟩ := exists_lifetimeText_iff.mp ⟨first,hfirst⟩
    obtain ⟨-,hreadMonth⟩ := exists_monthText_iff.mp ⟨second,hsecond⟩
    rw [balanceHours_of_lifetimeBalance hlife hsoFar] at hreadSoFar
    rw [balanceHours_of_monthBalance hsum hb] at hreadMonth
    have hfollowed := exists_monthPeriod_iff.mp ⟨p,hp⟩
    refine ⟨hhours,hdays,hovertime,hreadSoFar,hvacation,hfollowed,?_,?_⟩
    · intro q hq
      obtain rfl : p = q := Except.ok.inj (hp.symm.trans hq)
      exact hreadMonth
    · intro q hq
      obtain rfl : p = q := Except.ok.inj (hp.symm.trans hq)
      obtain ⟨q,hq,hmonth⟩ := hfollowed.exists_monthPeriod
      obtain rfl : p = q := Except.ok.inj (hp.symm.trans hq)
      have htoday := lt_lastDayNumber hvacation.followed
      exact (exists_monthBalance_iff hday hes hmonth.le htoday).mp ⟨sum,b,hsum,hb⟩
  · rintro ⟨hhours,hdays,hovertime,hreadSoFar,hvacation,hfollowed,hreadMonth,hmonthFits⟩
    obtain ⟨life,soFar,hlife,hsoFar⟩ := (exists_lifetimeBalance_iff hday hes asOf).mpr ⟨hovertime,hvacation⟩
    obtain ⟨p,hp,hmonth⟩ := hfollowed.exists_monthPeriod
    obtain ⟨sum,b,hsum,hb⟩ := (exists_monthBalance_iff hday hes hmonth.le
      (lt_lastDayNumber hvacation.followed)).mpr (hmonthFits p hp)
    rw [← balanceHours_of_lifetimeBalance hlife hsoFar] at hreadSoFar
    have hreadSum := hreadMonth p hp
    rw [← balanceHours_of_monthBalance hsum hb] at hreadSum
    obtain ⟨first,hfirst⟩ := exists_lifetimeText_iff.mpr ⟨hhours,hreadSoFar,hdays⟩
    obtain ⟨second,hsecond⟩ := exists_monthText_iff.mpr ⟨hhours,hreadSum⟩
    exact ⟨_,c,rfl,life,hlife,soFar,hsoFar,p,hp,sum,hsum,b,hb,first,hfirst,second,hsecond,rfl⟩

theorem draft_eq_ok_iff {payload : List (Text × Json)} {d : Draft} :
    draft payload = .ok d ↔ Intake.contract (part payload "contract" (.object [])) = .ok d.contract ∧
      Intake.entries (part payload "entries" (.array [])) = .ok d.entries := by
  simp only [draft, bind_eq_ok_iff, mapError_eq_ok_iff, pure_eq_ok_iff]
  constructor
  · rintro ⟨contract,hcontract,entries,hentries,rfl⟩
    exact ⟨hcontract,hentries⟩
  · rintro ⟨hcontract,hentries⟩
    exact ⟨d.contract,hcontract,d.entries,hentries,rfl⟩

theorem build_of_draft {payload : List (Text × Json)} {d : Draft} (h : draft payload = .ok d) (s : Settings)
    (asOf : Date) (year month : Int) :
    build s payload asOf year month = .ok (text s d asOf year month) := by
  rw [build, h]
  rfl

/-- Of an accepted payload there are terms at rates of a day, and its entries are valid. -/
theorem accepted_of_draft {payload : List (Text × Json)} {d : Draft} (h : draft payload = .ok d) :
    (∃ c, d.contract.terms = .ok c ∧ c.workingHours.WithinDay) ∧
      ∀ e ∈ d.entries.map EntryDraft.entry, e.IsValid := by
  obtain ⟨hcontract,hentries⟩ := draft_eq_ok_iff.mp h
  have hwell := Intake.contract_wellFormed hcontract
  obtain ⟨c,hc⟩ := hwell.exists_terms
  exact ⟨⟨c,hc,hwell.withinDay hc⟩,Intake.entries_isValid hentries⟩

/-- A payload is refused, and the run says so; or it is accepted, and then a report is made and
printed when its figures fit, and the run ends with a fault that is no refusal when they do not. -/
theorem build_outcome (s : Settings) (payload : List (Text × Json)) (asOf : Date) (year month : Nat) :
    (∃ r, build s payload asOf year month = .error r ∧
      ∀ path text, Json.read text = .ok (.object payload) →
        (Command.report s path text asOf year month).2 = .invalidInput path (.refused r)) ∨
    ∃ d c t, draft payload = .ok d ∧ d.contract.terms = .ok c ∧ build s payload asOf year month = .ok t ∧
      (Fits s c (d.entries.map EntryDraft.entry) asOf year month → ∃ report, t.outcome = .ok report ∧
        ∀ path text, Json.read text = .ok (.object payload) →
          (Command.report s path text asOf year month).2 = .done report) ∧
      (¬Fits s c (d.entries.map EntryDraft.entry) asOf year month → ∃ fault, t.outcome = .error fault ∧
        ∀ path text, Json.read text = .ok (.object payload) →
          (Command.report s path text asOf year month).2 = .crashed (.fault fault)) := by
  cases hdraft : draft payload with
  | error r =>
    left
    have hbuild : build s payload asOf year month = .error r := by
      rw [build, hdraft]
      rfl
    refine ⟨r,hbuild,fun path text hread => ?_⟩
    simp only [Command.report, hread, hbuild]
  | ok d =>
    right
    obtain ⟨⟨c,hc,hday⟩,hes⟩ := accepted_of_draft hdraft
    have hbuild : build s payload asOf year month = .ok (text s d asOf year month) := by
      rw [build, hdraft]
      rfl
    have hiff := exists_text_iff (s := s) hc hday hes asOf year month
    refine ⟨d,c,_,rfl,hc,hbuild,fun hfits => ?_,fun hfits => ?_⟩
    · obtain ⟨report,hreport⟩ := hiff.mpr hfits
      refine ⟨report,hreport,fun path text hread => ?_⟩
      simp only [Command.report, hread, hbuild, hreport]
    · cases hout : (text s d asOf year month).outcome with
      | ok report => exact absurd (hiff.mp ⟨report,hout⟩) hfits
      | error fault =>
        refine ⟨fault,rfl,fun path text hread => ?_⟩
        simp only [Command.report, hread, hbuild, hout]

/-- A contract from March 2023 on, with an initial overtime. -/
def marchPayload (initialOvertime : Binary64) : List (Text × Json) := [("contract",.object [
  ("first_day",.string "2023-03-01"),
  ("init_overtime_hours",.number initialOvertime),
  ("working_hours",.array [.object [("first_day",.string "2023-03-01"),("hours",.int 8)]]),
  ("vacation_days",.array [.object [("first_day",.string "2023-03-01"),("days",.int 2)]])])]

theorem build_outcome_march : ∃ d c, draft (marchPayload (.zero false)) = .ok d ∧
    d.contract.terms = .ok c ∧ Fits {} c (d.entries.map EntryDraft.entry) endOfMarch2023 2023 3 := by
  have hok : (build {} (marchPayload (.zero false)) endOfMarch2023 2023 3).map (·.outcome.isOk) =
      .ok true := by decide +kernel
  rcases build_outcome {} (marchPayload (.zero false)) endOfMarch2023 2023 3 with
    ⟨r,hr,-⟩ | ⟨d,c,t,hd,hc,ht,-,hcrash⟩
  · rw [Nat.cast_ofNat, Nat.cast_ofNat] at hr
    rw [hr] at hok
    exact nomatch hok
  · refine ⟨d,c,hd,hc,?_⟩
    by_contra hfits
    obtain ⟨fault,hfault,-⟩ := hcrash hfits
    rw [Nat.cast_ofNat, Nat.cast_ofNat] at ht
    rw [ht] at hok
    have hout : t.outcome.isOk = true := Except.ok.inj hok
    rw [hfault] at hout
    exact nomatch hout

/-- Faults of accepted payloads: initial overtime that is not finite, a month of the year 0, and a day
of the last month of the calendar. -/
theorem build_escapes :
    (build {} (marchPayload (.infinite false)) endOfMarch2023 2023 3).map (·.outcome) =
        .ok (.error .infiniteInteger) ∧
      (build {} (marchPayload .nan) endOfMarch2023 2023 3).map (·.outcome) =
        .ok (.error .undefinedInteger) ∧
      (build {} (marchPayload (.zero false)) endOfMarch2023 0 1).map (·.outcome) =
        .ok (.error (.yearRange 0)) ∧
      (build {} (marchPayload (.zero false)) ⟨lastDayNumber,by decide,by decide⟩ 2023 3).map (·.outcome) =
        .ok (.error (.yearRange 10000)) := by
  decide +kernel

end Flextime.Report

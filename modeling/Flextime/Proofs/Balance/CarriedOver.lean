import Flextime.Proofs.Balance.Figures
import Flextime.Proofs.Duration.Conversion

/-! # Balances carried over

Reported hours are those of whole minutes, which the conversion to a duration and its rounding find again, at
the ends of the range as well. A balance can thus be carried into another contract as its initial overtime, and
is reported there as it was.
-/
namespace Flextime
open Duration

/-- A balance in hours, as a period or a month reports it. -/
inductive IsReportedBalance : Binary64 → Prop where
  | period {c : Contract} {s : WorkSummary} {b : OvertimeBalance} (h : (overtimeBalance c s).outcome = .ok b) :
      IsReportedBalance b.balanceHours
  | month {c : Contract} {s : WorkSummary} {today : Date} {b : MonthBalance}
      (h : (monthBalance c s today).outcome = .ok b) : IsReportedBalance b.balanceHours

theorem IsReportedBalance.exists_isHoursOf {x : Binary64} (h : IsReportedBalance x) : ∃ n, IsHoursOf n x := by
  cases h with
  | period h =>
    obtain ⟨_,-,-,-,-,hbalance⟩ := overtimeBalance_minutes h
    exact ⟨_,hbalance⟩
  | month h =>
    obtain ⟨_,-,-,hbalance⟩ := monthBalance_minutes h
    exact ⟨_,hbalance⟩

section
variable {c : Contract}

theorem exists_carriedOvertime {n : Int} (h : IsHoursOf n c.initialOvertime) {p : Period}
    (hp : p.start = c.firstDay) :
    ∃ carry r, carriedOvertime c p = .ok carry ∧ carry.roundToMinute = .ok r ∧
      r.micros = n * microsPerMinute ∧ r.hours = c.initialOvertime := by
  rw [carriedOvertime, if_pos hp]
  exact h.readBack

theorem initialHours_of_overtimeBalance {s : WorkSummary} {b : OvertimeBalance} {carry r : Duration}
    (h : (overtimeBalance c s).outcome = .ok b) (hcarry : carriedOvertime c s.period = .ok carry)
    (hr : carry.roundToMinute = .ok r) : b.initialHours = r.hours := by
  obtain ⟨o,rfl⟩ := overtimeBalance_eq_ok_iff.mp h
  obtain rfl := Except.ok.inj (hcarry.symm.trans o.carry_eq)
  obtain ⟨r',hr',hx⟩ := roundedHours_eq_ok_iff.mp o.initialHours_eq
  obtain rfl := Except.ok.inj (hr.symm.trans hr')
  exact hx

end

/-- Where a duration has rounded hours, these are hours of a duration that is rounded to the same minutes.
Rounding hours a second time therefore changes nothing, and a reported balance that is carried into a contract
has the same minutes there and is reported as the same hours. -/
theorem reportedHours_readBack :
    (∀ d x, roundedHours d = .ok x → ∃ u r, ofHours x = .ok u ∧ u.roundToMinute = .ok r ∧
      d.roundToMinute = .ok r) ∧
    (∀ x y, roundHours x = .ok y → roundHours y = .ok y) ∧
    ∀ (c : Contract) (s : WorkSummary), IsReportedBalance c.initialOvertime → s.period.start = c.firstDay →
      ∃ carry r, carriedOvertime c s.period = .ok carry ∧ carry.roundToMinute = .ok r ∧
        r.micros = wholeMinutes c.initialOvertime * microsPerMinute ∧
        ∀ b, (overtimeBalance c s).outcome = .ok b → b.initialHours = c.initialOvertime := by
  refine ⟨fun d x hx => ?_,fun x y hy => (isHoursOf_of_roundHours hy).roundHours,fun c s hreported hstart => ?_⟩
  · obtain ⟨r,hr,rfl⟩ := roundedHours_eq_ok_iff.mp hx
    obtain ⟨u,v,hu,hv,hminutes,-⟩ := (isHoursOf_of_roundedHours hx).readBack
    obtain rfl : v = r := ext_micros (hminutes.trans (micros_of_roundToMinute hr).symm)
    exact ⟨u,v,hu,hv,hr⟩
  · obtain ⟨n,hn⟩ := hreported.exists_isHoursOf
    obtain ⟨carry,r,hcarry,hr,hminutes,hhours⟩ := exists_carriedOvertime hn hstart
    refine ⟨carry,r,hcarry,hr,by rw [hminutes, hn.wholeMinutes],fun b hb => ?_⟩
    rw [initialHours_of_overtimeBalance hb hcarry hr, hhours]

/-- The longest duration that can be rounded. -/
def longestRoundable : Duration := ⟨1000000000 * 86400000000 - 30000001,by decide,by decide⟩

/-- The contract that follows with the balance of the Monday. -/
def followingContract : Contract :=
  { oddContract with firstDay := dayIn2023 3, initialOvertime := hoursOfMinutes (-478) }

def oneTuesday : WorkSummary := ⟨⟨dayIn2023 3,dayIn2023 4⟩,halfMinutes⟩

/-- Both ends of the range, and an undertime of seven hours and 58 minutes, which is no number, carried from a
Monday to a Tuesday. -/
theorem reportedHours_readBack_ends :
    (∃ x u r, longestRoundable.roundedHours = .ok x ∧ ofHours x = .ok u ∧ u.roundToMinute = .ok r ∧
      longestRoundable.roundToMinute = .ok r) ∧
    (∃ x u r, least.roundedHours = .ok x ∧ ofHours x = .ok u ∧ u.roundToMinute = .ok r ∧
      least.roundToMinute = .ok r) ∧
    ∃ o b, (overtimeBalance oddContract oneMonday).outcome = .ok o ∧
      followingContract.initialOvertime = o.balanceHours ∧
      (overtimeBalance followingContract oneTuesday).outcome = .ok b ∧
      b.initialHours = o.balanceHours := by
  obtain ⟨hback,-,hcarried⟩ := reportedHours_readBack
  refine ⟨?_,?_,?_⟩
  · obtain ⟨x,hx⟩ := exists_roundedHours_iff.mpr (by unfold Roundable; decide : Roundable longestRoundable.micros)
    obtain ⟨u,r,h⟩ := hback _ x hx
    exact ⟨x,u,r,hx,h⟩
  · obtain ⟨x,hx⟩ := exists_roundedHours_iff.mpr (by unfold Roundable; decide : Roundable least.micros)
    obtain ⟨u,r,h⟩ := hback _ x hx
    exact ⟨x,u,r,hx,h⟩
  · have hmonday : ((overtimeBalance oddContract oneMonday).outcome.map (·.balanceHours)) =
        .ok (hoursOfMinutes (-478)) := by decide +kernel
    obtain ⟨o,ho,hbalance⟩ := map_eq_ok_iff.mp hmonday
    obtain ⟨b,hb⟩ : ∃ b, (overtimeBalance followingContract oneTuesday).outcome = .ok b :=
      exists_of_isOk (by decide +kernel)
    have hreported : IsReportedBalance followingContract.initialOvertime := by
      have h := IsReportedBalance.period ho
      rwa [hbalance] at h
    obtain ⟨_,_,-,-,-,hinitial⟩ := hcarried followingContract oneTuesday hreported rfl
    exact ⟨o,b,ho,hbalance.symm,hb,(hinitial b hb).trans hbalance.symm⟩

end Flextime

import Flextime.Proofs.Binary64.Difference
import Flextime.Proofs.RateTimeline.Lookup

/-! # Refused rates

Changes make a timeline unless one of them has a rate below nothing, and the first such change is the one
named. An undefined rate is not below nothing, though it is not at least nothing either. It gets into the
timeline, and nothing else that is not at least nothing does.
-/
namespace Flextime
open Binary64

theorem RateChange.isNegative_eq_false_iff {c : RateChange} :
    c.isNegative = false ↔ c.rate = .nan ∨ (zero false).le c.rate = true := by
  rw [isNegative, lt_eq_false_iff]
  simp [zero]

namespace RateTimeline

theorem ofChanges_eq_error_iff {cs : List RateChange} {f : Fault} :
    ofChanges cs = .error f ↔ ∃ c, cs.find? (·.isNegative) = some c ∧ f = .negativeRate c.rate c.effective := by
  unfold ofChanges
  split
  next c hc => simp [hc, eq_comm]
  next hc => simp [hc]

theorem exists_refused_iff {cs : List RateChange} :
    (∃ f, ofChanges cs = .error f) ↔ ∃ c ∈ cs, c.isNegative = true := by
  simp only [ofChanges_eq_error_iff, exists_comm (α := Fault), exists_and_left, exists_eq, and_true]
  rw [← Option.isSome_iff_exists, List.find?_isSome]

/-- A rate that is not at least nothing is that of an undefined change in effect. -/
theorem le_rateAt_eq_false_iff {cs : List RateChange} {t : RateTimeline} (h : ofChanges cs = .ok t) {day : Date} :
    (zero false).le (t.rateAt day) = false ↔ ∃ c, IsInEffect cs day c ∧ c.rate = .nan := by
  constructor
  · intro hrate
    have hbegun : ∃ c ∈ t.changes, c.effective ≤ day := by
      by_contra hnone
      push Not at hnone
      rw [rateAt_of_not_begun hnone, zero_le_zero] at hrate
      exact nomatch hrate
    obtain ⟨c,hc,heq⟩ := t.exists_isInEffect hbegun
    refine ⟨c,(isInEffect_iff_of_ofChanges h).mp hc,?_⟩
    rw [heq] at hrate
    exact (RateChange.isNegative_eq_false_iff.mp (t.admissible c hc.mem)).resolve_right (by simp [hrate])
  · rintro ⟨c,hc,hnan⟩
    have hc' := (isInEffect_iff_of_ofChanges h).mpr hc
    obtain ⟨e,he,hrate⟩ := t.exists_isInEffect ⟨c,hc'.mem,hc'.effective⟩
    rw [hrate, he.unique hc', hnan]
    rfl

/-- Changes are refused for the first rate given that is below nothing, and for nothing else. So all rates of a
timeline are at least nothing, except on the days on which the change in effect is undefined. -/
theorem ofChanges_refusal (cs : List RateChange) :
    ((∃ t, ofChanges cs = .ok t) ↔ ∀ c ∈ cs, c.rate = .nan ∨ (zero false).le c.rate = true) ∧
    (∀ f, ofChanges cs = .error f ↔ ∃ front c rest, cs = front ++ c :: rest ∧
      (∀ e ∈ front, e.rate = .nan ∨ (zero false).le e.rate = true) ∧ c.rate.lt (zero false) = true ∧
      f = .negativeRate c.rate c.effective) ∧
    ∀ t, ofChanges cs = .ok t → ∀ day,
      ((zero false).le (t.rateAt day) = false ↔ ∃ c, IsInEffect cs day c ∧ c.rate = .nan) := by
  refine ⟨?_,fun f => ?_,fun t ht day => le_rateAt_eq_false_iff ht⟩
  · simp only [exists_ofChanges_iff, RateChange.isNegative_eq_false_iff]
  · rw [ofChanges_eq_error_iff]
    simp only [List.find?_eq_some_iff_append, Bool.not_eq_true', RateChange.isNegative_eq_false_iff]
    constructor
    · rintro ⟨c,⟨hneg,front,rest,rfl,hfront⟩,rfl⟩
      exact ⟨front,c,rest,rfl,hfront,hneg,rfl⟩
    · rintro ⟨front,c,rest,rfl,hfront,hneg,rfl⟩
      exact ⟨c,⟨hneg,front,rest,rfl,hfront⟩,rfl⟩

/-- Minus nothing from the second of January on, no bound from the tenth and undefined from the sixteenth. -/
def unboundedHours : List RateChange :=
  [⟨dayIn2023 2,.zero true⟩,⟨dayIn2023 16,.nan⟩,⟨dayIn2023 10,.infinite false⟩]

/-- Two negative rates behind them, the later day first. -/
def negativeHours : List RateChange :=
  unboundedHours ++ [⟨dayIn2023 20,-ofInt 1⟩,⟨dayIn2023 1,-ofFraction false 1 2⟩]

theorem ofChanges_refusal_unbounded :
    ofChanges negativeHours = .error (.negativeRate (-ofInt 1) (dayIn2023 20)) ∧
      ∃ t, ofChanges unboundedHours = .ok t ∧ (zero false).le (t.rateAt (dayIn2023 19)) = false ∧
        (zero false).le (t.rateAt (dayIn2023 15)) = true := by
  constructor
  · exact ((ofChanges_refusal negativeHours).2.1 _).mpr
      ⟨unboundedHours,_,_,rfl,by decide +kernel,by decide +kernel,rfl⟩
  · obtain ⟨haccepted,-,hrates⟩ := ofChanges_refusal unboundedHours
    obtain ⟨t,ht⟩ := haccepted.mpr (by decide +kernel)
    have hundefined : IsInEffect unboundedHours (dayIn2023 19) ⟨dayIn2023 16,.nan⟩ :=
      ⟨⟨by decide +kernel,by decide,by decide +kernel⟩,by decide +kernel⟩
    have hinfinite : IsInEffect unboundedHours (dayIn2023 15) ⟨dayIn2023 10,.infinite false⟩ :=
      ⟨⟨by decide +kernel,by decide,by decide +kernel⟩,by decide +kernel⟩
    refine ⟨t,ht,(hrates t ht _).mpr ⟨_,hundefined,rfl⟩,Bool.eq_true_of_not_eq_false fun hbelow => ?_⟩
    obtain ⟨c,hc,hnan⟩ := (hrates t ht _).mp hbelow
    obtain rfl := hc.unique hinfinite
    exact nomatch hnan

def undefinedHours : List RateChange := [⟨dayIn2023 1,.nan⟩]

/-- Being at least nothing is not what decides, and not all that gets in is at least nothing. -/
theorem undefinedRate_accepted :
    ¬((∃ t, ofChanges undefinedHours = .ok t) ↔ ∀ c ∈ undefinedHours, (zero false).le c.rate = true) ∧
      ∃ t, ofChanges undefinedHours = .ok t ∧ (zero false).le (t.rateAt (dayIn2023 1)) = false := by
  obtain ⟨t,ht⟩ := exists_ofChanges_iff.mpr (by decide : ∀ c ∈ undefinedHours, c.isNegative = false)
  constructor
  · intro hdecides
    exact absurd (hdecides.mp ⟨t,ht⟩) (by decide)
  · have heffective : IsInEffect undefinedHours (dayIn2023 1) ⟨dayIn2023 1,.nan⟩ :=
      ⟨⟨by decide +kernel,by decide,by decide +kernel⟩,by decide +kernel⟩
    exact ⟨t,ht,(le_rateAt_eq_false_iff ht).mpr ⟨_,heffective,rfl⟩⟩

end RateTimeline
end Flextime

import Flextime.Intake.Field
import Flextime.Proofs.Binary64.Arithmetic
import Flextime.Proofs.Outcome

/-! # What the readers of fields accept

A reader ends with a value exactly when it has found one of the form that it reads.
-/
namespace Flextime

/-- A count is at the midnight of a date when it is a whole number of days from the epoch. -/
theorem Timestamp.exists_midnight_iff {n : Int} {d : Date} :
    (∃ t, ofCount? n 0 = some t ∧ t.time = 0 ∧ t.date? = some d) ↔
      n * (if n.natAbs ≤ mostSeconds then 1000000 else 1000) = (d.number - epochNumber) * microsPerDay := by
  have hlow := d.one_le
  have hhigh := d.le_last
  simp only [ofCount?, date?, Date.ofNumber?_eq_some_iff, time, day, Option.ite_none_right_eq_some,
    Option.some.injEq, and_assoc, exists_and_left, exists_eq_left', Nat.cast_zero, add_zero, firstDay, epochNumber,
    lastDayNumber, microsPerDay] at hhigh ⊢
  omega

namespace Intake
variable {α β : Type} {name : String} {read : Json → Intake α} {ms : List (Text × Json)} {v : Json} {a : α}

theorem forall₂_and_right {R : α → β → Prop} {P : β → Prop} {as : List α} {bs : List β} :
    List.Forall₂ (fun a b => R a b ∧ P b) as bs ↔ List.Forall₂ R as bs ∧ ∀ b ∈ bs, P b := by
  constructor
  · intro h
    induction h with
    | nil => simp
    | cons hab _ ih => exact ⟨.cons hab.1 ih.1,List.forall_mem_cons.mpr ⟨hab.2,ih.2⟩⟩
  · rintro ⟨hR,hP⟩
    induction hR with
    | nil => exact .nil
    | cons hab _ ih =>
      rw [List.forall_mem_cons] at hP
      exact .cons ⟨hab,hP.1⟩ (ih hP.2)

theorem members_eq_ok_iff : members v = .ok ms ↔ v = .object ms := by
  cases v <;> simp [members, refuse]

theorem required_eq_ok_iff : required name read ms = .ok a ↔
    ∃ v, ms.lookup (Text.ofString name) = some v ∧ read v = .ok a := by
  rw [required, under_eq_ok_iff]
  cases ms.lookup (Text.ofString name) with
  | none => simp [refuse]
  | some v => simp

/-- Under whatever steps the findings would be reported, all items are read or none is. -/
theorem mapIdx_under_eq_ok_iff (step : Nat → Step) {vs : List Json} {as : List α} :
    (vs.mapIdx fun i v => under (step i) (read v)) = as.map Except.ok ↔
      List.Forall₂ (fun v a => read v = .ok a) vs as := by
  induction vs generalizing step as with
  | nil => simp [eq_comm]
  | cons v vs ih =>
    cases as with
    | nil => simp
    | cons a as =>
      rw [List.mapIdx_cons, List.map_cons, List.cons.injEq, under_eq_ok_iff, ih fun i => step (i + 1),
        List.forall₂_cons]

theorem list_eq_ok_iff {as : List α} : list read v = .ok as ↔
    ∃ vs, v = .array vs ∧ List.Forall₂ (fun w a => read w = .ok a) vs as := by
  cases v with
  | array vs => simp [list, every_eq_ok_iff, mapIdx_under_eq_ok_iff]
  | _ => simp [list, refuse]

theorem nonemptyList_eq_ok_iff {as : List α} :
    nonemptyList read v = .ok as ↔ list read v = .ok as ∧ as ≠ [] := by
  unfold nonemptyList
  split
  next =>
    constructor
    · intro h
      exact nomatch h
    · rintro ⟨h,hne⟩
      exact absurd (Except.ok.inj h).symm hne
  next hv =>
    refine ⟨fun h => ⟨h,?_⟩,And.left⟩
    rintro rfl
    obtain ⟨vs,rfl,hvs⟩ := list_eq_ok_iff.mp h
    exact hv (by rw [List.forall₂_nil_right_iff.mp hvs])

theorem bounded_eq_ok_iff {max? : Option Binary64} {x : Binary64} :
    bounded max? v = .ok x ↔ number v = .ok x ∧ (Binary64.zero false).le x = true ∧
      ∀ m, max? = some m → x.le m = true := by
  unfold bounded
  rw [bind_eq_ok_iff]
  constructor
  · rintro ⟨y,hy,h⟩
    split at h
    · exact nomatch h
    next hmax =>
      split at h
      · exact nomatch h
      next hmin =>
        obtain rfl := pure_eq_ok_iff.mp h
        refine ⟨hy,by simpa using hmin,?_⟩
        rintro m rfl
        simpa using hmax
  · rintro ⟨hx,hmin,hmax⟩
    refine ⟨x,hx,?_⟩
    have hbelow : ¬(max?.any fun m => !x.le m) = true := by
      cases max? with
      | none => simp
      | some m => simp [hmax m rfl]
    rw [if_neg hbelow, hmin]
    rfl

theorem midnight_eq_ok_iff {time : Nat} {date? : Option Date} {d : Date} :
    midnight time date? = .ok d ↔ time = 0 ∧ date? = some d := by
  unfold midnight
  split
  next htime => exact iff_of_false nofun fun h => htime h.1
  next htime =>
    rw [not_not] at htime
    cases date? <;> simp [htime, refuse]

/-- A whole number is read as a date when it counts the seconds up to its midnight, or far from zero the
milliseconds. -/
theorem date_int_eq_ok_iff {n : Int} {d : Date} : date (.int n) = .ok d ↔
    n * (if n.natAbs ≤ Timestamp.mostSeconds then 1000000 else 1000) = (d.number - epochNumber) * microsPerDay := by
  have hfinite : n * (if n.natAbs ≤ Timestamp.mostSeconds then 1000000 else 1000) =
      (d.number - epochNumber) * microsPerDay → (Binary64.ofInt n).isFinite = true := by
    intro h
    have hhigh := d.le_last
    refine (Binary64.ofFraction_whole false (k := n) Nat.one_pos ?_ (by simp)).1
    unfold significandBound
    simp only [lastDayNumber, epochNumber, microsPerDay] at h hhigh
    split at h <;> omega
  rw [← Timestamp.exists_midnight_iff] at hfinite ⊢
  simp only [date, counted, bind_eq_ok_iff, midnight_eq_ok_iff]
  constructor
  · rintro ⟨t,ht,hd⟩
    refine ⟨t,?_,hd⟩
    split at ht
    · split at ht
      next t' ht' => rw [ht', Except.ok.inj ht]
      next => exact nomatch ht
    · exact nomatch ht
  · rintro ⟨t,ht,hd⟩
    exact ⟨t,by rw [if_pos (hfinite ⟨t,ht,hd⟩), ht],hd⟩

theorem monthStart_eq_ok_iff {d : Date} : monthStart v = .ok d ↔ date v = .ok d ∧ d.day = 1 := by
  unfold monthStart
  rw [bind_eq_ok_iff]
  constructor
  · rintro ⟨e,he,h⟩
    split at h
    next hday =>
      obtain rfl := pure_eq_ok_iff.mp h
      exact ⟨he,hday⟩
    next => exact nomatch h
  · rintro ⟨hd,hday⟩
    exact ⟨d,hd,by rw [if_pos hday]; rfl⟩

theorem localMoment_eq_ok {v : Json} {m : Moment} (h : localMoment v = .ok m) : m.isZoned = false := by
  unfold localMoment at h
  split at h
  next t =>
    obtain ⟨s,-,hs⟩ := bind_eq_ok_iff.mp h
    split at hs
    next stamp _ =>
      split at hs
      · exact nomatch hs
      next hzone =>
        split at hs
        next m' hm =>
          obtain rfl := pure_eq_ok_iff.mp hs
          obtain ⟨d,-,rfl⟩ := Option.map_eq_some_iff.mp hm
          exact Bool.eq_false_iff.mpr hzone
        next => exact nomatch hs
    next => exact nomatch hs
    next => exact nomatch hs
  next =>
    obtain ⟨_,-,hs⟩ := bind_eq_ok_iff.mp h
    exact nomatch hs

end Intake
end Flextime

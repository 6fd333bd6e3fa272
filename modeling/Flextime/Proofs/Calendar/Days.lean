import Flextime.Calendar.WorkingDays
import Mathlib.Algebra.BigOperators.Group.List.Basic
import Mathlib.Algebra.Order.Ring.Int

/-! # The days of a period

A period as the list of its days, and a list of cuts as the periods between them. Counting the
working days one by one agrees with the closed form, and what is additive at every cut adds up
over a whole row of cuts.
-/
namespace Flextime

theorem workingDaysBefore_next (d : Date) :
    workingDaysBefore (d.number + 1) = workingDaysBefore d.number + if d.isWorkingDay then 1 else 0 := by
  have h := d.one_le
  unfold workingDaysBefore Date.isWorkingDay Date.weekday
  by_cases hw : (d.number - 1) % 7 < 5
  · rw [decide_eq_true hw, if_pos rfl]
    omega
  · rw [decide_eq_false hw, if_neg Bool.false_ne_true]
    omega

namespace Date

theorem number_min (a b : Date) : (min a b).number = min a.number b.number := by
  change (if a ≤ b then a else b).number = _
  by_cases h : a ≤ b
  · rw [if_pos h, Nat.min_eq_left h]
  · rw [if_neg h, Nat.min_eq_right (Nat.le_of_not_le h)]

theorem ascending_nodup {ds : List Date} (h : ds.Pairwise (· < ·)) : ds.Nodup := by
  refine h.imp ?_
  rintro d _ hlt rfl
  exact Nat.lt_irrefl _ hlt

/-- An ascending list is known from its members. -/
theorem eq_of_ascending {ds es : List Date} (hds : ds.Pairwise (· < ·)) (hes : es.Pairwise (· < ·))
    (h : ∀ d, d ∈ ds ↔ d ∈ es) : ds = es := by
  refine List.Perm.eq_of_pairwise ?_ hds hes ?_
  · intro d e _ _ hde hed
    exact absurd (Nat.lt_trans hde hed) (Nat.lt_irrefl _)
  · exact (List.perm_ext_iff_of_nodup (ascending_nodup hds) (ascending_nodup hes)).mpr h

end Date

namespace Period

/-- The days of a period in order. -/
def days (p : Period) : List Date :=
  (List.range' p.start.number (p.stop.number - p.start.number)).filterMap fun n : Nat => Date.ofNumber? n

/-- Its Mondays to Fridays. -/
def workdays (p : Period) : List Date := p.days.filter Date.isWorkingDay

theorem mem_days {p : Period} {d : Date} : d ∈ p.days ↔ p.start ≤ d ∧ d < p.stop := by
  simp only [days, List.mem_filterMap, List.mem_range'_1, Date.ofNumber?_eq_some_iff, Date.le_iff,
    Date.lt_iff]
  constructor
  · rintro ⟨n, hn, hd⟩
    omega
  · intro h
    exact ⟨d.number, by omega, rfl⟩

theorem days_sorted (p : Period) : p.days.Pairwise (· < ·) := by
  rw [days, List.pairwise_filterMap]
  refine (List.pairwise_lt_range' 1).imp ?_
  intro m n hmn d hd e he
  rw [Date.ofNumber?_eq_some_iff] at hd he
  rw [Date.lt_iff]
  omega

theorem length_days_le (p : Period) : p.days.length ≤ lastDayNumber := by
  have h := List.length_filterMap_le (fun n : Nat => Date.ofNumber? n)
    (List.range' p.start.number (p.stop.number - p.start.number))
  rw [List.length_range'] at h
  exact Nat.le_trans h (Nat.le_trans (Nat.sub_le p.stop.number _) p.stop.le_last)

theorem length_workdays_le (p : Period) : p.workdays.length ≤ lastDayNumber :=
  (List.length_filter_le _ _).trans p.length_days_le

theorem days_of_le {p : Period} (h : p.stop ≤ p.start) : p.days = [] := by
  rw [days, Nat.sub_eq_zero_of_le h]
  rfl

theorem days_append {a b c : Date} (hab : a ≤ b) (hbc : b ≤ c) :
    days ⟨a,c⟩ = days ⟨a,b⟩ ++ days ⟨b,c⟩ := by
  rw [Date.le_iff] at hab hbc
  have hr : List.range' a.number (c.number - a.number) =
      List.range' a.number (b.number - a.number) ++ List.range' b.number (c.number - b.number) := by
    have h := List.range'_append_1 (s := a.number) (m := b.number - a.number) (n := c.number - b.number)
    rw [show a.number + (b.number - a.number) = b.number by omega] at h
    rw [h]
    congr 1
    omega
  simp only [days, hr, List.filterMap_append]

theorem days_single {d e : Date} (h : e.number = d.number + 1) : days ⟨d,e⟩ = [d] := by
  have hd : Date.ofNumber? d.number = some d := Date.ofNumber?_eq_some_iff.mpr rfl
  simp only [days, h, Nat.add_sub_cancel_left, List.range'_one, List.filterMap_cons, hd,
    List.filterMap_nil]

/-- The days before a date are those of the period cut off at it. -/
theorem filter_days_lt (p : Period) (f : Date) :
    p.days.filter (fun d => decide (d < f)) = days ⟨p.start,min f p.stop⟩ := by
  refine Date.eq_of_ascending (p.days_sorted.filter _) (days_sorted _) fun d => ?_
  rw [List.mem_filter, mem_days, mem_days, decide_eq_true_eq]
  simp only [Date.le_iff, Date.lt_iff, Date.number_min]
  omega

theorem length_workdays {a b : Date} (h : a ≤ b) :
    ((workdays ⟨a,b⟩).length : Int) = workingDays a b := by
  -- on the length of the period: its last day is split off
  obtain ⟨n, hn⟩ : ∃ n, b.number = a.number + n := ⟨b.number - a.number, by rw [Date.le_iff] at h; omega⟩
  induction n generalizing b with
  | zero =>
    obtain rfl : a = b := Date.ext_number hn.symm
    rw [workdays, days_of_le (Nat.le_refl _), workingDays_self]
    rfl
  | succ n ih =>
    let d : Date := ⟨a.number + n, by have := a.one_le; omega, by have := b.le_last; omega⟩
    have had : a ≤ d := Nat.le_add_right _ _
    have hdb : b.number = d.number + 1 := hn
    have hlast : d ≤ b := by rw [Date.le_iff]; omega
    have hstep := workingDaysBefore_next d
    have hd := ih had rfl
    rw [workdays] at hd ⊢
    rw [days_append had hlast, days_single hdb, List.filter_append, List.length_append, Int.natCast_add, hd]
    simp only [workingDays, hdb, hstep]
    cases hw : d.isWorkingDay with
    | false => simp [hw]
    | true => simp [hw]; omega

/-- The periods between neighbouring cuts. -/
def between (cuts : List Date) : List Period := (cuts.zip cuts.tail).map fun c => ⟨c.1,c.2⟩

@[simp] theorem between_single (a : Date) : between [a] = [] := rfl

@[simp] theorem between_cons (a b : Date) (rest : List Date) :
    between (a :: b :: rest) = ⟨a,b⟩ :: between (b :: rest) := rfl

theorem length_between (a : Date) (rest : List Date) : (between (a :: rest)).length = rest.length := by
  simp [between]

theorem ends_of_mem_between {cuts : List Date} {p : Period} (hp : p ∈ between cuts) :
    p.start ∈ cuts ∧ p.stop ∈ cuts := by
  obtain ⟨c, hc, rfl⟩ := List.mem_map.mp hp
  exact ⟨(List.of_mem_zip hc).1,List.mem_of_mem_tail (List.of_mem_zip hc).2⟩

/-- A piece of sorted cuts lies in order and has no cut inside. -/
theorem cut_of_mem_between {cuts : List Date} (hs : cuts.Pairwise (· ≤ ·)) {p : Period}
    (hp : p ∈ between cuts) : p.start ≤ p.stop ∧ ∀ d ∈ cuts, d ≤ p.start ∨ p.stop ≤ d := by
  induction cuts with
  | nil => simp [between] at hp
  | cons a rest ih =>
    cases rest with
    | nil => simp [between] at hp
    | cons b rest =>
      obtain ⟨ha, hrest⟩ := List.pairwise_cons.mp hs
      rw [between_cons, List.mem_cons] at hp
      rcases hp with rfl | hp
      · refine ⟨ha b List.mem_cons_self, fun d hd => ?_⟩
        rcases List.mem_cons.mp hd with rfl | hd
        · exact Or.inl (Nat.le_refl _)
        · rcases List.mem_cons.mp hd with rfl | hd
          · exact Or.inr (Nat.le_refl _)
          · exact Or.inr ((List.pairwise_cons.mp hrest).1 d hd)
      · obtain ⟨hle, hcut⟩ := ih hrest hp
        refine ⟨hle, fun d hd => ?_⟩
        rcases List.mem_cons.mp hd with rfl | hd
        · exact Or.inl (ha _ (ends_of_mem_between hp).1)
        · exact hcut d hd

theorem exists_mem_between {a z : Date} {rest : List Date} (hz : (a :: rest).getLast? = some z)
    {d : Date} (ha : a ≤ d) (hd : d < z) : ∃ p ∈ between (a :: rest), p.start ≤ d ∧ d < p.stop := by
  induction rest generalizing a with
  | nil =>
    obtain rfl : a = z := by simpa using hz
    exact absurd (Nat.lt_of_le_of_lt ha hd) (Nat.lt_irrefl _)
  | cons b rest ih =>
    rw [List.getLast?_cons_cons] at hz
    by_cases hb : b ≤ d
    · obtain ⟨p,hp,hin⟩ := ih hz hb
      exact ⟨p,List.mem_cons_of_mem _ hp,hin⟩
    · exact ⟨⟨a,b⟩,List.mem_cons_self,ha,Nat.lt_of_not_le hb⟩

/-- What is additive at every cut adds up over a row of cuts. -/
theorem sum_between {f : Period → Int}
    (hf : ∀ a b c : Date, a ≤ b → b ≤ c → f ⟨a,b⟩ + f ⟨b,c⟩ = f ⟨a,c⟩)
    {a z : Date} {rest : List Date} (hs : (a :: rest).Pairwise (· ≤ ·))
    (hz : (a :: rest).getLast? = some z) : ((between (a :: rest)).map f).sum = f ⟨a,z⟩ := by
  induction rest generalizing a with
  | nil =>
    obtain rfl : a = z := by simpa using hz
    have h := hf a a a (Nat.le_refl _) (Nat.le_refl _)
    rw [between_single, List.map_nil, List.sum_nil]
    omega
  | cons b rest ih =>
    obtain ⟨ha, hrest⟩ := List.pairwise_cons.mp hs
    rw [List.getLast?_cons_cons] at hz
    have hbz : b ≤ z := by
      rcases List.mem_cons.mp (List.mem_of_getLast? hz) with rfl | hm
      · exact Nat.le_refl _
      · exact (List.pairwise_cons.mp hrest).1 z hm
    rw [between_cons, List.map_cons, List.sum_cons, ih hrest hz]
    exact hf a b z (ha b List.mem_cons_self) hbz

end Period

/-- Day `n` of the year 2023; its first day is a Sunday. -/
def dayIn2023 (n : Nat) : Date := (Date.ofNumber? (738520 + n : Nat)).getD default

end Flextime

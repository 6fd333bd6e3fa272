import Flextime.Trace
import Mathlib.Algebra.Order.Ring.Int
import Mathlib.Data.List.Forall2

/-! # Taking results apart

When a chain of steps ends with a value, every step of it did.
-/
namespace Flextime
variable {ε α β γ : Type}

theorem bind_eq_ok_iff {x : Except ε α} {f : α → Except ε β} {b : β} :
    x >>= f = .ok b ↔ ∃ a, x = .ok a ∧ f a = .ok b := by
  cases x with
  | ok a => exact ⟨fun h => ⟨a,rfl,h⟩, fun ⟨_,h,hf⟩ => by cases h; exact hf⟩
  | error e => exact ⟨(fun h => nomatch h), fun ⟨_,h,_⟩ => nomatch h⟩

theorem ok_bind (a : α) (f : α → Except ε β) : Except.ok a >>= f = f a := rfl

theorem pure_eq_ok_iff {a b : α} : (pure a : Except ε α) = .ok b ↔ a = b :=
  ⟨fun h => by cases h; rfl, fun h => by cases h; rfl⟩

theorem map_eq_ok_iff {x : Except ε α} {f : α → β} {b : β} : x.map f = .ok b ↔ ∃ a, x = .ok a ∧ f a = b := by
  cases x with
  | ok a => exact ⟨fun h => ⟨a,rfl,Except.ok.inj h⟩,fun ⟨_,h,hf⟩ => by cases h; exact congrArg _ hf⟩
  | error e => exact ⟨(fun h => nomatch h),fun ⟨_,h,_⟩ => nomatch h⟩

theorem mapError_eq_ok_iff {ε' : Type} {x : Except ε α} {f : ε → ε'} {a : α} :
    x.mapError f = .ok a ↔ x = .ok a := by
  cases x with
  | ok b => exact ⟨fun h => congrArg _ (Except.ok.inj h),fun h => congrArg _ (Except.ok.inj h)⟩
  | error e => exact ⟨(fun h => nomatch h),fun h => nomatch h⟩

theorem exists_of_isOk {x : Except ε α} (h : x.isOk = true) : ∃ a, x = .ok a := by
  cases x with
  | ok a => exact ⟨a,rfl⟩
  | error e => exact absurd h Bool.false_ne_true

/-- When every one of some faults ends a step, and the step ends with no fault but in their presence, it ends
with those only. -/
theorem eq_error_iff_of_cases {P : ε → Prop} {x : Except ε α} {e : ε} (hfault : ∀ g, P g → x = .error g)
    (hcases : (∃ a, x = .ok a) ∨ ∃ g, P g) : x = .error e ↔ P e := by
  refine ⟨fun h => ?_,hfault e⟩
  obtain ⟨a,ha⟩ | ⟨g,hg⟩ := hcases
  · exact nomatch h.symm.trans ha
  · obtain rfl := Except.error.inj ((hfault g hg).symm.trans h)
    exact hg

theorem mapM_eq_ok_iff {f : α → Except ε β} {xs : List α} {ys : List β} :
    xs.mapM f = .ok ys ↔ List.Forall₂ (fun x y => f x = .ok y) xs ys := by
  induction xs generalizing ys with
  | nil => rw [List.mapM_nil, pure_eq_ok_iff, List.forall₂_nil_left_iff, eq_comm]
  | cons x xs ih =>
    simp only [List.mapM_cons, bind_eq_ok_iff, pure_eq_ok_iff, ih, List.forall₂_cons_left_iff]
    constructor
    · rintro ⟨y,hy,zs,hzs,rfl⟩
      exact ⟨y,zs,hy,hzs,rfl⟩
    · rintro ⟨y,zs,hy,hzs,rfl⟩
      exact ⟨y,hy,zs,hzs,rfl⟩

theorem exists_mapM {f : α → Except ε β} {xs : List α} (h : ∀ x ∈ xs, ∃ y, f x = .ok y) :
    ∃ ys, xs.mapM f = .ok ys := by
  induction xs with
  | nil => exact ⟨[],rfl⟩
  | cons x xs ih =>
    obtain ⟨y,hy⟩ := h x List.mem_cons_self
    obtain ⟨ys,hys⟩ := ih fun z hz => h z (List.mem_cons_of_mem _ hz)
    exact ⟨y :: ys,mapM_eq_ok_iff.mpr (.cons hy (mapM_eq_ok_iff.mp hys))⟩

/-- What is known of every result by its argument is known of the list of results. -/
theorem map_of_mapM {f : α → Except ε β} {g : β → γ} {k : α → γ}
    (hg : ∀ x y, f x = .ok y → g y = k x) {xs : List α} {ys : List β} (h : xs.mapM f = .ok ys) :
    ys.map g = xs.map k := by
  rw [mapM_eq_ok_iff] at h
  induction h with
  | nil => rfl
  | cons hxy _ ih => rw [List.map_cons, List.map_cons, hg _ _ hxy, ih]

theorem sum_map_nonneg {f : α → Int} {xs : List α} (h : ∀ x ∈ xs, 0 ≤ f x) : 0 ≤ (xs.map f).sum := by
  induction xs with
  | nil => exact Int.le_refl 0
  | cons x xs ih =>
    have hx := h x List.mem_cons_self
    have hrest := ih fun y hy => h y (List.mem_cons_of_mem _ hy)
    rw [List.map_cons, List.sum_cons]
    omega

namespace Traced

@[simp] theorem outcome_liftM (x : Except ε α) : (liftM x : Traced ε α).outcome = x := rfl

theorem ok_bind (a : α) (f : α → Traced ε β) :
    (liftM (Except.ok a : Except ε α) : Traced ε α) >>= f = f a := rfl

end Traced
end Flextime

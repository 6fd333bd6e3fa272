import Flextime.Fault

/-! # Categories of logged time -/
namespace Flextime

inductive Category where
  | work
  | travel
  | vacation
  | holiday
  | illness
deriving DecidableEq, Inhabited

namespace Category

def all : List Category := [.work, .travel, .vacation, .holiday, .illness]

def name : Category → String
  | work => "work"
  | travel => "travel"
  | vacation => "vacation"
  | holiday => "holiday"
  | illness => "illness"

def title : Category → String
  | work => "Work"
  | travel => "Travel"
  | vacation => "Vacation"
  | holiday => "Holiday"
  | illness => "Illness"

def ofName? (s : String) : Option Category := all.find? (·.name == s)

def ofName (t : Text) : Except Fault Category :=
  match t.string?.bind ofName? with
  | some c => .ok c
  | none => .error (.unknownCategory t)

theorem mem_all (c : Category) : c ∈ all := by cases c <;> decide

theorem ofName?_name (c : Category) : ofName? c.name = some c := by cases c <;> rfl

theorem ofName_name (c : Category) : ofName c.name = .ok c := by
  unfold ofName
  rw [Text.string?_ofString, Option.bind_some, ofName?_name]

end Category

/-- One value for every category. -/
structure PerCategory (α : Type) where
  work : α
  travel : α
  vacation : α
  holiday : α
  illness : α
deriving DecidableEq

namespace PerCategory
variable {α β : Type}

def get (p : PerCategory α) : Category → α
  | .work => p.work
  | .travel => p.travel
  | .vacation => p.vacation
  | .holiday => p.holiday
  | .illness => p.illness

def ofFn (f : Category → α) : PerCategory α :=
  ⟨f .work, f .travel, f .vacation, f .holiday, f .illness⟩

@[simp] theorem get_ofFn (f : Category → α) (c : Category) : (ofFn f).get c = f c := by
  cases c <;> rfl

def map (f : α → β) (p : PerCategory α) : PerCategory β := ofFn fun c => f (p.get c)

def values (p : PerCategory α) : List α := Category.all.map p.get

def toList (p : PerCategory α) : List (Category × α) := Category.all.map fun c => (c, p.get c)

/-- The categories in their order; the first fault wins. -/
def traverse (f : Category → Except Fault α) : Except Fault (PerCategory α) := do
  let work ← f .work
  let travel ← f .travel
  let vacation ← f .vacation
  let holiday ← f .holiday
  let illness ← f .illness
  return ⟨work, travel, vacation, holiday, illness⟩

end PerCategory
end Flextime

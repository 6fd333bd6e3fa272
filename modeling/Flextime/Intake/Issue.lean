/-! # Findings about input

Input is checked as a whole: an `Intake` holds a value, or every finding with its place.
-/
namespace Flextime.Intake

/-- The lists of rates in a contract. -/
inductive RateList where
  | workingHours
  | vacationDays
deriving DecidableEq

def RateList.label : RateList → String
  | workingHours => "working hours"
  | vacationDays => "vacation days"

/-- Rules beyond the form of a field. -/
inductive Rule where
  | monthStart
  | sharedDay (list : RateList)
  | lateStart (list : RateList)
  | entryOrder
deriving DecidableEq

def Rule.message : Rule → String
  | monthStart => "an interval must start at the first day of a month"
  | sharedDay list => s!"{list.label} intervals must not share a first day"
  | lateStart list => s!"{list.label} intervals start must match contract start"
  | entryOrder => "end time must be after start time"

inductive Problem where
  | missing
  | notObject
  | notList
  | tooShort
  | notNumber
  | badNumber
  | aboveMaximum
  | belowMinimum
  | notDate
  | badDate
  | dateWithTime
  /-- A date that the calendar does not have. -/
  | absentDate
  | notMoment
  | badMoment
  | zonedMoment
  | absentMoment
  | notCategory
  | notText
  /-- A surrogate alone in a text that is to be read. -/
  | loneSurrogate
  | badSwitch
  | badInteger
  | longInteger
  | broken (rule : Rule)
deriving DecidableEq

/-- The short name under which a problem is reported. -/
def Problem.code : Problem → String
  | missing => "missing"
  | notObject => "model_type"
  | notList => "list_type"
  | tooShort => "too_short"
  | notNumber => "float_type"
  | badNumber => "float_parsing"
  | aboveMaximum => "less_than_equal"
  | belowMinimum => "greater_than_equal"
  | notDate => "date_type"
  | badDate => "date_from_datetime_parsing"
  | dateWithTime => "date_from_datetime_inexact"
  | absentDate => "date_parsing"
  | notMoment => "datetime_type"
  | badMoment => "datetime_from_date_parsing"
  | zonedMoment => "timezone_naive"
  | absentMoment => "datetime_parsing"
  | notCategory => "enum"
  | notText => "string_type"
  | loneSurrogate => "string_unicode"
  | badSwitch => "bool_parsing"
  | badInteger => "int_parsing"
  | longInteger => "int_parsing_size"
  | broken _ => "value_error"

inductive Step where
  | field (name : String)
  | index (n : Nat)
deriving DecidableEq

structure Issue where
  path : List Step
  problem : Problem
deriving DecidableEq

/-- The words of a broken rule; other problems have none of their own. -/
def Issue.message? (i : Issue) : Option String :=
  match i.problem with
  | .broken rule => some ("Value error, " ++ rule.message)
  | _ => none

end Flextime.Intake

namespace Flextime

abbrev Intake (α : Type) := Except (List Intake.Issue) α

namespace Intake
variable {α β : Type}

def refuse (p : Problem) : Intake α := .error [⟨[], p⟩]

/-- Findings one step further down. -/
def under (step : Step) (x : Intake α) : Intake α :=
  x.mapError fun issues => issues.map fun i => ⟨step :: i.path, i.problem⟩

/-- Both values, or the findings of both in order. -/
def both (x : Intake α) (y : Intake β) : Intake (α × β) :=
  match x, y with
  | .ok a, .ok b => .ok (a, b)
  | .ok _, .error f => .error f
  | .error e, .ok _ => .error e
  | .error e, .error f => .error (e ++ f)

theorem under_eq_ok_iff {step : Step} {x : Intake α} {a : α} : under step x = .ok a ↔ x = .ok a := by
  cases x with
  | ok b => exact Iff.rfl
  | error e => exact ⟨(fun h => nomatch h), (fun h => nomatch h)⟩

theorem both_eq_ok_iff {x : Intake α} {y : Intake β} {p : α × β} :
    both x y = .ok p ↔ x = .ok p.1 ∧ y = .ok p.2 := by
  cases x <;> cases y <;> simp [both, Prod.ext_iff]

def every : List (Intake α) → Intake (List α)
  | [] => .ok []
  | x :: xs => (both x (every xs)).map fun p => p.1 :: p.2

theorem every_eq_ok_iff {xs : List (Intake α)} {as : List α} :
    every xs = .ok as ↔ xs = as.map Except.ok := by
  induction xs generalizing as with
  | nil => cases as <;> simp [every]
  | cons x xs ih =>
    unfold every
    cases hx : both x (every xs) with
    | error e =>
      constructor
      · exact fun h => nomatch h
      intro h
      cases as with
      | nil => exact nomatch h
      | cons a as =>
        rw [List.map_cons, List.cons.injEq] at h
        have hok : both x (every xs) = .ok (a, as) := both_eq_ok_iff.mpr ⟨h.1, ih.mpr h.2⟩
        rw [hx] at hok
        exact nomatch hok
    | ok p =>
      obtain ⟨h₁, h₂⟩ := both_eq_ok_iff.mp hx
      have h₃ := ih.mp h₂
      constructor
      · intro h
        cases h
        rw [h₁, h₃, List.map_cons]
      · intro h
        cases as with
        | nil => exact nomatch h
        | cons a as =>
          rw [List.map_cons, List.cons.injEq] at h
          have ha : p.1 = a := Except.ok.inj (h₁.symm.trans h.1)
          have hs : p.2 = as := Except.ok.inj (h₂.symm.trans (ih.mpr h.2))
          rw [← ha, ← hs]
          rfl

end Intake
end Flextime

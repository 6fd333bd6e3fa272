import Flextime.Assoc
import Flextime.Category
import Flextime.Duration

/-! # Time logged in a period

A tally keeps a duration for each category that occurs, in the order in which the categories came
up.
-/
namespace Flextime

structure Tally where
  entries : List (Category × Duration)
  nodup : (entries.map Prod.fst).Nodup
deriving DecidableEq

namespace Tally

def empty : Tally := ⟨[], List.nodup_nil⟩

instance : Inhabited Tally := ⟨empty⟩

def get? (t : Tally) (c : Category) : Option Duration := t.entries.lookup c

/-- The duration of a category, zero when it does not occur. -/
def get (t : Tally) (c : Category) : Duration := (t.get? c).getD .zero

/-- Sets the duration of a category; a category that is new comes last. -/
def put (t : Tally) (c : Category) (d : Duration) : Tally :=
  ⟨Assoc.put t.entries c d, Assoc.nodup_put c d t.nodup⟩

theorem get?_put (t : Tally) (c c' : Category) (d : Duration) :
    (t.put c d).get? c' = if c' = c then some d else t.get? c' := Assoc.lookup_put t.entries c c' d

theorem get_put (t : Tally) (c c' : Category) (d : Duration) :
    (t.put c d).get c' = if c' = c then d else t.get c' := by
  unfold get
  rw [get?_put]
  by_cases h : c' = c <;> simp [h]

def durations (t : Tally) : List Duration := t.entries.map Prod.snd

def total (t : Tally) : Except Fault Duration := Duration.sum t.durations

/-- Durations under the names of categories. -/
def ofNames (named : List (Text × Duration)) : Except Fault Tally :=
  named.foldlM (fun t e => return t.put (← Category.ofName e.1) e.2) empty

end Tally

structure WorkSummary where
  period : Period
  tally : Tally
deriving DecidableEq

namespace WorkSummary

def elapsed (s : WorkSummary) (c : Category) : Duration := s.tally.get c

/-- All categories together; each of them counts towards the target. -/
def total (s : WorkSummary) : Except Fault Duration := s.tally.total

end WorkSummary
end Flextime

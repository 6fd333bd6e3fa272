import Flextime.WorkSummary

/-! # Summing logged entries

An entry counts in a period with the part of it that lies between the midnights at which the period
begins and ends.
-/
namespace Flextime

/-- A stretch of logged time under the name of its category. -/
structure Entry where
  label : Text
  start : Moment
  stop : Moment
deriving DecidableEq

namespace Entry

/-- Times must be without offset and in order, whether or not the entry counts. -/
def check (e : Entry) : Except Fault Unit :=
  if e.start.isZoned ∨ e.stop.isZoned then .error (.zonedEntry e.start e.stop)
  else if e.stop.micros ≤ e.start.micros then .error (.emptyEntry e.start e.stop)
  else .ok ()

/-- Microseconds of the entry inside the period; not positive when it lies outside. -/
def overlap (p : Period) (e : Entry) : Int :=
  min e.stop.micros (Moment.midnight p.stop).micros
    - max e.start.micros (Moment.midnight p.start).micros

/-- Adds what the entry contributes. The category is looked up only for a contribution. -/
def tallyInto (p : Period) (t : Tally) (e : Entry) : Except Fault Tally := do
  e.check
  if e.overlap p ≤ 0 then return t
  let c ← Category.ofName e.label
  return t.put c (← (t.get c).add (← Duration.ofMicros (e.overlap p)))

end Entry

def summarize (entries : List Entry) (p : Period) : Except Fault WorkSummary :=
  return ⟨p, ← entries.foldlM (Entry.tallyInto p) .empty⟩

end Flextime

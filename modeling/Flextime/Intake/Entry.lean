import Flextime.Entry
import Flextime.Intake.Field

/-! # Entries as input -/
namespace Flextime

structure EntryDraft where
  category : Category
  start : Moment
  stop : Moment
  description : Text
deriving DecidableEq

def EntryDraft.entry (d : EntryDraft) : Entry := ⟨d.category.name, d.start, d.stop⟩

namespace Intake

def entryFields (ms : List (Text × Json)) : Intake EntryDraft :=
  (both (required "category" category ms)
    (both (required "start_time" localMoment ms)
      (both (required "end_time" localMoment ms)
        (optional "description" text "" ms)))).map
    fun (category, start, stop, description) => { category, start, stop, description }

def entry (v : Json) : Intake EntryDraft := do
  let d ← entryFields (← members v)
  if d.stop.micros ≤ d.start.micros then refuse (.broken .entryOrder) else return d

def entries : Json → Intake (List EntryDraft) := list entry

end Intake
end Flextime

import Flextime.Calendar.Month
import Flextime.Calendar.WorkingDays
import Flextime.Contract
import Flextime.Trace

/-! # Contracted working time -/
namespace Flextime

/-- The pieces of a period between the rate changes inside it. -/
def pieces (t : RateTimeline) (p : Period) : List Period :=
  let cuts := p.start :: (t.changesWithin p.start p.stop ++ [p.stop])
  (cuts.zip cuts.tail).map fun c => ⟨c.1, c.2⟩

/-- Adds the working days of a piece at the rate in effect at its start. -/
def addPiece (t : RateTimeline) (total : Duration) (piece : Period) : Traced Fault Duration := do
  let rate := t.rateAt piece.start
  let days ← countWorkingDays piece.start piece.stop
  Traced.report (.interval piece.start piece.stop days rate)
  let daily ← Duration.ofHours rate
  let part ← daily.times days
  total.add part

/-- Working time contracted for a period. -/
def targetDuration (t : RateTimeline) (p : Period) : Traced Fault Duration :=
  (pieces t p).foldlM (addPiece t) .zero

def targetHours (t : RateTimeline) (p : Period) : Traced Fault Binary64 := do
  let target ← targetDuration t p
  target.roundedHours

def monthTargetHours (c : Contract) (year month : Int) : Traced Fault Binary64 := do
  let p ← monthPeriod year month
  targetHours c.workingHours p

/-- The target of the working days up to and including `today`. -/
def requiredDuration (c : Contract) (p : Period) (today : Date) : Traced Fault Duration := do
  match today.plus? 1 with
  | none => Traced.silent (.error .dateRange)
  | some tomorrow =>
    let stop := min tomorrow p.stop
    if stop ≤ p.start then return .zero
    targetDuration c.workingHours ⟨p.start, stop⟩

end Flextime

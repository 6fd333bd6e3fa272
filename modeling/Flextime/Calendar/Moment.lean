import Flextime.Calendar.Date

/-! # Points of time on a wall clock -/
namespace Flextime

def microsPerDay : Nat := 86400000000

/-- A date, a time of day in microseconds, and the offset from universal time in minutes when one
was given. -/
structure Moment where
  date : Date
  time : Nat
  offset : Option Int
  time_lt : time < microsPerDay
deriving DecidableEq

namespace Moment

def midnight (d : Date) : Moment := ⟨d, 0, none, by decide⟩

/-- Microseconds on the wall clock since the midnight before day 1. -/
def micros (t : Moment) : Int := ((t.date.number - 1) * microsPerDay + t.time : Nat)

def isZoned (t : Moment) : Bool := t.offset.isSome

/-- The time of day; the microseconds are written only when there are some. -/
def clockText (time : Nat) : String :=
  let s := time / 1000000
  let fraction := time % 1000000
  Text.padded 2 (s / 3600) ++ ":" ++ Text.padded 2 (s / 60 % 60) ++ ":" ++ Text.padded 2 (s % 60)
    ++ (if fraction = 0 then "" else "." ++ Text.padded 6 fraction)

def offsetText (minutes : Int) : String :=
  (if minutes < 0 then "-" else "+") ++ Text.padded 2 (minutes.natAbs / 60) ++ ":"
    ++ Text.padded 2 (minutes.natAbs % 60)

def textWith (separator : String) (t : Moment) : String :=
  t.date.text ++ separator ++ clockText t.time ++ (t.offset.map offsetText).getD ""

/-- Date and time joined by `T`. -/
def text (t : Moment) : String := textWith "T" t

/-- Date and time apart, for messages. -/
def spacedText (t : Moment) : String := textWith " " t

end Moment
end Flextime

import Flextime.Calendar.Cycle
import Flextime.Calendar.Timestamp
import Flextime.Fault
import Flextime.Log.Value

/-! # The time of a log record

Times are seconds since 1970 in universal time. They are kept in 64 bits and the year of a date in
32 bits, counted from 1900; the JSON form has only years of four digits.
-/
namespace Flextime.Log

inductive TimeFault where
  | notNumber (kind : String)
  | undefined
  | secondsRange
  | yearStorage
  | yearRange (year : Int)
deriving DecidableEq

def TimeFault.message : TimeFault → String
  | notNumber kind => s!"'{kind}' object cannot be interpreted as an integer"
  | undefined => "Invalid value NaN (not a number)"
  | secondsRange => "timestamp out of range for platform time_t"
  | yearStorage => "[Errno 75] Value too large for defined data type"
  | yearRange year => Fault.yearMessage year

/-- The number of the day, and the second of it, in which a second since 1970 falls. -/
def daySecond (seconds : Int) : Except TimeFault (Int × Nat) :=
  let day := epochNumber + seconds / 86400
  let year := yearOfDay day - 1900
  if seconds < -9223372036854775808 ∨ 9223372036854775807 < seconds then .error .secondsRange
  else if Fault.fitsWord year then .ok (day, (seconds % 86400).toNat)
  else .error .yearStorage

def million : Binary64 := Binary64.ofInt 1000000

/-- The whole seconds of a number of seconds, and its fraction. -/
def seconds : Value → Except TimeFault (Int × Binary64)
  | .json (.int n) => .ok (n, .zero false)
  | .json (.bool b) => .ok (if b then 1 else 0, .zero false)
  | .json (.number .nan) => .error .undefined
  | .json (.number (.infinite _)) => .error .secondsRange
  | .json (.number x) => .ok (x.truncate, x.fractionPart)
  | v => .error (.notNumber v.kind)

/-- Microseconds of a number of seconds, rounded to the nearest with ties to the even one. -/
def microseconds (created : Value) : Except TimeFault Int := do
  let (n, fraction) ← seconds created
  let part := million * fraction
  return n * 1000000 + divNearest part.numerator part.denominator

/-- The second that a number of seconds has reached. -/
def secondBegun (created : Value) : Except TimeFault Int := do
  let (n, fraction) ← seconds created
  return if fraction.numerator < 0 then n - 1 else n

/-- The year with the overflow of 32 bits from 1900 on. -/
def storedYear (day : Int) : Int := (yearOfDay day).bmod 4294967296

/-- The date of a day, when its year has one. -/
def dateOfDay (day : Int) : Except TimeFault Date :=
  match Date.ofNumber? day with
  | some d => .ok d
  | none => .error (.yearRange (storedYear day))

/-- Date and time to the millisecond, cut off, with the offset of universal time. -/
def jsonTime (created : Value) : Except TimeFault String := do
  let n ← microseconds created
  let (day, second) ← daySecond (n / 1000000)
  let d ← dateOfDay day
  let millis := (n % 1000000).toNat / 1000
  return s!"{d}T{Moment.clockText (second * 1000000)}.{Text.padded 3 millis}+00:00"

/-- At least three characters, a minus among them. -/
def millisText (n : Int) : String :=
  if n < 0 then "-" ++ Text.padded 2 n.natAbs else Text.padded 3 n.natAbs

/-- A day with its year not padded. -/
def dayText (day : Int) : Except TimeFault String :=
  let year := yearOfDay day
  let d := dayInCycle day
  if Fault.fitsWord year then
    .ok (toString year ++ "-" ++ Text.padded 2 d.month ++ "-" ++ Text.padded 2 d.day)
  else .error (.yearRange year)

/-- Date and time of the second begun. -/
def plainTime (created : Value) : Except TimeFault String := do
  let (day, second) ← daySecond (← secondBegun created)
  return (← dayText day) ++ " " ++ Moment.clockText (second * 1000000)

end Flextime.Log

import Flextime.Binary64.Decimal
import Flextime.Calendar.Moment

/-! # Points of time as numbers

A number counts the seconds since the start of 1970 in universal time, or the milliseconds when it is far from
zero. The days of the years 0 to 9999 can be counted so; the first of them are no dates.
-/
namespace Flextime

/-- The number of 1970-01-01. -/
def epochNumber : Int := 719163

/-- Microseconds since the start of 1970. -/
structure Timestamp where
  micros : Int
deriving DecidableEq

namespace Timestamp

def day (t : Timestamp) : Int := epochNumber + t.micros / microsPerDay

def time (t : Timestamp) : Nat := (t.micros % microsPerDay).toNat

def date? (t : Timestamp) : Option Date := Date.ofNumber? t.day

/-- The greatest number that counts seconds. -/
def mostSeconds : Nat := 20000000000

/-- The number of the first day of the year 0. -/
def firstDay : Int := -365

/-- A count with microseconds on top of it. -/
def ofCount? (n : Int) (more : Nat) : Option Timestamp :=
  let t : Timestamp := ⟨n * (if n.natAbs ≤ mostSeconds then 1000000 else 1000) + more⟩
  if firstDay ≤ t.day ∧ t.day ≤ lastDayNumber then some t else none

/-- The count below a number, and the size of its fraction in microseconds, a half rounded up. -/
def ofNumber? (x : Binary64) : Option Timestamp :=
  let part := x.fractionPart.abs * Binary64.ofInt 1000000
  if x.isFinite then
    ofCount? (x.numerator / x.denominator)
      ((2 * part.numerator.natAbs + part.denominator) / (2 * part.denominator))
  else none

/-- Digits with or without a sign, or with a point and perhaps more digits behind them. -/
def read? (s : String) : Option Timestamp :=
  let (negative, digits) := match s.toList with
    | '-' :: rest => (true, rest)
    | '+' :: rest => (false, rest)
    | cs => (false, cs)
  let (whole, rest) := Text.takeDigits digits
  if whole.isEmpty then none
  else match rest with
    | [] =>
      let n : Int := Text.natOfDigits whole
      ofCount? (if negative then -n else n) 0
    | '.' :: fraction =>
      if fraction.all Text.isDigit then ofNumber? (Binary64.ofDigits negative whole fraction 0) else none
    | _ => none

end Timestamp
end Flextime

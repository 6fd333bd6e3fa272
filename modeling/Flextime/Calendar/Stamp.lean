import Flextime.Calendar.Moment

/-! # Points of time as written

A stamp is what a text says, before it is known whether the calendar has that day: a stamp may be of
the year 0000, a leap year by the rule, and a moment may not.
-/
namespace Flextime

structure Stamp where
  year : Nat
  month : Nat
  day : Nat
  time : Nat
  offset : Option Int
  time_lt : time < microsPerDay

namespace Stamp

def date? (s : Stamp) : Option Date := Date.ofCivil? s.year s.month s.day

def moment? (s : Stamp) : Option Moment := s.date?.map fun d => ⟨d, s.time, s.offset, s.time_lt⟩

def isZoned (s : Stamp) : Bool := s.offset.isSome

/-- The digits of a fraction of a second, at least one, cut to microseconds. -/
def fraction? (cs : List Char) : Option (Nat × List Char) :=
  let (ds, rest) := Text.takeDigits cs
  if ds.isEmpty then none
  else some (Text.natOfDigits ((ds ++ List.replicate 6 '0').take 6), rest)

/-- Microseconds of the second, when a point or a comma follows it. -/
def micros? (cs : List Char) : Option (Nat × List Char) :=
  match cs with
  | '.' :: rest | ',' :: rest => fraction? rest
  | rest => some (0, rest)

/-- Hours and minutes, then perhaps seconds, then perhaps their fraction. -/
def clock? (cs : List Char) : Option (Nat × List Char) := do
  let (h, rest) ← Text.digits? 2 cs
  let ':' :: rest := rest | none
  let (m, rest) ← Text.digits? 2 rest
  guard (h ≤ 23 ∧ m ≤ 59)
  let minutes := (h * 60 + m) * 60000000
  match rest with
  | ':' :: rest =>
    let (s, rest) ← Text.digits? 2 rest
    guard (s ≤ 59)
    let (f, rest) ← micros? rest
    return (minutes + s * 1000000 + f, rest)
  | rest => return (minutes, rest)

/-- Minutes of an offset of hours and minutes, with or without a colon between them. -/
def offsetMinutes? (cs : List Char) : Option Nat := do
  let (h, rest) ← Text.digits? 2 cs
  let rest := match rest with
    | ':' :: rest => rest
    | rest => rest
  let (m, rest) ← Text.digits? 2 rest
  guard (rest.isEmpty ∧ h ≤ 23 ∧ m ≤ 59)
  return h * 60 + m

/-- `Z`, or an offset behind a plus, a hyphen or the minus sign U+2212. -/
def offset? (cs : List Char) : Option Int :=
  match cs with
  | ['Z'] | ['z'] => some 0
  | '+' :: rest => (offsetMinutes? rest).map Int.ofNat
  | '-' :: rest | '\u2212' :: rest => (offsetMinutes? rest).map fun m => -(m : Int)
  | _ => none

/-- An offset that ends the text, when something is left of it. -/
def zone? (cs : List Char) : Option (Option Int) :=
  if cs.isEmpty then some none else (offset? cs).map some

/-- Between date and time. -/
def isSeparator (c : Char) : Bool := c == 'T' || c == 't' || c == ' ' || c == '_'

def ofNumbers? (year month day time : Nat) (offset : Option Int) : Option Stamp :=
  if h : time < microsPerDay then
    if 1 ≤ month ∧ month ≤ 12 ∧ 1 ≤ day ∧ day ≤ monthLength year month then
      some ⟨year, month, day, time, offset, h⟩
    else none
  else none

/-- A date alone means its midnight. -/
def read? (s : String) : Option Stamp := do
  let (y, m, d, rest) ← Date.civilFront? s.toList
  match rest with
  | [] => ofNumbers? y m d 0 none
  | c :: rest =>
    guard (isSeparator c)
    let (time, rest) ← clock? rest
    ofNumbers? y m d time (← zone? rest)

end Stamp

def Moment.read? (s : String) : Option Moment := do (← Stamp.read? s).moment?

end Flextime

import Flextime.Fault

/-! # Durations

Whole microseconds within 999999999 days and a day's fraction. Every duration that an operation
makes is checked, also one on the way to the result.
-/
namespace Flextime

def microsPerHour : Nat := 3600000000
def microsPerMinute : Nat := 60000000

structure Duration where
  micros : Int
  lower : -999999999 * 86400000000 ≤ micros
  upper : micros < 1000000000 * 86400000000
deriving DecidableEq

namespace Duration

def ofMicros (n : Int) : Except Fault Duration :=
  if h : -999999999 * 86400000000 ≤ n ∧ n < 1000000000 * 86400000000 then .ok ⟨n, h.1, h.2⟩
  else .error (.durationRange (n / microsPerDay))

theorem ofMicros_micros (d : Duration) : ofMicros d.micros = .ok d := dif_pos ⟨d.lower, d.upper⟩

theorem micros_of_ofMicros {n : Int} {d : Duration} (h : ofMicros n = .ok d) : d.micros = n := by
  unfold ofMicros at h
  split at h
  · cases h; rfl
  · cases h

theorem ext_micros {a b : Duration} (h : a.micros = b.micros) : a = b := by
  cases a; cases b; cases h; rfl

def zero : Duration := ⟨0, by decide, by decide⟩

instance : Inhabited Duration := ⟨zero⟩

def add (a b : Duration) : Except Fault Duration := ofMicros (a.micros + b.micros)
def sub (a b : Duration) : Except Fault Duration := ofMicros (a.micros - b.micros)
def times (k : Int) (d : Duration) : Except Fault Duration := ofMicros (k * d.micros)

theorem micros_of_add {a b c : Duration} (h : a.add b = .ok c) : c.micros = a.micros + b.micros :=
  micros_of_ofMicros h

theorem micros_of_sub {a b c : Duration} (h : a.sub b = .ok c) : c.micros = a.micros - b.micros :=
  micros_of_ofMicros h

theorem micros_of_times {k : Int} {d c : Duration} (h : times k d = .ok c) :
    c.micros = k * d.micros := micros_of_ofMicros h

/-- The sum from left to right. -/
def sum (ds : List Duration) : Except Fault Duration := ds.foldlM add zero

def max (a b : Duration) : Duration := if a.micros < b.micros then b else a

/-- Microseconds of `h` hours. The whole hours are exact, the product of the fraction is rounded to
a number, and their sum to the nearest microsecond, a tie to the even one. -/
def hoursMicros (h : Binary64) : Int :=
  let part := Binary64.ofInt microsPerHour * h.fractionPart
  divNearest (h.truncate * microsPerHour * part.denominator + part.numerator) part.denominator

def ofHours : Binary64 → Except Fault Duration
  | .nan => .error .undefinedInteger
  | .infinite _ => .error .infiniteInteger
  | h@(.finite ..) => ofMicros (hoursMicros h)

/-- The number nearest to the quotient by an hour. -/
def hours (d : Duration) : Binary64 := Binary64.ofFraction false d.micros microsPerHour

/-- Whole minutes nearest to `n` microseconds, halves away from zero. -/
def nearestMinutes (n : Int) : Int :=
  let m : Int := (n.natAbs + 30000000) / microsPerMinute
  if n < 0 then -m else m

def roundToMinute (d : Duration) : Except Fault Duration :=
  ofMicros (nearestMinutes d.micros * microsPerMinute)

/-- Hours after rounding to whole minutes. -/
def roundedHours (d : Duration) : Except Fault Binary64 := return (← d.roundToMinute).hours

/-- Whole days, then hours, minutes and seconds of the last day, and microseconds if any. -/
def text (d : Duration) : String :=
  let days := d.micros / microsPerDay
  let time := (d.micros % microsPerDay).toNat
  let s := time / 1000000
  let unit := if days.natAbs = 1 then "day" else "days"
  (if days = 0 then "" else s!"{days} {unit}, ")
    ++ toString (s / 3600) ++ ":" ++ Text.padded 2 (s / 60 % 60) ++ ":" ++ Text.padded 2 (s % 60)
    ++ (if time % 1000000 = 0 then "" else "." ++ Text.padded 6 (time % 1000000))

instance : ToString Duration := ⟨text⟩

end Duration

/-- Hours rounded through a duration to whole minutes. -/
def roundHours (h : Binary64) : Except Fault Binary64 := do (← Duration.ofHours h).roundedHours

/-- The integer part of a number, where there is one. -/
def integerPart : Binary64 → Except Fault Int
  | .nan => .error .undefinedInteger
  | .infinite _ => .error .infiniteInteger
  | x@(.finite ..) => .ok x.truncate

/-- A signed balance as overtime and undertime; at most one of them is not zero. -/
def splitBalance (x : Binary64) : Binary64 × Binary64 :=
  if (Binary64.zero false).le x then (x, .zero false) else (.zero false, -x)

end Flextime

import Flextime.Binary64.Shortest
import Flextime.Calendar.Moment
import Flextime.Text.Quoted

/-! # What can go wrong

One constructor for each cause; `message` has the wording.
-/
namespace Flextime

inductive Fault where
  /-- A day before 0001-01-01 or after 9999-12-31. -/
  | dateRange
  | yearRange (year : Int)
  | monthNumber (month : Int)
  /-- A duration whose whole days have a magnitude above 999999999. -/
  | durationRange (days : Int)
  /-- An integer or a duration made of `nan`. -/
  | undefinedInteger
  | infiniteInteger
  | negativeRate (rate : Binary64) (day : Date)
  | unknownCategory (name : Text)
  | zonedEntry (start stop : Moment)
  | emptyEntry (start stop : Moment)
  | negativePlaces
  | excessivePlaces (places : Nat)
  /-- A number in a text that is too long to be read. -/
  | unreadText (text : String)
deriving DecidableEq

namespace Fault

def fitsWord (n : Int) : Bool := -2147483648 ≤ n && n ≤ 2147483647

def yearMessage (year : Int) : String :=
  if fitsWord year then s!"year {year} is out of range"
  else if year < -9223372036854775808 ∨ 9223372036854775807 < year then
    "Python int too large to convert to C long"
  else if year < 0 then "signed integer is less than minimum"
  else "signed integer is greater than maximum"

def durationMessage (days : Int) : String :=
  if fitsWord days then s!"days={days}; must have magnitude <= 999999999"
  else "Python int too large to convert to C int"

def placesMessage (places : Nat) : String :=
  if places ≤ 9223372036854775807 then "precision too big"
  else "Too many decimal digits in format string"

def message : Fault → String
  | dateRange => "date value out of range"
  | yearRange year => yearMessage year
  | monthNumber month => s!"bad month number {month}; must be 1-12"
  | durationRange days => durationMessage days
  | undefinedInteger => "cannot convert float NaN to integer"
  | infiniteInteger => "cannot convert float infinity to integer"
  | negativeRate rate day => s!"rate must be >= 0 (got {rate} from {day})"
  | unknownCategory name => s!"{Text.quoted name} is not a valid EntryCategory"
  | zonedEntry a b =>
    s!"Entry times must be naive local times (got {a.spacedText} - {b.spacedText})"
  | emptyEntry a b =>
    s!"Entry end time must be after start time (got {a.spacedText} - {b.spacedText})"
  | negativePlaces => "Format specifier missing precision"
  | excessivePlaces places => placesMessage places
  | unreadText text => s!"could not convert string to float: {Text.quoted text}"

end Fault
end Flextime

import Flextime.Binary64.Fixed
import Flextime.Fault
import Flextime.Intake.Numeral

/-! # Figures in a report -/
namespace Flextime.Report

/-- A number of decimal places that can be written. Next to the bound, where places and digits in front of the
point are more than it together, a number that is not whole is written as zeros only, and so is one of more than
fifteen digits; `Binary64.fixedText` has the digits there too. -/
def places (n : Int) : Except Fault Nat :=
  if n < 0 then .error .negativePlaces
  else if 2147483647 < n then .error (.excessivePlaces n.toNat)
  else .ok n.toNat

/-- A text of more digits is not read as a number. -/
def longestReadBack : Nat := 1000000000

/-- The digits behind the sign of a number, without the zeros in front and with all behind the point. -/
def countedDigits (text : String) : Nat :=
  let (whole, rest) := Text.takeDigits (text.toList.drop 1)
  let (fraction, _) := Text.takeDigits (rest.drop 1)
  (whole.dropWhile (· == '0')).length + fraction.length

/-- The number in a text with a sign in front. -/
def readBack? (text : String) : Option Binary64 :=
  if longestReadBack < countedDigits text then none else Intake.number? text

/-- A text that is read as zero gets a plus in place of its sign. -/
def repaired? (text : String) : Option String :=
  (readBack? text).map fun z => if z.isZero then "+" ++ String.ofList text.toList.tail else text

/-- Signed hours; a minus is written only in front of a number that shows below zero. -/
def signedHours (decimals : Int) (x : Binary64) : Except Fault String := do
  let text := x.signedText (← places decimals)
  match repaired? text with
  | some repaired => return repaired
  | none => throw (.unreadText text)

def plainHours (decimals : Int) (x : Binary64) : Except Fault String := do
  return x.fixedText (← places decimals)

def days (decimals : Int) (x : Binary64) : Except Fault String := do
  return x.fixedText (← places decimals) ++ " days"

end Flextime.Report

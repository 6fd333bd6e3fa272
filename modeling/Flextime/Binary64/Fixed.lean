import Flextime.Binary64.Basic
import Flextime.Text.Digits

/-! # Numbers with a fixed number of decimal places

The exact value is rounded once on the grid of the last place, a tie to the even digit.
-/
namespace Flextime.Binary64

/-- The magnitude in units of the last of `places` places. -/
def scaled (places : Nat) (x : Binary64) : Nat :=
  (divNearest (x.numerator.natAbs * tenTo places : Nat) x.denominator).toNat

def placesText (places n : Nat) : String :=
  let whole := toString (n / tenTo places)
  if places = 0 then whole else whole ++ "." ++ Text.padded places (n % tenTo places)

def magnitudeText (places : Nat) : Binary64 → String
  | .nan => "nan"
  | .infinite _ => "inf"
  | x@(.finite ..) => placesText places (scaled places x)

/-- Plain fixed places; the sign is written even when only zeros are left. -/
def fixedText (places : Nat) (x : Binary64) : String :=
  (if x.isNegative then "-" else "") ++ magnitudeText places x

/-- Fixed places with a sign in front of every number. -/
def signedText (places : Nat) (x : Binary64) : String :=
  (if x.isNegative then "-" else "+") ++ magnitudeText places x

end Flextime.Binary64

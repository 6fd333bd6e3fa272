import Flextime.Binary64.Fixed
import Flextime.Binary64.Shortest

/-! # Numbers with a given count of significant digits

The exact value is rounded once on the grid of the last digit asked for, a tie to the even digit.
-/
namespace Flextime.Binary64

/-- The first `places + 1` digits of a finite number, rounded, and the power of ten of the first. -/
def significant (places : Nat) (x : Binary64) : List Char × Int :=
  let p := x.numerator.natAbs
  let q := x.denominator
  let top := if p = 0 then 0 else floorLog10 p q
  let g := top - places
  let c := (divNearest (p * tenTo (-g).toNat : Nat) (q * tenTo g.toNat)).toNat
  if tenTo (places + 1) ≤ c then ((Text.padded (places + 1) (c / 10)).toList, top + 1)
  else ((Text.padded (places + 1) c).toList, top)

/-- Digits with a point behind the first `whole` of them, when some follow or it is to be `kept`. -/
def pointed (kept : Bool) (whole : Nat) (ds : List Char) : String :=
  let rest := ds.drop whole
  String.ofList (ds.take whole) ++ (if rest.isEmpty && !kept then "" else ".") ++ String.ofList rest

def powerText (e : Int) : String := "e" ++ (if e < 0 then "-" else "+") ++ Text.padded 2 e.natAbs

/-- One digit in front of the point, and a power of ten. -/
def scientificText (kept : Bool) (places : Nat) : Binary64 → String
  | x@(.finite ..) =>
    let (ds, e) := significant places x
    pointed kept 1 ds ++ powerText e
  | x => magnitudeText places x

/-- No number has more significant digits. -/
def mostSignificant : Nat := 767

/-- Plain from `10 ^ -4` up to as many digits as asked for, with a power of ten elsewhere; zeros at
the end go, unless they are `kept`. -/
def generalText (kept : Bool) (digits : Nat) : Binary64 → String
  | x@(.finite ..) =>
    let asked := if kept then digits else min digits mostSignificant
    let (ds, e) := significant (asked - 1) x
    let ds := if kept then ds else ds.take 1 ++ ((ds.drop 1).reverse.dropWhile (· == '0')).reverse
    if -4 ≤ e ∧ e < max 1 digits then
      if e < 0 then "0." ++ Text.zeros (-e - 1).toNat ++ String.ofList ds
      else pointed kept (e.toNat + 1) (ds ++ List.replicate (e.toNat + 1 - ds.length) '0')
    else pointed kept 1 ds ++ powerText e
  | x => magnitudeText 0 x

end Flextime.Binary64

import Flextime.Binary64.Basic
import Flextime.Text.Digits

/-! # The shortest decimal of a number

`shortest` tries one digit, then two, and so on: on each grid of decimals only the two neighbours
of the number can read back as it, so the first grid with a hit has the fewest digits, and of two
hits the nearer is taken. `text` writes that decimal.
-/
namespace Flextime.Binary64

/-- The exponent of the highest power of ten that is at most `p / q`. -/
def floorLog10 (p q : Nat) : Int :=
  let k := floorLog2 p q * 30103 / 100000
  if q * tenTo (k + 1).toNat ≤ p * tenTo (-(k + 1)).toNat then k + 1
  else if q * tenTo k.toNat ≤ p * tenTo (-k).toNat then k
  else k - 1

/-- Whether `c * 10 ^ g` rounds to `x`. -/
def readsBack (x : Binary64) (g : Int) (c : Nat) : Bool :=
  nearest false (c * tenTo g.toNat) (tenTo (-g).toNat) = x

/-- The decimal on the grid of step `10 ^ g` that reads back as `x`, the nearer of two. -/
def onGrid? (x : Binary64) (g : Int) : Option Nat :=
  let n := x.numerator.natAbs * tenTo (-g).toNat
  let d := x.denominator * tenTo g.toNat
  let near := (divNearest n d).toNat
  let far := if near = n / d then near + 1 else n / d
  [near, far].find? (readsBack x.abs g)

/-- Coefficient and decimal exponent of the shortest decimal that reads back as a finite `x`. -/
def shortest (x : Binary64) : Nat × Int :=
  if x.isZero then (0, 0)
  else
    let top := floorLog10 x.numerator.natAbs x.denominator
    ((List.range 17).findSome? fun (k : Nat) =>
      (onGrid? x (top - k)).map (·, top - k)).getD (0, 0)

/-- Digits `ds` after trailing zeros are dropped, with the exponent of the leading digit: plain
from `10 ^ -4` up to `10 ^ 16`, with a power of ten elsewhere. -/
def layout (ds : List Char) (e : Int) : String :=
  let n := ds.length
  if -4 ≤ e ∧ e < 16 then
    if e < 0 then "0." ++ Text.zeros (-e - 1).toNat ++ String.ofList ds
    else
      let k := e.toNat + 1
      if n ≤ k then String.ofList ds ++ Text.zeros (k - n) ++ ".0"
      else String.ofList (ds.take k) ++ "." ++ String.ofList (ds.drop k)
  else
    let point := if n ≤ 1 then "" else "."
    let sign := if e < 0 then "-" else "+"
    String.ofList (ds.take 1) ++ point ++ String.ofList (ds.drop 1)
      ++ "e" ++ sign ++ Text.padded 2 e.natAbs

def finiteText (x : Binary64) : String :=
  let (c, g) := shortest x
  let ds := (toString c).toList
  let kept := (ds.reverse.dropWhile (· == '0')).reverse
  layout (if kept.isEmpty then ['0'] else kept) (g + ds.length - 1)

/-- The fewest digits that read back, always with a point or an exponent. -/
def text : Binary64 → String
  | .nan => "nan"
  | .infinite negative => if negative then "-inf" else "inf"
  | x@(.finite negative _ _ _) => (if negative then "-" else "") ++ finiteText x

instance : ToString Binary64 := ⟨text⟩

end Flextime.Binary64

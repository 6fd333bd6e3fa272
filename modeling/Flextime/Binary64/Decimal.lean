import Flextime.Binary64.Basic
import Flextime.Text.Digits

/-! # Reading decimals -/
namespace Flextime.Binary64

/-- The number nearest to `c * 10 ^ g`. Exponents that decide the answer by themselves are settled
before any power of ten is computed. -/
def ofDecimal (negative : Bool) (c : Nat) (g : Int) : Binary64 :=
  if c = 0 then zero negative
  else if 400 < g then .infinite negative
  else if g + c.log2 + 1 < -400 then zero negative
  else nearest negative (c * tenTo g.toNat) (tenTo (-g).toNat)

/-- Digits before the point, digits after it, and a written exponent. -/
def ofDigits (negative : Bool) (whole fraction : List Char) (e : Int) : Binary64 :=
  ofDecimal negative (Text.natOfDigits (whole ++ fraction)) (e - fraction.length)

end Flextime.Binary64

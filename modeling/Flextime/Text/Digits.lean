/-! # Decimal digits -/
namespace Flextime.Text

def isDigit (c : Char) : Bool := '0' ≤ c && c ≤ '9'

def digitValue (c : Char) : Nat := c.toNat - 48

/-- Digits read with the most significant first. -/
def natOfDigits (cs : List Char) : Nat := cs.foldl (fun n c => 10 * n + digitValue c) 0

/-- The digit run in front, and what follows it. -/
def takeDigits (cs : List Char) : List Char × List Char := (cs.takeWhile isDigit, cs.dropWhile isDigit)

/-- A number of exactly `n` digits in front. -/
def digits? : Nat → List Char → Option (Nat × List Char)
  | 0, cs => some (0, cs)
  | n + 1, cs => do
    let (v, rest) ← digits? n cs
    match rest with
    | c :: rest => if isDigit c then some (10 * v + digitValue c, rest) else none
    | [] => none

def zeros (n : Nat) : String := String.ofList (List.replicate n '0')

/-- `n` in decimal with zeros in front up to `width` characters. -/
def padded (width n : Nat) : String :=
  let s := toString n
  zeros (width - s.length) ++ s

end Flextime.Text

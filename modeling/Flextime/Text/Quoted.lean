import Flextime.Text.Basic
import Flextime.Text.Printable

/-! # Quoting a text inside a message -/
namespace Flextime.Text

def hexDigit (n : Nat) : Char := if n < 10 then Char.ofNat (48 + n) else Char.ofNat (87 + n)

/-- The last `width` hexadecimal digits of `n`, in lower case. -/
def hex : Nat → Nat → List Char
  | 0, _ => []
  | width + 1, n => hex width (n / 16) ++ [hexDigit (n % 16)]

/-- A character by its code point, in as few digits as the three forms allow. -/
def escapedChar (c : Char) : List Char :=
  if c.toNat < 0x100 then '\\' :: 'x' :: hex 2 c.toNat
  else if c.toNat < 0x10000 then '\\' :: 'u' :: hex 4 c.toNat
  else '\\' :: 'U' :: hex 8 c.toNat

/-- A character between quotes `q`: the quote, the backslash and the three common control
characters after a backslash, others that do not print by code point. -/
def quotedChar (q c : Char) : List Char :=
  if c = q ∨ c = '\\' then ['\\', c]
  else if c = '\n' then ['\\', 'n']
  else if c = '\r' then ['\\', 'r']
  else if c = '\t' then ['\\', 't']
  else if isPrintable c then [c]
  else escapedChar c

def asciiChar (c : Char) : List Char := if c.toNat < 0x80 then [c] else escapedChar c

/-- The code point of a letter in four digits. -/
def escapedCode (l : Letter) : List Char := '\\' :: 'u' :: hex 4 l.code

def quotedLetter (q : Char) : Letter → List Char
  | .char c => quotedChar q c
  | l@(.surrogate _) => escapedCode l

/-- Single quotes around, or double ones when the text holds a single quote and no double one. -/
def quoted (t : Text) : String :=
  let q := if t.contains (.char '\'') && !t.contains (.char '"') then '"' else '\''
  String.ofList (q :: t.flatMap (quotedLetter q) ++ [q])

/-- The text as it is, but for surrogates, which no string holds. -/
def shown (t : Text) : String :=
  String.ofList (t.flatMap fun
    | .char c => [c]
    | l@(.surrogate _) => escapedCode l)

end Flextime.Text

import Flextime.Binary64.Decimal
import Flextime.Intake.Issue
import Flextime.Text.Blank

/-! # Numbers written as text

White space around a number is ignored, and so are single underscores inside it.
-/
namespace Flextime.Intake

def lower (cs : List Char) : String := String.ofList (cs.map Char.toLower)

/-- Whether a sign says minus, and what follows it. -/
def sign (cs : List Char) : Bool × List Char :=
  match cs with
  | '-' :: rest => (true, rest)
  | '+' :: rest => (false, rest)
  | cs => (false, cs)

/-- An exponent that ends the text. -/
def exponent? (cs : List Char) : Option Int :=
  match cs with
  | [] => some 0
  | c :: rest =>
    if c = 'e' ∨ c = 'E' then
      let (negative, ds) := sign rest
      let e : Int := Text.natOfDigits ds
      if ds.isEmpty ∨ !ds.all Text.isDigit then none else some (if negative then -e else e)
    else none

/-- Digits around a point, at least one, and perhaps an exponent. -/
def decimal? (negative : Bool) (cs : List Char) : Option Binary64 := do
  let (whole, rest) := Text.takeDigits cs
  let (ds, rest) := match rest with
    | '.' :: rest => Text.takeDigits rest
    | rest => ([], rest)
  guard !(whole.isEmpty && ds.isEmpty)
  return Binary64.ofDigits negative whole ds (← exponent? rest)

def plainNumber? (cs : List Char) : Option Binary64 :=
  let (negative, rest) := sign cs
  let word := lower rest
  if word = "nan" then some .nan
  else if word = "inf" ∨ word = "infinity" then some (.infinite negative)
  else decimal? negative rest

def number? (s : String) : Option Binary64 :=
  match plainNumber? (Text.trim s.toList) with
  | some x => some x
  | none => do plainNumber? (← Text.withoutUnderscores? s.toList)

/-- Whole numbers of more characters, the minus included, are not read. -/
def longestInteger : Nat := 4300

/-- A whole number without needless zeros. The length of the digit run counts before what follows
it. -/
def plainInteger (cs : List Char) : Except Problem Int :=
  let (negative, rest) := match cs with
    | '-' :: rest => (true, rest)
    | rest => (false, rest)
  let (ds, more) := Text.takeDigits rest
  match ds with
  | [] => .error .badInteger
  | '0' :: _ :: _ => .error .badInteger
  | ds =>
    if longestInteger < cs.length - more.length then .error .longInteger
    else if !more.isEmpty then .error .badInteger
    else
      let n : Int := Text.natOfDigits ds
      .ok (if negative then -n else n)

/-- The text without a plus in front, which no minus may follow. -/
def withoutPlus? : List Char → Option (List Char)
  | '+' :: '-' :: _ => none
  | '+' :: rest => some rest
  | cs => some cs

/-- What is left of a text behind the zeros and underscores with which it starts: a number from its
first other digit or its minus on, one zero in front of a point, or the last of only zeros. -/
def afterZeros? : Char → List Char → Option (List Char)
  | last, [] => some [last]
  | last, c :: rest =>
    if c = '0' ∨ c = '_' then afterZeros? c rest
    else if c = '.' then some (last :: c :: rest)
    else if c = '-' ∨ Text.isDigit c then some (c :: rest)
    else none

def withoutZeros? : List Char → Option (List Char)
  | '0' :: rest => afterZeros? '0' rest
  | c :: rest => if c = '-' ∨ Text.isDigit c then some (c :: rest) else none
  | [] => none

/-- The text without a point and the zeros that follow it to the end. -/
def withoutZeroFraction (cs : List Char) : List Char :=
  match cs.span (· != '.') with
  | (whole, '.' :: zeros) => if !zeros.isEmpty && zeros.all (· == '0') then whole else cs
  | _ => cs

/-- The digits of a number in a looser form, as far as they can be brought into the plain one. -/
def plainDigits? (cs : List Char) : Option (List Char) := do
  let cs := withoutZeroFraction (← withoutZeros? cs)
  return (Text.withoutUnderscores? cs).getD cs

def plainForm? (cs : List Char) : Option (List Char) := do
  match ← withoutPlus? (Text.trim cs) with
  | '-' :: cs => return '-' :: (← plainDigits? cs)
  | cs => plainDigits? cs

/-- A whole number: in the plain form, or else between blanks, with a plus, zeros in front, single
underscores or a fraction of zeros. Only of the plain form it is said that it is too long. -/
def integer (s : String) : Except Problem Int :=
  match plainInteger s.toList with
  | .error .badInteger =>
    match (plainForm? s.toList).map plainInteger with
    | some (.ok n) => .ok n
    | _ => .error .badInteger
  | r => r

def truths : List String := ["1", "true", "t", "yes", "y", "on"]
def falsehoods : List String := ["0", "false", "f", "no", "n", "off"]

/-- A switch, in any case. -/
def switch (s : String) : Except Problem Bool :=
  let word := lower s.toList
  if word ∈ truths then .ok true
  else if word ∈ falsehoods then .ok false
  else .error .badSwitch

end Flextime.Intake

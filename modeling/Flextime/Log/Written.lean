import Flextime.Binary64.Scientific
import Flextime.Duration
import Flextime.Log.TemplateFault
import Flextime.Log.Value

/-! # Arguments as they are written

A letter says how: `s` as it is shown, `d` the integer part, `f` fixed places, `e` and `g` with a
power of ten, `x` and `o` in another base. `fit` fills the outcome up to a width.
-/
namespace Flextime.Log

def numeric : Value → Except TemplateFault Binary64
  | .json (.bool b) => .ok (Binary64.ofInt (if b then 1 else 0))
  | .json (.int n) =>
    let x := Binary64.ofInt n
    if x.isFinite then .ok x else .error .hugeArgument
  | .json (.number x) => .ok x
  | v => .error (.notNumber v.kind)

/-- The integer part of a number. -/
def whole (letter : Char) : Value → Except TemplateFault Int
  | .json (.bool b) => .ok (if b then 1 else 0)
  | .json (.int n) => .ok n
  | .json (.number x) => (integerPart x).mapError .value
  | v => .error (.notReal letter v.kind)

def exactInteger (letter : Char) : Value → Except TemplateFault Int
  | .json (.bool b) => .ok (if b then 1 else 0)
  | .json (.int n) => .ok n
  | v => .error (.notInteger letter v.kind)

/-- A letter, or the one of a code point. -/
def character : Value → Except TemplateFault Letter
  | .json (.string [l]) => .ok l
  | .json (.bool b) => .ok (.ofCode (if b then 1 else 0))
  | .json (.int n) =>
    if 0 ≤ n ∧ n < 0x110000 then .ok (.ofCode n.toNat) else .error .characterRange
  | _ => .error .notCharacter

structure Flags where
  left : Bool := false
  plus : Bool := false
  blank : Bool := false
  /-- The longer form: with a mark of the base, or with the point kept. -/
  long : Bool := false
  zeros : Bool := false
deriving DecidableEq

/-- The parts of what is written for an argument. -/
structure Written where
  sign : String := ""
  /-- The mark of the base. -/
  mark : String := ""
  body : Text
  /-- Whether zeros may fill it up. -/
  number : Bool := true

namespace Written

/-- Filled up to a width: on the right, or between sign and digits with zeros, or on the left. -/
def fit (flags : Flags) (width : Nat) (w : Written) : Text :=
  let front := Text.ofString (w.sign ++ w.mark)
  let missing := width - (front.length + w.body.length)
  if flags.left then front ++ w.body ++ List.replicate missing (.char ' ')
  else if flags.zeros && w.number then front ++ List.replicate missing (.char '0') ++ w.body
  else List.replicate missing (.char ' ') ++ front ++ w.body

def signOf (flags : Flags) (negative : Bool) : String :=
  if negative then "-" else if flags.plus then "+" else if flags.blank then " " else ""

/-- At most as many letters as the precision says. -/
def ofText (precision? : Option Nat) (t : Text) : Written :=
  { body := match precision? with
      | some n => t.take n
      | none => t
    number := false }

/-- The most digits that a precision may ask of a whole number. -/
def mostDigits : Nat := 2147483644

/-- An integer in digits of a base, at least as many as the precision says. -/
def ofInteger (flags : Flags) (precision? : Option Nat) (base : Nat) (mark : String) (n : Int) :
    Except TemplateFault Written :=
  let ds := Nat.toDigits base n.natAbs
  let least := precision?.getD 0
  if mostDigits < least then .error .longNumber
  else
    .ok
      { sign := signOf flags (n < 0)
        mark := if flags.long then mark else ""
        body := Text.ofChars (List.replicate (least - ds.length) '0' ++ ds) }

def ofMagnitude (flags : Flags) (x : Binary64) (magnitude : String) : Written :=
  { sign := signOf flags x.isNegative, body := magnitude }

/-- The same in capital letters. -/
def upper (w : Written) : Written :=
  { w with
    mark := w.mark.map Char.toUpper
    body := w.body.map fun
      | .char c => .char c.toUpper
      | l => l }

end Written

/-- Fixed places, with the point `kept` even when nothing follows it. -/
def fixedMagnitude (kept : Bool) (places : Nat) (x : Binary64) : String :=
  let t := x.magnitudeText places
  if kept && places == 0 && x.isFinite then t ++ "." else t

/-- An argument as a letter asks for it, when there is such a letter. -/
def write? (flags : Flags) (precision? : Option Nat) (letter : Char) (v : Value) :
    Option (Except TemplateFault Written) :=
  let places := precision?.getD 6
  let integer (base : Nat) (mark : String) : Except TemplateFault Written := do
    Written.ofInteger flags precision? base mark (← exactInteger letter v)
  let real (magnitude : Binary64 → String) : Except TemplateFault Written :=
    (numeric v).map fun x => .ofMagnitude flags x (magnitude x)
  match letter with
  | 's' => some (.ok (.ofText precision? v.display))
  | 'r' => some (.ok (.ofText precision? v.nested))
  | 'a' => some (.ok (.ofText precision? v.ascii))
  | 'c' => some ((character v).map fun l => .ofText none [l])
  | 'd' | 'i' | 'u' => some (do Written.ofInteger flags precision? 10 "" (← whole letter v))
  | 'o' => some (integer 8 "0o")
  | 'x' => some (integer 16 "0x")
  | 'X' => some ((integer 16 "0x").map Written.upper)
  | 'f' => some (real (fixedMagnitude flags.long places))
  | 'F' => some ((real (fixedMagnitude flags.long places)).map Written.upper)
  | 'e' => some (real (Binary64.scientificText flags.long places))
  | 'E' => some ((real (Binary64.scientificText flags.long places)).map Written.upper)
  | 'g' => some (real (Binary64.generalText flags.long places))
  | 'G' => some ((real (Binary64.generalText flags.long places)).map Written.upper)
  | _ => none

end Flextime.Log

import Flextime.Calendar.Iso
import Flextime.Text.Numeral
import Flextime.Text.Quoted

/-! # Command line options

An option may be shortened as long as no other one begins like that, and takes its value from the
same word, behind `=`, or from the next word. Words are read in order; of an option given twice the
last value counts. An option with `--` as its value is given without one.
-/
namespace Flextime.Command

inductive Flag where
  | help
  | input
  | asOf
  | month
  | verbose
deriving DecidableEq

namespace Flag

def spellings : List (String × Flag) := [
  ("-h", help), ("--help", help), ("--input", input), ("--as-of", asOf), ("--month", month),
  ("--verbose", verbose)]

/-- The option in messages. -/
def title : Flag → String
  | help => "-h/--help"
  | input => "--input"
  | asOf => "--as-of"
  | month => "--month"
  | verbose => "--verbose"

def takesValue : Flag → Bool
  | help | verbose => false
  | input | asOf | month => true

end Flag

inductive UsageError where
  | ambiguous (word : Text) (candidates : List String)
  | needlessValue (flag : Flag) (value : Text)
  | missingValue (flag : Flag)
  | badDate (value : Text)
  | badMonth (value : Text)
  | missingInput
  | unrecognized (words : List Text)
deriving DecidableEq

namespace UsageError

def monthMessage (value : Text) : Text := "Invalid month '" ++ value ++ "', expected YYYY-MM"

def message : UsageError → Text
  | ambiguous word candidates =>
    "ambiguous option: " ++ word ++ " could match " ++ Text.join ", " (candidates.map Text.ofString)
  | needlessValue flag value =>
    s!"argument {flag.title}: ignored explicit argument {Text.quoted value}"
  | missingValue flag => s!"argument {flag.title}: expected one argument"
  | badDate value =>
    s!"argument {Flag.asOf.title}: invalid fromisoformat value: {Text.quoted value}"
  | badMonth value => s!"argument {Flag.month.title}: " ++ monthMessage value
  | missingInput => s!"the following arguments are required: {Flag.input.title}"
  | unrecognized words => "unrecognized arguments: " ++ Text.join " " words

end UsageError

/-- A number of exactly `n` decimal digits of any script. -/
def numerals? : Nat → List Char → Option (Nat × List Char)
  | 0, cs => some (0, cs)
  | n + 1, cs => do
    let (v, rest) ← numerals? n cs
    match rest with
    | c :: rest => return (10 * v + (← Text.numeralValue? c), rest)
    | [] => none

/-- Year and month with a hyphen between them; one line break may follow. -/
def month? (t : Text) : Option (Nat × Nat) := do
  let (y, rest) ← numerals? 4 (← t.chars?)
  let '-' :: rest := rest | none
  let (m, rest) ← numerals? 2 rest
  guard ((rest = [] ∨ rest = ['\n']) ∧ 1 ≤ m ∧ m ≤ 12)
  return (y, m)

/-- What a word of the command line is before any word is used. -/
inductive Word where
  | value (t : Text)
  | flag (f : Flag) (value? : Option Text)
  /-- `-h` with something joined to it. -/
  | joinedHelp (tail : Text)
  | unknown (t : Text)
deriving DecidableEq

/-- A minus and a number, which is no option. -/
def looksNegative (cs : List Char) : Bool :=
  let digit (c : Char) : Bool := (Text.numeralValue? c).isSome
  let body := cs.drop 1
  let body := if body.getLast? = some '\n' then body.dropLast else body
  let (whole, rest) := body.span digit
  match rest with
  | [] => !whole.isEmpty
  | '.' :: ds => !ds.isEmpty && ds.all digit
  | _ => false

/-- The part of a word before `=`, and the part behind it. -/
def splitValue (t : Text) : Text × Option Text :=
  match t.span (· != .char '=') with
  | (front, []) => (front, none)
  | (front, _ :: value) => (front, some value)

def unmatched (t : Text) : Word :=
  if t.chars?.any looksNegative || t.contains (.char ' ') then .value t else .unknown t

def flag? (t : Text) : Option Flag := t.string?.bind (Flag.spellings.lookup ·)

/-- An option spelled out, with the value joined to it. Behind `-h=` more letters may follow. -/
def withValue (f : Flag) (front : Text) (value? : Option Text) : Word :=
  match value? with
  | some (l :: tail) => if front = "-h" then .joinedHelp (l :: tail) else .flag f value?
  | _ => .flag f value?

/-- A word that starts with a hyphen and has more behind it. -/
def classifyHyphened (t : Text) : Except UsageError Word :=
  let (front, value?) := splitValue t
  match flag? t, flag? front, t with
  | some f, _, _ => .ok (.flag f none)
  | none, some f, _ => .ok (withValue f front value?)
  | none, none, .char '-' :: .char '-' :: _ =>
    match Flag.spellings.filter fun p => front.isPrefixOf (Text.ofString p.1) with
    | [] => .ok (unmatched t)
    | [p] => .ok (.flag p.2 value?)
    | several => .error (.ambiguous t (several.map Prod.fst))
  | none, none, .char '-' :: .char 'h' :: tail => .ok (.joinedHelp tail)
  | none, none, _ => .ok (unmatched t)

def classify (t : Text) : Except UsageError Word :=
  match t with
  | .char '-' :: _ :: _ => classifyHyphened t
  | _ => .ok (.value t)

/-- The mark behind which all words are values. -/
def endMark : Text := "--"

/-- The words up to the end mark by their kind, then values only. -/
def classifyAll : List Text → Except UsageError (List Word)
  | [] => .ok []
  | t :: rest =>
    if t = endMark then .ok (.unknown t :: rest.map .value)
    else return (← classify t) :: (← classifyAll rest)

structure Options where
  inputGiven : Bool := false
  input? : Option Text := none
  asOf? : Option Date := none
  month? : Option (Nat × Nat) := none
  verbose : Bool := false
  help : Bool := false
  leftover : List Text := []
deriving DecidableEq

namespace Options

def setValue (o : Options) (f : Flag) (value : Text) : Except UsageError Options :=
  match f with
  | .input => .ok { o with inputGiven := true, input? := some value }
  | .asOf =>
    match value.string?.bind Date.readForms? with
    | some d => .ok { o with asOf? := some d }
    | none => .error (.badDate value)
  | .month =>
    match Command.month? value with
    | some m => .ok { o with month? := some m }
    | none => .error (.badMonth value)
  | .help | .verbose => .error (.needlessValue f value)

/-- An option given without a value, which takes back an earlier one. -/
def clearValue (o : Options) : Flag → Options
  | .input => { o with inputGiven := true, input? := none }
  | .asOf => { o with asOf? := none }
  | .month => { o with month? := none }
  | .help | .verbose => o

def setJoined (o : Options) (f : Flag) (value : Text) : Except UsageError Options :=
  if f.takesValue && value == endMark then .ok (o.clearValue f) else o.setValue f value

/-- What is joined to `-h` may only ask for help again. -/
def checkHelpTail (tail : Text) : Except UsageError Unit :=
  match tail.dropWhile (· == .char 'h') with
  | [] => .ok ()
  | rest => .error (.needlessValue .help rest)

/-- Uses up the words. Help ends the reading. -/
def take (o : Options) : List Word → Except UsageError Options
  | [] => .ok o
  | .value t :: rest => { o with leftover := o.leftover ++ [t] }.take rest
  | .unknown t :: rest => { o with leftover := o.leftover ++ [t] }.take rest
  | .joinedHelp tail :: _ => (checkHelpTail tail).map fun _ => { o with help := true }
  | .flag .help none :: _ => .ok { o with help := true }
  | .flag .verbose none :: rest => { o with verbose := true }.take rest
  | .flag f (some value) :: rest => do
    let o ← o.setJoined f value
    o.take rest
  | .flag f none :: .value t :: rest => do
    let o ← o.setValue f t
    o.take rest
  | .flag f none :: _ => .error (.missingValue f)

end Options

/-- The options of a command line that can be run. -/
def options (argv : List Text) : Except UsageError Options := do
  let o ← Options.take {} (← classifyAll argv)
  if o.help then return o
  if !o.inputGiven then .error .missingInput
  if !o.leftover.isEmpty then .error (.unrecognized o.leftover)
  return o

end Flextime.Command

import Flextime.Fault
import Flextime.Log.Value
import Flextime.Text.Upper

/-! # Severity of log records

A severity is a whole number with perhaps a name. A record may carry any value in its place; only a
number decides whether the record is let through.
-/
namespace Flextime.Log

inductive LevelFault where
  | unknown (name : Text)
  /-- A value that is no severity, as it is shown. -/
  | unfit (value : String)
  /-- A collection, which cannot be looked up. -/
  | unhashable (kind : String)
  | unordered (kind : String)
  | unnamedLogger
deriving DecidableEq

def LevelFault.message : LevelFault → String
  | unknown name => s!"Unknown level: {Text.quoted name}"
  | unfit value => s!"Level not an integer or a valid string: {value}"
  | unhashable kind => s!"unhashable type: '{kind}'"
  | unordered kind => s!"'>=' not supported between instances of 'int' and '{kind}'"
  | unnamedLogger => "A logger name must be a string"

/-- The names of severities; of two names of one severity the first is written. -/
def levels : List (String × Int) := [
  ("CRITICAL", 50), ("FATAL", 50), ("ERROR", 40), ("WARNING", 30), ("WARN", 30), ("INFO", 20),
  ("DEBUG", 10), ("NOTSET", 0)]

def debug : Int := 10
def info : Int := 20
def warning : Int := 30

def levelNamed? (name : Text) : Option Int := name.string?.bind (levels.lookup ·)

/-- The severity of a name in any case. -/
def levelOf (name : Text) : Except LevelFault Int :=
  match levelNamed? (Text.upper name) with
  | some n => .ok n
  | none => .error (.unknown (Text.upper name))

/-- Whether a value is a number equal to `n`. -/
def isLevel (n : Int) : Json → Bool
  | .bool b => (if b then 1 else 0) == n
  | .int k => k == n
  | .number x => x.beq (Binary64.ofInt n)
  | _ => false

/-- What stands for the severity of a record that was given a name for it: the number of a known name,
the known name of a number, and a text with the name in it for all else. -/
def severity (name : Json) : Except LevelFault Json :=
  let unnamed : Json := .string ("Level " ++ (name : Value).display)
  match name with
  | .string t => .ok (((levelNamed? t).map Json.int).getD unnamed)
  | .array _ | .object _ => .error (.unhashable (kindName name))
  | v => .ok (((levels.find? fun l => isLevel l.2 v).map fun l => Json.string l.1).getD unnamed)

/-- Whether a number in place of a severity is above zero and reaches a bound. -/
def passes? (bound : Int) : Json → Option Bool
  | .bool b => some (b && bound ≤ 1)
  | .int n => some (0 < n && bound ≤ n)
  | .number .nan => some false
  | .number (.infinite negative) => some !negative
  | .number x => some (0 < x.numerator && bound * x.denominator ≤ x.numerator)
  | _ => none

/-- Whether a value in place of a severity lets a record through. -/
def passes (bound : Int) : Value → Except LevelFault Bool
  | .json (.array _) => .error (.unhashable "list")
  | .json (.object _) => .error (.unhashable "dict")
  | .json v =>
    match passes? bound v with
    | some b => .ok b
    | none => .error (.unordered (kindName v))
  | v => .error (.unordered v.kind)

end Flextime.Log

import Flextime.Log.Form

/-! # Where log records go

All records go to one handler, once there is one. Setting up replaces it, also when the severity
asked for is no severity; the severity then stays. Besides, the records of a logger that is watched,
and of those below it, are collected.
-/
namespace Flextime.Log

/-- The severity asked for at a set-up. -/
inductive Threshold where
  | named (name : Text)
  | level (n : Int)
  /-- What is no severity, as it is shown. -/
  | unfit (value : String)
deriving DecidableEq

namespace Threshold

def ofJson : Json → Threshold
  | .string t => named t
  | .int n => level n
  | .bool b => level (if b then 1 else 0)
  | v => unfit (nested v)

def resolve : Threshold → Except LevelFault Int
  | named name => levelOf name
  | level n => .ok n
  | unfit value => .error (.unfit value)

end Threshold

structure Session where
  level : Int := warning
  handler? : Option Form := none
  /-- The logger whose records are collected, and let through, from `debug` on. -/
  watched? : Option Text := none
deriving DecidableEq

/-- What comes of a record: the line collected of it, and what the handler writes. -/
structure Handled where
  collected? : Option Text := none
  output : Text := []

/-- Why a record could not be handled. -/
inductive HandlingFault where
  | level (fault : LevelFault)
  | template (fault : TemplateFault)
deriving DecidableEq

def HandlingFault.message : HandlingFault → String
  | level fault => fault.message
  | template fault => fault.message

namespace Session

def handlers (s : Session) : Nat := if s.handler?.isSome then 1 else 0

/-- The session after a set-up, and the fault of what is no severity. -/
def setUp (s : Session) (t : Threshold) (form : Form) : Session × Option LevelFault :=
  match t.resolve with
  | .ok n => ({ s with level := n, handler? := some form }, none)
  | .error fault => ({ s with handler? := some form }, some fault)

/-- Whether a logger is the one watched or below it. -/
def watches (s : Session) (logger : Text) : Bool :=
  match s.watched? with
  | some top => logger == top || (top ++ ".").isPrefixOf logger
  | none => false

def bound (s : Session) (logger : Text) : Int := if s.watches logger then debug else s.level

def lets (s : Session) (r : Record) : Except LevelFault Bool := do
  passes (s.bound (← r.target)) (r.get "levelno")

/-- What the handler writes for a record: one that cannot be written leaves nothing, and every other
ends its line. -/
def write (s : Session) (r : Record) : Text :=
  match s.handler? with
  | some form =>
    match form.write r with
    | .ok t => t ++ "\n"
    | .error _ => []
  | none => []

def collect? (s : Session) (logger : Text) (r : Record) : Except TemplateFault (Option Text) :=
  if s.watches logger then r.message.map fun message => some (r.line message) else .ok none

/-- Records that are not let through leave nothing. -/
def handle (s : Session) (r : Record) : Except HandlingFault Handled := do
  if ← (s.lets r).mapError .level then
    let logger ← r.target.mapError .level
    let collected? ← (s.collect? logger r).mapError .template
    return { collected?, output := s.write r }
  else return {}

end Session
end Flextime.Log

import Flextime.Log.Failure
import Flextime.Log.Level
import Flextime.Log.Template
import Flextime.Trace

/-! # Log records

A record has attributes by name: the failure that it reports, those attached to it, and its own, of
which the first of a name counts.
-/
namespace Flextime.Log

structure Record where
  /-- Seconds since 1970, once they are known. -/
  created? : Option Json := none
  logger : Json
  levelName : Json := .string "INFO"
  level : Json := .int info
  template : Json
  args : List Json := []
  attached : List (Text × Value) := []
  failure? : Option Failure := none

namespace Record

def ofEvent (e : Event) : Record :=
  { logger := .string "worklog.calculations", levelName := .string "DEBUG", level := .int debug
    template := .string e.message }

/-- The record with the severity of a name. -/
def atLevel (r : Record) (name : Json) : Except LevelFault Record :=
  (severity name).map fun level => { r with levelName := name, level }

/-- The record with the time at which it was made, which has whole seconds. -/
def madeAt (r : Record) (created : Json) : Except Fault Record :=
  match created with
  | .number x => (integerPart x).map fun _ => { r with created? := some created }
  | _ => .ok { r with created? := some created }

/-- Whole milliseconds of the second begun, towards zero. -/
def millis : Json → Binary64
  | .number x => Binary64.ofInt (x.fractionPart * Binary64.ofInt 1000).truncate
  | _ => .zero false

def timeAttributes (r : Record) : List (Text × Json) :=
  match r.created? with
  | some created => [("created", created), ("msecs", .number (millis created))]
  | none => []

/-- The attributes that every record has; those of a place in a program text are void. -/
def ownAttributes (r : Record) : List (Text × Json) := [
  ("name", r.logger), ("msg", r.template), ("args", .array r.args),
  ("levelname", r.levelName), ("levelno", r.level),
  ("pathname", .string ""), ("filename", .string ""), ("module", .string ""), ("lineno", .int 0),
  ("funcName", .null), ("exc_info", .null), ("exc_text", .null),
  ("stack_info", .null), ("threadName", .string "MainThread"),
  ("processName", .string "MainProcess")]

def failureAttribute (r : Record) : List (Text × Value) :=
  match r.failure? with
  | some f => [("exc_info", f.parts)]
  | none => []

def attributes (r : Record) : List (Text × Value) :=
  r.failureAttribute ++ r.attached
    ++ (r.ownAttributes ++ r.timeAttributes).map fun a => (a.1, (a.2 : Value))

def get? (r : Record) (name : Text) : Option Value := r.attributes.lookup name

def get (r : Record) (name : Text) : Value := (r.get? name).getD (Json.null : Value)

def arguments (r : Record) : Arguments :=
  match r.attached.lookup ("args" : Text) with
  | some v => .attached v
  | none => .given r.args

def message (r : Record) : Except TemplateFault Text := fill (r.get "msg").display r.arguments

/-- Severity, logger and message. -/
def line (r : Record) (message : Text) : Text :=
  (r.get "levelname").display ++ " " ++ (r.get "name").display ++ ": " ++ message

/-- An event's record in a trace. -/
def traceLine (e : Event) : Text := (ofEvent e).line e.message

/-- The text of the failure that the record reports, if it does. -/
def failureText? (r : Record) : Except FailureFault (Option Text) :=
  match r.failure? with
  | some f => .ok (some f.summary)
  | none =>
    let v := r.get "exc_info"
    if v.isVoid then .ok none else (failureText v).map some

/-- The logger that a record goes to; a void name is that of the topmost one. -/
def target (r : Record) : Except LevelFault Text :=
  match r.get "name" with
  | .json (.string (l :: name)) => .ok (l :: name)
  | v => if v.isVoid then .ok "root" else .error .unnamedLogger

end Record
end Flextime.Log

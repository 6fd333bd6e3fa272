import Flextime.Assoc
import Flextime.Json.Printer
import Flextime.Log.Record
import Flextime.Log.RecordFault

/-! # The two forms of a log record

A record is written as a plain line, with remarks on lines of their own behind it, or as a JSON object.
-/
namespace Flextime.Log

inductive Form where
  | plain
  | json
deriving DecidableEq

/-- The fields that a report's record has attached. -/
def reportFields : List Text := ["input_path", "as_of", "month"]

namespace Record

def onNextLine (front remark : Text) : Text :=
  if front.getLast? = some (.char '\n') then front ++ remark else front ++ .char '\n' :: remark

/-- An entry with a remark on lines of its own behind it; a void remark is none. -/
def withRemark (entry : Text) (remark : Value) : Except RecordFault Text :=
  if remark.isVoid then .ok entry
  else
    match remark with
    | .json (.string t) => .ok (onNextLine entry t)
    | v => .error (.template (.wrongRemark v.kind))

/-- The failure in a plain entry, for which an attached text may stand. -/
def failureRemark (r : Record) : Except RecordFault Value :=
  let text := r.get "exc_text"
  if !text.isVoid then .ok text
  else
    match r.failureText? with
    | .ok (some t) => .ok (Json.string t)
    | .ok none => .ok text
    | .error fault => .error (.failure fault)

/-- A plain entry without its time. -/
def plainUntimed (r : Record) : Except RecordFault Text := do
  let message ← r.message.mapError .template
  let entry ← withRemark (r.line message) (← r.failureRemark)
  withRemark entry (r.get "stack_info")

/-- Members of the JSON form behind those in `front`. A field that is there already keeps its place;
a failure comes last. -/
def membersAfter (front : List (Text × Json)) (fields : List Text) (r : Record) :
    Except RecordFault (List (Text × Json)) := do
  let message ← r.message.mapError .template
  let entry : List (Text × Json) := [("level", (r.get "levelname").toJson),
    ("logger", (r.get "name").toJson), ("message", .string message)]
  let all := fields.foldl (fun ms name =>
    match r.get? name with
    | some v => Assoc.put ms name v.toJson
    | none => ms) (front ++ entry)
  match ← r.failureText?.mapError .failure with
  | none => return all
  | some t => return Assoc.put all "error" (.string t)

def jsonUntimed (fields : List Text) (r : Record) : Except RecordFault Text :=
  return (Json.object (← membersAfter [] fields r)).text

/-- A plain line: the time with milliseconds after a comma, then the entry. -/
def plain (r : Record) : Except RecordFault Text := do
  let time ← (plainTime (r.get "created")).mapError .time
  let millis ← (whole 'd' (r.get "msecs")).mapError .template
  let entry ← r.plainUntimed
  return time ++ "," ++ millisText millis ++ " " ++ entry

def json (fields : List Text) (r : Record) : Except RecordFault Text := do
  let time ← (jsonTime (r.get "created")).mapError .time
  return (Json.object (← membersAfter [("time", .string time)] fields r)).text

end Record

/-- A record as the log of a run shows it, without its time. -/
def Form.untimed (form : Form) (r : Record) : Except RecordFault Text :=
  match form with
  | plain => r.plainUntimed
  | json => r.jsonUntimed reportFields

def Form.write (form : Form) (r : Record) : Except RecordFault Text :=
  match form with
  | plain => r.plain
  | json => r.json reportFields

end Flextime.Log

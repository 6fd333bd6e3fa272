import Flextime.Command.Run
import Std.Time.DateTime.Timestamp

/-! # The report command -/
namespace Flextime

def variableNames : List String := ["WORKLOG_APP_NAME", "WORKLOG_DEBUG", "WORKLOG_LOG_LEVEL",
  "WORKLOG_LOG_JSON", "WORKLOG_HOURS_DECIMALS", "WORKLOG_DAYS_DECIMALS"]

/-- The variables of the process. An environment file is left to its own reader: none is opened here. -/
def environment : IO (List (String × String)) :=
  variableNames.filterMapM fun name => do
    return (← IO.getEnv name).map fun value => (name, value)

def pathText (steps : List Intake.Step) : String :=
  String.intercalate "." (steps.map fun
    | .field name => name
    | .index n => toString n)

def issueText (i : Intake.Issue) : String :=
  pathText i.path ++ "\n  " ++ i.message?.getD i.problem.code

def causeText : Command.Cause → String
  | .malformed => Json.ReadError.malformed.message
  | .refused (.contract issues) | .refused (.entries issues) =>
    String.intercalate "\n" (issues.map issueText)

/-- What a run logs, record by record, at the time when it ends. -/
def logText (seconds : Int) (o : Command.Outcome) : List Text :=
  let session : Log.Session := { handler? := some o.form }
  o.records.map fun r => session.write { r with created? := some (.int seconds) }

/-- What a run prints, what it says to the user, and its exit status. -/
def conclusion : Command.Ending → String × String × UInt32
  | .done report => (report ++ "\n", "", 0)
  | .help =>
    ("usage: flextime --input FILE [--as-of DAY] [--month MONTH] [--verbose]\n", "", 0)
  | .usage e => ("", s!"flextime: error: {e.message.shown}\n", 2)
  | .missingFile path => ("", s!"Input file not found: {path.shown}\n", 1)
  | .invalidInput path cause => ("", s!"Invalid input in {path.shown}:\n{causeText cause}\n", 1)
  | .crashed c => ("", c.message ++ "\n", 1)

end Flextime

open Flextime

/-- What a path leads to. -/
def fileState (path : Text) : IO Command.FileState := do
  match path.string? with
  | none => return .missing
  | some s =>
    try return .text (← IO.FS.readFile s)
    catch
      | .inappropriateType .. => return .directory
      | .invalidArgument _ 36 _ => return .longName
      | _ => return .missing

/-- What the input of a command line leads to, with its path. -/
def inputFile (argv : List Text) : IO (Text × Command.FileState) := do
  match (Command.options argv).toOption.bind (·.input?) with
  | none => return ([], .missing)
  | some input =>
    let path := Command.cleanPath input
    return (path, ← fileState path)

def main (argv : List String) : IO UInt32 := do
  match Settings.ofSources [] (← environment) with
  | .error issues =>
    IO.eprintln (String.intercalate "\n" (issues.map issueText))
    return 1
  | .ok s =>
    let words := argv.map Text.ofString
    let file ← inputFile words
    let seconds := (← Std.Time.Timestamp.now).toSecondsSinceUnixEpoch.val
    let today := (Date.ofNumber? (epochNumber + seconds / 86400)).getD default
    let files (path : Text) : Command.FileState := if path = file.1 then file.2 else .missing
    let outcome := Command.run {} s today files words
    for line in logText seconds outcome do
      IO.eprint line.shown
    let (out, err, status) := conclusion outcome.ending
    IO.print out
    IO.eprint err
    return status

import Flextime.Command.Options
import Flextime.Command.Path
import Flextime.Json.Parser
import Flextime.Log.Session
import Flextime.Report.Build

/-! # A run of the report command

The files are given as a function, so that a run is a function of its arguments.
-/
namespace Flextime.Command

/-- Why an input file was refused. -/
inductive Cause where
  | malformed
  | refused (r : Report.Refusal)
deriving DecidableEq

/-- What ends a run without a message to the user. -/
inductive Crash where
  | fault (f : Fault)
  | level (fault : Log.LevelFault)
  | unreadable (e : Json.ReadError)
  | notObject (kind : String)
  /-- The input option was given without a path. -/
  | noPath
  | directory (path : Text)
  | longPath (path : Text)
deriving DecidableEq

def attributeMessage (kind name : String) : String := s!"'{kind}' object has no attribute '{name}'"

def Crash.message : Crash → String
  | fault f => f.message
  | level f => f.message
  | unreadable e => e.message
  | notObject kind => attributeMessage kind "get"
  | noPath => attributeMessage "list" "exists"
  | directory path => s!"[Errno 21] Is a directory: {Text.quoted path}"
  | longPath path => s!"[Errno 36] File name too long: {Text.quoted path}"

inductive Ending where
  | done (report : String)
  | help
  | usage (e : UsageError)
  | missingFile (path : Text)
  | invalidInput (path : Text) (cause : Cause)
  | crashed (c : Crash)
deriving DecidableEq

/-- The records that were let through, in the form set up, and how the run ended. -/
structure Outcome where
  form : Log.Form
  records : List Log.Record
  ending : Ending

/-- The lines of the log; a record that cannot be written has none. -/
def Outcome.log (o : Outcome) : List Text :=
  o.records.filterMap fun r => (o.form.untimed r).toOption

/-- The records by severity, logger and message. -/
def Outcome.trace (o : Outcome) : List Text :=
  o.records.filterMap fun r => (r.message.map r.line).toOption

def builtRecord (path : Text) (asOf : Date) (year month : Nat) : Log.Record :=
  { logger := .string "worklog.scripts.balance_report"
    template := .string "Report built for %s as of %s"
    args := [.string path, .string asOf.text]
    attached := [("input_path", Json.string path), ("as_of", .date asOf),
      ("month", Json.string (monthLabel year month))] }

/-- Reads the text of a file and reports on it. -/
def report (s : Settings) (path : Text) (text : String) (asOf : Date) (year month : Nat) :
    List Log.Record × Ending :=
  match Json.read text with
  | .error .malformed => ([], .invalidInput path .malformed)
  | .error e => ([], .crashed (.unreadable e))
  | .ok (.object payload) =>
    match Report.build s payload asOf year month with
    | .error r => ([], .invalidInput path (.refused r))
    | .ok traced =>
      let records := traced.events.map Log.Record.ofEvent
      match traced.outcome with
      | .error f => (records, .crashed (.fault f))
      | .ok report => (records ++ [builtRecord path asOf year month], .done report)
  | .ok v => ([], .crashed (.notObject (Log.kindName v)))

def runOn (s : Settings) (today : Date) (files : Text → FileState) (o : Options) (path : Text) :
    List Log.Record × Ending :=
  match files path with
  | .missing => ([], .missingFile path)
  | .directory => ([], .crashed (.directory path))
  | .longName => ([], .crashed (.longPath path))
  | .text text =>
    let asOf := o.asOf?.getD today
    let (year, month) := o.month?.getD (asOf.year, asOf.month)
    report s path text asOf year month

def runWith (s : Settings) (today : Date) (files : Text → FileState) (o : Options) :
    List Log.Record × Ending :=
  match o.input? with
  | none => ([], .crashed .noPath)
  | some path => runOn s today files o (cleanPath path)

/-- Options first, then logging, which goes on from a session, then the input file. -/
def run (session : Log.Session) (s : Settings) (today : Date) (files : Text → FileState)
    (argv : List Text) : Outcome :=
  let form : Log.Form := if s.logJson then .json else .plain
  match options argv with
  | .error e => ⟨form, [], .usage e⟩
  | .ok o =>
    if o.help then ⟨form, [], .help⟩
    else
      let level : Text := if o.verbose || s.debug then "DEBUG" else s.logLevel
      match session.setUp (.named level) form with
      | (_, some fault) => ⟨form, [], .crashed (.level fault)⟩
      | (session, none) =>
        let (records, ending) := runWith s today files o
        ⟨form, records.filter fun r => (session.lets r).toOption.getD false, ending⟩

end Flextime.Command

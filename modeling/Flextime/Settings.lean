import Flextime.Intake.Issue
import Flextime.Intake.Numeral
import Flextime.Text.Basic

/-! # Settings -/
namespace Flextime

structure Settings where
  appName : Text := "WorkLog"
  debug : Bool := false
  logLevel : Text := "INFO"
  logJson : Bool := false
  hoursDecimals : Int := 2
  daysDecimals : Int := 1
deriving DecidableEq

namespace Settings
open Intake

/-- A letter of a name in lower case. The Kelvin sign is the one letter beyond ASCII that comes down
to a letter of ASCII. -/
def lowerLetter (c : Char) : Char := if c = '\u212a' then 'k' else c.toLower

/-- The value of a variable by its name in any case; the last one of that name counts. -/
def fromEnvironment? (env : List (String × String)) (name : String) : Option String :=
  (env.reverse.find? fun v => String.ofList (v.1.toList.map lowerLetter) == "worklog_" ++ name).map
    Prod.snd

def setting {α : Type} (env : List (String × String)) (name : String)
    (read : String → Except Problem α) (absent : α) : Intake α :=
  match fromEnvironment? env name with
  | none => .ok absent
  | some s =>
    match read s with
    | .ok a => .ok a
    | .error problem => under (.field name) (refuse problem)

def verbatim (s : String) : Except Problem Text := .ok s

def ofEnvironment (env : List (String × String)) : Intake Settings :=
  let d : Settings := {}
  (both (setting env "app_name" verbatim d.appName)
    (both (setting env "debug" switch d.debug)
      (both (setting env "log_level" verbatim d.logLevel)
        (both (setting env "log_json" switch d.logJson)
          (both (setting env "hours_decimals" integer d.hoursDecimals)
            (setting env "days_decimals" integer d.daysDecimals)))))).map
    fun (appName, debug, logLevel, logJson, hoursDecimals, daysDecimals) =>
      { appName, debug, logLevel, logJson, hoursDecimals, daysDecimals }

/-- Settings from the variables of an environment file, in the order in which its reader gives them, and from
those of the process, which come before the variables of the file. -/
def ofSources (file env : List (String × String)) : Intake Settings := ofEnvironment (file ++ env)

end Settings
end Flextime

import Flextime.Binary64.Shortest
import Flextime.Calendar.Date
import Flextime.Json.Basic
import Flextime.Text.Quoted

/-! # Values of log records

A record carries JSON and dates. A message shows a value by itself or as it stands inside another one.
-/
namespace Flextime.Log

/-- The name of a value's type in messages. -/
def kindName : Json → String
  | .null => "NoneType"
  | .bool _ => "bool"
  | .int _ => "int"
  | .number _ => "float"
  | .string _ => "str"
  | .array _ => "list"
  | .object _ => "dict"

mutual

/-- A value inside another one; texts are quoted. -/
def nested : Json → String
  | .null => "None"
  | .bool b => if b then "True" else "False"
  | .int n => toString n
  | .number x => x.text
  | .string t => Text.quoted t
  | .array items => "[" ++ String.intercalate ", " (nestedItems items) ++ "]"
  | .object ms => "\x7b" ++ String.intercalate ", " (nestedMembers ms) ++ "\x7d"

def nestedItems : List Json → List String
  | [] => []
  | v :: rest => nested v :: nestedItems rest

def nestedMembers : List (Text × Json) → List String
  | [] => []
  | (name, v) :: rest => (Text.quoted name ++ ": " ++ nested v) :: nestedMembers rest

end

inductive Value where
  | json (v : Json)
  | date (d : Date)
deriving Inhabited

namespace Value

instance : Coe Json Value := ⟨json⟩

def kind : Value → String
  | json v => kindName v
  | date _ => "datetime.date"

/-- The value as it stands inside another one. -/
def nested : Value → String
  | json v => Log.nested v
  | date d => s!"datetime.date({d.year}, {d.month}, {d.day})"

def display : Value → Text
  | json (.string t) => t
  | json v => Log.nested v
  | date d => d.text

/-- The value as it stands inside another one, with its characters outside ASCII escaped. -/
def ascii (v : Value) : String := String.ofList (v.nested.toList.flatMap Text.asciiChar)

def isVoid : Value → Bool
  | json v => v.isVoid
  | date _ => false

/-- A date is written as a text. -/
def toJson : Value → Json
  | json v => v
  | date d => .string d.text

end Value
end Flextime.Log

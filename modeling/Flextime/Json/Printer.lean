import Flextime.Binary64.Shortest
import Flextime.Json.Basic
import Flextime.Text.Quoted

/-! # Writing JSON

One line, a blank after each comma and colon, ASCII only.
-/
namespace Flextime.Json

def codeUnit (n : Nat) : List Char := '\\' :: 'u' :: Text.hex 4 n

/-- A character inside a string; one beyond the basic plane takes two code units. -/
def escapeChar (c : Char) : List Char :=
  if c = '"' then ['\\', '"']
  else if c = '\\' then ['\\', '\\']
  else if c = '\n' then ['\\', 'n']
  else if c = '\r' then ['\\', 'r']
  else if c = '\t' then ['\\', 't']
  else if c = '\x0c' then ['\\', 'f']
  else if c = '\x08' then ['\\', 'b']
  else if 0x20 ≤ c.toNat ∧ c.toNat < 0x7f then [c]
  else if c.toNat < 0x10000 then codeUnit c.toNat
  else
    let n := c.toNat - 0x10000
    codeUnit (0xd800 + n / 0x400) ++ codeUnit (0xdc00 + n % 0x400)

def escape : Letter → List Char
  | .char c => escapeChar c
  | l@(.surrogate _) => codeUnit l.code

def stringText (t : Text) : String := String.ofList ('"' :: t.flatMap escape ++ ['"'])

def numberText : Binary64 → String
  | .nan => "NaN"
  | .infinite negative => if negative then "-Infinity" else "Infinity"
  | x@(.finite ..) => x.text

mutual

def text : Json → String
  | null => "null"
  | bool b => if b then "true" else "false"
  | int n => toString n
  | number x => numberText x
  | string t => stringText t
  | array items => "[" ++ String.intercalate ", " (itemTexts items) ++ "]"
  | object members => "\x7b" ++ String.intercalate ", " (memberTexts members) ++ "\x7d"

def itemTexts : List Json → List String
  | [] => []
  | v :: rest => text v :: itemTexts rest

def memberTexts : List (Text × Json) → List String
  | [] => []
  | (name, v) :: rest => (stringText name ++ ": " ++ text v) :: memberTexts rest

end

end Flextime.Json

import Flextime.Assoc
import Flextime.Binary64.Decimal
import Flextime.Json.Basic

/-! # Reading JSON

A reader takes a value off the front of the text and returns the rest. Beside the standard's
values `NaN`, `Infinity` and `-Infinity` are numbers; of members with one name the last counts.
Values nest to a limit, which ends the reading before anything wrong further inside does.
-/
namespace Flextime.Json

inductive ReadError where
  | malformed
  /-- A whole number of more than 4300 digits. -/
  | longInteger (digits : Nat)
  | nestedArray
  | nestedObject
deriving DecidableEq

def nestingMessage (kind : String) : String :=
  s!"maximum recursion depth exceeded while decoding a JSON {kind} from a unicode string"

def ReadError.message : ReadError → String
  | malformed => "malformed JSON"
  | longInteger n =>
    s!"Exceeds the limit (4300 digits) for integer string conversion: value has {n} digits; "
      ++ "use sys.set_int_max_str_digits() to increase the limit"
  | nestedArray => nestingMessage "array"
  | nestedObject => nestingMessage "object"

abbrev Reader (α : Type) := List Char → Except ReadError (α × List Char)

def isBlank (c : Char) : Bool := c == ' ' || c == '\t' || c == '\n' || c == '\r'

def skipBlanks (cs : List Char) : List Char := cs.dropWhile isBlank

def hexValue? (c : Char) : Option Nat :=
  if Text.isDigit c then some (Text.digitValue c)
  else if 'a' ≤ c ∧ c ≤ 'f' then some (c.toNat - 87)
  else if 'A' ≤ c ∧ c ≤ 'F' then some (c.toNat - 55)
  else none

/-- Four hexadecimal digits. -/
def unit? : List Char → Option (Nat × List Char)
  | a :: b :: c :: d :: rest => do
    let a ← hexValue? a
    let b ← hexValue? b
    let c ← hexValue? c
    let d ← hexValue? d
    return (((a * 16 + b) * 16 + c) * 16 + d, rest)
  | _ => none

/-- The low surrogate that an escape in front stands for. -/
def lowSurrogate? : List Char → Option (Nat × List Char)
  | '\\' :: 'u' :: rest => do
    let (u, rest) ← unit? rest
    if 0xdc00 ≤ u ∧ u < 0xe000 then some (u, rest) else none
  | _ => none

/-- The letter of a code unit after `\u`; a high surrogate joins the low one that follows it. -/
def escapedUnit (u : Nat) (rest : List Char) : Letter × List Char :=
  if 0xd800 ≤ u ∧ u < 0xdc00 then
    match lowSurrogate? rest with
    | some (v, more) => (.char (Char.ofNat (0x10000 + (u - 0xd800) * 0x400 + (v - 0xdc00))), more)
    | none => (Letter.ofCode u, rest)
  else (Letter.ofCode u, rest)

/-- The letter after a backslash. -/
def escaped? : List Char → Option (Letter × List Char)
  | '"' :: rest => some ('"', rest)
  | '\\' :: rest => some ('\\', rest)
  | '/' :: rest => some ('/', rest)
  | 'b' :: rest => some ('\x08', rest)
  | 'f' :: rest => some ('\x0c', rest)
  | 'n' :: rest => some ('\n', rest)
  | 'r' :: rest => some ('\r', rest)
  | 't' :: rest => some ('\t', rest)
  | 'u' :: rest => (unit? rest).map fun (u, rest) => escapedUnit u rest
  | _ => none

/-- The letters up to the closing quote, with those already read in reverse. -/
def stringTail : Nat → Text → Reader Text
  | 0, _, _ => .error .malformed
  | _ + 1, _, [] => .error .malformed
  | _ + 1, done, '"' :: rest => .ok (done.reverse, rest)
  | fuel + 1, done, '\\' :: rest =>
    match escaped? rest with
    | some (l, rest) => stringTail fuel (l :: done) rest
    | none => .error .malformed
  | fuel + 1, done, c :: rest =>
    if c.toNat < 0x20 then .error .malformed else stringTail fuel (.char c :: done) rest

/-- The fraction after a point, when digits follow it. -/
def fraction (cs : List Char) : List Char × List Char :=
  match cs with
  | '.' :: rest =>
    let (ds, more) := Text.takeDigits rest
    if ds.isEmpty then ([], cs) else (ds, more)
  | _ => ([], cs)

/-- The exponent after `e`, when digits follow it. -/
def exponent? (cs : List Char) : Option Int × List Char :=
  match cs with
  | c :: rest =>
    if c = 'e' ∨ c = 'E' then
      let (negative, ds) := match rest with
        | '-' :: ds => (true, ds)
        | '+' :: ds => (false, ds)
        | ds => (false, ds)
      let (ds, more) := Text.takeDigits ds
      if ds.isEmpty then (none, cs)
      else
        let e : Int := Text.natOfDigits ds
        (some (if negative then -e else e), more)
    else (none, cs)
  | [] => (none, cs)

/-- A number after its sign; the whole part has no needless zero in front. -/
def unsigned (negative : Bool) (cs : List Char) : Except ReadError (Json × List Char) :=
  let (whole, rest) := match cs with
    | '0' :: rest => (['0'], rest)
    | cs => Text.takeDigits cs
  if whole.isEmpty then .error .malformed
  else
    let (ds, rest) := fraction rest
    let (e, rest) := exponent? rest
    if ds.isEmpty ∧ e.isNone then
      if 4300 < whole.length then .error (.longInteger whole.length)
      else
        let n : Int := Text.natOfDigits whole
        .ok (int (if negative then -n else n), rest)
    else .ok (number (Binary64.ofDigits negative whole ds (e.getD 0)), rest)

def keyword? : List Char → Option (Json × List Char)
  | 'n' :: 'u' :: 'l' :: 'l' :: rest => some (null, rest)
  | 't' :: 'r' :: 'u' :: 'e' :: rest => some (bool true, rest)
  | 'f' :: 'a' :: 'l' :: 's' :: 'e' :: rest => some (bool false, rest)
  | 'N' :: 'a' :: 'N' :: rest => some (number .nan, rest)
  | 'I' :: 'n' :: 'f' :: 'i' :: 'n' :: 'i' :: 't' :: 'y' :: rest =>
    some (number (.infinite false), rest)
  | '-' :: 'I' :: 'n' :: 'f' :: 'i' :: 'n' :: 'i' :: 't' :: 'y' :: rest =>
    some (number (.infinite true), rest)
  | _ => none

/-- A value without parts; `fuel` bounds the length of a string. -/
def scalar (fuel : Nat) (cs : List Char) : Except ReadError (Json × List Char) :=
  match keyword? cs with
  | some r => .ok r
  | none =>
    match cs with
    | '"' :: rest => do
      let (t, rest) ← stringTail fuel [] rest
      return (string t, rest)
    | '-' :: rest => unsigned true rest
    | cs => unsigned false cs

mutual

/-- A value; `depth` is the number of arrays and objects that may still be entered. -/
def value : Nat → Nat → Reader Json
  | 0, _, _ => .error .malformed
  | _ + 1, 0, '[' :: _ => .error .nestedArray
  | _ + 1, 0, '{' :: _ => .error .nestedObject
  | fuel + 1, depth + 1, '[' :: rest =>
    match skipBlanks rest with
    | ']' :: rest => .ok (array [], rest)
    | rest => items fuel depth [] rest
  | fuel + 1, depth + 1, '{' :: rest =>
    match skipBlanks rest with
    | '}' :: rest => .ok (object [], rest)
    | rest => membersFrom fuel depth [] rest
  | fuel + 1, _, cs => scalar fuel cs

/-- The items from one on, up to the closing bracket. -/
def items : Nat → Nat → List Json → Reader Json
  | 0, _, _, _ => .error .malformed
  | fuel + 1, depth, done, cs => do
    let (v, rest) ← value fuel depth cs
    match skipBlanks rest with
    | ',' :: rest => items fuel depth (v :: done) (skipBlanks rest)
    | ']' :: rest => return (array (v :: done).reverse, rest)
    | _ => .error .malformed

/-- The members from one on, up to the closing brace. -/
def membersFrom : Nat → Nat → List (Text × Json) → Reader Json
  | 0, _, _, _ => .error .malformed
  | fuel + 1, depth, done, cs =>
    match cs with
    | '"' :: rest => do
      let (name, rest) ← stringTail fuel [] rest
      match skipBlanks rest with
      | ':' :: rest =>
        let (v, rest) ← value fuel depth (skipBlanks rest)
        let done := Assoc.put done name v
        match skipBlanks rest with
        | ',' :: rest => membersFrom fuel depth done (skipBlanks rest)
        | '}' :: rest => return (object done, rest)
        | _ => .error .malformed
      | _ => .error .malformed
    | _ => .error .malformed

end

/-- Arrays and objects around a value, itself included. -/
def nestingLimit : Nat := 986

/-- The value that a text consists of. Of two calls in a row one reads a character, so fuel for twice
the length never runs out. -/
def read (s : String) : Except ReadError Json := do
  let cs := s.toList
  let (v, rest) ← value (2 * cs.length + 2) nestingLimit (skipBlanks cs)
  if (skipBlanks rest).isEmpty then return v else .error .malformed

end Flextime.Json

import Flextime.Log.Value

/-! # Failures that log records report

A failure is a kind and a text. A record may carry another value in its place; only a list whose second
and third part are null stands for a failure, the one of no kind.
-/
namespace Flextime.Log

structure Failure where
  kind : Text
  text : Text
deriving DecidableEq

namespace Failure

/-- The text; that of a failed look-up is the key, quoted. -/
def shownText (f : Failure) : Text := if f.kind = "KeyError" then Text.quoted f.text else f.text

def summary (f : Failure) : Text :=
  if f.shownText.isEmpty then f.kind else f.kind ++ ": " ++ f.shownText

/-- The three parts of a failure; the last is the void place where it arose. -/
def parts (f : Failure) : Json :=
  .array [.string ("<class '" ++ f.kind ++ "'>"), .string f.shownText, .null]

end Failure

/-- Why a value does not stand for a failure. -/
inductive FailureFault where
  | withoutParts (kind : String)
  | tooShort (kind : String)
  | noThirdPart
  | withoutAttribute (kind name : String)
deriving DecidableEq

def FailureFault.message : FailureFault → String
  | withoutParts kind => s!"'{kind}' object is not subscriptable"
  | tooShort kind => s!"{kind} index out of range"
  | noThirdPart => "2"
  | withoutAttribute kind name => s!"'{kind}' object has no attribute '{name}'"

/-- The text of what stands in place of a failure. -/
def failureText : Value → Except FailureFault Text
  | .json (.array (_ :: .null :: .null :: _)) => .ok "NoneType: None"
  | .json (.array (_ :: v :: .null :: _)) =>
    .error (.withoutAttribute (kindName v) "__suppress_context__")
  | .json (.array (_ :: _ :: v :: _)) => .error (.withoutAttribute (kindName v) "tb_frame")
  | .json (.array _) => .error (.tooShort "list")
  | .json (.string t) =>
    .error (if t.length < 3 then .tooShort "string" else .withoutAttribute "str" "tb_frame")
  | .json (.object _) => .error .noThirdPart
  | v => .error (.withoutParts v.kind)

end Flextime.Log

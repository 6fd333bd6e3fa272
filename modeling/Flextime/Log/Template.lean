import Flextime.Log.Placeholder

/-! # Messages with placeholders

A template is a run of letters and placeholders; two percent signs are one letter. Arguments are used
up in order.
-/
namespace Flextime.Log

/-- A piece of a template; `behind` letters of it follow a placeholder. -/
inductive Piece where
  | letter (l : Letter)
  | placeholder (p : Placeholder) (behind : Nat)
deriving DecidableEq

def pieces : Text → List Piece
  | [] => []
  | .char '%' :: .char '%' :: rest => .letter (.char '%') :: pieces rest
  | .char '%' :: rest =>
    let r := Placeholder.read rest
    .placeholder r.1 r.2.length :: pieces r.2
  | l :: rest => .letter l :: pieces rest
termination_by t => t.length
decreasing_by
  all_goals
    have := Placeholder.length_read_le rest
    simp only [List.length_cons]
    omega

/-- The arguments of a message: those it came with, or a value attached in their place. -/
inductive Arguments where
  | given (values : List Json)
  | attached (value : Value)

namespace Arguments

def isVoid : Arguments → Bool
  | given vs => vs.isEmpty
  | attached v => v.isVoid

def values : Arguments → List Value
  | given vs => vs.map .json
  | attached v => [v]

/-- A collection attached as a whole: names are looked up in it, and it may be left over. -/
def collection? : Arguments → Option Json
  | attached (.json (.array vs)) => some (.array vs)
  | attached (.json (.object ms)) => some (.object ms)
  | _ => none

end Arguments

/-- The text of pieces of a template with `size` letters, and the arguments left. -/
def fillPieces (size : Nat) (collection? : Option Json) :
    List Piece → List Value → Except TemplateFault (Text × List Value)
  | [], args => .ok ([], args)
  | .letter l :: rest, args => do
    let (t, args) ← fillPieces size collection? rest args
    return (l :: t, args)
  | .placeholder p behind :: rest, args => do
    let (front, args) ← p.fill collection? (size - behind - 1) args
    let (t, args) ← fillPieces size collection? rest args
    return (front ++ t, args)

/-- The message; without arguments the template is the message. -/
def fill (template : Text) (args : Arguments) : Except TemplateFault Text := do
  if args.isVoid then return template
  let (t, rest) ← fillPieces template.length args.collection? (pieces template) args.values
  if rest.isEmpty || args.collection?.isSome then return t else .error .tooManyArguments

end Flextime.Log

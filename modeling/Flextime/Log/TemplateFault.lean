import Flextime.Fault

/-! # What can go wrong with a message

A template, its arguments, or a remark behind it can be at fault; `message` has the wording.
-/
namespace Flextime.Log

/-- A part of a placeholder that is a count. -/
inductive Dimension where
  | width
  | precision
deriving DecidableEq

namespace Dimension

def name : Dimension → String
  | width => "width"
  | precision => "precision"

def limit : Dimension → Nat
  | width => 9223372036854775807
  | precision => 2147483647

def storage : Dimension → String
  | width => "ssize_t"
  | precision => "int"

end Dimension

inductive TemplateFault where
  | tooFewArguments
  | tooManyArguments
  /-- A name where arguments have none. -/
  | unnamedArguments
  | missingName (name : Text)
  /-- A name where arguments are numbered. -/
  | numberedArguments
  | incompleteName
  | incomplete
  | unsupported (letter : Letter) (index : Nat)
  | tooBig (part : Dimension)
  | countKind
  | countRange (part : Dimension)
  /-- More digits than a whole number is written with. -/
  | longNumber
  /-- A text too wide to be held. -/
  | memory
  | notReal (letter : Char) (kind : String)
  | notInteger (letter : Char) (kind : String)
  | notNumber (kind : String)
  /-- A whole number beyond the range of numbers with a fraction. -/
  | hugeArgument
  | notCharacter
  | characterRange
  /-- A value that is no text where a text goes behind the message. -/
  | wrongRemark (kind : String)
  | value (fault : Fault)
deriving DecidableEq

/-- A letter in a fault: by itself when it is plain, and its code point. -/
def letterText (l : Letter) : String :=
  let shown := if 31 ≤ l.code ∧ l.code < 127 then Char.ofNat l.code else '?'
  "'" ++ shown.toString ++ "' (0x" ++ String.ofList (Nat.toDigits 16 l.code) ++ ")"

def TemplateFault.message : TemplateFault → String
  | tooFewArguments => "not enough arguments for format string"
  | tooManyArguments => "not all arguments converted during string formatting"
  | unnamedArguments => "format requires a mapping"
  | missingName name => Text.quoted name
  | numberedArguments => "list indices must be integers or slices, not str"
  | incompleteName => "incomplete format key"
  | incomplete => "incomplete format"
  | unsupported l index => s!"unsupported format character {letterText l} at index {index}"
  | tooBig part => s!"{part.name} too big"
  | countKind => "* wants int"
  | countRange part => s!"Python int too large to convert to C {part.storage}"
  | longNumber => "precision too large"
  | memory => ""
  | notReal letter kind => s!"%{letter} format: a real number is required, not {kind}"
  | notInteger letter kind => s!"%{letter} format: an integer is required, not {kind}"
  | notNumber kind => s!"must be real number, not {kind}"
  | hugeArgument => "int too large to convert to float"
  | notCharacter => "%c requires int or char"
  | characterRange => "%c arg not in range(0x110000)"
  | wrongRemark kind => s!"can only concatenate str (not \"{kind}\") to str"
  | value fault => fault.message

end Flextime.Log

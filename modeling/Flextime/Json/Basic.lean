import Flextime.Binary64.Basic
import Flextime.Text.Basic

/-! # JSON values

Whole numbers keep all their digits apart from numbers with a fraction or an exponent, and members
keep their order.
-/
namespace Flextime

inductive Json where
  | null
  | bool (b : Bool)
  | int (n : Int)
  | number (x : Binary64)
  | string (t : Text)
  | array (items : List Json)
  | object (members : List (Text × Json))
deriving Inhabited

namespace Json

def member? (name : Text) : Json → Option Json
  | object members => members.lookup name
  | _ => none

/-- Null, false, zero and everything empty. -/
def isVoid : Json → Bool
  | null => true
  | bool b => !b
  | int n => n == 0
  | number x => x.isZero
  | string t => t.isEmpty
  | array items => items.isEmpty
  | object members => members.isEmpty

end Json
end Flextime

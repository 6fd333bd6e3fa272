/-! # Texts of letters

A letter is a character, or a surrogate that stands alone: JSON can escape one, and no `String`
holds it.
-/
namespace Flextime

inductive Letter where
  | char (c : Char)
  /-- The code point `0xd800 + half`. -/
  | surrogate (half : Fin 2048)
deriving DecidableEq, Inhabited

namespace Letter

instance : Coe Char Letter := ⟨char⟩

def code : Letter → Nat
  | char c => c.toNat
  | surrogate half => 0xd800 + half

/-- The letter of a code point below `0x110000`. -/
def ofCode (n : Nat) : Letter :=
  if 0xd800 ≤ n ∧ n < 0xe000 then surrogate (Fin.ofNat 2048 (n - 0xd800)) else char (Char.ofNat n)

def char? : Letter → Option Char
  | char c => some c
  | surrogate _ => none

end Letter

abbrev Text := List Letter

namespace Text

def ofChars (cs : List Char) : Text := cs.map Letter.char

def ofString (s : String) : Text := ofChars s.toList

instance : Coe String Text := ⟨ofString⟩

def chars? (t : Text) : Option (List Char) := t.mapM Letter.char?

/-- The text as a string, when all its letters are characters. -/
def string? (t : Text) : Option String := (chars? t).map String.ofList

theorem chars?_ofChars (cs : List Char) : chars? (ofChars cs) = some cs := by
  unfold chars? ofChars
  induction cs with
  | nil => rfl
  | cons c cs ih => rw [List.map_cons, List.mapM_cons, ih]; rfl

theorem string?_ofString (s : String) : string? (ofString s) = some s := by
  unfold string? ofString
  rw [chars?_ofChars, Option.map_some, String.ofList_toList]

/-- The texts with a separator between them. -/
def join (separator : Text) (ts : List Text) : Text := List.intercalate separator ts

end Text
end Flextime

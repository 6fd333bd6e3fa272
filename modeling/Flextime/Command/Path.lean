import Flextime.Text.Basic

/-! # Paths

A path is names with slashes between them. A tree of files says what a path leads to: the names are
followed one by one, and the first that leads nowhere decides.
-/
namespace Flextime.Command

/-- The names between slashes, empty ones too. -/
def splitPath (path : Text) : List Text :=
  path.foldr (fun l names =>
    if l = .char '/' then [] :: names
    else
      match names with
      | name :: names => (l :: name) :: names
      | [] => [[l]]) [[]]

/-- The names of a path but those that lead nowhere else. -/
def pathNames (path : Text) : List Text :=
  (splitPath path).filter fun name => !name.isEmpty && name != "."

/-- Two slashes in front are another root than one, or more than two. -/
def pathRoot : Text → Text
  | .char '/' :: .char '/' :: .char '/' :: _ => "/"
  | .char '/' :: .char '/' :: _ => "//"
  | .char '/' :: _ => "/"
  | _ => []

/-- A path without empty and dot parts. -/
def cleanPath (path : Text) : Text :=
  let clean := pathRoot path ++ Text.join "/" (pathNames path)
  if clean.isEmpty then "." else clean

/-- What a path leads to. -/
inductive FileState where
  | text (content : String)
  | directory
  | missing
  /-- A name on the way, or the path, is longer than names or paths can be. -/
  | longName
deriving DecidableEq

/-- Bytes of a letter in a name; a surrogate stands for a single byte. -/
def byteSize : Letter → Nat
  | .char c => c.utf8Size
  | .surrogate _ => 1

def nameSize (name : Text) : Nat := name.foldl (fun n l => n + byteSize l) 0

def longestName : Nat := 255
def longestPath : Nat := 4095

/-- Names hold no zero, and of the surrogates only those of the bytes from 128 on. -/
def isNameLetter : Letter → Bool
  | .char c => c.toNat != 0
  | l@(.surrogate _) => 0xdc80 ≤ l.code && l.code ≤ 0xdcff

/-- Files and directories by the names that lead to them from the root. -/
structure FileTree where
  files : List (List Text × String)
  directories : List (List Text)
  /-- The directory from which relative paths lead on. -/
  current : List Text

namespace FileTree

/-- The directories are those given and all on the way to anything. -/
def isDirectory (t : FileTree) (names : List Text) : Bool :=
  (t.current :: t.directories ++ t.files.map fun f => f.1.dropLast).any (names.isPrefixOf ·)

/-- What names lead to from a directory. -/
def follow (t : FileTree) (here : List Text) : List Text → FileState
  | [] => .directory
  | name :: rest =>
    if name = ".." then follow t here.dropLast rest
    else if longestName < nameSize name then .longName
    else
      match t.files.lookup (here ++ [name]) with
      | some content => if rest.isEmpty then .text content else .missing
      | none =>
        if t.isDirectory (here ++ [name]) then follow t (here ++ [name]) rest else .missing

def state (t : FileTree) (path : Text) : FileState :=
  if !path.all isNameLetter then .missing
  else if longestPath < nameSize path then .longName
  else t.follow (if (pathRoot path).isEmpty then t.current else []) (pathNames path)

end FileTree
end Flextime.Command

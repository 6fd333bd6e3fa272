import Flextime.Log.Written

/-! # Placeholders in messages

Behind a percent sign stand perhaps the name of an argument in parentheses, flags, a least width, a
precision behind a point, and the letter that says how the argument is written. `read` takes one apart
and never fails; what is wrong with it shows when it is `fill`ed, in the order of its parts.
-/
namespace Flextime.Log

/-- A count as written: in digits, or taken from the arguments. -/
inductive Count where
  | digits (n : Nat)
  | argument
deriving DecidableEq

def Count.take (part : Dimension) : Count → List Value → Except TemplateFault (Int × List Value)
  | digits n, args => if n ≤ part.limit then .ok (n, args) else .error (.tooBig part)
  | argument, [] => .error .tooFewArguments
  | argument, .json (.bool b) :: args => .ok (if b then 1 else 0, args)
  | argument, .json (.int n) :: args =>
    if -part.limit - 1 ≤ n ∧ n ≤ part.limit then .ok (n, args) else .error (.countRange part)
  | argument, _ :: _ => .error .countKind

/-- The name of an argument as written. -/
inductive ArgumentName where
  | closed (name : Text)
  /-- Without the parenthesis that ends it. -/
  | unclosed
deriving DecidableEq

/-- The arguments, when they are a collection that a name can be looked up in, give one for a name. -/
def ArgumentName.find (collection? : Option Json) (name : ArgumentName) :
    Except TemplateFault Value :=
  match collection?, name with
  | none, _ => .error .unnamedArguments
  | some _, unclosed => .error .incompleteName
  | some (.object ms), closed name =>
    match ms.lookup name with
    | some v => .ok v
    | none => .error (.missingName name)
  | some _, closed _ => .error .numberedArguments

structure Placeholder where
  name? : Option ArgumentName := none
  flags : Flags := {}
  width? : Option Count := none
  precision? : Option Count := none
  letter? : Option Letter := none
deriving DecidableEq

namespace Placeholder

/-- What stands before the parenthesis that closes `depth` more than are opened, and what follows. -/
def closeName : Nat → Text → Option (Text × Text)
  | _, [] => none
  | depth, l :: rest =>
    if l = .char ')' then
      match depth with
      | 0 => some ([], rest)
      | depth + 1 => (closeName depth rest).map fun (name, rest) => (l :: name, rest)
    else
      let depth := if l = .char '(' then depth + 1 else depth
      (closeName depth rest).map fun (name, rest) => (l :: name, rest)

def readName : Text → Option ArgumentName × Text
  | .char '(' :: rest =>
    match closeName 0 rest with
    | some (name, rest) => (some (.closed name), rest)
    | none => (some .unclosed, [])
  | t => (none, t)

def readFlags (f : Flags) : Text → Flags × Text
  | .char '-' :: rest => readFlags { f with left := true } rest
  | .char '+' :: rest => readFlags { f with plus := true } rest
  | .char ' ' :: rest => readFlags { f with blank := true } rest
  | .char '#' :: rest => readFlags { f with long := true } rest
  | .char '0' :: rest => readFlags { f with zeros := true } rest
  | t => (f, t)

/-- Decimal digits in front, and what follows them. -/
def readDigits : Text → List Char × Text
  | .char c :: rest =>
    if Text.isDigit c then
      let (ds, more) := readDigits rest
      (c :: ds, more)
    else ([], .char c :: rest)
  | t => ([], t)

def readCount : Text → Option Count × Text
  | .char '*' :: rest => (some .argument, rest)
  | t =>
    let (ds, rest) := readDigits t
    (if ds.isEmpty then none else some (.digits (Text.natOfDigits ds)), rest)

/-- A precision after its point; a point alone asks for 0. -/
def readPrecision : Text → Option Count × Text
  | .char '.' :: rest =>
    let (count?, more) := readCount rest
    (some (count?.getD (.digits 0)), more)
  | t => (none, t)

/-- What follows a letter that would only say the size of an argument. -/
def skipSize : Text → Text
  | .char 'h' :: rest => rest
  | .char 'l' :: rest => rest
  | .char 'L' :: rest => rest
  | t => t

/-- The placeholder behind a percent sign, and what follows it. -/
def read (t : Text) : Placeholder × Text :=
  let (name?, t) := readName t
  let (flags, t) := readFlags {} t
  let (width?, t) := readCount t
  let (precision?, t) := readPrecision t
  let t := skipSize t
  ({ name?, flags, width?, precision?, letter? := t.head? }, t.tail)

theorem length_closeName_lt {depth : Nat} {t name rest : Text}
    (h : closeName depth t = some (name, rest)) : rest.length < t.length := by
  induction t generalizing depth name rest with
  | nil => simp [closeName] at h
  | cons l t ih =>
    unfold closeName at h
    split at h
    · split at h
      · cases h
        exact Nat.lt_succ_self _
      · obtain ⟨p, hp, he⟩ := Option.map_eq_some_iff.mp h
        cases he
        exact Nat.lt_succ_of_lt (ih hp)
    · obtain ⟨p, hp, he⟩ := Option.map_eq_some_iff.mp h
      cases he
      exact Nat.lt_succ_of_lt (ih hp)

theorem length_readName_le (t : Text) : (readName t).2.length ≤ t.length := by
  unfold readName
  split
  · split
    · next h => exact Nat.le_succ_of_le (Nat.le_of_lt (length_closeName_lt h))
    · exact Nat.zero_le _
  · exact Nat.le_refl _

theorem length_readFlags_le (f : Flags) (t : Text) : (readFlags f t).2.length ≤ t.length := by
  fun_induction readFlags f t with
  | case1 _ _ ih => exact Nat.le_succ_of_le ih
  | case2 _ _ ih => exact Nat.le_succ_of_le ih
  | case3 _ _ ih => exact Nat.le_succ_of_le ih
  | case4 _ _ ih => exact Nat.le_succ_of_le ih
  | case5 _ _ ih => exact Nat.le_succ_of_le ih
  | case6 => exact Nat.le_refl _

theorem length_readDigits_le (t : Text) : (readDigits t).2.length ≤ t.length := by
  fun_induction readDigits t with
  | case1 _ _ _ _ _ hr ih =>
    rw [hr] at ih
    exact Nat.le_succ_of_le ih
  | case2 => exact Nat.le_refl _
  | case3 => exact Nat.le_refl _

theorem length_readCount_le (t : Text) : (readCount t).2.length ≤ t.length := by
  unfold readCount
  split
  · simp
  · exact length_readDigits_le t

theorem length_readPrecision_le (t : Text) : (readPrecision t).2.length ≤ t.length := by
  unfold readPrecision
  split
  · exact Nat.le_succ_of_le (length_readCount_le _)
  · exact Nat.le_refl _

theorem length_skipSize_le (t : Text) : (skipSize t).length ≤ t.length := by
  unfold skipSize
  split <;> simp

theorem length_read_le (t : Text) : (read t).2.length ≤ t.length := by
  have h0 := length_readName_le t
  have h1 := length_readFlags_le {} (readName t).2
  have h2 := length_readCount_le (readFlags {} (readName t).2).2
  have h3 := length_readPrecision_le (readCount (readFlags {} (readName t).2).2).2
  have h4 := length_skipSize_le (readPrecision (readCount (readFlags {} (readName t).2).2).2).2
  unfold read
  dsimp only
  rw [List.length_tail]
  omega

def takeCount (part : Dimension) (count? : Option Count) (args : List Value) :
    Except TemplateFault (Option Int × List Value) :=
  match count? with
  | none => .ok (none, args)
  | some c => (c.take part args).map fun (n, args) => (some n, args)

/-- An argument with a name stands for all that are left. -/
def takeName (collection? : Option Json) (name? : Option ArgumentName) (args : List Value) :
    Except TemplateFault (List Value) :=
  match name? with
  | none => .ok args
  | some name => return [← name.find collection?]

/-- Wider texts cannot be held. -/
def widest : Nat := 68719476736

/-- What is written in place of a placeholder, whose letter is at `index`, and the arguments left. A
negative width counts from the right, and a negative precision is 0. -/
def fill (p : Placeholder) (collection? : Option Json) (index : Nat) (args : List Value) :
    Except TemplateFault (Text × List Value) := do
  let args ← takeName collection? p.name? args
  let (width?, args) ← takeCount .width p.width? args
  let (precision?, args) ← takeCount .precision p.precision? args
  let width := width?.getD 0
  let flags := { p.flags with left := p.flags.left || width < 0 }
  match p.letter?, args with
  | none, _ => .error .incomplete
  | some _, [] => .error .tooFewArguments
  | some l, v :: args =>
    match l.char?.bind (write? flags (precision?.map Int.toNat) · v) with
    | none => .error (.unsupported l index)
    | some w =>
      let w ← w
      if widest < width.natAbs then .error .memory else return (w.fit flags width.natAbs, args)

end Placeholder
end Flextime.Log

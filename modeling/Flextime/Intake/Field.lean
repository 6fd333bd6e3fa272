import Flextime.Calendar.Stamp
import Flextime.Calendar.Timestamp
import Flextime.Category
import Flextime.Intake.Issue
import Flextime.Intake.Numeral
import Flextime.Json.Basic

/-! # Reading the fields of an object -/
namespace Flextime.Intake
variable {α : Type}

def members : Json → Intake (List (Text × Json))
  | .object ms => .ok ms
  | _ => refuse .notObject

def required (name : String) (read : Json → Intake α) (ms : List (Text × Json)) : Intake α :=
  under (.field name) (match ms.lookup (Text.ofString name) with
    | some v => read v
    | none => refuse .missing)

def optional (name : String) (read : Json → Intake α) (absent : α) (ms : List (Text × Json)) :
    Intake α :=
  match ms.lookup (Text.ofString name) with
  | some v => under (.field name) (read v)
  | none => .ok absent

/-- The items of a list, each finding under the item's index. -/
def list (read : Json → Intake α) : Json → Intake (List α)
  | .array vs => every (vs.mapIdx fun i v => under (.index i) (read v))
  | _ => refuse .notList

def nonemptyList (read : Json → Intake α) (v : Json) : Intake (List α) :=
  match v with
  | .array [] => refuse .tooShort
  | v => list read v

/-- A text that is to be read as something else. -/
def readable (t : Text) : Intake String :=
  match t.string? with
  | some s => .ok s
  | none => refuse .loneSurrogate

/-- A number, a switch as one or zero, or a text that spells a number. -/
def number : Json → Intake Binary64
  | .number x => .ok x
  | .int n =>
    let x := Binary64.ofInt n
    if x.isFinite then .ok x else refuse .notNumber
  | .bool b => .ok (Binary64.ofInt (if b then 1 else 0))
  | .string t => do
    match number? (← readable t) with
    | some x => return x
    | none => refuse .badNumber
  | _ => refuse .notNumber

/-- A number within bounds; the upper bound is checked first and `nan` is within none. -/
def bounded (max? : Option Binary64) (v : Json) : Intake Binary64 := do
  let x ← number v
  if max?.any fun m => !x.le m then refuse .aboveMaximum
  else if !(Binary64.zero false).le x then refuse .belowMinimum
  else return x

/-- A number as a point of time. -/
def counted (notOne unreadable : Problem) (v : Json) : Intake Timestamp :=
  let read (t? : Option Timestamp) : Intake Timestamp :=
    match t? with
    | some t => .ok t
    | none => refuse unreadable
  match v with
  | .int n => if (Binary64.ofInt n).isFinite then read (Timestamp.ofCount? n 0) else refuse notOne
  | .number x => read (Timestamp.ofNumber? x)
  | _ => refuse notOne

/-- The day of a point of time that is its midnight. -/
def midnight (time : Nat) (date? : Option Date) : Intake Date :=
  if time ≠ 0 then refuse .dateWithTime
  else match date? with
    | some d => .ok d
    | none => refuse .absentDate

/-- A date, or a point of time at midnight of it, written or counted. -/
def date : Json → Intake Date
  | .string t => do
    let s ← readable t
    match Stamp.read? s, Timestamp.read? s with
    | some stamp, _ => midnight stamp.time stamp.date?
    | none, some t => midnight t.time t.date?
    | none, none => refuse .badDate
  | v => do
    let t ← counted .notDate .badDate v
    midnight t.time t.date?

def monthStart (v : Json) : Intake Date := do
  let d ← date v
  if d.day = 1 then return d else refuse (.broken .monthStart)

/-- A point of time on the local clock; one that is counted is in universal time. -/
def localMoment : Json → Intake Moment
  | .string t => do
    let s ← readable t
    match Stamp.read? s, Timestamp.read? s with
    | some stamp, _ =>
      if stamp.isZoned then refuse .zonedMoment
      else
        match stamp.moment? with
        | some m => return m
        | none => refuse .absentMoment
    | none, some _ => refuse .zonedMoment
    | none, none => refuse .badMoment
  | v => do
    let _ ← counted .notMoment .absentMoment v
    refuse .zonedMoment

def category : Json → Intake Category
  | .string t => do
    match Category.ofName? (← readable t) with
    | some c => return c
    | none => refuse .notCategory
  | _ => refuse .notCategory

def text : Json → Intake Text
  | .string t => .ok t
  | _ => refuse .notText

end Flextime.Intake

import Flextime.Calendar.Date

/-! # Dates in the basic and week forms -/
namespace Flextime.Date

/-- Monday of the week that holds the year's first Thursday. -/
def firstMonday (y : Nat) : Int :=
  let newYear : Int := daysBeforeYear y + 1
  let offset := (newYear - 1) % 7
  if 3 < offset then newYear - offset + 7 else newYear - offset

/-- Weeks of a year: one that starts on Thursday, or in a leap year on Wednesday, has 53. -/
def weeksOf (y : Nat) : Nat :=
  let offset := (daysBeforeYear y) % 7
  if offset = 3 ∨ (offset = 2 ∧ isLeapYear y) then 53 else 52

def ofWeek? (y w d : Nat) : Option Date :=
  if 1 ≤ y ∧ 1 ≤ w ∧ w ≤ weeksOf y ∧ 1 ≤ d ∧ d ≤ 7 then
    ofNumber? (firstMonday y + ((w - 1) * 7 + (d - 1) : Nat))
  else none

/-- The separator in front, when the text has separators. -/
def separator? (separated : Bool) (cs : List Char) : Option (List Char) :=
  if separated then
    match cs with
    | '-' :: rest => some rest
    | _ => none
  else some cs

/-- A date in one of the forms 2023-03-31, 20230331, 2023-W13-5, 2023W135, 2023-W13 and 2023W13.
Only the length tells them apart from other text, and what follows the day is not looked at. -/
def readForms? (s : String) : Option Date := do
  guard (s.utf8ByteSize ∈ [7, 8, 10])
  let (y, rest) ← Text.digits? 4 s.toList
  let separated := rest.head? = some '-'
  let rest ← separator? separated rest
  match rest with
  | 'W' :: rest =>
    let (w, rest) ← Text.digits? 2 rest
    if rest.isEmpty then ofWeek? y w 1
    else
      let rest ← separator? separated rest
      let (d, _) ← Text.digits? 1 rest
      ofWeek? y w d
  | rest =>
    let (m, rest) ← Text.digits? 2 rest
    let rest ← separator? separated rest
    let (d, _) ← Text.digits? 2 rest
    ofCivil? y m d

end Flextime.Date

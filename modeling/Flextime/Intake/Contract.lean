import Flextime.Contract
import Flextime.Intake.Field

/-! # Contracts as input

A contract lists its rates as intervals in any order. Each interval starts with a month, no two of
a list start together, and each list begins no later than the contract.
-/
namespace Flextime

structure ContractDraft where
  firstDay : Date
  initialOvertime : Binary64
  initialVacation : Binary64
  workingHours : List RateChange
  vacationDays : List RateChange
deriving DecidableEq

namespace Intake

def interval (rateName : String) (max? : Option Binary64) (v : Json) : Intake RateChange := do
  let ms ← members v
  (both (required "first_day" monthStart ms) (required rateName (bounded max?) ms)).map
    fun p => ⟨p.1, p.2⟩

def workingHours : Json → Intake RateChange := interval "hours" (some (Binary64.ofInt 24))

def vacationDays : Json → Intake RateChange := interval "days" none

/-- The rule that a list of intervals breaks, if it breaks one. -/
def brokenRule? (list : RateList) (cs : List RateChange) (firstDay : Date) : Option Rule :=
  if !decide (cs.map (·.effective)).Nodup then some (.sharedDay list)
  else if cs.all fun c => decide (firstDay < c.effective) then some (.lateStart list)
  else none

/-- The rules about whole lists; working hours come first. -/
def checkIntervals (d : ContractDraft) : Intake ContractDraft :=
  match (brokenRule? .workingHours d.workingHours d.firstDay).or
      (brokenRule? .vacationDays d.vacationDays d.firstDay) with
  | some rule => refuse (.broken rule)
  | none => .ok d

def contractFields (ms : List (Text × Json)) : Intake ContractDraft :=
  let zero := Binary64.zero false
  (both (required "first_day" date ms)
    (both (optional "init_overtime_hours" number zero ms)
      (both (optional "init_vacation_days" number zero ms)
        (both (required "working_hours" (nonemptyList workingHours) ms)
          (required "vacation_days" (nonemptyList vacationDays) ms))))).map
    fun (firstDay, initialOvertime, initialVacation, workingHours, vacationDays) =>
      { firstDay, initialOvertime, initialVacation, workingHours, vacationDays }

def contract (v : Json) : Intake ContractDraft := do
  checkIntervals (← contractFields (← members v))

end Intake

/-- The terms of a contract; what intake accepts has no rate to refuse. -/
def ContractDraft.terms (d : ContractDraft) : Except Fault Contract :=
  Contract.ofChanges d.firstDay d.initialOvertime d.initialVacation d.workingHours d.vacationDays

end Flextime

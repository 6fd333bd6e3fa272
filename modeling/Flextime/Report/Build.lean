import Flextime.Intake.Contract
import Flextime.Intake.Entry
import Flextime.Report.Layout

/-! # From input to report -/
namespace Flextime.Report

/-- Findings about the contract or about the entries of a payload. -/
inductive Refusal where
  | contract (issues : List Intake.Issue)
  | entries (issues : List Intake.Issue)
deriving DecidableEq

structure Draft where
  contract : ContractDraft
  entries : List EntryDraft
deriving DecidableEq

/-- A part of the payload; one that is missing or void counts as the given empty value. -/
def part (payload : List (Text × Json)) (name : String) (empty : Json) : Json :=
  match payload.lookup (Text.ofString name) with
  | some v => if v.isVoid then empty else v
  | none => empty

def draft (payload : List (Text × Json)) : Except Refusal Draft := do
  let contract ← (Intake.contract (part payload "contract" (.object []))).mapError Refusal.contract
  let entries ← (Intake.entries (part payload "entries" (.array []))).mapError Refusal.entries
  return { contract, entries }

/-- The contract so far, then the month. -/
def text (s : Settings) (d : Draft) (asOf : Date) (year month : Int) : Traced Fault String := do
  let terms ← d.contract.terms
  let entries := d.entries.map EntryDraft.entry
  let lifetime ← summarize entries (lifetimePeriod terms asOf)
  let soFar ← lifetimeBalance terms lifetime asOf
  let period ← monthPeriod year month
  let monthSummary ← summarize entries period
  let monthSoFar ← monthBalance terms monthSummary asOf
  let first ← lifetimeText s soFar
  let second ← monthText s monthSoFar
  return first ++ "\n\n" ++ second

/-- A report once the payload is accepted. -/
def build (s : Settings) (payload : List (Text × Json)) (asOf : Date) (year month : Int) :
    Except Refusal (Traced Fault String) :=
  (draft payload).map fun d => text s d asOf year month

end Flextime.Report

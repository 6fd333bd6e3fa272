import Flextime.Report.Build

/-! # A ledger kept step by step

A step that fails leaves the ledger as it was.
-/
namespace Flextime

structure Ledger where
  contract? : Option Contract := none
  entries : List Entry := []
  settings : Settings := {}

namespace Ledger

inductive Step where
  | contract (payload : Json)
  | add (payload : Json)
  | summary (p : Period)
  | settings (hoursDecimals? daysDecimals? : Option Int)
  | balance (asOf : Date)
  | month (year month : Int) (today : Date)

inductive Answer where
  | terms (c : Contract)
  | entries (count : Nat)
  | summary (s : WorkSummary)
  | settings (hoursDecimals daysDecimals : Int)
  | balance (b : LifetimeBalance) (text : String)
  | month (b : MonthBalance) (text : String)

inductive Refusal where
  | contract (issues : List Intake.Issue)
  | entry (issues : List Intake.Issue)
  | fault (f : Fault)
  /-- A figure of a contract was needed before there was one. -/
  | noContract (figure : String)
deriving DecidableEq

def noContractMessage (figure : String) : String :=
  s!"'NoneType' object has no attribute '{figure}'"

def contractFor (l : Ledger) (figure : String) : Except Refusal Contract :=
  match l.contract? with
  | some c => .ok c
  | none => .error (.noContract figure)

def lift {α : Type} (x : Except Fault α) : Except Refusal α := x.mapError .fault

def balanceAt (l : Ledger) (asOf : Date) : Traced Refusal Answer := do
  let c ← l.contractFor "first_day"
  let s ← lift (summarize l.entries (lifetimePeriod c asOf))
  let b ← (lifetimeBalance c s asOf).mapError Refusal.fault
  return .balance b (← lift (Report.lifetimeText l.settings b))

def monthAt (l : Ledger) (year month : Int) (today : Date) : Traced Refusal Answer := do
  let p ← lift (monthPeriod year month)
  let s ← lift (summarize l.entries p)
  let c ← l.contractFor "working_hours"
  let b ← (monthBalance c s today).mapError Refusal.fault
  return .month b (← lift (Report.monthText l.settings b))

/-- The ledger after a step, and the answer. -/
def step (l : Ledger) : Step → Traced Refusal (Ledger × Answer)
  | .contract payload => do
    let d ← (Intake.contract payload).mapError Refusal.contract
    let c ← lift d.terms
    return ({ l with contract? := some c }, .terms c)
  | .add payload => do
    let d ← (Intake.entry payload).mapError Refusal.entry
    let l := { l with entries := l.entries ++ [d.entry] }
    return (l, .entries l.entries.length)
  | .summary p => do
    return (l, .summary (← lift (summarize l.entries p)))
  | .settings hours? days? =>
    let hoursDecimals := hours?.getD l.settings.hoursDecimals
    let daysDecimals := days?.getD l.settings.daysDecimals
    return ({ l with settings := { l.settings with hoursDecimals, daysDecimals } },
      .settings hoursDecimals daysDecimals)
  | .balance asOf => return (l, ← l.balanceAt asOf)
  | .month year month today => return (l, ← l.monthAt year month today)

/-- The answers to a list of steps, from an empty ledger. -/
def answers (l : Ledger) : List Step → List (Traced Refusal Answer)
  | [] => []
  | s :: rest =>
    let t := l.step s
    match t.outcome with
    | .ok (l, a) => ⟨t.events, .ok a⟩ :: l.answers rest
    | .error r => ⟨t.events, .error r⟩ :: l.answers rest

end Ledger
end Flextime

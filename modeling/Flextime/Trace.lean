import Flextime.Binary64.Fixed
import Flextime.Duration

/-! # Calculations that report their figures

A traced calculation ends with a value or a fault, and carries the events reported up to there.
-/
namespace Flextime

inductive Event where
  | interval (start stop : Date) (days : Int) (rate : Binary64)
  | overtime (period : Period) (carry actual target : Duration)
  | initialVacation (hours : Binary64)
  | accruedVacation (hours : Binary64)
  | takenVacation (taken remaining : Binary64)
  | month (first : Date) (actual target required : Binary64)
deriving DecidableEq

namespace Event

def hundredths (x : Binary64) : String := x.fixedText 2

def message : Event → String
  | interval start stop days rate =>
    s!"Interval {start} - {stop}: {days} working days at {hundredths rate} h"
  | overtime p carry actual target =>
    s!"Overtime {p.start} - {p.stop}: carry {carry}, actual {actual}, target {target}"
  | initialVacation h => s!"Initial vacation: {hundredths h} hours"
  | accruedVacation h => s!"Accrued vacation: {hundredths h} hours"
  | takenVacation taken remaining =>
    s!"Taken vacation: {hundredths taken} hours, remaining {hundredths remaining} hours"
  | month first actual target required =>
    s!"Month {monthLabel first.year first.month}: actual {hundredths actual} h, target {hundredths target} h, "
      ++ s!"required {hundredths required} h"

end Event

structure Traced (ε α : Type) where
  events : List Event
  outcome : Except ε α

namespace Traced
variable {ε ε' α β : Type}

protected def pure (a : α) : Traced ε α := ⟨[], .ok a⟩

protected def bind (x : Traced ε α) (f : α → Traced ε β) : Traced ε β :=
  match x.outcome with
  | .ok a => ⟨x.events ++ (f a).events, (f a).outcome⟩
  | .error e => ⟨x.events, .error e⟩

instance : Monad (Traced ε) where
  pure := Traced.pure
  bind := Traced.bind

def report (e : Event) : Traced ε Unit := ⟨[e], .ok ()⟩

/-- A calculation that reports nothing. -/
def silent (x : Except ε α) : Traced ε α := ⟨[], x⟩

instance : MonadLift (Except ε) (Traced ε) := ⟨silent⟩

def mapError (f : ε → ε') (x : Traced ε α) : Traced ε' α := ⟨x.events, x.outcome.mapError f⟩

@[simp] theorem outcome_pure (a : α) : (pure a : Traced ε α).outcome = .ok a := rfl
@[simp] theorem outcome_silent (x : Except ε α) : (silent x).outcome = x := rfl
@[simp] theorem outcome_report (e : Event) : (report e : Traced ε Unit).outcome = .ok () := rfl

@[simp] theorem outcome_mapError (f : ε → ε') (x : Traced ε α) :
    (x.mapError f).outcome = x.outcome.mapError f := rfl

@[simp] theorem outcome_bind (x : Traced ε α) (f : α → Traced ε β) :
    (x >>= f).outcome = x.outcome >>= fun a => (f a).outcome := by
  change (Traced.bind x f).outcome = _
  unfold Traced.bind
  cases x.outcome <;> rfl

instance : LawfulMonad (Traced ε) := LawfulMonad.mk' _
  (fun ⟨es, x⟩ => by cases x <;> simp [Functor.map, Traced.bind, Traced.pure])
  (fun _ _ => rfl)
  (fun ⟨es, x⟩ f g => by
    cases x with
    | error e => rfl
    | ok a =>
      simp only [bind, Traced.bind]
      cases h : (f a).outcome <;> simp [List.append_assoc])

end Traced
end Flextime

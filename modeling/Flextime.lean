import Flextime.Calendar.WorkingDays
import Flextime.Ledger
import Flextime.Main
import Flextime.Proofs.Calendar.Days
import Flextime.Proofs.Calendar.WorkingDays
import Flextime.Proofs.Outcome
import Flextime.Proofs.RateTimeline.Pieces
import Flextime.Proofs.Balance.Target
import Flextime.Proofs.Duration.Rounding
import Flextime.Proofs.Entry.Logged
import Flextime.Proofs.Balance.Overtime
import Flextime.Proofs.Binary64.Arithmetic
import Flextime.Proofs.Binary64.Error
import Flextime.Proofs.Duration.Hours
import Flextime.Proofs.Balance.DayRates
import Flextime.Proofs.Calendar.Months
import Flextime.Proofs.Intake.Contract
import Flextime.Proofs.Balance.MonthTarget
import Flextime.Proofs.Entry.Summary
import Flextime.Proofs.Balance.Lifetime
import Flextime.Proofs.Balance.Month
import Flextime.Proofs.Report.Build
import Flextime.Proofs.Intake.Acceptance
import Flextime.Proofs.Report.Reordering
import Flextime.Proofs.Entry.Overlap
import Flextime.Proofs.Balance.Figures
import Flextime.Proofs.Report.BeforeContract
import Flextime.Proofs.Balance.Accepted
import Flextime.Proofs.Balance.Percentages
import Flextime.Proofs.RateTimeline.Lookup
import Flextime.Proofs.RateTimeline.Amending
import Flextime.Proofs.Balance.Allocation
import Flextime.Proofs.Balance.Required
import Flextime.Proofs.Balance.Accrual
import Flextime.Proofs.Balance.Vacation
import Flextime.Proofs.Balance.SingleRate
import Flextime.Proofs.Balance.CarriedOver
import Flextime.Proofs.Balance.ConstantRate
import Flextime.Proofs.Calendar.Tiling
import Flextime.Proofs.Command.Month
import Flextime.Proofs.Report.SignedHours
import Flextime.Proofs.RateTimeline.Cuts
import Flextime.Proofs.Entry.Refusal
import Flextime.Proofs.Report.Places

import Flextime.Log.Clock
import Flextime.Log.Failure
import Flextime.Log.TemplateFault

/-! # Why a log record cannot be written -/
namespace Flextime.Log

inductive RecordFault where
  | template (fault : TemplateFault)
  | time (fault : TimeFault)
  | failure (fault : FailureFault)
deriving DecidableEq

def RecordFault.message : RecordFault → String
  | template fault => fault.message
  | time fault => fault.message
  | failure fault => fault.message

end Flextime.Log

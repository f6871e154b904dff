import Throttle.Activity
import Throttle.Settings.Fault

/-!
# Faults

Everything that can go wrong in the library's use, as causes with one text each.

## Main definitions

* `Fault` — a cause.
* `Fault.message` — its text.
* `Fault.isRateLimited` — whether it only means that there is no room now.
-/

namespace Throttle

/-- Why an interval is refused. -/
inductive IntervalFault where
  | empty
  | tooLong (interval : Nat)
  | tooShort (interval segments : Nat)
  /-- Sweeps would follow one another without a pause. -/
  | noCleanupPeriod
  /-- A cause that somebody else has put into words. -/
  | stated (text : String)
deriving Repr, DecidableEq

/-- How the library was used in a way that can never succeed. -/
inductive Misuse where
  | noUnits
  | overLimit (units limit : Nat)
  | alreadyUsed
  /-- Nobody would run the sweeper of a registry. -/
  | nobodySweeps
  /-- A cause that somebody else has put into words. -/
  | stated (text : String)
deriving Repr, DecidableEq

/-- Why a file could not be read. -/
inductive FileFault where
  | missing
  | directory
  | notText
  /-- A cause that somebody else has put into words. -/
  | stated (text : String)
deriving Repr, DecidableEq

/-- Everything that can go wrong. -/
inductive Fault where
  | noLimit
  | interval (fault : IntervalFault)
  | badSegments (segments : Nat)
  | noRoom
  | misuse (fault : Misuse)
  | ended (reason : EndReason)
  | settings (fault : SettingsFault)
  | file (fault : FileFault)
deriving Repr, DecidableEq

/-- The cause in words. -/
def IntervalFault.message : IntervalFault → String
  | empty => "interval must be greater than zero"
  | tooLong interval =>
    "interval " ++ Time.spanText interval ++ " exceeds the maximum of " ++
      Time.spanText Plan.longestInterval
  | tooShort interval segments =>
    "interval " ++ Time.spanText interval ++ " is too short for " ++ toString segments ++
      " segments"
  | noCleanupPeriod => "cleanup interval must be greater than zero"
  | stated text => text

/-- The cause in words. -/
def Misuse.message : Misuse → String
  | noUnits => "cannot take zero units"
  | overLimit units limit =>
    "requested " ++ toString units ++ " units but the limit is " ++ toString limit
  | alreadyUsed => "token has already been used"
  | nobodySweeps => "a limiter store needs a running tokio runtime"
  | stated text => text

/-- The cause in words. -/
def FileFault.message : FileFault → String
  | missing => "No such file or directory (os error 2)"
  | directory => "Is a directory (os error 21)"
  | notText => "stream did not contain valid UTF-8"
  | stated text => text

/-- The reason in words. -/
def EndReason.message : EndReason → String
  | canceled => "context canceled"
  | deadlineExceeded => "context deadline exceeded"

namespace Fault

/-- What is wrong with a plan. -/
def ofPlan : PlanFault → Fault
  | .noLimit => noLimit
  | .noInterval => interval .empty
  | .intervalTooLong length => interval (.tooLong length)
  | .badSegments segments => badSegments segments
  | .intervalTooShort length segments => interval (.tooShort length segments)

/-- What is wrong with settings. -/
def ofCheck : CheckFault → Fault
  | .plan fault => ofPlan fault
  | .noCleanupPeriod => settings .noCleanupPeriod

/-- What is wrong with a request. -/
def ofRequest : RequestFault → Fault
  | .noUnits => misuse .noUnits
  | .overLimit units limit => misuse (.overLimit units limit)

/-- Why a permit could not be used. -/
def ofRefusal : Refusal → Fault
  | .alreadyUsed => misuse .alreadyUsed
  | .noRoom => noRoom

/-- The fault in words. -/
def message : Fault → String
  | noLimit => "Invalid limit: max events must be greater than zero"
  | interval fault => "Invalid interval: " ++ fault.message
  | badSegments segments =>
    "Invalid segments: need at least 2 segments, got " ++ toString segments
  | noRoom => "Rate limit exceeded"
  | misuse fault => "Invalid usage: " ++ fault.message
  | ended reason => reason.message
  | settings fault => "Configuration error: " ++ fault.message
  | file fault => "I/O error: " ++ fault.message

/-- Whether a fault only means that there is no room now. -/
def isRateLimited : Fault → Bool
  | noRoom => true
  | _ => false

end Fault

end Throttle

import Throttle.Fault

/-!
# Inspection

Values as a developer sees them: the name of the type, and its fields between braces.
-/

namespace Throttle.Inspection

/-- A named value with its fields. -/
def record (name : String) (fields : List (String × String)) : String :=
  name ++ " \x7b " ++ ", ".intercalate (fields.map fun field => field.1 ++ ": " ++ field.2) ++ " \x7d"

/-- An instant. -/
def instant (t : Int) : String := "Instant(" ++ toString t ++ ")"

/-- A value that may be missing. -/
def optional (value : Option String) : String :=
  match value with
  | none => "None"
  | some value => "Some(" ++ value ++ ")"

/-- A window. -/
def window (w : Window) : String :=
  record "WindowState" [
    ("max_events", toString w.plan.limit),
    ("interval", Time.spanText w.plan.interval),
    ("segment_width", Time.spanText w.plan.width),
    ("segments", "[" ++ ", ".intercalate (w.counts.map toString) ++ "]"),
    ("window_start", instant w.start)]

/-- A limiter. -/
def limiter (l : Limiter) : String :=
  record "SlidingWindowLimiter" [("max_events", toString l.limit), ("state", window l.window)]

/-- A permit. -/
def permit (p : Permit) : String :=
  record "SlidingWindowToken" [("units", toString p.units), ("spent", toString p.used)]

/-- The short name of a policy. -/
def policyName (policy : Policy) : String :=
  if policy.tallies.isEmpty then "sliding_window" else "custom"

/-- A registry. -/
def registry (r : Registry) : String :=
  record "LimiterStore" [
    ("algorithm", Text.quoted (policyName r.policy)), ("entries", toString r.size)]

/-- A clock that shows `reading`. -/
def clock (c : Clock) (reading : Int) : String :=
  match c with
  | .system => "SystemClock"
  | .manual _ => record "ManualClock" [("now", record "Mutex" [("data", instant reading)])]

/-- A plan together with a clock that shows `reading`. -/
def plan (p : Plan) (c : Clock) (reading : Int) : String :=
  record "SlidingWindow" [
    ("max_events", toString p.limit),
    ("interval", Time.spanText p.interval),
    ("segments", toString p.segments),
    ("clock", clock c reading)]

/-- A scope. -/
def scope (tree : ScopeTree) (s : Scope) : String :=
  record "Context" [
    ("token", record "CancellationToken" [("is_cancelled", toString (tree.isCancelled s.node))]),
    ("deadline", optional (s.deadline.map instant))]

/-- The reason why a scope is over. -/
def reason : EndReason → String
  | .canceled => "Canceled"
  | .deadlineExceeded => "DeadlineExceeded"

/-- A fault, with its cause. -/
def fault : Fault → String
  | .noLimit => "InvalidLimit"
  | .interval cause => "InvalidInterval(" ++ Text.quoted cause.message ++ ")"
  | .badSegments segments => "InvalidSegments(" ++ toString segments ++ ")"
  | .noRoom => "RateLimitExceeded"
  | .misuse cause => "InvalidUsage(" ++ Text.quoted cause.message ++ ")"
  | .ended cause => "Context(" ++ reason cause ++ ")"
  | .settings cause => "Config(" ++ Text.quoted cause.message ++ ")"
  | .file cause => "Io(" ++ Text.quoted cause.message ++ ")"

/-- Settings. -/
def settings (s : Settings) : String :=
  record "WindmillConfig" [
    ("limiter", record "LimiterConfig" [
      ("max_events", toString s.limiter.maxEvents),
      ("interval_ms", toString s.limiter.intervalMillis),
      ("segments", toString s.limiter.segments)]),
    ("store", record "StoreConfig" [("cleanup_interval_ms", toString s.store.cleanupMillis)])]

end Throttle.Inspection

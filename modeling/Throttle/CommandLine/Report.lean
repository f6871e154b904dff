import Throttle.Activity
import Throttle.Text.Json

/-!
# Reports

Every decision is reported in a line of its own: in words, or as a JSON object whose names stand in a fixed
order.
-/

namespace Throttle.Decision

/-- The decision in words. -/
def words (decision : Decision) : String :=
  if decision.allowed then
    "ALLOW " ++ decision.key ++ " remaining=" ++ toString decision.remaining ++ "/" ++
      toString decision.limit ++ " waited=" ++ toString decision.waited ++ "ms"
  else
    "DENY " ++ decision.key ++ " retry_after=" ++ toString decision.retryAfter ++ "ms"

/-- The decision as a JSON object. -/
def json (decision : Decision) : String :=
  "\x7b\"key\":" ++ Text.jsonQuoted decision.key ++
    ",\"allowed\":" ++ (if decision.allowed then "true" else "false") ++
    ",\"limit\":" ++ toString decision.limit ++
    ",\"remaining\":" ++ toString decision.remaining ++
    ",\"retry_after_ms\":" ++ toString decision.retryAfter ++
    ",\"waited_ms\":" ++ toString decision.waited ++ "\x7d"

/-- The line that reports a decision. -/
def report (decision : Decision) (asJson : Bool) : String :=
  (if asJson then decision.json else decision.words) ++ "\n"

end Throttle.Decision

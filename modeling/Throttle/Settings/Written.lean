import Throttle.Settings.Basic
import Throttle.Number.Digits

/-!
# Settings in writing

The two written forms of settings: a block of lines with one setting in each, and a single line with
braces. Every setting is written, in a fixed order.
-/

namespace Throttle.Settings

/-- A word in base ten. -/
def word (n : UInt64) : List Char := Number.decimalDigits n.toNat

/-- The settings as indented lines. -/
def block (settings : Settings) : String :=
  String.ofList (
    "limiter:\n  max_events: ".toList ++ word settings.limiter.maxEvents ++
    "\n  interval_ms: ".toList ++ word settings.limiter.intervalMillis ++
    "\n  segments: ".toList ++ word settings.limiter.segments ++
    "\nstore:\n  cleanup_interval_ms: ".toList ++ word settings.store.cleanupMillis ++
    "\n".toList)

/-- The settings between braces. -/
def braced (settings : Settings) : String :=
  String.ofList (
    "\x7b\"limiter\":\x7b\"max_events\":".toList ++ word settings.limiter.maxEvents ++
    ",\"interval_ms\":".toList ++ word settings.limiter.intervalMillis ++
    ",\"segments\":".toList ++ word settings.limiter.segments ++
    "\x7d,\"store\":\x7b\"cleanup_interval_ms\":".toList ++ word settings.store.cleanupMillis ++
    "\x7d\x7d".toList)

end Throttle.Settings

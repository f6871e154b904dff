/-!
# Time

Instants are integers and spans are natural numbers; both count nanoseconds. An instant is measured
from the zero of its clock and may be negative.

## Main definitions

* `Time.elapsed` — how far a clock has come, zero when it has gone back.
* `Time.after?` — an instant a span later, when such an instant exists.
* `Time.tick` — the whole millisecond at which a timer for an instant fires.
-/

namespace Throttle.Time

/-- Nanoseconds in a millisecond. -/
def millisecond : Nat := 1000000

/-- Nanoseconds in a second. -/
def second : Nat := 1000000000

/-- The span from `start` to `now`, zero when `now` is earlier. -/
def elapsed (start now : Int) : Nat := (now - start).toNat

/-- The last instant a clock can show: its seconds fill a signed 64-bit word. -/
def latest : Int := 9223372036854775807 * second + (second - 1)

/-- The instant `span` after `t`, if a clock can show it. -/
def after? (t : Int) (span : Nat) : Option Int :=
  if t + span ≤ latest then some (t + span) else none

/-- The first whole millisecond that is not before `t`. -/
def tick (t : Int) : Int := (t + 999999) / 1000000 * 1000000

/-- A timer never fires early. -/
theorem le_tick (t : Int) : t ≤ tick t := by
  unfold tick; omega

/-- A timer fires less than a millisecond late. -/
theorem tick_lt (t : Int) : tick t < t + 1000000 := by
  unfold tick; omega

/-- The longest span that timers are asked to cover when none was given: thirty years. -/
def farFuture : Nat := 86400 * 365 * 30 * second

end Throttle.Time

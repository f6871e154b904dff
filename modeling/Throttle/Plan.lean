import Throttle.Count
import Throttle.Time

/-!
# Plans

A plan says how much may be recorded in an interval, and into how many equal segments the interval
is cut. Only usable plans exist: `Plan.ofParameters` checks the numbers in a fixed order and names
the first thing that is wrong.
-/

namespace Throttle

/-- Why three numbers are no plan. -/
inductive PlanFault where
  /-- Nothing could ever be recorded. -/
  | noLimit
  /-- The interval is empty. -/
  | noInterval
  /-- The interval is longer than `Plan.longestInterval`. -/
  | intervalTooLong (interval : Nat)
  /-- Fewer than two segments, or more than `Plan.mostSegments`. -/
  | badSegments (segments : Nat)
  /-- The segments would be shorter than a nanosecond. -/
  | intervalTooShort (interval segments : Nat)
deriving Repr, DecidableEq

/-- The numbers of a sliding window that can be used. -/
structure Plan where
  /-- How many units may be recorded in an interval. -/
  limit : Nat
  /-- The length of the window. -/
  interval : Nat
  /-- How many segments the window has. -/
  segments : Nat
  limit_pos : 0 < limit
  limit_le : limit ≤ Count.largest
  two_le_segments : 2 ≤ segments
  segments_le_interval : segments ≤ interval
deriving Repr, DecidableEq

namespace Plan

/-- A hundred years of 365 days: no window is longer. -/
def longestInterval : Nat := 100 * 365 * 24 * 3600 * Time.second

/-- Segments are numbered by 32-bit words. -/
def mostSegments : Nat := 4294967295

/-- The plan of three numbers. The limit is looked at first, then the interval, then the number of
segments, and last whether a segment is as long as a nanosecond. -/
def ofParameters (limit : UInt64) (interval : Nat) (segments : UInt64) : Except PlanFault Plan :=
  if hl : limit.toNat = 0 then .error .noLimit
  else if interval = 0 then .error .noInterval
  else if longestInterval < interval then .error (.intervalTooLong interval)
  else if hs : segments.toNat ≤ 1 then .error (.badSegments segments.toNat)
  else if mostSegments < segments.toNat then .error (.badSegments segments.toNat)
  else if hw : interval < segments.toNat then
    .error (.intervalTooShort interval segments.toNat)
  else .ok {
    limit := limit.toNat
    interval := interval
    segments := segments.toNat
    limit_pos := Nat.pos_of_ne_zero hl
    limit_le := Count.toNat_le_largest limit
    two_le_segments := Nat.lt_of_not_le hs
    segments_le_interval := Nat.le_of_not_lt hw }

/-- The length of a segment. What the division leaves over belongs to no segment. -/
def width (plan : Plan) : Nat := plan.interval / plan.segments

theorem width_pos (plan : Plan) : 0 < plan.width :=
  Nat.div_pos plan.segments_le_interval (by have := plan.two_le_segments; omega)

/-- The segments together are no longer than the interval. -/
theorem segments_mul_width_le (plan : Plan) : plan.segments * plan.width ≤ plan.interval :=
  Nat.mul_div_le plan.interval plan.segments

end Plan

end Throttle

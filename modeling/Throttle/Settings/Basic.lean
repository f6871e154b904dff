import Throttle.Registry

/-!
# Settings

The numbers that a program is set up with: the plan of its limiters, and how often recovered limiters
are forgotten. Lengths of time are in whole milliseconds. Every number may be any 64-bit word;
`Settings.check` says whether they can be used.
-/

namespace Throttle

/-- The plan of every limiter. -/
structure LimiterSettings where
  maxEvents : UInt64 := 100
  intervalMillis : UInt64 := 1000
  segments : UInt64 := 10
deriving Repr, DecidableEq

/-- How the registry of limiters is kept small. -/
structure StoreSettings where
  cleanupMillis : UInt64 := 60000
deriving Repr, DecidableEq

/-- All settings, in two sections. -/
structure Settings where
  limiter : LimiterSettings := {}
  store : StoreSettings := {}
deriving Repr, DecidableEq

/-- Why settings cannot be used. -/
inductive CheckFault where
  | plan (fault : PlanFault)
  /-- Sweeps would follow one another without a pause. -/
  | noCleanupPeriod
deriving Repr, DecidableEq

namespace Settings

/-- The length of the window. -/
def interval (settings : Settings) : Nat :=
  settings.limiter.intervalMillis.toNat * Time.millisecond

/-- The time between two sweeps. -/
def cleanupPeriod (settings : Settings) : Nat :=
  settings.store.cleanupMillis.toNat * Time.millisecond

/-- The plan of the limiters. -/
def plan (settings : Settings) : Except PlanFault Plan :=
  Plan.ofParameters settings.limiter.maxEvents settings.interval settings.limiter.segments

/-- The policy of the limiters, stated when the system clock shows `now`. -/
def policy (settings : Settings) (now : Int) : Except PlanFault Policy :=
  Policy.ofParameters settings.limiter.maxEvents settings.interval settings.limiter.segments now

/-- The plan of usable settings. What is wrong with the plan is told before what is wrong with the
sweeps. -/
def check (settings : Settings) : Except CheckFault Plan :=
  match settings.plan with
  | .error fault => .error (.plan fault)
  | .ok plan =>
    if settings.store.cleanupMillis = 0 then .error .noCleanupPeriod else .ok plan

end Settings

end Throttle

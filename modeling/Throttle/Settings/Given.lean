import Throttle.Settings.Basic

/-!
# Settings that are given

A source need not give every setting. What it does not give has its default.
-/

namespace Throttle

/-- The settings of limiters that are given. -/
structure GivenLimiter where
  maxEvents : Option UInt64 := none
  intervalMillis : Option UInt64 := none
  segments : Option UInt64 := none
deriving Repr, DecidableEq

/-- The settings of the registry that are given. -/
structure GivenStore where
  cleanupMillis : Option UInt64 := none
deriving Repr, DecidableEq

/-- The sections that are given. -/
structure GivenSections where
  limiter : Option LimiterSettings := none
  store : Option StoreSettings := none
deriving Repr, DecidableEq

/-- The settings that are given, and the defaults of all others. -/
def GivenLimiter.complete (given : GivenLimiter) : LimiterSettings :=
  let defaults : LimiterSettings := {}
  { maxEvents := given.maxEvents.getD defaults.maxEvents
    intervalMillis := given.intervalMillis.getD defaults.intervalMillis
    segments := given.segments.getD defaults.segments }

/-- The settings that are given, and the defaults of all others. -/
def GivenStore.complete (given : GivenStore) : StoreSettings :=
  let defaults : StoreSettings := {}
  { cleanupMillis := given.cleanupMillis.getD defaults.cleanupMillis }

/-- The sections that are given, and the defaults of all others. -/
def GivenSections.complete (given : GivenSections) : Settings where
  limiter := given.limiter.getD {}
  store := given.store.getD {}

end Throttle

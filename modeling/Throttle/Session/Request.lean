import Throttle.Timeline

/-!
# Requests

What can be asked of a session. Clocks, scopes, policies, limiters, permits and registries go by
names. A scope that is left out is the background scope, or a new one where another is derived from it.
-/

namespace Throttle

/-- The clock of a limiter. -/
inductive ClockName where
  | system
  | manual (name : String)
deriving Repr, DecidableEq

/-- How a scope comes about. -/
inductive ScopeKind where
  /-- Derived from no other. -/
  | root
  /-- Another name of the same scope. -/
  | same
  | cancel
  | timeout (span : Nat)
  | deadline (instant : Int)
deriving Repr, DecidableEq

/-- What somebody else does to named objects. -/
inductive NamedEffect where
  | cancel (scope : String)
  | advance (clock : String) (span : Nat)
deriving Repr, DecidableEq

/-- What happens beside a request that waits: effects, each some span after its start; and how long
the request goes on at most. -/
structure Surroundings where
  effects : List (Nat × NamedEffect)
  patience : Nat
deriving Repr, DecidableEq

/-- Something whose inside can be looked at. -/
inductive Subject where
  | limiter (name : String)
  | permit (name : String)
  | registry (name : String)
  | scope (name : String)
deriving Repr, DecidableEq

/-- A request that may have to wait. -/
inductive WaitingRequest where
  | pause (span : Nat)
  | wait (scope : Option String) (deadline : Int)
  | waitFor (scope : Option String) (span : Nat)
  | waitEnd (scope : Option String)
  /-- Use a new permit for some units, one unless told otherwise. -/
  | useOrWait (limiter : String) (scope : Option String) (units : Option Nat)
  | admission (registry key : String) (scope : Option String) (patient : Bool)
deriving Repr, DecidableEq

/-- A request. -/
inductive Request where
  | clock (name : String) (start : Option Int)
  | setClock (name : String) (instant : Int)
  | advanceClock (name : String) (span : Nat)
  | now
  /-- The system clock goes on while nothing else runs. -/
  | block (span : Nat)
  | scope (name : String) (kind : ScopeKind) (parent : Option String)
  | scopeInfo (name : String)
  | cancelScope (name : String)
  | policy (name : String) (maxEvents : UInt64) (interval : Nat) (segments : UInt64)
      (clock : ClockName)
  /-- A policy that makes limiters as another one does, and tallies them. -/
  | tallyPolicy (name base : String)
  | tallied (policy : String)
  | limiter (name : String) (maxEvents : UInt64) (interval : Nat) (segments : UInt64)
      (clock : ClockName)
  | makeLimiter (name policy : String)
  | interval (limiter : String)
  | limit (limiter : String)
  | inspect (subject : Subject)
  | available (limiter : String) (scope : Option String)
  | single (limiter name : String)
  | request (limiter name : String) (units : Nat)
  | allows (permit : String)
  | resetsAt (permit : String)
  | retryAfter (permit : String)
  | use (permit : String)
  | burst (limiter : String) (times : Nat)
  /-- The same from several sides at once; only the number let through is told. -/
  | parallelBurst (limiter : String) (sides times : Nat)
  | registry (name : String) (scope : Option String) (policy : String) (period : Nat)
      (canSweep : Bool)
  | registryInfo (name : String)
  | dropRegistry (name : String)
  | limiterFor (registry key : String) (scope : Option String) (name : Option String)
  /-- Ask for a limiter from several sides at once, and compare what they get. -/
  | parallelLimiterFor (registry key : String) (scope : Option String)
  | sweep (registry : String)
  | waiting (request : WaitingRequest) (surroundings : Surroundings)
deriving Repr, DecidableEq

end Throttle

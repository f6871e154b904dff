import Throttle.Registry
import Throttle.Sweeper

/-!
# The world

A world holds the clocks, the scopes, the limiters and the registries of a program at one instant of
the system clock. Limiters are named by where they are kept, so that two names are equal exactly when
they mean the same limiter.

## Main definitions

* `World.read` — what a clock shows.
* `World.use`, `World.look` — the operations of a limiter, at the reading of its own clock.
* `World.limiterFor` — the limiter of a key, for somebody whose scope is not over.
* `World.runSweepers` — let every sweeper do what it has to do now.
-/

namespace Throttle

/-- Where a limiter is kept. -/
inductive LimiterRef where
  /-- On its own. -/
  | loose (index : Nat)
  /-- Among the limiters that a registry has made. -/
  | kept (registry index : Nat)
deriving Repr, DecidableEq

/-- A registry and the sweeper that looks after it. -/
structure SweptRegistry where
  registry : Registry
  sweeper : Sweeper
deriving Repr, DecidableEq

/-- Everything that time and the program's calls change. -/
structure World where
  /-- What the system clock shows. -/
  now : Int
  /-- What the manual clocks show. -/
  clocks : Array Int
  scopes : ScopeTree
  /-- The limiters that belong to no registry. -/
  loose : Array Limiter
  registries : Array SweptRegistry
  /-- How many limiters were made for each tally. -/
  tallies : Array Nat
deriving Repr, DecidableEq

namespace World

/-- A world at the zero of its clock. -/
def initial : World := ⟨0, #[], .initial, #[], #[], #[]⟩

/-- What a clock shows. -/
def read (world : World) : Clock → Int
  | .system => world.now
  | .manual index => world.clocks[index]?.getD 0

/-- Why a scope is over now. -/
def ended (world : World) (scope : Scope) : Option EndReason := world.scopes.ended scope world.now

/-! ## Limiters -/

/-- The limiter that is kept in a place. -/
def limiter? (world : World) : LimiterRef → Option Limiter
  | .loose index => world.loose[index]?
  | .kept registry index => do (← world.registries[registry]?).registry.limiters[index]?

/-- Put a limiter in the place of another one. -/
def putLimiter (world : World) (ref : LimiterRef) (limiter : Limiter) : World :=
  match ref with
  | .loose index => { world with loose := world.loose.modify index fun _ => limiter }
  | .kept registry index =>
    { world with
      registries := world.registries.modify registry fun swept =>
        { swept with registry := swept.registry.put index limiter } }

/-- Advance a limiter to the reading of its clock, and look at it. -/
def look (world : World) (ref : LimiterRef) : Option (World × Limiter) := do
  let limiter ← world.limiter? ref
  let limiter := limiter.advance (world.read limiter.clock)
  some (world.putLimiter ref limiter, limiter)

/-- Use a permit of a limiter. -/
def use (world : World) (ref : LimiterRef) (permit : Permit) :
    Option (World × Permit × Option Refusal) := do
  let limiter ← world.limiter? ref
  let used := limiter.use permit (world.read limiter.clock)
  some (world.putLimiter ref used.limiter, used.permit, used.refusal)

/-- How long it takes until a limiter has room for a permit, on the limiter's clock. -/
def retryAfter (world : World) (ref : LimiterRef) (permit : Permit) : Option (World × Nat) := do
  let (world, limiter) ← world.look ref
  some (world, limiter.retryAfter permit (world.read limiter.clock))

/-- Count a limiter that a policy has made. -/
def tally (world : World) (policy : Policy) : World :=
  { world with
    tallies := policy.tallies.foldl (fun tallies index => tallies.modify index (· + 1))
      world.tallies }

/-- Keep a limiter that belongs to no registry. -/
def keepLoose (world : World) (limiter : Limiter) : World × LimiterRef :=
  ({ world with loose := world.loose.push limiter }, .loose world.loose.size)

/-- Make a limiter that belongs to no registry. -/
def makeLoose (world : World) (policy : Policy) : World × LimiterRef :=
  (world.tally policy).keepLoose (policy.make (world.read policy.clock))

/-! ## Registries -/

/-- Found a registry whose sweeper has not run yet. -/
def found (world : World) (policy : Policy) (scope : Scope) (period : Nat) : World × Nat :=
  ({ world with
    registries := world.registries.push ⟨.empty policy, ⟨period, scope, .new⟩⟩ },
    world.registries.size)

/-- The limiter of a key, for somebody whose scope is not over. -/
def limiterFor (world : World) (index : Nat) (key : String) (scope : Scope) :
    Option (Except EndReason (World × LimiterRef)) := do
  match world.ended scope with
  | some reason => some (.error reason)
  | none =>
    let swept ← world.registries[index]?
    let policy := swept.registry.policy
    let (registry, limiter) := swept.registry.limiterFor key (world.read policy.clock)
    let counted :=
      if swept.registry.limiters.size < registry.limiters.size then world.tally policy else world
    some (.ok ({ counted with
      registries := world.registries.modify index fun swept => { swept with registry } },
      .kept index limiter))

/-- Sweep a registry now. -/
def sweep (world : World) (index : Nat) : World :=
  { world with
    registries := world.registries.modify index fun swept =>
      { swept with registry :=
        swept.registry.sweep (world.read swept.registry.policy.clock) } }

/-- Stop a registry's sweeper for good. -/
def abandon (world : World) (index : Nat) : World :=
  { world with
    registries := world.registries.modify index fun swept =>
      { swept with sweeper := { swept.sweeper with phase := .stopped } } }

/-- Let the sweeper of a registry do what it has to do now. However many wake-ups have come, one sweep
does for all of them: a second sweep at the same reading finds nothing to forget. -/
def runSweeper (world : World) (swept : SweptRegistry) : SweptRegistry :=
  let (sweeper, sweeps) := swept.sweeper.wake world.scopes world.now
  { registry :=
      if sweeps = 0 then swept.registry
      else swept.registry.sweep (world.read swept.registry.policy.clock)
    sweeper }

/-- Let every sweeper do what it has to do now. -/
def runSweepers (world : World) : World :=
  { world with registries := world.registries.map world.runSweeper }

end World

end Throttle

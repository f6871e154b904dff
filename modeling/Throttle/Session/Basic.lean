import Throttle.Inspection
import Throttle.Session.Reply
import Throttle.Session.Request

/-!
# Sessions

A session is a world whose objects have names. Giving a name again takes it away from the object that
had it.

## Main definitions

* `Session` — a world and its names.
* `bindName` — give a name.
* `Session.surround` — effects on named objects as actions on the world.
-/

namespace Throttle

/-- A world and the names in use. -/
structure Session where
  world : World
  clocks : List (String × Nat)
  scopes : List (String × Scope)
  /-- The policies, each with the tally of its own if it has one. -/
  policies : List (String × Policy × Option Nat)
  /-- The limiters in the order in which they were named. -/
  limiters : List (String × LimiterRef)
  permits : List (String × LimiterRef × Permit)
  registries : List (String × Nat)
deriving Repr, DecidableEq

/-- Give a name to a value, as the last of all names. -/
def bindName {α : Type} (names : List (String × α)) (name : String) (value : α) :
    List (String × α) :=
  names.filter (fun entry => entry.1 != name) ++ [(name, value)]

namespace Session

/-- A session in which nothing has a name. -/
def initial : Session := ⟨.initial, [], [], [], [], [], []⟩

/-- The clock with a name. -/
def clock? (session : Session) : ClockName → Option Clock
  | .system => some .system
  | .manual name => (session.clocks.lookup name).map .manual

/-- The scope with a name, or the background scope. -/
def scope? (session : Session) : Option String → Option Scope
  | none => some .background
  | some name => session.scopes.lookup name

/-- The registry with a name. -/
def registry? (session : Session) (name : String) : Option Registry := do
  let index ← session.registries.lookup name
  (session.world.registries[index]?).map (·.registry)

/-- What a scope looks like now. -/
def describeScope (session : Session) (scope : Scope) : Answer :=
  .scope scope.deadline (session.world.ended scope)

/-- What a limiter looks like now. -/
def describeLimiter (session : Session) (ref : LimiterRef) : Option Answer := do
  let limiter ← session.world.limiter? ref
  some (.limiter limiter.limit limiter.window)

/-- What a registry looks like now. -/
def describeRegistry (session : Session) (index : Nat) : Option Answer := do
  let swept ← session.world.registries[index]?
  some (.registry swept.registry.size (Inspection.policyName swept.registry.policy)
    swept.sweeper.isRunning)

/-- The window of a limiter as it is kept. -/
def window? (session : Session) (ref : LimiterRef) : Option Window :=
  (session.world.limiter? ref).map (·.window)

/-- The effects on named objects, as actions on the world some span after now. -/
def surround (session : Session) (effects : List (Nat × NamedEffect)) : Option (List Action) :=
  effects.mapM fun (after, effect) => do
    let effect ← match effect with
      | .cancel scope => (session.scopes.lookup scope).map Effect.cancel
      | .advance clock span => (session.clocks.lookup clock).map (Effect.advance · span)
    some ⟨session.world.now + after, effect⟩

end Session

end Throttle

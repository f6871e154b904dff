import Throttle.World

/-!
# Activities

An activity is something that waits: a pause, a wait that a scope can cut short, or the admission of
a key that waits for room. Polling an activity at an instant either finishes it or leaves it waiting
for a timer or the end of its scope.

## Main definitions

* `World.poll` — finish an activity, or learn what it waits for.
* `World.wait`, `World.waitFor`, `World.takeOrWait`, `World.letIn` — the ways to begin one.
-/

namespace Throttle

/-- What was decided about a key. Spans are whole milliseconds. -/
structure Decision where
  key : String
  allowed : Bool
  limit : Nat
  remaining : Nat
  retryAfter : Nat
  waited : Nat
deriving Repr, DecidableEq

/-- The admission of a key: the limiter that serves it, and since when it goes on. -/
structure Admission where
  key : String
  limiter : LimiterRef
  scope : Scope
  /-- Whether to wait for room. -/
  patient : Bool
  started : Int
deriving Repr, DecidableEq

/-- Something that waits. An instant that no clock can show never comes. -/
inductive Activity where
  | pause (until? : Option Int)
  | wait (scope : Scope) (until? : Option Int)
  | admission (admission : Admission) (until? : Option Int)
deriving Repr, DecidableEq

/-- How an activity ends. -/
inductive Outcome where
  | finished
  | ended (reason : EndReason)
  | decided (decision : Decision)
  /-- Its permit was refused, and not for want of room. -/
  | refused (refusal : Refusal)
  /-- What it waited on does not exist. -/
  | lost
deriving Repr, DecidableEq

/-- An activity after a step: its outcome is reached, or it is still waiting. -/
inductive Progress where
  | reached (outcome : Outcome)
  | waiting (activity : Activity)
deriving Repr, DecidableEq

namespace Activity

/-- The instants whose timers can bring an activity to an end. -/
def alarms : Activity → List Int
  | pause until? => (until?.map Time.tick).toList
  | wait scope until? | admission ⟨_, _, scope, _, _⟩ until? =>
    (until?.map Time.tick).toList ++ (scope.deadline.map Time.tick).toList

end Activity

/-- A span in whole milliseconds, as large as a count can be. -/
def wholeMillis (span : Nat) : Nat := min (span / Time.millisecond) Count.largest

namespace World

/-- Whether the timer for an instant has fired. -/
def fired (world : World) (until? : Option Int) : Bool :=
  match until? with
  | none => false
  | some deadline => Time.tick deadline ≤ world.now

/-- Wait in a scope that may be over already. -/
def enterWait (world : World) (scope : Scope) (activity : Activity) : Progress :=
  match world.ended scope with
  | some reason => .reached (.ended reason)
  | none => .waiting activity

/-- Try to admit a key now. An admission whose scope is over by the time its unit is recorded fails all
the same. -/
def attempt (world : World) (admission : Admission) : World × Progress :=
  match world.use admission.limiter Limiter.single with
  | none => (world, .reached .lost)
  | some (world, _, none) =>
    match world.ended admission.scope with
    | some reason => (world, .reached (.ended reason))
    | none =>
      match world.look admission.limiter with
      | none => (world, .reached .lost)
      | some (world, limiter) =>
        (world, .reached (.decided {
          key := admission.key
          allowed := true
          limit := limiter.limit
          remaining := limiter.available
          retryAfter := 0
          waited := wholeMillis (Time.elapsed admission.started world.now) }))
  | some (world, _, some .alreadyUsed) => (world, .reached (.refused .alreadyUsed))
  | some (world, permit, some .noRoom) =>
    match world.look admission.limiter with
    | none => (world, .reached .lost)
    | some (world, limiter) =>
      let delay := limiter.retryAfter permit (world.read limiter.clock)
      if admission.patient then
        (world, world.enterWait admission.scope
          (.admission admission (Time.after? world.now delay)))
      else
        (world, .reached (.decided {
          key := admission.key
          allowed := false
          limit := limiter.limit
          remaining := 0
          retryAfter := wholeMillis delay
          waited := 0 }))

/-- Take an activity as far as it gets now. -/
def poll (world : World) : Activity → World × Progress
  | .pause until? =>
    if world.fired until? then (world, .reached .finished) else (world, .waiting (.pause until?))
  | .wait scope until? =>
    match world.scopes.noticed scope world.now with
    | some reason => (world, .reached (.ended reason))
    | none =>
      if world.fired until? then (world, .reached .finished)
      else (world, .waiting (.wait scope until?))
  | .admission admission until? =>
    match world.scopes.noticed admission.scope world.now with
    | some reason => (world, .reached (.ended reason))
    | none =>
      if world.fired until? then world.attempt admission
      else (world, .waiting (.admission admission until?))

/-- Take a step's outcome further if it is waiting. -/
def settle (world : World) : Progress → World × Progress
  | .reached outcome => (world, .reached outcome)
  | .waiting activity => world.poll activity

/-- Wait for `span`. -/
def pauseFor (world : World) (span : Nat) : World × Progress :=
  world.poll (.pause (Time.after? world.now span))

/-- Wait until `deadline` or until the scope is over. -/
def wait (world : World) (scope : Scope) (deadline : Int) : World × Progress :=
  world.settle (world.enterWait scope (.wait scope (some deadline)))

/-- Wait for `span` or until the scope is over. -/
def waitFor (world : World) (scope : Scope) (span : Nat) : World × Progress :=
  world.settle (world.enterWait scope (.wait scope (Time.after? world.now span)))

/-- Wait until the scope is over. -/
def waitEnd (world : World) (scope : Scope) : World × Progress :=
  world.poll (.wait scope none)

/-- Use a permit, or wait until there is room for it. Who has waited holds nothing yet. -/
def useOrWait (world : World) (scope : Scope) (ref : LimiterRef) (permit : Permit) :
    World × Progress :=
  match world.use ref permit with
  | none => (world, .reached .lost)
  | some (world, _, none) => (world, .reached .finished)
  | some (world, _, some .alreadyUsed) => (world, .reached (.refused .alreadyUsed))
  | some (world, permit, some .noRoom) =>
    match world.retryAfter ref permit with
    | none => (world, .reached .lost)
    | some (world, delay) => world.waitFor scope delay

/-- Get a permit for one unit, or for as many as are named, and use it or wait until there is room for
it. -/
def takeOrWait (world : World) (scope : Scope) (ref : LimiterRef) (units? : Option Nat) :
    World × Except RequestFault Progress :=
  match world.limiter? ref with
  | none => (world, .ok (.reached .lost))
  | some limiter =>
    match limiter.issue units? with
    | .error fault => (world, .error fault)
    | .ok permit =>
      let (world, progress) := world.useOrWait scope ref permit
      (world, .ok progress)

/-- Admit a key, waiting for room if `patient`. -/
def letIn (world : World) (registry : Nat) (key : String) (scope : Scope) (patient : Bool) :
    World × Progress :=
  match world.limiterFor registry key scope with
  | none => (world, .reached .lost)
  | some (.error reason) => (world, .reached (.ended reason))
  | some (.ok (world, limiter)) =>
    world.attempt { key, limiter, scope, patient, started := world.now }

end World

end Throttle

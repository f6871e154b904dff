import Throttle.Scope

/-!
# Sweepers

A sweeper wakes up once in a period and stops when its scope is over. Its period starts when it is
first run. A sweeper that wakes up late by more than `Sweeper.tolerance` waits a full period from
then on; it does not make up for what it missed.

## Main definitions

* `Sweeper.wake` — what a sweeper does when it is run at an instant.
* `Sweeper.alarms` — the instants at which it has to be run.
-/

namespace Throttle

/-- Where a sweeper is in its life. -/
inductive Sweeper.Phase where
  /-- It was never run. -/
  | new
  /-- It waits for the start of its period. -/
  | starting (due : Int)
  /-- It waits for the next sweep. -/
  | waiting (due : Int)
  | stopped
deriving Repr, DecidableEq

/-- A period, a scope, and how far the sweeper has come. -/
structure Sweeper where
  period : Nat
  scope : Scope
  phase : Sweeper.Phase
deriving Repr, DecidableEq

namespace Sweeper

/-- Waking up late by no more than this does not move the following sweeps. -/
def tolerance : Nat := 5 * Time.millisecond

/-- When to wake up after a wake-up that was due at `due` and happens at `now`. -/
def nextDue (period : Nat) (due now : Int) : Int :=
  if due + tolerance < now then now + period
  else match Time.after? due period with
    | some next => next
    | none => now + Time.farFuture

/-- A sweeper never wakes up twice for the same instant. -/
theorem lt_nextDue {period : Nat} {due now : Int} (hp : 0 < period) (hd : due ≤ now) :
    due < nextDue period due now := by
  unfold nextDue
  split
  · omega
  · split
    · next h =>
      unfold Time.after? at h
      split at h
      · simp only [Option.some.injEq] at h; omega
      · cases h
    · have : 0 < Time.farFuture := by decide
      omega

/-- The wake-ups that have come at `now`, from the one that is due at `due`: how many there are, and
when the next one is due. -/
def catchUp (period : Nat) (due now : Int) (sweeps : Nat) : Int × Nat :=
  if h : 0 < period ∧ Time.tick due ≤ now then
    catchUp period (nextDue period due now) now (sweeps + 1)
  else (due, sweeps)
termination_by (now + 1 - due).toNat
decreasing_by
  have early := Time.le_tick due
  have later := lt_nextDue h.1 (Int.le_trans early h.2)
  omega

/-- What a sweeper does when it is run at `now`: the sweeper afterwards, and how often it sweeps. It
stops once its scope is over, which it notices while it waits for a sweep that is not due. -/
def wake (sweeper : Sweeper) (tree : ScopeTree) (now : Int) : Sweeper × Nat :=
  let ended := (tree.noticed sweeper.scope now).isSome
  let wait (due : Int) : Sweeper × Nat :=
    let (due, sweeps) := catchUp sweeper.period due now 0
    ({ sweeper with phase := if ended then .stopped else .waiting due }, sweeps)
  let start (due : Int) : Sweeper × Nat :=
    if Time.tick due ≤ now then wait (nextDue sweeper.period due now)
    else ({ sweeper with phase := .starting due }, 0)
  match sweeper.phase with
  | .new => start now
  | .starting due => start due
  | .waiting due => wait due
  | .stopped => (sweeper, 0)

/-- When the sweeper has to be run, if it is still alive: at its next wake-up and at the end of its
scope. -/
def alarms (sweeper : Sweeper) : List Int :=
  match sweeper.phase with
  | .new | .stopped => []
  | .starting due => [Time.tick due]
  | .waiting due => Time.tick due :: (sweeper.scope.deadline.map Time.tick).toList

/-- Whether the sweeper is still alive. -/
def isRunning (sweeper : Sweeper) : Bool := sweeper.phase != .stopped

end Sweeper

end Throttle

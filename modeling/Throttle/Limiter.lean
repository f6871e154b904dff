import Throttle.Window.Basic

/-!
# Limiters and permits

A limiter owns a window and reads one clock. It issues permits for a number of units; a permit is
used at most once, when the window has room for all of its units. Every operation takes the reading
of the limiter's clock and first advances the window to it.

## Main definitions

* `Limiter.request` — a permit for some units.
* `Limiter.use` — use a permit, or say why it cannot be used.
* `Limiter.resetsAt`, `Limiter.retryAfter` — when there will be room for a permit.
-/

namespace Throttle

/-- What tells a limiter the time. -/
inductive Clock where
  /-- The clock of timers and deadlines. -/
  | system
  /-- A clock that only moves when told to. -/
  | manual (index : Nat)
deriving Repr, DecidableEq

/-- A window and the clock it is read by. -/
structure Limiter where
  clock : Clock
  window : Window
deriving Repr, DecidableEq

/-- Leave to record some units, once. -/
structure Permit where
  units : Nat
  used : Bool
deriving Repr, DecidableEq

/-- Why a limiter issues no permit. -/
inductive RequestFault where
  | noUnits
  /-- Not even an empty window has room for so many units. -/
  | overLimit (units limit : Nat)
deriving Repr, DecidableEq

/-- Why a permit cannot be used. -/
inductive Refusal where
  /-- It was used before. -/
  | alreadyUsed
  /-- The window has too little room now. -/
  | noRoom
deriving Repr, DecidableEq

namespace Limiter

/-- A limiter of its own with three numbers, made when its clock shows `now`, if they can be used. -/
def ofParameters (limit : UInt64) (interval : Nat) (segments : UInt64) (clock : Clock) (now : Int) :
    Except PlanFault Limiter :=
  (Window.ofParameters limit interval segments now).map fun window => ⟨clock, window⟩

/-- How many units the limiter lets through in an interval. -/
def limit (limiter : Limiter) : Nat := limiter.window.plan.limit

/-- The limiter with its window as it stands at `now`. -/
def advance (limiter : Limiter) (now : Int) : Limiter :=
  { limiter with window := limiter.window.advance now }

/-- The room that is left, in a limiter that has been advanced. -/
def available (limiter : Limiter) : Nat := limiter.window.available

/-- Nothing is counted any more, in a limiter that has been advanced. -/
def recovered (limiter : Limiter) : Bool := limiter.limit ≤ limiter.available

/-- A permit for one unit. -/
def single : Permit := ⟨1, false⟩

/-- A permit for `units`. -/
def request (limiter : Limiter) (units : Nat) : Except RequestFault Permit :=
  if units = 0 then .error .noUnits
  else if limiter.limit < units then .error (.overLimit units limiter.limit)
  else .ok ⟨units, false⟩

/-- A permit for one unit, or for as many as are named. -/
def issue (limiter : Limiter) : Option Nat → Except RequestFault Permit
  | none => .ok single
  | some units => limiter.request units

/-- Whether there is room for the permit's units, in a limiter that has been advanced. -/
def allows (limiter : Limiter) (permit : Permit) : Bool := permit.units ≤ limiter.available

/-- The instant from which there is room for the permit, in a limiter that has been advanced to
`now`. -/
def resetsAt (limiter : Limiter) (permit : Permit) (now : Int) : Int :=
  limiter.window.resetsAt now permit.units

/-- How long it takes until there is room for the permit, in a limiter that has been advanced to
`now`. -/
def retryAfter (limiter : Limiter) (permit : Permit) (now : Int) : Nat :=
  Time.elapsed now (limiter.resetsAt permit now)

/-- What using a permit leaves behind. -/
structure Use where
  limiter : Limiter
  permit : Permit
  refusal : Option Refusal
deriving Repr, DecidableEq

/-- Use a permit at the reading `now`. A permit that was used before is refused without looking at
the window. -/
def use (limiter : Limiter) (permit : Permit) (now : Int) : Use :=
  if permit.used then ⟨limiter, permit, some .alreadyUsed⟩
  else
    let limiter := limiter.advance now
    if limiter.available < permit.units then ⟨limiter, permit, some .noRoom⟩
    else ⟨{ limiter with window := limiter.window.record permit.units },
      { permit with used := true }, none⟩

/-- The results of asking for a single unit `times` times at the reading `now`: whether each one was
let through. -/
def burst (limiter : Limiter) (now : Int) : Nat → Limiter × List Bool
  | 0 => (limiter, [])
  | times + 1 =>
    let first := limiter.use single now
    let rest := burst first.limiter now times
    (rest.1, first.refusal.isNone :: rest.2)

@[simp] theorem limit_advance (limiter : Limiter) (now : Int) :
    (limiter.advance now).limit = limiter.limit := by
  simp [advance, limit]

end Limiter

end Throttle

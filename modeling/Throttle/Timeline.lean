import Throttle.Activity

/-!
# The timeline

While an activity waits, the system clock jumps from one event to the next: the timers of the
activity, the actions of others, the sweepers, and the instant at which the waiting is given up.
Nothing else moves the clock and nothing else runs.

## Main definitions

* `Action` — what somebody else does while an activity waits.
* `World.carryOn` — what becomes of a waiting activity.
-/

namespace Throttle

/-- What somebody else does. -/
inductive Effect where
  | cancel (scope : Scope)
  | advance (clock span : Nat)
deriving Repr, DecidableEq

/-- An effect and the instant of its timer. -/
structure Action where
  due : Int
  effect : Effect
deriving Repr, DecidableEq

namespace World

/-- Move a manual clock on; it stays where it is if it cannot show the new instant. -/
def advanceClock (world : World) (clock span : Nat) : World :=
  { world with
    clocks := world.clocks.modify clock fun shown => (Time.after? shown span).getD shown }

/-- What an effect does to the world. -/
def apply (world : World) : Effect → World
  | .cancel scope => { world with scopes := world.scopes.cancel scope }
  | .advance clock span => world.advanceClock clock span

/-- Do the actions whose timers have fired, and keep the others. -/
def act (world : World) (actions : List Action) : World × List Action :=
  let (fired, later) := actions.partition fun action => Time.tick action.due ≤ world.now
  (fired.foldl (fun world action => world.apply action.effect) world, later)

/-- Everything that happens now beside the activity itself: actions, then sweepers. -/
def runOthers (world : World) (actions : List Action) : World × List Action :=
  let (world, later) := world.act actions
  (world.runSweepers, later)

/-- The instants of all timers. -/
def alarms (world : World) (activity : Activity) (actions : List Action) : List Int :=
  activity.alarms ++ actions.map (fun action => Time.tick action.due) ++
    world.registries.toList.flatMap (·.sweeper.alarms)

/-- The first of some instants that is still to come, and `limit` at the latest. -/
def nextAlarm (now limit : Int) (alarms : List Int) : Int :=
  alarms.foldl (fun next alarm => if now < alarm then min alarm next else next) limit

theorem lt_nextAlarm {now : Int} :
    ∀ (alarms : List Int) {limit : Int}, now < limit → now < nextAlarm now limit alarms
  | [], _, h => h
  | alarm :: rest, limit, h => by
    simp only [nextAlarm, List.foldl_cons]
    refine lt_nextAlarm rest ?_
    split <;> omega

/-- Where the clock is after it has jumped from `now` to the timer at `alarm`. It jumps by whole
milliseconds, so it keeps its place within the millisecond. -/
def jump (now alarm : Int) : Int := now + (alarm - now / 1000000 * 1000000)

theorem lt_jump {now alarm : Int} (h : now < alarm) : now < jump now alarm := by
  unfold jump; omega

/-- What becomes of an activity that waits: its outcome, or nothing if the waiting is given up at
`limit`. The activity goes first at each instant, then the others, then the activity again in case
they have ended its scope. -/
def carryOn (world : World) (activity : Activity) (actions : List Action) (limit : Int) :
    World × Option Outcome :=
  match world.poll activity with
  | (world, .reached outcome) => (world, some outcome)
  | (polled, .waiting activity) =>
    if world.now < limit then
      let (others, later) := polled.runOthers actions
      match others.poll activity with
      | (world, .reached outcome) => (world, some outcome)
      | (rest, .waiting activity) =>
        let alarm := nextAlarm world.now limit (rest.alarms activity later)
        carryOn { rest with now := jump world.now alarm } activity later limit
    else (polled, none)
termination_by (limit - world.now).toNat
decreasing_by
  have forward := lt_jump (lt_nextAlarm (rest.alarms activity later) ‹world.now < limit›)
  omega

end World

end Throttle

import Throttle.Fault
import Throttle.Text.Blank
import Throttle.Timeline

/-!
# Batches of keys

Keys come in lines. Blanks around a key do not count, and a line without a key is passed over. All keys are
decided by the limiters of one registry.

## Main definitions

* `World.opening` — the world before the first line.
* `World.answer` — the answer to a line.
-/

namespace Throttle

/-- The key in a line, if there is one. -/
def keyInLine? (line : String) : Option String :=
  let key := Text.trim line.toList
  if key.isEmpty then none else some (String.ofList key)

/-- What comes of a line. -/
inductive LineAnswer where
  /-- There is no key in the line. -/
  | passedOver
  | decided (decision : Decision)
  /-- No more keys are decided. -/
  | stopped
  /-- No more keys are decided, because of a fault. -/
  | failed (fault : Fault)
deriving Repr, DecidableEq

namespace World

/-- A world with one registry, of which nobody has asked for a key. -/
def opening (plan : Plan) (cleanupPeriod : Nat) : World :=
  (initial.found ⟨.fresh plan initial.now, .system, []⟩ .background cleanupPeriod).1

/-- The registry that all keys are entered in. -/
def keyRegistry : Nat := 0

/-- Begin to decide the key in a line. -/
def beginLine (world : World) (patient : Bool) (line : String) : Option (World × Progress) :=
  (keyInLine? line).map fun key => world.letIn keyRegistry key .background patient

/-- How long anybody waits for room at most: an interval, and what is left of a millisecond. -/
def longestWait : Nat := Plan.longestInterval + Time.millisecond

/-- What the outcome of a line's admission means for the batch. -/
def lineAnswer : Option Outcome → LineAnswer
  | some (.decided decision) => .decided decision
  | some (.refused refusal) => .failed (.ofRefusal refusal)
  | _ => .stopped

/-- The answer to a line. If it has to be waited for, the clock jumps from timer to timer. -/
def answer (world : World) (patient : Bool) (line : String) : World × LineAnswer :=
  match world.beginLine patient line with
  | none => (world, .passedOver)
  | some (world, .reached outcome) => (world, lineAnswer (some outcome))
  | some (world, .waiting activity) =>
    let (world, outcome?) := world.carryOn activity [] (world.now + longestWait)
    (world, lineAnswer outcome?)

end World

end Throttle

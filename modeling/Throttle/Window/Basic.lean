import Throttle.Plan

/-!
# Sliding windows

A window counts what was recorded in the recent past. It keeps one count per segment, oldest first.
Recording adds to the newest count. Looking at the window at a later instant first turns it: for
every segment that has passed, the oldest count is dropped and an empty one is added.

## Main definitions

* `Window.advance` — the window as it stands at an instant.
* `Window.total`, `Window.available` — what is counted, and the room that is left.
* `Window.record` — add units to the newest segment.
* `Window.resetsAt` — the instant from which there is room for some units.

`total`, `available` and `resetsAt` read a window that has been advanced to the instant in question.
-/

namespace Throttle

/-- The counts of a plan's segments, oldest first, and the start of the newest segment. -/
structure Window where
  /-- The numbers of the window. -/
  plan : Plan
  /-- What was recorded in each segment, oldest first. -/
  counts : List Nat
  /-- The instant at which the newest segment starts. -/
  start : Int
  length_counts : counts.length = plan.segments
deriving Repr, DecidableEq

namespace Window

/-- An empty window whose newest segment starts at `now`. -/
def fresh (plan : Plan) (now : Int) : Window where
  plan := plan
  counts := List.replicate plan.segments 0
  start := now
  length_counts := List.length_replicate

/-- An empty window with three numbers, if they can be used. -/
def ofParameters (limit : UInt64) (interval : Nat) (segments : UInt64) (now : Int) :
    Except PlanFault Window :=
  (Plan.ofParameters limit interval segments).map fun plan => fresh plan now

/-- What is left of the counts `old` when `elapsed` has passed, and how many turns that took: a turn
drops the oldest count, and there is one for every `width` that has passed. -/
def slide (width elapsed : Nat) (old : List Nat) (turns : Nat) : List Nat × Nat :=
  if 0 < width ∧ width ≤ elapsed then slide width (elapsed - width) old.tail (turns + 1)
  else (old, turns)
termination_by elapsed

theorem length_slide_le (width elapsed : Nat) (old : List Nat) (turns : Nat) :
    (slide width elapsed old turns).1.length ≤ old.length := by
  fun_induction slide width elapsed old turns with
  | case1 elapsed old turns h ih => simp at ih; omega
  | case2 => simp

/-- The window as it stands at `now`. A window that nobody looked at for a whole interval starts
afresh; one that is looked at before its start stays as it is. -/
def advance (window : Window) (now : Int) : Window :=
  let elapsed := Time.elapsed window.start now
  if window.plan.interval ≤ elapsed then fresh window.plan now
  else
    let slid := slide window.plan.width elapsed window.counts 0
    { plan := window.plan
      counts := slid.1 ++ List.replicate (window.plan.segments - slid.1.length) 0
      start := window.start + (slid.2 * window.plan.width : Nat)
      length_counts := by
        have kept : slid.1.length ≤ window.counts.length := length_slide_le ..
        have whole := window.length_counts
        simp only [List.length_append, List.length_replicate]
        omega }

@[simp] theorem plan_fresh (plan : Plan) (now : Int) : (fresh plan now).plan = plan := rfl

@[simp] theorem start_fresh (plan : Plan) (now : Int) : (fresh plan now).start = now := rfl

/-- Looking at a window does not change its numbers. -/
@[simp] theorem plan_advance (window : Window) (now : Int) :
    (window.advance now).plan = window.plan := by
  simp only [advance]; split <;> rfl

/-- What the window counts. -/
def total (window : Window) : Nat := window.counts.foldr (· + ·) 0

/-- The room that is left. -/
def available (window : Window) : Nat := window.plan.limit - window.total

/-- Add `units` to the last of the counts. -/
def addNewest (units : Nat) : List Nat → List Nat
  | [] => []
  | [newest] => [Count.add newest units]
  | count :: rest => count :: addNewest units rest

@[simp] theorem length_addNewest (units : Nat) (counts : List Nat) :
    (addNewest units counts).length = counts.length := by
  fun_induction addNewest units counts <;> simp_all

/-- Record `units` in the newest segment. -/
def record (window : Window) (units : Nat) : Window where
  plan := window.plan
  counts := addNewest units window.counts
  start := window.start
  length_counts := (length_addNewest _ _).trans window.length_counts

@[simp] theorem plan_record (window : Window) (units : Nat) :
    (window.record units).plan = window.plan := rfl

@[simp] theorem start_record (window : Window) (units : Nat) :
    (window.record units).start = window.start := rfl

/-- After how many turns at least `need` units have left the window, if they ever do. -/
def turnsToFree (need : Nat) : List Nat → Option Nat
  | [] => none
  | oldest :: rest =>
    if need ≤ oldest then some 1 else (turnsToFree (need - oldest) rest).map (· + 1)

/-- The instant from which there is room for `units`, if nothing is recorded until then. Where even
an empty window has too little room, it is the end of the interval. -/
def resetsAt (window : Window) (now : Int) (units : Nat) : Int :=
  if units ≤ window.available then now
  else
    let elapsed := Time.elapsed window.start now
    match turnsToFree (units - window.available) window.counts with
    | some turns => now + ((window.plan.width * turns - elapsed : Nat) : Int)
    | none => now + ((window.plan.interval - elapsed : Nat) : Int)

/-- A window with the same numbers and as many segments, all of them empty, of which the newest starts at
`now`. -/
def restarted (window : Window) (now : Int) : Window where
  plan := window.plan
  counts := List.replicate window.counts.length 0
  start := now
  length_counts := List.length_replicate.trans window.length_counts

/-- A window that is restarted is a new one with the same numbers. -/
theorem restarted_eq (window : Window) (now : Int) : window.restarted now = fresh window.plan now := by
  simp only [restarted, fresh, window.length_counts]

/-- The segments in which something was recorded, by their number from the oldest, with their
counts. -/
def recorded (window : Window) : List (Nat × Nat) :=
  (window.counts.zipIdx.filter fun c => c.1 != 0).map fun c => (c.2, c.1)

end Window

end Throttle

import Throttle.Proofs.Limiter.Twins
import Throttle.Proofs.Registry.View

/-!
# The visitors of a registry

Visitors ask a registry for the limiter of a key, and take and use permits at its desk. Now and then
there is a pause: nobody holds a limiter or a permit any longer, and a sweep may come. Whether it
does come is not up to the visitors, so the same visits can be served with sweeps and without them.

## Main definitions

* `Visitors.serve`, `Visitors.run` — what visitors are answered.
* `decisions` — their answers, as far as they are decisions.
* `Visitors.aligned` — with sweeps and without them, whatever is recorded is recorded in segments
  that start at the same instants.

## Main statements

* `window?_call`, `window?_pause` — what a visit makes of the window that serves a key.
-/

namespace Throttle

/-- A registry, and the permits that its visitors hold. -/
structure Visitors where
  registry : Registry
  /-- The permits that were issued for each key since the last pause. -/
  permits : String → List Permit

namespace Visitors

/-- What visitors do. -/
inductive Visit where
  /-- Ask for the limiter of a key. Somebody whose scope is over is told only that. -/
  | enter (key : String) (ended : Option EndReason)
  /-- Ask for the limiter of a key and call at its desk. -/
  | call (key : String) (call : Desk.Call)
  /-- Let go of all that is held. -/
  | pause
deriving Repr, DecidableEq

/-- Nobody has come yet. -/
def new (policy : Policy) : Visitors := ⟨.empty policy, fun _ => []⟩

/-- The desk at which a key is served at the reading `now`. -/
def desk (visitors : Visitors) (key : String) (now : Int) : Desk :=
  let found := visitors.registry.limiterFor key now
  ⟨(found.1.limiters[found.2]?).getD (visitors.registry.policy.make now), visitors.permits key⟩

/-- Serve a visit at the reading `now`. A pause brings a sweep, if there are sweeps. -/
def serve (sweeps : Bool) (visitors : Visitors) (now : Int) : Visit → Visitors × Option Desk.Answer
  | .enter _ (some reason) => (visitors, some (.ended reason))
  | .enter key none =>
    ({ visitors with registry := (visitors.registry.limiterFor key now).1 }, none)
  | .call key call =>
    let found := visitors.registry.limiterFor key now
    let served := (visitors.desk key now).serve now call
    ({ registry := found.1.put found.2 served.1.limiter
       permits := fun other => if other = key then served.1.permits else visitors.permits other },
      some served.2)
  | .pause =>
    ({ registry := if sweeps then visitors.registry.sweep now else visitors.registry
       permits := fun _ => [] }, none)

/-- Serve one visit after the other. -/
def run (sweeps : Bool) (visitors : Visitors) : List (Int × Visit) → List (Option Desk.Answer)
  | [] => []
  | (now, visit) :: visits =>
    let served := visitors.serve sweeps now visit
    served.2 :: served.1.run sweeps visits

/-- Those of the answers that are decisions, each in its place. -/
def decisions (answers : List (Option Desk.Answer)) : List (Option Desk.Answer) :=
  answers.map fun answer => answer.bind Desk.Answer.decision

/-- The start of the segment in which something recorded for a key at the reading `now` falls. -/
def segmentStart (visitors : Visitors) (key : String) (now : Int) : Int :=
  ((visitors.desk key now).limiter.window.advance now).start

/-- If a visit records something, it does so in segments that start at the same instant. -/
def alignedAt (plain swept : Visitors) (now : Int) : Visit → Bool
  | .call key call => ((swept.desk key now).serve now call).2.recorded = none ∨
      plain.segmentStart key now = swept.segmentStart key now
  | _ => true

/-- Served without sweeps and with them, whatever is recorded in a run is recorded in segments that
start at the same instants. -/
def aligned (plain swept : Visitors) : List (Int × Visit) → Bool
  | [] => true
  | (now, visit) :: visits => plain.alignedAt swept now visit &&
      (plain.serve false now visit).1.aligned (swept.serve true now visit).1 visits

section Serve

variable {visitors : Visitors} (now : Int) (key : String) (call : Desk.Call) (sweeps : Bool)

@[simp] theorem policy_serve (visitors : Visitors) (visit : Visit) :
    (visitors.serve sweeps now visit).1.registry.policy = visitors.registry.policy := by
  cases visit with
  | enter key ended =>
    cases ended with
    | some reason => rfl
    | none => exact Registry.policy_limiterFor ..
  | call key call => exact Registry.policy_limiterFor ..
  | pause => cases sweeps <;> rfl

/-- The desk of a key has the key's window, or a fresh one. -/
theorem window_desk (h : visitors.registry.Tidy) :
    (visitors.desk key now).limiter.window =
      (visitors.registry.window? key).getD (Window.fresh visitors.registry.policy.plan now) := by
  have hfound := Registry.window?_limiterFor h key now
  rw [Registry.window?_of_find? (Registry.find?_limiterFor ..), Option.map_eq_some_iff] at hfound
  obtain ⟨limiter, hlimiter, hwindow⟩ := hfound
  rw [desk, hlimiter, Option.getD_some, hwindow]

theorem plan_desk (h : visitors.registry.Tidy) :
    (visitors.desk key now).limiter.window.plan = visitors.registry.policy.plan := by
  rw [window_desk now key h]
  cases hwindow : visitors.registry.window? key with
  | none => rfl
  | some window => exact h.plan_window? hwindow

theorem tidy_serve (h : visitors.registry.Tidy) (visit : Visit) :
    (visitors.serve sweeps now visit).1.registry.Tidy := by
  cases visit with
  | enter key ended =>
    cases ended with
    | some reason => exact h
    | none => exact h.limiterFor key now
  | call key call =>
    refine (h.limiterFor key now).put ?_ _
    rw [Desk.plan_serve, plan_desk now key h, Registry.policy_limiterFor]
  | pause =>
    cases sweeps with
    | true => exact h.sweep now
    | false => exact h

/-- **A call leaves at its key what it makes of the desk's window.** -/
theorem window?_call (h : visitors.registry.Tidy) :
    (visitors.serve sweeps now (.call key call)).1.registry.window? key =
      some ((visitors.desk key now).serve now call).1.limiter.window :=
  Registry.window?_put (h.limiterFor key now) (Registry.find?_limiterFor ..) _

/-- Other keys do not notice a call. -/
theorem window?_call_of_ne (h : visitors.registry.Tidy) {other : String} (hne : other ≠ key) :
    (visitors.serve sweeps now (.call key call)).1.registry.window? other =
      visitors.registry.window? other := by
  rw [← Registry.window?_limiterFor_of_ne h hne now]
  refine Registry.window?_put_of_ne (fun hother => hne ?_) _
  exact (h.limiterFor key now).key_eq hother (Registry.find?_limiterFor ..)

/-- **A pause that brings a sweep** takes every window away that counts nothing. -/
theorem window?_pause (h : visitors.registry.Tidy) :
    (visitors.serve true now .pause).1.registry.window? key =
      (visitors.registry.window? key).bind fun window =>
        if (window.advance now).total = 0 then none else some (window.advance now) :=
  Registry.window?_sweep h key now

end Serve

end Visitors

end Throttle

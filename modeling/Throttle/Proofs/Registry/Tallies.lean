import Throttle.Proofs.Registry.Step
import Throttle.Proofs.Window.Filling

/-!
# Counting keys at one instant

At one instant a registry on the system clock counts every key on its own: the window of its limiter
is filled by as many units as were asked for. A key may have been entered and not been counted yet.
Until then a sweep forgets it; afterwards it does not, because a limiter that has let something
through at this instant has not recovered by then.

## Main definitions

* `Registry.Tallies` — a registry that some keys were entered in and counted, at one instant.

## Main statements

* `Tallies.ask`, `Tallies.use`, `Tallies.sweep` — a key is entered, a key is counted, and a sweep
  that makes no difference.
* `Tallies.keys` — the keys in use.
-/

namespace Throttle

/-- Who asks for a unit gets it if there is room, and the window is filled accordingly. -/
theorem Limiter.use_filled (clock : Clock) (plan : Plan) (now : Int) (asked : Nat) :
    Limiter.use ⟨clock, .filled plan now asked⟩ single now =
      ⟨⟨clock, .filled plan now (asked + 1)⟩, ⟨1, asked < plan.limit⟩,
        if asked < plan.limit then none else some .noRoom⟩ := by
  by_cases hroom : asked < plan.limit
  · have hnot : ¬ plan.limit - asked < 1 := by omega
    simp [use, single, advance, available, hnot, Window.record_filled hroom, hroom]
  · have hless : plan.limit - asked < 1 := by omega
    simp [use, single, advance, available, hless, Window.filled_succ (Nat.not_lt.mp hroom), hroom]

namespace Registry

/-- A registry on the system clock in which everything has happened at one instant. It has limiters
for the keys that were entered, and each of them was asked for a unit as often as its key was seen. -/
structure Tallies (plan : Plan) (now : Int) (entered seen : List String) (registry : Registry) :
    Prop where
  plan_eq : registry.policy.plan = plan
  clock_eq : registry.policy.clock = .system
  sound : registry.Sound
  window? : ∀ key, registry.window? key =
    if key ∈ entered then some (.filled plan now (seen.count key)) else none

theorem tallies_empty {policy : Policy} (hclock : policy.clock = .system) (now : Int) :
    (empty policy).Tallies policy.plan now [] [] where
  plan_eq := rfl
  clock_eq := hclock
  sound := sound_empty policy
  window? key := by
    rw [if_neg List.not_mem_nil]
    rfl

section Tallies

variable {plan : Plan} {now : Int} {entered seen : List String} {registry : Registry}
  {key : String} {index : Nat}

/-- Whoever serves a key has counted it. -/
theorem Tallies.limiter_eq (h : registry.Tallies plan now entered seen)
    (hserves : registry.find? key = some index) :
    registry.limiters[index]? = some ⟨.system, .filled plan now (seen.count key)⟩ := by
  have hlimiter := Array.getElem?_eq_getElem (h.sound.tidy.lt_of_find? hserves)
  have hclock := h.sound.clock_eq index _ hlimiter
  have hwindow := h.window? key
  rw [window?_of_find? hserves] at hwindow
  generalize registry.limiters[index]? = found at hlimiter hwindow
  subst hlimiter
  rw [h.clock_eq] at hclock
  split at hwindow
  · rw [← hclock, ← Option.some.inj hwindow]
  · cases hwindow

/-- **A key is entered.** One that is new has not been counted yet. -/
theorem Tallies.ask (h : registry.Tallies plan now entered seen)
    (hnew : key ∉ entered → key ∉ seen) :
    (registry.limiterFor key now).1.Tallies plan now (key :: entered) seen := by
  have hstep : registry.Step now none (registry.limiterFor key now).1 := .ask key
  have hpolicy := hstep.policy_eq
  constructor
  case plan_eq => rw [hpolicy, h.plan_eq]
  case clock_eq => rw [hpolicy, h.clock_eq]
  case sound => exact hstep.sound h.sound
  case window? =>
    intro other
    by_cases heq : other = key
    · subst heq
      rw [window?_limiterFor h.sound.tidy, h.window?, if_pos List.mem_cons_self, h.plan_eq]
      split
      · rfl
      · rename_i hout
        rw [List.count_eq_zero.mpr (hnew hout), Window.filled_zero]
        rfl
    · rw [window?_limiterFor_of_ne h.sound.tidy heq, h.window?]
      simp [heq]

/-- **A key is counted** once more. -/
theorem Tallies.use (h : registry.Tallies plan now entered seen)
    (hserves : registry.find? key = some index) :
    (registry.put index ⟨.system, .filled plan now (seen.count key + 1)⟩).Tallies plan now entered
      (key :: seen) := by
  have hfound := h.limiter_eq hserves
  -- The limiter makes a move: it records the unit, or it is full and stays as it is.
  have hmove : ∃ recorded, registry.Step now recorded
      (registry.put index ⟨.system, .filled plan now (seen.count key + 1)⟩) := by
    by_cases hroom : seen.count key < plan.limit
    · have hfits : 1 ≤ ((Window.filled plan now (seen.count key)).advance now).available := by
        rw [Window.advance_filled]
        exact Window.one_le_available_filled_iff.mpr hroom
      have hrecord := Window.Move.record hfits
      rw [Window.advance_filled, Window.record_filled hroom] at hrecord
      exact ⟨_, .move hfound hrecord⟩
    · rw [Window.filled_succ (Nat.not_lt.mp hroom)]
      exact ⟨_, .move hfound .stay⟩
  obtain ⟨recorded, hmove⟩ := hmove
  constructor
  case plan_eq => exact h.plan_eq
  case clock_eq => exact h.clock_eq
  case sound => exact hmove.sound h.sound
  case window? =>
    intro other
    by_cases heq : other = key
    · subst heq
      have hentered : other ∈ entered := by
        by_contra hout
        have hwindow := h.window? other
        rw [window?_of_find? hserves, hfound, if_neg hout] at hwindow
        cases hwindow
      rw [window?_put h.sound.tidy hserves, if_pos hentered, List.count_cons_self]
    · have hother : registry.find? other ≠ some index := by
        intro hsame
        exact heq (h.sound.tidy.key_eq hsame hserves)
      rw [window?_put_of_ne hother, h.window?, List.count_cons_of_ne (Ne.symm heq)]

/-- A window that has counted its key at this instant does not count nothing by now. -/
theorem Tallies.total_ne_zero (hcounted : entered ⊆ seen) (hkey : key ∈ entered) :
    ((Window.filled plan now (seen.count key)).advance now).total ≠ 0 := by
  have hcount : 0 < seen.count key := List.count_pos_iff.mpr (hcounted hkey)
  have hlimit := plan.limit_pos
  rw [Window.advance_filled, Window.total_filled]
  omega

/-- **A sweep makes no difference** once every key that was entered has been counted. -/
theorem Tallies.sweep (h : registry.Tallies plan now entered seen) (hcounted : entered ⊆ seen) :
    (registry.sweep now).Tallies plan now entered seen := by
  have hstep : registry.Step now none (registry.sweep now) := .sweep
  constructor
  case plan_eq => exact h.plan_eq
  case clock_eq => exact h.clock_eq
  case sound => exact hstep.sound h.sound
  case window? =>
    intro key
    rw [window?_sweep h.sound.tidy, h.window?]
    by_cases hkey : key ∈ entered
    · rw [if_pos hkey, Option.bind_some, if_neg (Tallies.total_ne_zero hcounted hkey),
        Window.advance_filled]
    · rw [if_neg hkey]
      rfl

/-- Nor does it take a limiter away. -/
theorem Tallies.find?_sweep (h : registry.Tallies plan now entered seen)
    (hcounted : entered ⊆ seen) (hserves : registry.find? key = some index) :
    (registry.sweep now).find? key = some index := by
  have hwindow := h.window? key
  split at hwindow
  · rename_i hkey
    rw [Registry.find?_sweep h.sound.tidy hserves hwindow,
      if_neg (Tallies.total_ne_zero hcounted hkey)]
  · rw [window?_of_find? hserves, h.limiter_eq hserves] at hwindow
    cases hwindow

/-- **The keys in use** are those that were entered. -/
theorem Tallies.keys (h : registry.Tallies plan now entered seen) :
    (registry.entries.map Prod.fst).Perm entered.dedup := by
  rw [List.perm_ext_iff_of_nodup h.sound.tidy.keys_nodup entered.nodup_dedup]
  intro key
  rw [List.mem_dedup]
  have hnone : registry.window? key = none ↔ registry.find? key = none :=
    window?_eq_none_iff h.sound.tidy
  rw [h.window?] at hnone
  constructor
  · intro hkey
    obtain ⟨⟨_, index⟩, hentry, rfl⟩ := List.mem_map.mp hkey
    have hfind := h.sound.tidy.find?_of_mem hentry
    by_contra hnew
    rw [if_neg hnew, hfind] at hnone
    simp at hnone
  · intro hentered
    cases hfind : registry.find? key with
    | none =>
      rw [if_pos hentered, hfind] at hnone
      simp at hnone
    | some index => exact List.mem_map.mpr ⟨(key, index), mem_of_find? hfind, rfl⟩

end Tallies

end Registry

end Throttle

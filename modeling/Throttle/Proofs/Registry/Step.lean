import Throttle.Proofs.Registry.Clients

/-!
# Steps of a registry

Whatever is done with a registry is made up of four kinds of steps: a key is asked for, one of the
limiters that the registry has made is turned or records something, the registry is swept, or
nothing happens to it at all. It does not matter who takes a step, nor whether the limiter that is
moved still serves a key.

## Main definitions

* `Registry.Step` — what a step makes of a registry, and what it records.
* `Registry.Sound` — what holds of every registry in use.

## Main statements

* `Step.sound` — steps keep a registry sound.
* `Step.move_limiter`, `Step.moves_key` — what a step makes of a limiter, and of what serves a key.
-/

namespace Throttle.Registry

/-- What a step at the clock's reading `now` makes of a registry. Of what is recorded, the index of
the limiter and the units are told. -/
inductive Step (now : Int) (registry : Registry) : Option (Nat × Nat) → Registry → Prop
  | stay : Step now registry none registry
  | ask (key : String) : Step now registry none (registry.limiterFor key now).1
  | move {index : Nat} {limiter : Limiter} {units? : Option Nat} {window : Window}
      (found : registry.limiters[index]? = some limiter)
      (move : Window.Move now limiter.window units? window) :
      Step now registry (units?.map (index, ·)) (registry.put index { limiter with window })
  | sweep : Step now registry none (registry.sweep now)

/-- The units that were recorded by the limiter with an index. -/
def recordedAt (index : Nat) (recorded : Option (Nat × Nat)) : Option Nat :=
  recorded.bind fun entry => if entry.1 = index then some entry.2 else none

/-- The units that were recorded by the limiter that serves a key. -/
def recordedFor (registry : Registry) (key : String) (recorded : Option (Nat × Nat)) :
    Option Nat :=
  (registry.find? key).bind fun index => recordedAt index recorded

@[simp] theorem recordedAt_none (index : Nat) : recordedAt index none = none := rfl

@[simp] theorem recordedAt_map_self (index : Nat) (units? : Option Nat) :
    recordedAt index (units?.map (index, ·)) = units? := by
  cases units? <;> simp [recordedAt]

theorem recordedAt_map_of_ne {index other : Nat} (h : other ≠ index) (units? : Option Nat) :
    recordedAt index (units?.map (other, ·)) = none := by
  cases units? <;> simp [recordedAt, h]

theorem recordedAt_eq_some {index units : Nat} {recorded : Option (Nat × Nat)}
    (h : recordedAt index recorded = some units) : recorded = some (index, units) := by
  obtain ⟨⟨other, told⟩, rfl, hat⟩ := Option.bind_eq_some_iff.mp h
  obtain ⟨rfl, htold⟩ := Option.ite_none_right_eq_some.mp hat
  rw [← Option.some.inj htold]

@[simp] theorem recordedFor_none (registry : Registry) (key : String) :
    registry.recordedFor key none = none := by
  cases h : registry.find? key <;> simp [recordedFor, h]

theorem recordedFor_of_find? {registry : Registry} {key : String} {index : Nat}
    (h : registry.find? key = some index) (recorded : Option (Nat × Nat)) :
    registry.recordedFor key recorded = recordedAt index recorded := by
  rw [recordedFor, h, Option.bind_some]

theorem limiters_put (registry : Registry) (index other : Nat) (limiter : Limiter) :
    (registry.put index limiter).limiters[other]? =
      if index = other then registry.limiters[other]?.map fun _ => limiter
      else registry.limiters[other]? := by
  rw [put, Array.getElem?_modify]

/-- What holds of every registry in use: it is tidy, and each of its limiters reads the registry's
clock and has kept to the limit. -/
structure Sound (registry : Registry) : Prop where
  tidy : registry.Tidy
  clock_eq : ∀ (index : Nat) (limiter : Limiter), registry.limiters[index]? = some limiter →
    limiter.clock = registry.policy.clock
  withinLimit : ∀ (index : Nat) (limiter : Limiter), registry.limiters[index]? = some limiter →
    limiter.window.WithinLimit

/-- No window is ahead of the clock, as long as the clock does not go back. -/
def Timely (now : Int) (registry : Registry) : Prop :=
  ∀ (index : Nat) (limiter : Limiter), registry.limiters[index]? = some limiter →
    limiter.window.start ≤ now

theorem sound_empty (policy : Policy) : (empty policy).Sound where
  tidy := tidy_empty policy
  clock_eq := by simp [empty]
  withinLimit := by simp [empty]

theorem timely_empty (policy : Policy) (now : Int) : (empty policy).Timely now := by
  simp [Timely, empty]

theorem Timely.later {now later : Int} {registry : Registry} (h : registry.Timely now)
    (hlater : now ≤ later) : registry.Timely later :=
  fun index limiter hfound => Int.le_trans (h index limiter hfound) hlater

namespace Step

variable {now : Int} {registry after : Registry} {recorded : Option (Nat × Nat)}

theorem policy_eq (s : registry.Step now recorded after) : after.policy = registry.policy := by
  cases s with
  | stay => rfl
  | ask key => exact policy_limiterFor ..
  | move found move => rfl
  | sweep => rfl

theorem tidy (s : registry.Step now recorded after) (h : registry.Tidy) : after.Tidy := by
  cases s with
  | stay => exact h
  | ask key => exact h.limiterFor key now
  | move found move => exact h.put (move.plan_eq.trans (h.plan_eq _ _ found)) _
  | sweep => exact h.sweep now

/-- **What a step makes of a limiter.** -/
theorem move_limiter (s : registry.Step now recorded after) (h : registry.Tidy) {index : Nat}
    {limiter : Limiter} (hfound : registry.limiters[index]? = some limiter) :
    ∃ window, after.limiters[index]? = some { limiter with window } ∧
      Window.Move now limiter.window (recordedAt index recorded) window := by
  cases s with
  | stay => exact ⟨limiter.window, hfound, .stay⟩
  | ask key =>
    have hlt := (Array.getElem?_eq_some_iff.mp hfound).1
    exact ⟨limiter.window, (limiters_limiterFor_of_lt hlt now).trans hfound, .stay⟩
  | @move other moved units? window found move =>
    rw [limiters_put]
    by_cases heq : other = index
    · subst heq
      obtain rfl : moved = limiter := Option.some.inj (found.symm.trans hfound)
      rw [if_pos rfl, hfound, recordedAt_map_self]
      exact ⟨window, rfl, move⟩
    · rw [if_neg heq, recordedAt_map_of_ne heq]
      exact ⟨limiter.window, hfound, .stay⟩
  | sweep =>
    rw [limiters_sweep h]
    split
    · rw [hfound]
      exact ⟨limiter.window.advance now, rfl, .turn⟩
    · exact ⟨limiter.window, hfound, .stay⟩

/-- A limiter that a step has made has all of its room. -/
theorem eq_make (s : registry.Step now recorded after) (h : registry.Tidy) {index : Nat}
    {limiter : Limiter} (hnone : registry.limiters[index]? = none)
    (hfound : after.limiters[index]? = some limiter) : limiter = registry.policy.make now := by
  cases s with
  | stay => cases hnone.symm.trans hfound
  | ask key =>
    cases hfind : registry.find? key with
    | some known =>
      rw [limiterFor_of_some hfind] at hfound
      cases hnone.symm.trans hfound
    | none =>
      rw [limiterFor_of_none hfind, Array.getElem?_push] at hfound
      split at hfound
      · exact (Option.some.inj hfound).symm
      · cases hnone.symm.trans hfound
  | move found move =>
    rw [limiters_put, hnone] at hfound
    split at hfound <;> cases hfound
  | sweep =>
    rw [limiters_sweep h, hnone] at hfound
    split at hfound <;> cases hfound

/-- A limiter after a step is one that was moved, or it was just made. -/
theorem origin (s : registry.Step now recorded after) (h : registry.Tidy) {index : Nat}
    {limiter : Limiter} (hfound : after.limiters[index]? = some limiter) :
    limiter = registry.policy.make now ∨
      ∃ before, registry.limiters[index]? = some before ∧ limiter.clock = before.clock ∧
        Window.Move now before.window (recordedAt index recorded) limiter.window := by
  cases hbefore : registry.limiters[index]? with
  | none => exact .inl (s.eq_make h hbefore hfound)
  | some before =>
    obtain ⟨window, hafter, move⟩ := s.move_limiter h hbefore
    obtain rfl := Option.some.inj (hafter.symm.trans hfound)
    exact .inr ⟨before, rfl, rfl, move⟩

/-- **Steps keep a registry sound.** -/
theorem sound (s : registry.Step now recorded after) (h : registry.Sound) : after.Sound where
  tidy := s.tidy h.tidy
  clock_eq index limiter hfound := by
    rw [s.policy_eq]
    rcases s.origin h.tidy hfound with rfl | ⟨before, hbefore, hclock, -⟩
    · rfl
    · exact hclock.trans (h.clock_eq index before hbefore)
  withinLimit index limiter hfound := by
    rcases s.origin h.tidy hfound with rfl | ⟨before, hbefore, -, move⟩
    · exact Policy.withinLimit_make ..
    · exact (h.withinLimit index before hbefore).move move

theorem timely (s : registry.Step now recorded after) (h : registry.Tidy)
    (ht : registry.Timely now) : after.Timely now := by
  intro index limiter hfound
  rcases s.origin h hfound with rfl | ⟨before, hbefore, -, move⟩
  · exact Int.le_refl now
  · exact move.start_le (ht index before hbefore)

/-- **What a step makes of the window that serves a key.** -/
theorem moves_key (s : registry.Step now recorded after) (h : registry.Tidy) (key : String) :
    Clients.Moves registry.policy.plan now (registry.window? key)
      (registry.recordedFor key recorded) (after.window? key) := by
  cases s with
  | stay =>
    rw [recordedFor_none]
    exact .refl ..
  | ask asked =>
    rw [recordedFor_none]
    exact Clients.moves_limiterFor h now asked key
  | @move index limiter units? window found move =>
    by_cases hserves : registry.find? key = some index
    · rw [window?_put h hserves, window?_of_find? hserves, found, recordedFor_of_find? hserves,
        recordedAt_map_self]
      exact .moved move
    · have hnone : registry.recordedFor key (units?.map (index, ·)) = none := by
        cases hfind : registry.find? key with
        | none => rw [recordedFor, hfind, Option.bind_none]
        | some other =>
          have hne : index ≠ other := fun heq => hserves (hfind.trans (congrArg some heq.symm))
          rw [recordedFor_of_find? hfind, recordedAt_map_of_ne hne]
      rw [window?_put_of_ne hserves, hnone]
      exact .refl ..
  | sweep =>
    rw [recordedFor_none]
    exact Clients.moves_sweep h now key

end Step

end Throttle.Registry

import Throttle.Proofs.Window.Reset
import Throttle.Proofs.World.Deeds

/-!
# Limiters among deeds

A limiter stays where it is kept, on its own or among those of a registry, whatever is done in the
world, and a deed moves its window once at most. This holds for every clock. Only of a limiter on
the system clock can be said what room it will have, because only that clock never goes back.

## Main definitions

* `World.Regular` — what holds of every limiter in a world that has come about by deeds.

## Main statements

* `Sound.move_limiter` — what a deed makes of a limiter.
* `regular_performAll` — every world that has come about by deeds is regular.
* `Regular.room_of_idle` — once the delay is over that a limiter has named, there is room, if it has
  let nothing through meanwhile.
-/

namespace Throttle.World

variable {world : World} {ref : LimiterRef} {limiter : Limiter}

/-! ## One deed -/

theorem limiter?_putLimiter_of_ne {other : LimiterRef} (hne : other ≠ ref) (put : Limiter) :
    (world.putLimiter other put).limiter? ref = world.limiter? ref := by
  cases other with
  | loose place =>
    cases ref with
    | kept index number => rfl
    | loose index =>
      have hplace : place ≠ index := by
        intro heq
        exact hne (congrArg LimiterRef.loose heq)
      simp [putLimiter, limiter?, Array.getElem?_modify, hplace]
  | kept place number =>
    cases ref with
    | loose index => rfl
    | kept index other =>
      rw [limiter?_kept, limiter?_kept, registryAt_putLimiter]
      by_cases hplace : place = index
      · have hnumber : number ≠ other := by
          intro heq
          exact hne (by rw [hplace, heq])
        rw [if_pos hplace]
        cases world.registryAt index with
        | none => rfl
        | some registry =>
          rw [Option.map_some, Option.bind_some, Option.bind_some, Registry.limiters_put,
            if_neg hnumber]
      · rw [if_neg hplace]

/-- When a limiter is put back after a move, every other one stays as it is. -/
theorem move_putLimiter {other : LimiterRef} {moved : Limiter} {units? : Option Nat}
    {window : Window} (hfound : world.limiter? ref = some limiter)
    (hmoved : world.limiter? other = some moved)
    (hmove : Window.Move (world.read moved.clock) moved.window units? window) :
    ∃ after, (world.putLimiter other { moved with window }).limiter? ref =
        some { limiter with window := after } ∧
      Window.Move (world.read limiter.clock) limiter.window
        (recordedBy ref (units?.map (other, ·))) after := by
  by_cases heq : other = ref
  · subst heq
    obtain rfl : moved = limiter := Option.some.inj (hmoved.symm.trans hfound)
    have hsame : recordedBy other (units?.map (other, ·)) = units? := by
      cases units? <;> simp [recordedBy]
    rw [hsame]
    exact ⟨window, limiter?_putLimiter hfound _, hmove⟩
  · have hnone : recordedBy ref (units?.map (other, ·)) = none := by
      cases units? <;> simp [recordedBy, heq]
    rw [hnone]
    exact ⟨limiter.window, (limiter?_putLimiter_of_ne heq _).trans hfound, .stay⟩

theorem loose_ask (world : World) (place : Nat) (key : String) (scope : Scope) :
    (world.perform (.ask place key scope)).loose = world.loose := by
  rw [perform, limiterFor_eq]
  cases world.ended scope with
  | some reason => rfl
  | none =>
    cases world.registries[place]? with
    | none => rfl
    | some swept =>
      dsimp only [Option.map_some]
      split <;> rfl

/-- What a deed makes of a limiter that belongs to no registry. -/
theorem move_loose {index : Nat} (hfound : world.limiter? (.loose index) = some limiter)
    (deed : Deed) :
    ∃ window, (world.perform deed).limiter? (.loose index) = some { limiter with window } ∧
      Window.Move (world.read limiter.clock) limiter.window
        (recordedBy (.loose index) (world.recorded deed)) window := by
  cases deed with
  | pass _ | rearrange _ _ _ | found _ _ _ | abandon _ | sweep _ | runSweepers =>
    exact ⟨limiter.window, hfound, .stay⟩
  | makeLoose policy =>
    refine ⟨limiter.window, ?_, .stay⟩
    have hlt := (Array.getElem?_eq_some_iff.mp hfound).1
    exact (Array.getElem?_push_lt hlt).trans
      ((Array.getElem?_eq_getElem hlt).symm.trans hfound)
  | ask place key scope =>
    refine ⟨limiter.window, ?_, .stay⟩
    rw [limiter?, loose_ask]
    exact hfound
  | use other permit =>
    rw [perform_use, recorded]
    cases hmoved : world.limiter? other with
    | none =>
      rw [use_of_limiter?_eq_none hmoved]
      exact ⟨limiter.window, hfound, .stay⟩
    | some moved =>
      rw [use_of_limiter? hmoved, Option.elim_some]
      rcases moved.use_cases permit (world.read moved.clock) with
        ⟨-, huse⟩ | ⟨-, -, huse⟩ | ⟨-, hroom, huse⟩
      · rw [huse]
        exact move_putLimiter hfound hmoved .stay
      · rw [huse]
        exact move_putLimiter hfound hmoved .turn
      · rw [huse]
        exact move_putLimiter hfound hmoved (.record hroom)
  | look other =>
    rw [perform_look]
    cases hmoved : world.limiter? other with
    | none => exact ⟨limiter.window, hfound, .stay⟩
    | some moved => exact move_putLimiter hfound hmoved .turn

/-- **What a deed makes of a limiter.** -/
theorem Sound.move_limiter (h : world.Sound) (hfound : world.limiter? ref = some limiter)
    (deed : Deed) :
    ∃ window, (world.perform deed).limiter? ref = some { limiter with window } ∧
      Window.Move (world.read limiter.clock) limiter.window
        (recordedBy ref (world.recorded deed)) window := by
  cases ref with
  | loose index => exact move_loose hfound deed
  | kept index number =>
    rw [limiter?_kept] at hfound
    obtain ⟨registry, hregistry, hlimiter⟩ := Option.bind_eq_some_iff.mp hfound
    have hsound := h.registry index registry hregistry
    obtain ⟨after, hafter, step⟩ := step_perform hregistry hsound deed
    obtain ⟨window, hwindow, move⟩ := step.move_limiter hsound.tidy hlimiter
    rw [recordedAt_recordedIn, ← hsound.clock_eq number limiter hlimiter] at move
    refine ⟨window, ?_, move⟩
    rw [limiter?_kept, hafter]
    exact hwindow

/-- **Limiters are never lost**, and they keep their plans. -/
theorem Sound.exists_limiter (h : world.Sound) (hfound : world.limiter? ref = some limiter)
    (deeds : List Deed) :
    ∃ window, (world.performAll deeds).limiter? ref = some { limiter with window } ∧
      window.plan = limiter.window.plan := by
  induction deeds generalizing world limiter with
  | nil => exact ⟨limiter.window, hfound, rfl⟩
  | cons deed deeds ih =>
    obtain ⟨moved, hmoved, move⟩ := h.move_limiter hfound deed
    obtain ⟨window, hwindow, hplan⟩ := ih (h.perform deed) hmoved
    exact ⟨window, hwindow, hplan.trans move.plan_eq⟩

/-- A limiter that is asked how long it takes is advanced to its clock's reading first. -/
theorem retryAfter_of_limiter? (hfound : world.limiter? ref = some limiter) (permit : Permit) :
    let looked := limiter.advance (world.read limiter.clock)
    world.retryAfter ref permit =
      some (world.putLimiter ref looked, looked.retryAfter permit (world.read limiter.clock)) := by
  intro looked
  have hread : (world.putLimiter ref looked).read limiter.clock = world.read limiter.clock := by
    cases ref <;> cases limiter.clock <;> rfl
  rw [← hread, retryAfter, look_of_limiter? hfound]
  rfl

/-- A permit lets its units through unless it is refused. -/
theorem recorded_use (hfound : world.limiter? ref = some limiter) (permit : Permit) :
    world.recorded (.use ref permit) =
      if (limiter.use permit (world.read limiter.clock)).refusal = none
      then some (ref, permit.units) else none := by
  rw [recorded, use_of_limiter? hfound]
  cases (limiter.use permit (world.read limiter.clock)).refusal <;> rfl

/-! ## Where limiters come from -/

theorem eq_make_of_loose {index : Nat} (hnone : world.limiter? (.loose index) = none) {deed : Deed}
    (hsome : (world.perform deed).limiter? (.loose index) = some limiter) :
    ∃ policy : Policy, limiter = policy.make (world.read policy.clock) := by
  have hput : ∀ {other : LimiterRef} {found : Limiter}, world.limiter? other = some found →
      ∀ put, (world.putLimiter other put).limiter? (.loose index) = none := by
    intro other found hfound put
    have hne : other ≠ .loose index := by
      rintro rfl
      cases hnone.symm.trans hfound
    exact (limiter?_putLimiter_of_ne hne put).trans hnone
  cases deed with
  | pass _ | rearrange _ _ _ | found _ _ _ | abandon _ | sweep _ | runSweepers =>
    cases hnone.symm.trans hsome
  | makeLoose policy =>
    rw [perform, makeLoose, keepLoose, limiter?, Array.getElem?_push] at hsome
    split at hsome
    · exact ⟨policy, (Option.some.inj hsome).symm⟩
    · cases hnone.symm.trans hsome
  | ask place key scope =>
    rw [limiter?, loose_ask] at hsome
    cases hnone.symm.trans hsome
  | use other permit =>
    rw [perform_use] at hsome
    cases hfound : world.limiter? other with
    | none =>
      rw [hfound] at hsome
      cases hnone.symm.trans hsome
    | some found =>
      rw [hfound] at hsome
      cases (hput hfound _).symm.trans hsome
  | look other =>
    rw [perform_look] at hsome
    cases hfound : world.limiter? other with
    | none =>
      rw [hfound] at hsome
      cases hnone.symm.trans hsome
    | some found =>
      rw [hfound] at hsome
      cases (hput hfound _).symm.trans hsome

/-- A limiter after a deed was just made by a policy, or it was there before and was moved. -/
theorem Sound.limiter_origin (h : world.Sound) {deed : Deed}
    (hafter : (world.perform deed).limiter? ref = some limiter) :
    (∃ policy : Policy, limiter = policy.make (world.read policy.clock)) ∨
      ∃ before, world.limiter? ref = some before ∧ limiter.clock = before.clock ∧
        Window.Move (world.read before.clock) before.window
          (recordedBy ref (world.recorded deed)) limiter.window := by
  cases hbefore : world.limiter? ref with
  | some before =>
    obtain ⟨window, hfound, move⟩ := h.move_limiter hbefore deed
    obtain rfl := Option.some.inj (hfound.symm.trans hafter)
    exact .inr ⟨before, rfl, rfl, move⟩
  | none =>
    refine .inl ?_
    cases ref with
    | loose index => exact eq_make_of_loose hbefore hafter
    | kept index number =>
      rw [limiter?_kept] at hbefore hafter
      obtain ⟨after, hregistry, hlimiter⟩ := Option.bind_eq_some_iff.mp hafter
      rcases h.origin hregistry with ⟨policy, rfl⟩ | ⟨registry, hfound, step⟩
      · simp [Registry.empty] at hlimiter
      · rw [hfound, Option.bind_some] at hbefore
        have htidy := (h.registry index registry hfound).tidy
        exact ⟨registry.policy, step.eq_make htidy hbefore hlimiter⟩

/-! ## Regular worlds -/

/-- What holds in every world that has come about by deeds: it is sound, no limiter counts more than
its limit, and none on the system clock is ahead of it. -/
structure Regular (world : World) : Prop where
  sound : world.Sound
  withinLimit : ∀ ref limiter, world.limiter? ref = some limiter → limiter.window.WithinLimit
  timely : ∀ ref limiter, world.limiter? ref = some limiter → limiter.clock = .system →
    limiter.window.start ≤ world.now

theorem regular_initial : initial.Regular where
  sound := sound_initial
  withinLimit ref limiter hfound := by
    cases ref <;> simp [initial, limiter?] at hfound
  timely ref limiter hfound := by
    cases ref <;> simp [initial, limiter?] at hfound

theorem Regular.perform (h : world.Regular) (deed : Deed) : (world.perform deed).Regular where
  sound := h.sound.perform deed
  withinLimit ref limiter hafter := by
    rcases h.sound.limiter_origin hafter with ⟨policy, rfl⟩ | ⟨before, hbefore, -, move⟩
    · exact Policy.withinLimit_make ..
    · exact (h.withinLimit ref before hbefore).move move
  timely ref limiter hafter hclock := by
    have hnow := world.now_le_perform deed
    rcases h.sound.limiter_origin hafter with ⟨policy, rfl⟩ | ⟨before, hbefore, hsame, move⟩
    · have hsystem : policy.clock = .system := hclock
      rw [hsystem]
      exact hnow
    · have hsystem : before.clock = .system := hsame.symm.trans hclock
      rw [hsystem] at move
      exact Int.le_trans (move.start_le (h.timely ref before hbefore hsystem)) hnow

theorem Regular.performAll (h : world.Regular) (deeds : List Deed) :
    (world.performAll deeds).Regular := by
  induction deeds generalizing world with
  | nil => exact h
  | cons deed deeds ih => exact ih (h.perform deed)

/-- **Every world that has come about by deeds is regular.** -/
theorem regular_performAll (deeds : List Deed) : (initial.performAll deeds).Regular :=
  regular_initial.performAll deeds

/-! ## Limiters on the system clock -/

section Idle

variable {window : Window} {deeds : List Deed}

/-- **A limiter that lets nothing through** goes on to agree with what it was. -/
theorem Regular.agrees_of_idle (h : world.Regular)
    (hfound : world.limiter? ref = some ⟨.system, window⟩)
    (hidle : world.throughout (spares ref) deeds = true) :
    ∃ after, (world.performAll deeds).limiter? ref = some ⟨.system, after⟩ ∧
      after.Agrees (world.performAll deeds).now window := by
  induction deeds generalizing world window with
  | nil => exact ⟨window, hfound, .refl _ _⟩
  | cons deed deeds ih =>
    rw [throughout, Bool.and_eq_true] at hidle
    obtain ⟨moved, hmoved, move⟩ := h.sound.move_limiter hfound deed
    rw [Option.isNone_iff_eq_none.mp hidle.1] at move
    obtain ⟨after, hafter, hagrees⟩ := ih (h.perform deed) hmoved hidle.2
    have hnow := Int.le_trans (world.now_le_perform deed) (now_le_performAll _ deeds)
    have hstart : window.start ≤ world.now := h.timely ref _ hfound rfl
    exact ⟨after, hafter, hagrees.trans ((move.agrees hstart).later hnow)⟩

/-- **Once the delay is over that a limiter has named**, there is room, if it has let nothing
through meanwhile. -/
theorem Regular.room_of_idle (h : world.Regular)
    (hfound : world.limiter? ref = some ⟨.system, window⟩) {units : Nat}
    (hunits : units ≤ window.plan.limit) (hidle : world.throughout (spares ref) deeds = true)
    (hlater : (window.advance world.now).resetsAt world.now units ≤ (world.performAll deeds).now) :
    ∃ after, (world.performAll deeds).limiter? ref = some ⟨.system, after⟩ ∧
      units ≤ (after.advance (world.performAll deeds).now).available := by
  obtain ⟨after, hafter, hagrees⟩ := h.agrees_of_idle hfound hidle
  refine ⟨after, hafter, ?_⟩
  have hlimit : window.WithinLimit := h.withinLimit ref _ hfound
  have hstart : window.start ≤ world.now := h.timely ref _ hfound rfl
  have hnow := now_le_performAll world deeds
  rw [hagrees.available_eq (Int.le_refl _)]
  exact (Window.resetsAt_advance_le_iff hlimit hstart hnow hunits).mp hlater

end Idle

end Throttle.World

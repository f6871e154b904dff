import Throttle.Proofs.Registry.Eviction
import Throttle.Proofs.World.Attempts

/-!
# What a denial announces

Whoever is denied a key is told in how many whole milliseconds there will be room. The span until
the reset is cut down to whole milliseconds for that, so who comes back when they have passed comes
too early by the rest, if there is a rest, and is denied again.

## Main definitions

* `World.admits` — whether a key is let in now.
* `World.sparesKey` — a deed in which the limiter that serves a key lets nothing through.

## Main statements

* `admits_after_denial` — from which instant on a key is let in that was denied.
* `denied_after_announced_time` — a key that is denied again after the time that was announced.
-/

namespace Throttle

namespace Visitors.Counterparts

variable {now : Int} {plan : Plan} {first : Window} {before after : Option Window}

/-- Whatever becomes of a key, without anything being recorded for it, its window goes on to be the
counterpart of what it was. -/
theorem moves (h : Counterparts now (some first) before) (hplan : first.plan = plan)
    (m : Clients.Moves plan now before none after) : Counterparts now (some first) after := by
  cases m with
  | absent => exact h
  | made =>
    cases h with
    | forgotten start_le withinLimit empty =>
      subst hplan
      exact .twins (.of_total_eq_zero start_le withinLimit empty)
  | moved move =>
    cases h with
    | twins twins => exact .twins (twins.move .stay move (.inl rfl))
  | forgotten empty =>
    cases h with
    | twins twins =>
      have hsame := twins.agrees.total_eq (Int.le_refl now)
      exact .forgotten twins.start_le.1 twins.withinLimit.1 (hsame.trans empty)

/-- Its counterpart has the same room. -/
theorem available_eq (h : Counterparts now (some first) after) (hplan : first.plan = plan) :
    ((after.getD (Window.fresh plan now)).advance now).available =
      (first.advance now).available := by
  have htwins := h.getD_fresh fun window hwindow => (Option.some.inj hwindow) ▸ hplan
  exact (htwins.agrees.available_eq (Int.le_refl now)).symm

end Visitors.Counterparts

namespace World

/-- Whether a key is let in now. -/
def admits (world : World) (index : Nat) (key : String) (scope : Scope) (patient : Bool) : Bool :=
  match (world.letIn index key scope patient).2 with
  | .reached (.decided decision) => decision.allowed
  | _ => false

/-- Whether the limiter that serves a key lets nothing through in a deed. -/
def sparesKey (index : Nat) (key : String) (world : World) (deed : Deed) : Bool :=
  match world.registryAt index with
  | none => true
  | some registry =>
    (registry.recordedFor key (recordedIn index (world.recorded deed))).isNone

theorem sparesKey_of_recorded {world : World} {deed : Deed} (h : world.recorded deed = none)
    (index : Nat) (key : String) : sparesKey index key world deed = true := by
  rw [sparesKey, h]
  split
  · rfl
  · exact congrArg Option.isNone (Registry.recordedFor_none _ key)

section Key

variable {world : World} {index : Nat} {registry : Registry} {key : String} {scope : Scope}

/-- A key is let in just if its window has room. -/
theorem admits_iff (hsound : world.Sound) (hregistry : world.registryAt index = some registry)
    (hclock : registry.policy.clock = .system) (hscope : world.ended scope = none) (key : String)
    (patient : Bool) :
    world.admits index key scope patient = true ↔
      1 ≤ (((registry.window? key).getD
        (Window.fresh registry.policy.plan world.now)).advance world.now).available := by
  obtain ⟨asked, admission, hletIn, -, hpatient, hasked, hnow, hend, hkeeps⟩ :=
    letIn_eq_attempt hsound hregistry hclock hscope key patient
  have hfound : asked.Sound := hasked ▸ hsound.perform (.ask index key scope)
  generalize (registry.window? key).getD (Window.fresh registry.policy.plan world.now) = window
    at hkeeps ⊢
  rw [admits, hletIn, ← hnow]
  by_cases hroom : 1 ≤ (window.advance asked.now).available
  · obtain ⟨decision, hdecided, hallowed⟩ := attempt_of_room hkeeps hfound hend hroom
    exact iff_of_true (by rw [hdecided]; exact hallowed) hroom
  · obtain ⟨-, -, hwaiting, hdenied⟩ := attempt_of_no_room hkeeps hfound hend hroom
    refine iff_of_false ?_ hroom
    cases patient with
    | true =>
      rw [hwaiting hpatient]
      nofun
    | false =>
      obtain ⟨decision, hdecided, hallowed, -⟩ := hdenied hpatient
      rw [hdecided]
      exact Bool.eq_false_iff.mp hallowed

/-- While nothing is let through for a key, its window goes on to be the counterpart of what it
was. -/
theorem counterparts_idle {first : Window} (hsound : world.Sound)
    (hregistry : world.registryAt index = some registry) (hclock : registry.policy.clock = .system)
    (hplan : first.plan = registry.policy.plan)
    (hfirst : Visitors.Counterparts world.now (some first) (registry.window? key))
    {deeds : List Deed} (hidle : world.throughout (sparesKey index key) deeds = true) :
    ∃ after, (world.performAll deeds).registryAt index = some after ∧
      after.policy = registry.policy ∧
      Visitors.Counterparts (world.performAll deeds).now (some first) (after.window? key) := by
  induction deeds generalizing world registry with
  | nil => exact ⟨registry, hregistry, rfl, hfirst⟩
  | cons deed deeds ih =>
    rw [throughout, Bool.and_eq_true, sparesKey, hregistry] at hidle
    obtain ⟨moved, hmoved, step⟩ := step_perform hregistry (hsound.registry _ _ hregistry) deed
    have hmoves := step.moves_key (hsound.registry _ _ hregistry).tidy key
    rw [Option.isNone_iff_eq_none.mp hidle.1, hclock] at hmoves
    have hpolicy := step.policy_eq
    obtain ⟨after, hafter, hsame, hkept⟩ := ih (hsound.perform deed) hmoved (hpolicy ▸ hclock)
      (hpolicy ▸ hplan) ((hfirst.moves hplan hmoves).later (world.now_le_perform deed)) hidle.2
    exact ⟨after, hafter, hsame.trans hpolicy, hkept⟩

/-- The window of a key, or a fresh one, can be relied on, and it is the counterpart of what serves
the key. -/
theorem counterparts_getD (hsound : world.Sound)
    (hregistry : world.registryAt index = some registry) (hclock : registry.policy.clock = .system)
    (key : String) :
    let window := (registry.window? key).getD (Window.fresh registry.policy.plan world.now)
    window.plan = registry.policy.plan ∧ window.start ≤ world.now ∧ window.WithinLimit ∧
      Visitors.Counterparts world.now (some window) (registry.window? key) := by
  cases hwindow : registry.window? key with
  | none =>
    have hlimit := Window.withinLimit_fresh registry.policy.plan world.now
    refine ⟨rfl, Int.le_refl _, hlimit, .forgotten (Int.le_refl _) hlimit ?_⟩
    rw [Window.total_advance, Option.getD_none, Window.left_fresh]
  | some window =>
    have hplan := (hsound.registry index registry hregistry).tidy.plan_window? hwindow
    obtain ⟨number, -, hlimiter⟩ := Option.bind_eq_some_iff.mp hwindow
    obtain ⟨limiter, hfound, rfl⟩ := Option.map_eq_some_iff.mp hlimiter
    have hstart := hsound.timely index registry hregistry hclock number limiter hfound
    have hlimit := (hsound.registry index registry hregistry).withinLimit number limiter hfound
    exact ⟨hplan, hstart, hlimit, .twins ⟨.refl _ _, ⟨hstart, hstart⟩, ⟨hlimit, hlimit⟩⟩⟩

/-- Whoever is denied was told the time until the reset, and has recorded nothing. -/
theorem eq_of_denied (hsound : world.Sound) (hregistry : world.registryAt index = some registry)
    (hclock : registry.policy.clock = .system) {asked : World} {denial : Decision}
    (hdenied : world.letIn index key scope false = (asked, .reached (.decided denial)))
    (hnot : denial.allowed = false) :
    let window := (registry.window? key).getD (Window.fresh registry.policy.plan world.now)
    world.now < world.reset window ∧
      denial.retryAfter = wholeMillis (Time.elapsed world.now (world.reset window)) ∧
      ∃ deeds, asked = world.performAll deeds ∧ asked.now = world.now ∧
        world.throughout (sparesKey index key) deeds = true := by
  intro window
  have hscope : world.ended scope = none := by
    cases hended : world.ended scope with
    | none => rfl
    | some reason =>
      rw [letIn, limiterFor_eq, hended] at hdenied
      cases hdenied
  obtain ⟨found, admission, hletIn, -, hpatient, hfound, hnow, hend, hkeeps⟩ :=
    letIn_eq_attempt hsound hregistry hclock hscope key false
  have hfoundsound : found.Sound := hfound ▸ hsound.perform (.ask index key scope)
  have hstart : window.start ≤ world.now := hnow ▸ hkeeps.start_le
  have hfits : 1 ≤ window.plan.limit := window.plan.limit_pos
  have hiff := Window.resetsAt_advance_le_iff hkeeps.withinLimit hstart (Int.le_refl _) hfits
  rw [hletIn] at hdenied
  have hroom : ¬1 ≤ (window.advance found.now).available := by
    intro hroom
    obtain ⟨decision, hdecided, hallowed⟩ := attempt_of_room hkeeps hfoundsound hend hroom
    rw [hdenied] at hdecided
    cases hdecided
    cases hallowed.symm.trans hnot
  obtain ⟨hworld, hnone, -, htold⟩ := attempt_of_no_room hkeeps hfoundsound hend hroom
  obtain ⟨decision, hdecided, -, hretry⟩ := htold hpatient
  rw [hdenied] at hdecided hworld
  cases hdecided
  have hreset : found.reset window = world.reset window := by rw [reset, reset, hnow]
  rw [hreset, hnow] at hretry
  rw [hnow] at hroom
  have hasked : asked = found.performAll
    [.use admission.limiter Limiter.single, .look admission.limiter] := hworld
  refine ⟨Int.not_le.mp fun hle => hroom (hiff.mp hle), hretry, [.ask index key scope,
    .use admission.limiter Limiter.single, .look admission.limiter], ?_, ?_, ?_⟩
  · rw [performAll_cons, ← hfound]
    exact hasked
  · rw [hasked, ← hnow]
    simp [now_perform, Deed.span]
  · have huse : sparesKey index key found (.use admission.limiter Limiter.single) = true :=
      sparesKey_of_recorded hnone index key
    rw [throughout, ← hfound, throughout, huse, sparesKey_of_recorded rfl, throughout,
      sparesKey_of_recorded rfl]
    rfl

/-- What is announced is not cut short by the size of a count: no interval is that long. -/
theorem wholeMillis_eq {limit : UInt64} {interval : Nat} {segments : UInt64} {plan : Plan}
    (hplan : Plan.ofParameters limit interval segments = .ok plan) {span : Nat}
    (hspan : span ≤ plan.interval) : wholeMillis span = span / Time.millisecond := by
  have hlongest : plan.interval ≤ Plan.longestInterval := by
    rw [Plan.ofParameters] at hplan
    split_ifs at hplan with _ _ hlong
    cases hplan
    exact Nat.not_lt.mp hlong
  have hlargest : Plan.longestInterval ≤ Count.largest := by decide
  have hless := Nat.div_le_self span Time.millisecond
  exact Nat.min_eq_left (by omega)

/-- **When a key is let in that was denied.** Whatever others do meanwhile without being let through
for the key, it is let in from the reset on and not before. What was announced is the span until the
reset in whole milliseconds: who comes back after just this time is let in if there was no rest, and
denied if there was one; who comes back a millisecond later is let in. -/
theorem admits_after_denial (deeds : List Deed) (index : Nat) (registry : Registry) (key : String)
    (scope : Scope) (asked : World) (denial : Decision) (limit : UInt64) (interval : Nat)
    (segments : UInt64) (hregistry : (initial.performAll deeds).registryAt index = some registry)
    (hclock : registry.policy.clock = .system)
    (hplan : Plan.ofParameters limit interval segments = .ok registry.policy.plan)
    (hdenied : (initial.performAll deeds).letIn index key scope false =
      (asked, .reached (.decided denial)))
    (hnot : denial.allowed = false) :
    ∃ span : Nat, 0 < span ∧ denial.retryAfter = span / Time.millisecond ∧
      ∀ (idle : List Deed) (other : Scope) (patient : Bool),
        asked.throughout (sparesKey index key) idle = true →
        (asked.performAll idle).ended other = none →
        let later := asked.performAll idle
        (later.admits index key other patient = true ↔ asked.now + span ≤ later.now) ∧
        (later.now = asked.now + (denial.retryAfter * Time.millisecond : Nat) →
          (later.admits index key other patient = true ↔ Time.millisecond ∣ span)) ∧
        (asked.now + ((denial.retryAfter + 1) * Time.millisecond : Nat) ≤ later.now →
          later.admits index key other patient = true) := by
  have hsound : (initial.performAll deeds).Sound := sound_initial.performAll deeds
  obtain ⟨hwindow, hstart, hlimit, hcounterparts⟩ :=
    counterparts_getD hsound hregistry hclock key
  obtain ⟨hlater, hretry, asking, rfl, hnow, hspared⟩ :=
    eq_of_denied hsound hregistry hclock hdenied hnot
  generalize initial.performAll deeds = world at *
  generalize (registry.window? key).getD (Window.fresh registry.policy.plan world.now) = window
    at *
  have hfits : 1 ≤ window.plan.limit := window.plan.limit_pos
  have hshort := Window.resetsAt_advance_le_add_interval hlimit hstart hfits
  obtain ⟨span, hspan⟩ : ∃ span : Nat, world.reset window = world.now + span :=
    ⟨(world.reset window - world.now).toNat, by omega⟩
  have helapsed : Time.elapsed world.now (world.reset window) = span := by
    rw [Time.elapsed]
    omega
  rw [hwindow, ← reset, hspan] at hshort
  rw [helapsed, wholeMillis_eq hplan (by omega)] at hretry
  refine ⟨span, by omega, hretry, fun idle other patient hidle hscope => ?_⟩
  intro later
  have hwhole : world.throughout (sparesKey index key) (asking ++ idle) = true :=
    throughout_append hspared hidle
  have hperformed : world.performAll (asking ++ idle) = later := performAll_append ..
  obtain ⟨after, hafter, hpolicy, hkept⟩ :=
    counterparts_idle hsound hregistry hclock hwindow hcounterparts hwhole
  rw [hperformed] at hafter hkept
  have hlatersound : later.Sound := hperformed ▸ hsound.performAll (asking ++ idle)
  have hadmits := admits_iff hlatersound hafter (hpolicy ▸ hclock) hscope key patient
  have hmore : world.now ≤ later.now := hperformed ▸ world.now_le_performAll (asking ++ idle)
  have hreset := Window.resetsAt_advance_le_iff hlimit hstart hmore hfits
  rw [hkept.available_eq (hwindow.trans (congrArg Policy.plan hpolicy).symm), ← hreset, ← reset,
    hspan] at hadmits
  have hrest := Nat.div_mul_le_self span Time.millisecond
  have hnext := Nat.lt_div_mul_add (a := span) (b := Time.millisecond) (by decide)
  refine ⟨by rw [hadmits, hnow], fun hback => ?_, fun hback => ?_⟩
  · rw [hadmits, hback, hnow, hretry]
    constructor
    · intro hle
      exact Dvd.intro_left (span / Time.millisecond) (by omega)
    · intro hdvd
      have hsame := Nat.div_mul_cancel hdvd
      omega
  · rw [hnow, hretry] at hback
    have hmul := Nat.add_one_mul (span / Time.millisecond) Time.millisecond
    rw [hadmits]
    omega

end Key

/-- A unit was let through at 0; half a millisecond later there are two milliseconds and a half
until the reset. Two are announced, and after three the key is let in. -/
theorem admits_after_denial_half_a_millisecond :
    let world := initial.performAll [.found .oneInThreeMillis .background Time.second,
      .ask 0 "k" .background, .use (.kept 0 0) Limiter.single, .pass 500000]
    let denied := world.letIn 0 "k" .background false
    denied.2 = .reached (.decided ⟨"k", false, 1, 0, 2, 0⟩) ∧
      (denied.1.performAll [.sweep 0, .pass (3 * Time.millisecond)]).admits 0 "k" .background
        false = true := by
  intro world denied
  have htold : denied.2 = .reached (.decided ⟨"k", false, 1, 0, 2, 0⟩) := by decide +kernel
  have hregistry : (world.registryAt 0).map Registry.policy = some .oneInThreeMillis := by
    decide +kernel
  obtain ⟨registry, hfound, hpolicy⟩ := Option.map_eq_some_iff.mp hregistry
  obtain ⟨span, -, -, hback⟩ := admits_after_denial
    [.found .oneInThreeMillis .background Time.second, .ask 0 "k" .background,
      .use (.kept 0 0) Limiter.single, .pass 500000] 0 registry "k" .background denied.1
    ⟨"k", false, 1, 0, 2, 0⟩ 1 (3 * Time.millisecond) 2 hfound (by rw [hpolicy]; rfl)
    (by rw [hpolicy]; rfl) (Prod.ext rfl htold) rfl
  refine ⟨htold, (hback [.sweep 0, .pass (3 * Time.millisecond)] .background false
    (by decide +kernel) (by decide +kernel)).2.2 (by decide +kernel)⟩

/-- **A key that is denied again after the announced time.** A unit is let through at 0. At half a
millisecond the key is denied and two milliseconds are announced. Nobody is let through meanwhile,
and when they have passed it is denied again. -/
theorem denied_after_announced_time :
    let world := initial.performAll [.found .oneInThreeMillis .background (3600 * Time.second)]
    let first := world.letIn 0 "k" .background false
    let denied := (first.1.perform (.pass 500000)).letIn 0 "k" .background false
    let idle : List Deed := [.pass (2 * Time.millisecond)]
    denied.2 = .reached (.decided ⟨"k", false, 1, 0, 2, 0⟩) ∧
      denied.1.throughout (sparesKey 0 "k") idle = true ∧
      (denied.1.performAll idle).now = denied.1.now + (2 * Time.millisecond : Nat) ∧
      (denied.1.performAll idle).admits 0 "k" .background false = false := by
  refine ⟨by decide +kernel, by decide +kernel, by decide +kernel, by decide +kernel⟩

end World

end Throttle

import Throttle.Proofs.Window.Reset
import Throttle.Proofs.World.Stages

/-!
# Attempts on the system clock

An admission whose limiter a registry on the system clock has made is let through just if there is
room in the window. If there is none, it is told how long it takes until the reset, which is the
instant from which there will be room.

## Main definitions

* `World.reset` — the instant from which there will be room for a unit.

## Main statements

* `turn_trying`, `turn_timing` — what an admission is told by its limiter.
* `letIn_eq_attempt` — whoever asks for a key in time tries the key's limiter.
* `attempt_of_room`, `attempt_of_no_room` — what comes of an attempt.
-/

namespace Throttle.World

variable {world : World} {plan : Plan} {window : Window} {admission : Admission}

/-! ## Steps -/

theorem exists_limiterFor {index : Nat} {registry : Registry} {scope : Scope}
    (hregistry : world.registryAt index = some registry) (hscope : world.ended scope = none)
    (key : String) : ∃ asked ref, world.limiterFor index key scope = some (.ok (asked, ref)) := by
  obtain ⟨swept, hswept, -⟩ := Option.map_eq_some_iff.mp hregistry
  rw [limiterFor_eq, hscope, hswept]
  exact ⟨_, _, rfl⟩

theorem perform_ask {index : Nat} {key : String} {scope : Scope} {asked : World}
    {ref : LimiterRef} (h : world.limiterFor index key scope = some (.ok (asked, ref))) :
    world.perform (.ask index key scope) = asked := by
  rw [perform, h]

/-- **Whoever is handed a limiter** can rely on it, and its window is that of the key. -/
theorem keeps_limiterFor (h : world.Sound) {index : Nat} {registry : Registry} {key : String}
    {scope : Scope} {asked : World} {ref : LimiterRef}
    (hregistry : world.registryAt index = some registry) (hclock : registry.policy.clock = .system)
    (hasked : world.limiterFor index key scope = some (.ok (asked, ref))) :
    asked.Keeps ref registry.policy.plan
      ((registry.window? key).getD (Window.fresh registry.policy.plan world.now)) := by
  have hsound : asked.Sound := perform_ask hasked ▸ h.perform (.ask index key scope)
  obtain ⟨-, -, -, found, hfound, rfl, hafter⟩ := limiterFor_eq_ok hasked
  obtain rfl : found = registry := Option.some.inj (hfound.symm.trans hregistry)
  have htidy := (h.registry index found hregistry).tidy
  have hindex := hafter index
  rw [if_pos rfl, hclock, read] at hindex
  rw [hclock, read]
  have hserves := Registry.find?_limiterFor found key world.now
  have hwindow := Registry.window?_limiterFor htidy key world.now
  rw [Registry.window?_of_find? hserves, Option.map_eq_some_iff] at hwindow
  obtain ⟨limiter, hlimiter, hwindow⟩ := hwindow
  have hsystem : (found.limiterFor key world.now).1.policy.clock = .system := by
    rw [Registry.policy_limiterFor, hclock]
  have hkeeps := hsound.keeps hindex hsystem hlimiter
  rwa [Registry.policy_limiterFor, hwindow] at hkeeps

/-- Whoever asks in time finds a limiter. -/
theorem turn_asking (h : world.Sound) {index : Nat} {registry : Registry} {scope : Scope}
    (hregistry : world.registryAt index = some registry) (hclock : registry.policy.clock = .system)
    (hscope : world.ended scope = none) (key : String) (patient : Bool) :
    ∃ ref window, (world.turn (.asking index key scope patient)).1.Keeps ref registry.policy.plan
        window ∧
      (world.turn (.asking index key scope patient)).2 =
        .trying { key, limiter := ref, scope, patient, started := world.now } := by
  obtain ⟨asked, ref, hasked⟩ := exists_limiterFor hregistry hscope key
  have hkeeps := keeps_limiterFor h hregistry hclock hasked
  obtain ⟨-, hnow, -⟩ := limiterFor_eq_ok hasked
  simp only [turn, hasked, hnow]
  exact ⟨ref, _, hkeeps, rfl⟩

/-- An admission is let through just if there is room for it. -/
theorem turn_trying (h : world.Keeps admission.limiter plan window) :
    (world.turn (.trying admission)).2 =
      if 1 ≤ (window.advance world.now).available then .telling admission
      else .timing admission Limiter.single := by
  rw [turn, use_of_limiter? h.limiter?]
  rcases Limiter.use_cases ⟨.system, window⟩ Limiter.single (world.read .system) with
    ⟨hused, -⟩ | ⟨-, hroom, huse⟩ | ⟨-, hroom, huse⟩
  · cases hused
  · have hno : ¬1 ≤ (window.advance world.now).available := Nat.not_le.mpr hroom
    rw [if_neg hno]
    simp only [huse]
  · have hyes : 1 ≤ (window.advance world.now).available := hroom
    rw [if_pos hyes]
    simp only [huse]

theorem turn_telling (h : world.Keeps admission.limiter plan window)
    (hscope : world.ended admission.scope = none) :
    ∃ decision, (world.turn (.telling admission)).2 = .reached (.decided decision) ∧
      decision.allowed = true := by
  rw [turn, hscope, look_of_limiter? h.limiter?]
  exact ⟨_, rfl, rfl⟩

/-- The instant at which there will be room for a unit. -/
def reset (world : World) (window : Window) : Int :=
  (window.advance world.now).resetsAt world.now 1

theorem reset_eq (h : world.Keeps admission.limiter plan window) {other : World} {after : Window}
    (hafter : other.Keeps admission.limiter plan after) (hnow : other.now = world.now)
    (hagrees : after.Agrees world.now window) : other.reset after = world.reset window := by
  have hstart := hafter.start_le
  rw [hnow] at hstart
  have hfits : 1 ≤ window.plan.limit := window.plan.limit_pos
  rw [reset, reset, hnow]
  exact hagrees.symm.resetsAt_eq h.withinLimit hafter.withinLimit h.start_le hstart hfits

/-- Who was refused is told when there will be room: one that is patient waits for it, and one that
is not is denied. -/
theorem turn_timing (h : world.Keeps admission.limiter plan window) :
    ∃ denial : Decision, denial.allowed = false ∧
      denial.retryAfter = wholeMillis (Time.elapsed world.now (world.reset window)) ∧
      (world.turn (.timing admission Limiter.single)).2 =
        if admission.patient then
          .setting admission (Time.elapsed world.now (world.reset window))
        else .reached (.decided denial) := by
  let looked := Limiter.advance ⟨.system, window⟩ world.now
  have hdelay : looked.retryAfter Limiter.single
      ((world.putLimiter admission.limiter looked).read .system) =
        Time.elapsed world.now (world.reset window) := by
    rw [read, now_putLimiter]
    rfl
  refine ⟨⟨admission.key, false, looked.limit, 0,
    wholeMillis (Time.elapsed world.now (world.reset window)), 0⟩, rfl, rfl, ?_⟩
  rw [turn, look_of_limiter? h.limiter?]
  dsimp only
  rw [← hdelay]
  cases admission.patient <;> rfl

theorem turn_setting (hscope : world.ended admission.scope = none) (delay : Nat) :
    world.turn (.setting admission delay) =
      (world, .waiting admission (Time.after? world.now delay)) := by
  rw [turn, hscope]

theorem noticed_eq_none {scope : Scope} (hscope : world.ended scope = none) :
    world.scopes.noticed scope world.now = none := by
  cases h : world.scopes.noticed scope world.now with
  | none => rfl
  | some reason => cases (ScopeTree.ended_of_noticed h).symm.trans hscope

theorem poll_admission (hscope : world.ended admission.scope = none) (until? : Option Int) :
    world.poll (.admission admission until?) =
      if world.fired until? then world.attempt admission
      else (world, .waiting (.admission admission until?)) := by
  simp only [poll, noticed_eq_none hscope]

theorem turn_waiting (hscope : world.ended admission.scope = none) (until? : Option Int) :
    world.turn (.waiting admission until?) =
      (world, if world.fired until? then .trying admission else .waiting admission until?) := by
  simp only [turn, noticed_eq_none hscope]
  split <;> rfl

/-! ## Attempts -/

/-- **Whoever asks in time** tries the limiter of the key at once. -/
theorem letIn_eq_attempt (h : world.Sound) {index : Nat} {registry : Registry} {scope : Scope}
    (hregistry : world.registryAt index = some registry) (hclock : registry.policy.clock = .system)
    (hscope : world.ended scope = none) (key : String) (patient : Bool) :
    ∃ (asked : World) (admission : Admission),
      world.letIn index key scope patient = asked.attempt admission ∧
      admission.scope = scope ∧ admission.patient = patient ∧
      asked = world.perform (.ask index key scope) ∧ asked.now = world.now ∧
      asked.ended admission.scope = none ∧
      asked.Keeps admission.limiter registry.policy.plan
        ((registry.window? key).getD (Window.fresh registry.policy.plan world.now)) := by
  obtain ⟨asked, ref, hasked⟩ := exists_limiterFor hregistry hscope key
  obtain ⟨-, hnow, hscopes, -⟩ := limiterFor_eq_ok hasked
  have hkeeps := keeps_limiterFor h hregistry hclock hasked
  have hend : asked.ended scope = none := by rw [ended, hnow, hscopes]; exact hscope
  refine ⟨asked, { key, limiter := ref, scope, patient, started := asked.now }, ?_, rfl, rfl,
    (perform_ask hasked).symm, hnow, hend, hkeeps⟩
  rw [letIn, hasked]

/-- An attempt is allowed if there is room. -/
theorem attempt_of_room (h : world.Keeps admission.limiter plan window) (hsound : world.Sound)
    (hscope : world.ended admission.scope = none)
    (hroom : 1 ≤ (window.advance world.now).available) :
    ∃ decision, (world.attempt admission).2 = .reached (.decided decision) ∧
      decision.allowed = true := by
  obtain ⟨-, hstage⟩ := world.attempt_eq_turns admission
  have htrying := turn_trying h
  rw [if_pos hroom] at htrying
  obtain ⟨used, hused, -⟩ := h.turn hsound (.trying admission)
  obtain ⟨decision, htelling, hallowed⟩ :=
    turn_telling hused ((world.ended_turn _ _).trans hscope)
  rw [turns_succ, htrying, turns_succ, htelling, turns_reached] at hstage
  exact ⟨decision, Progress.eq_reached hstage, hallowed⟩

/-- An admission that finds no room has recorded nothing. -/
theorem turn_trying_of_no_room (h : world.Keeps admission.limiter plan window)
    (hsound : world.Sound) (hroom : ¬1 ≤ (window.advance world.now).available) :
    world.recorded (.use admission.limiter Limiter.single) = none ∧
      (world.turn (.trying admission)).2 = .timing admission Limiter.single ∧
      ∃ after, (world.turn (.trying admission)).1.Keeps admission.limiter plan after ∧
        after.Agrees world.now window := by
  have hnone : world.recorded (.use admission.limiter Limiter.single) = none := by
    rw [recorded, use_of_limiter? h.limiter?]
    rcases Limiter.use_cases ⟨.system, window⟩ Limiter.single (world.read .system) with
      ⟨hused, -⟩ | ⟨-, -, huse⟩ | ⟨-, hyes, -⟩
    · cases hused
    · simp only [huse]
    · exact absurd hyes hroom
  obtain ⟨after, hafter, move⟩ := h.turn hsound (.trying admission)
  rw [deed?, Option.bind_some, hnone] at move
  have hstage := turn_trying h
  rw [if_neg hroom] at hstage
  exact ⟨hnone, hstage, after, hafter, move.agrees h.start_le⟩

/-- **An attempt that finds no room**: one that is patient waits until the instant of the reset, and
one that is not is told how long that takes. -/
theorem attempt_of_no_room (h : world.Keeps admission.limiter plan window) (hsound : world.Sound)
    (hscope : world.ended admission.scope = none)
    (hroom : ¬1 ≤ (window.advance world.now).available) :
    (world.attempt admission).1 = world.performAll
        [.use admission.limiter Limiter.single, .look admission.limiter] ∧
      world.recorded (.use admission.limiter Limiter.single) = none ∧
      (admission.patient = true → (world.attempt admission).2 = .waiting (.admission admission
        (Time.after? world.now (Time.elapsed world.now (world.reset window))))) ∧
      (admission.patient = false → ∃ decision,
        (world.attempt admission).2 = .reached (.decided decision) ∧ decision.allowed = false ∧
          decision.retryAfter =
            wholeMillis (Time.elapsed world.now (world.reset window))) := by
  obtain ⟨hworld, hstage⟩ := world.attempt_eq_turns admission
  obtain ⟨hnone, htiming, after, hafter, hagrees⟩ := turn_trying_of_no_room h hsound hroom
  have hnow := world.now_turn (.trying admission)
  have hended := (world.ended_turn (.trying admission) admission.scope).trans hscope
  have hfirst := world.turn_fst (.trying admission)
  have hreset := reset_eq h hafter hnow hagrees
  rw [turns_succ, htiming] at hworld hstage
  generalize (world.turn (.trying admission)).1 = tried at *
  have hsecond := tried.turn_fst (.timing admission Limiter.single)
  have hend := (tried.ended_turn (.timing admission Limiter.single) admission.scope).trans hended
  have hlater := (tried.now_turn (.timing admission Limiter.single)).trans hnow
  rw [turns_succ] at hworld hstage
  have hdeeds : (tried.turn (.timing admission Limiter.single)).1 =
      world.performAll [.use admission.limiter Limiter.single, .look admission.limiter] :=
    hsecond.trans (congrArg (perform · (.look admission.limiter)) hfirst)
  have hdelay : Time.elapsed tried.now (tried.reset after) =
      Time.elapsed world.now (world.reset window) := by
    rw [hreset, hnow]
  obtain ⟨denial, hdenied, hretry, htold⟩ := turn_timing hafter
  cases hpatient : admission.patient with
  | true =>
    rw [if_pos hpatient] at htold
    rw [htold, turns_succ, turn_setting hend] at hworld hstage
    refine ⟨hworld.symm.trans hdeeds, hnone, fun _ => ?_, nofun⟩
    rw [Progress.eq_waiting hstage, hlater]
    exact congrArg (fun delay => Progress.waiting (.admission admission
      (Time.after? world.now delay))) hdelay
  | false =>
    rw [if_neg (Bool.eq_false_iff.mp hpatient)] at htold
    rw [htold, turns_reached] at hworld hstage
    refine ⟨hworld.symm.trans hdeeds, hnone, nofun, fun _ => ?_⟩
    exact ⟨denial, Progress.eq_reached hstage, hdenied,
      hretry.trans (congrArg wholeMillis hdelay)⟩

end Throttle.World

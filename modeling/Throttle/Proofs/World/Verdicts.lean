import Throttle.Batch
import Throttle.Proofs.Registry.Tallies
import Throttle.Proofs.World.Attempts

/-!
# Verdicts

When everything happens at one instant, an admission that is not patient is decided by how often its
key has come so far. Here is what its steps come to, when its registry has counted the keys that came
before.

## Main definitions

* `World.verdict`, `World.verdicts` — the decision about a key that comes for the n-th time, and
  those about all keys that came.
* `World.Tallies` — a world in which some keys were entered and counted.
* `World.Attends` — what an admission can rely on that has its limiter.

## Main statements

* `Tallies.turn_asking`, `Attends.turn_trying`, `Attends.turn_telling`, `Attends.turn_timing` — what
  the steps come to.
* `Tallies.perform_sweep`, `Attends.perform_sweep` — sweeps that make no difference.
-/

namespace Throttle

namespace World

/-- The decision about a key that comes for the n-th time at an instant. Who is denied is told to come
back when the newest segment has left the window. -/
def verdict (plan : Plan) (key : String) (nth : Nat) : Decision :=
  if nth ≤ plan.limit then
    { key, allowed := true, limit := plan.limit, remaining := plan.limit - nth
      retryAfter := 0, waited := 0 }
  else
    { key, allowed := false, limit := plan.limit, remaining := 0
      retryAfter := wholeMillis (plan.width * plan.segments), waited := 0 }

/-- The decisions about the keys that came, the last one first. -/
def verdicts (plan : Plan) : List String → List Decision
  | [] => []
  | key :: seen => verdicts plan seen ++ [verdict plan key (seen.count key + 1)]

theorem length_verdicts (plan : Plan) (seen : List String) :
    (verdicts plan seen).length = seen.length := by
  induction seen with
  | nil => rfl
  | cons key seen ih => simp [verdicts, ih]

theorem map_key_verdicts (plan : Plan) (seen : List String) :
    (verdicts plan seen).map Decision.key = seen.reverse := by
  induction seen with
  | nil => rfl
  | cons key seen ih =>
    have hkey : (verdict plan key (seen.count key + 1)).key = key := by
      rw [verdict]
      split <;> rfl
    rw [verdicts, List.map_append, ih, List.map_singleton, hkey, List.reverse_cons]

/-- Each key is decided by how often it has come so far. -/
theorem getElem?_verdicts (plan : Plan) (seen : List String) (place : Nat) :
    (verdicts plan seen)[place]? = seen.reverse[place]?.map fun key =>
      verdict plan key ((seen.reverse.take (place + 1)).count key) := by
  induction seen with
  | nil => rfl
  | cons key seen ih =>
    have hlength := length_verdicts plan seen
    rw [verdicts, List.reverse_cons, List.getElem?_append, List.getElem?_append, hlength,
      List.length_reverse]
    by_cases hless : place < seen.length
    · have htake : (seen.reverse ++ [key]).take (place + 1) = seen.reverse.take (place + 1) :=
        List.take_append_of_le_length (by rw [List.length_reverse]; exact hless)
      rw [if_pos hless, if_pos hless, ih, htake]
    · rw [if_neg hless, if_neg hless]
      cases hplace : place - seen.length with
      | zero =>
        have hall : (seen.reverse ++ [key]).take (place + 1) = seen.reverse ++ [key] := by
          apply List.take_of_length_le
          rw [List.length_append, List.length_reverse, List.length_singleton]
          omega
        simp [hall]
      | succ beyond => rfl

/-! ## Steps -/

/-- A world in which some keys were entered and counted, all of it at one instant. -/
structure Tallies (plan : Plan) (entered seen : List String) (world : World) : Prop where
  scope : world.ended .background = none
  registry : ∃ registry, world.registryAt keyRegistry = some registry ∧
    registry.Tallies plan world.now entered seen

/-- An admission that is not patient, that has begun at this instant, and whose limiter serves its
key. -/
structure Attends (plan : Plan) (entered seen : List String) (world : World)
    (admission : Admission) : Prop where
  tallies : world.Tallies plan entered seen
  scope_eq : admission.scope = .background
  patient_eq : admission.patient = false
  started_eq : admission.started = world.now
  serves : ∃ registry index, world.registryAt keyRegistry = some registry ∧
    registry.find? admission.key = some index ∧ admission.limiter = .kept keyRegistry index

theorem tallies_opening (plan : Plan) (period : Nat) (now : Int) :
    Tallies plan [] [] { opening plan period with now } where
  scope := by
    simp [opening, World.found, initial, ended, ScopeTree.ended, ScopeTree.isCancelled,
      ScopeTree.initial, Scope.background]
  registry := ⟨_, rfl, @Registry.tallies_empty ⟨.fresh plan initial.now, .system, []⟩ rfl now⟩

section Steps

variable {plan : Plan} {entered seen : List String} {world : World} {admission : Admission}

/-- **A key is entered.** -/
theorem Tallies.turn_asking (h : Tallies plan entered seen world) (key : String)
    (hnew : key ∉ entered → key ∉ seen) :
    ∃ admission, (world.turn (.asking keyRegistry key .background false)).2 = .trying admission ∧
      admission.key = key ∧ Attends plan (key :: entered) seen
        (world.turn (.asking keyRegistry key .background false)).1 admission := by
  obtain ⟨registry, hregistry, htallies⟩ := h.registry
  obtain ⟨asked, ref, hasked⟩ := exists_limiterFor hregistry h.scope key
  obtain ⟨-, hnow, hscopes, found, hfound, href, hafter⟩ := limiterFor_eq_ok hasked
  obtain rfl : found = registry := Option.some.inj (hfound.symm.trans hregistry)
  have hread : world.read found.policy.clock = world.now := by
    rw [htallies.clock_eq]
    rfl
  have hindex := hafter keyRegistry
  rw [if_pos rfl, hread, ← hnow] at hindex
  rw [hread, ← hnow] at href
  rw [← hnow] at htallies
  simp only [turn, hasked]
  refine ⟨_, rfl, rfl, ⟨?_, _, hindex, htallies.ask hnew⟩, rfl, rfl, rfl, _, _, hindex, ?_, href⟩
  · rw [ended, hscopes, hnow]
    exact h.scope
  · exact Registry.find?_limiterFor found key asked.now

/-- The limiter has counted the key. -/
theorem Attends.limiter?_eq (h : Attends plan entered seen world admission) :
    world.limiter? admission.limiter =
      some ⟨.system, .filled plan world.now (seen.count admission.key)⟩ := by
  obtain ⟨registry, hregistry, htallies⟩ := h.tallies.registry
  obtain ⟨found, index, hfound, hserves, href⟩ := h.serves
  obtain rfl : found = registry := Option.some.inj (hfound.symm.trans hregistry)
  rw [href, limiter?_kept, hregistry, Option.bind_some, htallies.limiter_eq hserves]

/-- Looking at the limiter changes nothing. -/
theorem Attends.look_eq (h : Attends plan entered seen world admission) :
    world.look admission.limiter =
      some (world, ⟨.system, .filled plan world.now (seen.count admission.key)⟩) := by
  have hlimiter := h.limiter?_eq
  rw [look_of_limiter? hlimiter]
  simp only [read, Limiter.advance, Window.advance_filled]
  rw [putLimiter_eq_self hlimiter]

/-- **A key is counted.** -/
theorem Attends.turn_trying (h : Attends plan entered seen world admission) :
    (world.turn (.trying admission)).2 =
        (if seen.count admission.key < plan.limit then .telling admission
          else .timing admission Limiter.single) ∧
      Attends plan entered (admission.key :: seen) (world.turn (.trying admission)).1 admission := by
  have hused := use_of_limiter? h.limiter?_eq Limiter.single
  simp only [read, Limiter.use_filled] at hused
  have hafter : Attends plan entered (admission.key :: seen)
      (world.putLimiter admission.limiter
        ⟨.system, .filled plan world.now (seen.count admission.key + 1)⟩) admission := by
    obtain ⟨registry, hregistry, htallies⟩ := h.tallies.registry
    obtain ⟨found, index, hfound, hserves, href⟩ := h.serves
    obtain rfl : found = registry := Option.some.inj (hfound.symm.trans hregistry)
    have hindex : ∀ put, (world.putLimiter (.kept keyRegistry index) put).registryAt keyRegistry =
        some (found.put index put) := by
      intro put
      rw [registryAt_putLimiter, if_pos rfl, hregistry, Option.map_some]
    rw [href]
    refine ⟨⟨?_, _, hindex _, ?_⟩, h.scope_eq, h.patient_eq, ?_, _, index, hindex _, ?_, href⟩
    · rw [ended_putLimiter]
      exact h.tallies.scope
    · rw [now_putLimiter]
      exact htallies.use hserves
    · rw [now_putLimiter]
      exact h.started_eq
    · rw [Registry.find?_put]
      exact hserves
  rw [turn, hused]
  by_cases hroom : seen.count admission.key < plan.limit
  · simp only [hroom, if_true]
    exact ⟨trivial, hafter⟩
  · simp only [hroom, if_false, decide_false]
    exact ⟨rfl, hafter⟩

theorem Attends.turn_telling (h : Attends plan entered seen world admission)
    (hroom : seen.count admission.key ≤ plan.limit) :
    world.turn (.telling admission) = (world,
      .reached (.decided (verdict plan admission.key (seen.count admission.key)))) := by
  have hinstant : Time.elapsed world.now world.now = 0 := by simp [Time.elapsed]
  have hnone : wholeMillis 0 = 0 := rfl
  have hscope : world.ended admission.scope = none := by
    rw [h.scope_eq]
    exact h.tallies.scope
  simp only [turn, hscope, h.look_eq, h.started_eq, hinstant, hnone]
  rw [verdict, if_pos hroom]
  simp [Limiter.limit, Limiter.available]

theorem Attends.turn_timing (h : Attends plan entered seen world admission)
    (hfull : plan.limit < seen.count admission.key) :
    world.turn (.timing admission Limiter.single) = (world,
      .reached (.decided (verdict plan admission.key (seen.count admission.key)))) := by
  have hdelay : Limiter.retryAfter ⟨.system, .filled plan world.now (seen.count admission.key)⟩
      Limiter.single world.now = plan.width * plan.segments := by
    rw [Limiter.retryAfter, Limiter.resetsAt, Limiter.single,
      Window.resetsAt_filled (Nat.le_of_lt hfull), Time.elapsed]
    omega
  simp only [turn, h.look_eq, read, hdelay, h.patient_eq, Bool.false_eq_true, if_false]
  rw [verdict, if_neg (Nat.not_le.mpr hfull)]
  simp [Limiter.limit]

/-! ## Sweeps -/

/-- **A sweep makes no difference** once every key that was entered has been counted. -/
theorem Tallies.perform_sweep (h : Tallies plan entered seen world) (hcounted : entered ⊆ seen)
    {deed : Deed} (hsweep : deed.isSweep = true) :
    Tallies plan entered seen (world.perform deed) := by
  obtain ⟨registry, hregistry, htallies⟩ := h.registry
  obtain ⟨hnow, hscopes⟩ := frame_perform_of_isSweep hsweep world
  have hafter := registryAt_perform_of_isSweep hsweep hregistry
  rw [htallies.clock_eq, read] at hafter
  constructor
  case scope =>
    rw [ended, hnow, hscopes]
    exact h.scope
  case registry =>
    rw [hnow]
    rcases hafter with hsame | hswept
    · exact ⟨_, hsame, htallies⟩
    · exact ⟨_, hswept, htallies.sweep hcounted⟩

/-- Nor does it make one for an admission. -/
theorem Attends.perform_sweep (h : Attends plan entered seen world admission)
    (hcounted : entered ⊆ seen) {deed : Deed} (hsweep : deed.isSweep = true) :
    Attends plan entered seen (world.perform deed) admission := by
  obtain ⟨registry, hregistry, htallies⟩ := h.tallies.registry
  obtain ⟨found, index, hfound, hserves, href⟩ := h.serves
  obtain rfl : found = registry := Option.some.inj (hfound.symm.trans hregistry)
  have hafter := registryAt_perform_of_isSweep hsweep hregistry
  rw [htallies.clock_eq, read] at hafter
  refine ⟨h.tallies.perform_sweep hcounted hsweep, h.scope_eq, h.patient_eq, ?_, ?_⟩
  · rw [(frame_perform_of_isSweep hsweep world).1]
    exact h.started_eq
  · rcases hafter with hsame | hswept
    · exact ⟨_, index, hsame, hserves, href⟩
    · exact ⟨_, index, hswept, htallies.find?_sweep hcounted hserves, href⟩

end Steps

end World

end Throttle

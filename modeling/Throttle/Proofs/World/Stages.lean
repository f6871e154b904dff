import Throttle.Activity
import Throttle.Proofs.World.Deeds

/-!
# The stages of an admission

Between two steps of an admission others may act: after its limiter was found, after the limiter has
let it through or refused it, after it was told how long to wait, and all the while that it waits.
`World.turn` takes one step only. If nobody acts in between, the steps make up what `World.letIn`
and `World.poll` do at once.

## Main definitions

* `Stage` — how far an admission has come.
* `World.turn` — one step of an admission.

## Main statements

* `letIn_eq_turns`, `poll_eq_turns` — steps that nothing comes between.
* `turn_fst` — a step does one deed at most.
* `Keeps.turn` — what a step makes of a limiter.
-/

namespace Throttle

/-- How far the admission of a key has come. -/
inductive Stage where
  /-- It has not found its limiter yet. -/
  | asking (registry : Nat) (key : String) (scope : Scope) (patient : Bool)
  | trying (admission : Admission)
  /-- It was let through. -/
  | telling (admission : Admission)
  /-- It was refused. -/
  | timing (admission : Admission) (permit : Permit)
  /-- It knows how long to wait. -/
  | setting (admission : Admission) (delay : Nat)
  | waiting (admission : Admission) (until? : Option Int)
  | reached (outcome : Outcome)
deriving Repr, DecidableEq

/-- The stage of an admission after it was taken as far as it gets. Other activities have no
stages. -/
def Progress.stage? : Progress → Option Stage
  | .reached outcome => some (.reached outcome)
  | .waiting (.admission admission until?) => some (.waiting admission until?)
  | .waiting _ => none

theorem Progress.eq_reached {progress : Progress} {outcome : Outcome}
    (h : progress.stage? = some (.reached outcome)) : progress = .reached outcome := by
  match progress with
  | .reached other => cases h; rfl
  | .waiting (.admission _ _) => cases h
  | .waiting (.pause _) => cases h
  | .waiting (.wait _ _) => cases h

theorem Progress.eq_waiting {progress : Progress} {admission : Admission} {until? : Option Int}
    (h : progress.stage? = some (.waiting admission until?)) :
    progress = .waiting (.admission admission until?) := by
  match progress with
  | .reached _ => cases h
  | .waiting (.admission _ _) => cases h; rfl
  | .waiting (.pause _) => cases h
  | .waiting (.wait _ _) => cases h

namespace World

/-- One step of an admission. -/
def turn (world : World) : Stage → World × Stage
  | .asking registry key scope patient =>
    match world.limiterFor registry key scope with
    | none => (world, .reached .lost)
    | some (.error reason) => (world, .reached (.ended reason))
    | some (.ok (world, limiter)) =>
      (world, .trying { key, limiter, scope, patient, started := world.now })
  | .trying admission =>
    match world.use admission.limiter Limiter.single with
    | none => (world, .reached .lost)
    | some (world, _, none) => (world, .telling admission)
    | some (world, _, some .alreadyUsed) => (world, .reached (.refused .alreadyUsed))
    | some (world, permit, some .noRoom) => (world, .timing admission permit)
  | .telling admission =>
    match world.ended admission.scope with
    | some reason => (world, .reached (.ended reason))
    | none =>
      match world.look admission.limiter with
      | none => (world, .reached .lost)
      | some (world, limiter) =>
        (world, .reached (.decided {
          key := admission.key
          allowed := true
          limit := limiter.limit
          remaining := limiter.available
          retryAfter := 0
          waited := wholeMillis (Time.elapsed admission.started world.now) }))
  | .timing admission permit =>
    match world.look admission.limiter with
    | none => (world, .reached .lost)
    | some (world, limiter) =>
      let delay := limiter.retryAfter permit (world.read limiter.clock)
      if admission.patient then (world, .setting admission delay)
      else
        (world, .reached (.decided {
          key := admission.key
          allowed := false
          limit := limiter.limit
          remaining := 0
          retryAfter := wholeMillis delay
          waited := 0 }))
  | .setting admission delay =>
    match world.ended admission.scope with
    | some reason => (world, .reached (.ended reason))
    | none => (world, .waiting admission (Time.after? world.now delay))
  | .waiting admission until? =>
    match world.scopes.noticed admission.scope world.now with
    | some reason => (world, .reached (.ended reason))
    | none =>
      if world.fired until? then (world, .trying admission)
      else (world, .waiting admission until?)
  | .reached outcome => (world, .reached outcome)

/-- Some steps of an admission that nothing comes between. -/
def turns (world : World) (stage : Stage) : Nat → World × Stage
  | 0 => (world, stage)
  | more + 1 => (world.turn stage).1.turns (world.turn stage).2 more

/-- What an admission does to the world in its next step. -/
def deed? (world : World) : Stage → Option Deed
  | .asking registry key scope _ => some (.ask registry key scope)
  | .trying admission => some (.use admission.limiter Limiter.single)
  | .telling admission =>
    if world.ended admission.scope = none then some (.look admission.limiter) else none
  | .timing admission _ => some (.look admission.limiter)
  | .setting _ _ | .waiting _ _ | .reached _ => none

/-- **A step of an admission does one deed at most.** -/
theorem turn_fst (world : World) (stage : Stage) :
    (world.turn stage).1 = (world.deed? stage).elim world world.perform := by
  cases stage with
  | asking registry key scope patient =>
    rw [turn, deed?, Option.elim_some, perform]
    split <;> simp_all
  | trying admission =>
    rw [turn, deed?, Option.elim_some, perform]
    split <;> simp_all
  | telling admission =>
    rw [turn, deed?]
    split
    · rename_i hended
      rw [if_neg (by simp [hended])]
      rfl
    · rename_i hended
      rw [if_pos hended, Option.elim_some, perform]
      split <;> simp_all
  | timing admission permit =>
    rw [turn, deed?, Option.elim_some, perform]
    split
    · simp_all
    · split <;> simp_all
  | setting admission delay =>
    rw [turn]
    split <;> rfl
  | waiting admission until? =>
    rw [turn]
    split
    · rfl
    · split <;> rfl
  | reached outcome => rfl

/-! ## Steps that nothing comes between -/

@[simp] theorem turns_zero (world : World) (stage : Stage) :
    world.turns stage 0 = (world, stage) := rfl

theorem turns_succ (world : World) (stage : Stage) (more : Nat) :
    world.turns stage (more + 1) = (world.turn stage).1.turns (world.turn stage).2 more := rfl

/-- Nothing happens any more. -/
@[simp] theorem turns_reached (world : World) (outcome : Outcome) (more : Nat) :
    world.turns (.reached outcome) more = (world, .reached outcome) := by
  induction more with
  | zero => rfl
  | succ more ih => exact ih

/-- Some steps that nothing comes between lead to what comes of doing them at once. -/
def Reaches (world : World) (stage : Stage) (more : Nat) (after : World × Progress) : Prop :=
  (world.turns stage more).1 = after.1 ∧ after.2.stage? = some (world.turns stage more).2

theorem attempt_eq_turns (world : World) (admission : Admission) :
    world.Reaches (.trying admission) 3 (world.attempt admission) := by
  rw [Reaches, turns_succ, turn, attempt]
  cases world.use admission.limiter Limiter.single with
  | none => simp [Progress.stage?]
  | some used =>
    obtain ⟨used, permit, refusal⟩ := used
    cases refusal with
    | none =>
      simp only [turns_succ, turn]
      cases used.ended admission.scope with
      | some reason => simp [Progress.stage?]
      | none => cases used.look admission.limiter <;> simp [Progress.stage?]
    | some refusal =>
      cases refusal with
      | alreadyUsed => simp [Progress.stage?]
      | noRoom =>
        simp only [turns_succ, turn]
        cases used.look admission.limiter with
        | none => simp [Progress.stage?]
        | some looked =>
          obtain ⟨looked, limiter⟩ := looked
          by_cases hpatient : admission.patient = true
          · simp only [hpatient, if_true, enterWait]
            cases looked.ended admission.scope <;> simp [Progress.stage?]
          · simp [hpatient, Progress.stage?]

/-- **An admission that nothing comes between** asks for its limiter and tries it. -/
theorem letIn_eq_turns (world : World) (registry : Nat) (key : String) (scope : Scope)
    (patient : Bool) :
    world.Reaches (.asking registry key scope patient) 4
      (world.letIn registry key scope patient) := by
  rw [Reaches, turns_succ, turn, letIn]
  cases world.limiterFor registry key scope with
  | none => simp [Progress.stage?]
  | some asked =>
    cases asked with
    | error reason => simp [Progress.stage?]
    | ok asked => exact attempt_eq_turns ..

/-- **An admission that is woken up** tries its limiter once more. -/
theorem poll_eq_turns (world : World) (admission : Admission) (until? : Option Int) :
    world.Reaches (.waiting admission until?) 4 (world.poll (.admission admission until?)) := by
  rw [Reaches, poll]
  cases hnoticed : world.scopes.noticed admission.scope world.now with
  | some reason => simp [turns_succ, turn, hnoticed, Progress.stage?]
  | none =>
    by_cases hfired : world.fired until? = true
    · rw [turns_succ, turn]
      simp only [hnoticed, hfired, if_true]
      exact attempt_eq_turns ..
    · simp [turns_succ, turn, hnoticed, hfired, Progress.stage?]

/-! ## What steps leave alone -/

/-- A step takes no time and leaves the scopes alone. -/
theorem turn_frame (world : World) (stage : Stage) :
    (world.turn stage).1.now = world.now ∧ (world.turn stage).1.scopes = world.scopes := by
  have hput : ∀ (ref : LimiterRef) (limiter : Limiter),
      (world.putLimiter ref limiter).now = world.now ∧
        (world.putLimiter ref limiter).scopes = world.scopes := by
    intro ref limiter
    cases ref <;> exact ⟨rfl, rfl⟩
  have hlook : ∀ ref, (world.perform (.look ref)).now = world.now ∧
      (world.perform (.look ref)).scopes = world.scopes := by
    intro ref
    rw [perform_look]
    cases world.limiter? ref with
    | none => exact ⟨rfl, rfl⟩
    | some limiter => exact hput ..
  rw [turn_fst]
  cases stage with
  | asking registry key scope patient =>
    rw [deed?, Option.elim_some, perform]
    split
    · rename_i hasked
      obtain ⟨-, hnow, hscopes, -⟩ := limiterFor_eq_ok hasked
      exact ⟨hnow, hscopes⟩
    · exact ⟨rfl, rfl⟩
  | trying admission =>
    rw [deed?, Option.elim_some, perform_use]
    cases world.limiter? admission.limiter with
    | none => exact ⟨rfl, rfl⟩
    | some limiter => exact hput ..
  | telling admission =>
    rw [deed?]
    split
    · exact hlook _
    · exact ⟨rfl, rfl⟩
  | timing admission permit => exact hlook _
  | setting admission delay => exact ⟨rfl, rfl⟩
  | waiting admission until? => exact ⟨rfl, rfl⟩
  | reached outcome => exact ⟨rfl, rfl⟩

theorem now_turn (world : World) (stage : Stage) : (world.turn stage).1.now = world.now :=
  (world.turn_frame stage).1

theorem ended_turn (world : World) (stage : Stage) (scope : Scope) :
    (world.turn stage).1.ended scope = world.ended scope := by
  rw [ended, ended, now_turn, (world.turn_frame stage).2]

theorem Sound.turn {world : World} (h : world.Sound) (stage : Stage) :
    (world.turn stage).1.Sound := by
  rw [turn_fst]
  cases world.deed? stage with
  | none => exact h
  | some deed => exact h.perform deed

/-- **What a step makes of a limiter.** -/
theorem Keeps.turn {world : World} {ref : LimiterRef} {plan : Plan} {window : Window}
    (h : world.Keeps ref plan window) (hsound : world.Sound) (stage : Stage) :
    ∃ after, (world.turn stage).1.Keeps ref plan after ∧
      Window.Move world.now window (recordedBy ref ((world.deed? stage).bind world.recorded))
        after := by
  rw [turn_fst]
  cases world.deed? stage with
  | none => exact ⟨window, h, .stay⟩
  | some deed => exact h.perform hsound deed

end World

end Throttle

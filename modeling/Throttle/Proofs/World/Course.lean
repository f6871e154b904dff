import Throttle.Proofs.World.Attempts

/-!
# The course of a patient admission

A patient admission goes from stage to stage while others act. As long as its scope is not over it
can rely on its limiter at every stage, also if the registry has forgotten it. Once it was refused,
it will be let through at its next attempt, unless somebody else is let through by that limiter
before.

## Main definitions

* `World.OnCourse` — what a patient admission can rely on at each stage.
* `World.Advances` — what a step of it comes to.
* `World.Promised` — the admission will not be refused at its next attempt, if nobody else is let
  through before.

## Main statements

* `OnCourse.advances` — every step is one of those.
* `OnCourse.perform`, `OnCourse.turn` — an admission stays on course, whoever acts.
* `promised_perform`, `promised_turn` — a promise is kept.
-/

namespace Throttle.World

/-- What a patient admission has found: a limiter on the system clock with a plan. -/
structure Serves (world : World) (scope : Scope) (plan : Plan) (admission : Admission) : Prop where
  scope_eq : admission.scope = scope
  patient : admission.patient = true
  keeps : ∃ window, world.Keeps admission.limiter plan window

/-- Where a patient admission may stand. As far as clocks can show the end of an interval, it does
not wait for longer than that. -/
inductive Stands (world : World) (scope : Scope) (plan : Plan) : Stage → Prop
  | asking {index : Nat} {key : String} {registry : Registry}
      (found : world.registryAt index = some registry)
      (clock_eq : registry.policy.clock = .system) (plan_eq : registry.policy.plan = plan) :
      Stands world scope plan (.asking index key scope true)
  | trying {admission : Admission} (serves : world.Serves scope plan admission) :
      Stands world scope plan (.trying admission)
  | telling {admission : Admission} (serves : world.Serves scope plan admission) :
      Stands world scope plan (.telling admission)
  | timing {admission : Admission} (serves : world.Serves scope plan admission) :
      Stands world scope plan (.timing admission Limiter.single)
  | setting {admission : Admission} {delay : Nat} (serves : world.Serves scope plan admission)
      (short : delay ≤ plan.interval) : Stands world scope plan (.setting admission delay)
  | waiting {admission : Admission} {until? : Option Int}
      (serves : world.Serves scope plan admission)
      (soon : world.now + plan.interval ≤ Time.latest →
        ∃ deadline, until? = some deadline ∧ deadline ≤ world.now + plan.interval) :
      Stands world scope plan (.waiting admission until?)
  | decided {decision : Decision} (allowed : decision.allowed = true) :
      Stands world scope plan (.reached (.decided decision))

/-- What a step of a patient admission comes to, if its scope is not over. -/
inductive Advances (world : World) (scope : Scope) (plan : Plan) : Stage → Stage → Prop
  | found {index : Nat} {key : String} {admission : Admission}
      (serves : (world.turn (.asking index key scope true)).1.Serves scope plan admission) :
      Advances world scope plan (.asking index key scope true) (.trying admission)
  | letThrough {admission : Admission} (serves : world.Serves scope plan admission) :
      Advances world scope plan (.trying admission) (.telling admission)
  | refused {admission : Admission} {window : Window}
      (serves : world.Serves scope plan admission)
      (keeps : world.Keeps admission.limiter plan window)
      (noRoom : ¬1 ≤ (window.advance world.now).available) :
      Advances world scope plan (.trying admission) (.timing admission Limiter.single)
  | allowed {admission : Admission} {decision : Decision} (allowed : decision.allowed = true) :
      Advances world scope plan (.telling admission) (.reached (.decided decision))
  | told {admission : Admission} {window : Window} (serves : world.Serves scope plan admission)
      (keeps : world.Keeps admission.limiter plan window) :
      Advances world scope plan (.timing admission Limiter.single)
        (.setting admission (Time.elapsed world.now (world.reset window)))
  | set {admission : Admission} {delay : Nat} (serves : world.Serves scope plan admission)
      (short : delay ≤ plan.interval) :
      Advances world scope plan (.setting admission delay)
        (.waiting admission (Time.after? world.now delay))
  | woken {admission : Admission} {until? : Option Int}
      (serves : world.Serves scope plan admission) (fired : world.fired until? = true) :
      Advances world scope plan (.waiting admission until?) (.trying admission)
  | asleep {admission : Admission} {until? : Option Int}
      (stands : world.Stands scope plan (.waiting admission until?))
      (fired : world.fired until? = false) :
      Advances world scope plan (.waiting admission until?) (.waiting admission until?)
  | decided {decision : Decision} (allowed : decision.allowed = true) :
      Advances world scope plan (.reached (.decided decision)) (.reached (.decided decision))

/-- A patient admission in a world that has come about by deeds. -/
structure OnCourse (world : World) (scope : Scope) (plan : Plan) (stage : Stage) : Prop where
  sound : world.Sound
  stands : world.Stands scope plan stage

section Course

variable {world : World} {scope : Scope} {plan : Plan} {stage : Stage} {admission : Admission}

theorem Serves.perform (h : world.Serves scope plan admission) (hsound : world.Sound)
    (deed : Deed) : (world.perform deed).Serves scope plan admission := by
  obtain ⟨window, hkeeps⟩ := h.keeps
  obtain ⟨after, hafter, -⟩ := hkeeps.perform hsound deed
  exact ⟨h.scope_eq, h.patient, after, hafter⟩

theorem Serves.turn (h : world.Serves scope plan admission) (hsound : world.Sound)
    (stage : Stage) : (world.turn stage).1.Serves scope plan admission := by
  obtain ⟨window, hkeeps⟩ := h.keeps
  obtain ⟨after, hafter, -⟩ := hkeeps.turn hsound stage
  exact ⟨h.scope_eq, h.patient, after, hafter⟩

/-- **Whatever others do**, the admission can rely on the same. -/
theorem OnCourse.perform (h : world.OnCourse scope plan stage) (deed : Deed) :
    (world.perform deed).OnCourse scope plan stage := by
  refine ⟨h.sound.perform deed, ?_⟩
  cases h.stands with
  | asking found clock_eq plan_eq =>
    obtain ⟨after, hafter, step⟩ := step_perform found (h.sound.registry _ _ found) deed
    have hpolicy := step.policy_eq
    exact .asking hafter (hpolicy ▸ clock_eq) (hpolicy ▸ plan_eq)
  | trying serves => exact .trying (serves.perform h.sound deed)
  | telling serves => exact .telling (serves.perform h.sound deed)
  | timing serves => exact .timing (serves.perform h.sound deed)
  | setting serves short => exact .setting (serves.perform h.sound deed) short
  | waiting serves soon =>
    refine .waiting (serves.perform h.sound deed) fun hlatest => ?_
    have hnow := world.now_le_perform deed
    obtain ⟨deadline, hdeadline, hle⟩ := soon (by omega)
    exact ⟨deadline, hdeadline, by omega⟩
  | decided allowed => exact .decided allowed

/-- Nobody is told to wait for longer than an interval. -/
theorem elapsed_reset_le {window : Window} (h : world.Keeps admission.limiter plan window) :
    Time.elapsed world.now (world.reset window) ≤ plan.interval := by
  have hfits : 1 ≤ window.plan.limit := window.plan.limit_pos
  have hle := Window.resetsAt_advance_le_add_interval h.withinLimit h.start_le hfits
  rw [h.plan_eq] at hle
  rw [Time.elapsed, reset]
  omega

theorem after?_eq_some {delay : Nat} (hshort : delay ≤ plan.interval)
    (hlatest : world.now + plan.interval ≤ Time.latest) :
    Time.after? world.now delay = some (world.now + delay) :=
  if_pos (by omega)

/-- **What a step comes to** at each stage. -/
theorem OnCourse.advances (h : world.OnCourse scope plan stage)
    (hscope : world.ended scope = none) : world.Advances scope plan stage (world.turn stage).2 := by
  cases h.stands with
  | @asking index key registry found clock_eq plan_eq =>
    obtain ⟨ref, window, hkeeps, hstage⟩ := turn_asking h.sound found clock_eq hscope key true
    rw [hstage]
    exact .found ⟨rfl, rfl, window, plan_eq ▸ hkeeps⟩
  | trying serves =>
    obtain ⟨window, hkeeps⟩ := serves.keeps
    rw [turn_trying hkeeps]
    split
    · exact .letThrough serves
    · rename_i hroom
      exact .refused serves hkeeps hroom
  | telling serves =>
    obtain ⟨window, hkeeps⟩ := serves.keeps
    obtain ⟨decision, hstage, hallowed⟩ := turn_telling hkeeps (serves.scope_eq ▸ hscope)
    rw [hstage]
    exact .allowed hallowed
  | timing serves =>
    obtain ⟨window, hkeeps⟩ := serves.keeps
    obtain ⟨denial, -, -, htold⟩ := turn_timing hkeeps
    rw [htold, if_pos serves.patient]
    exact .told serves hkeeps
  | setting serves short =>
    rw [turn_setting (serves.scope_eq ▸ hscope)]
    exact .set serves short
  | @waiting admission until? serves soon =>
    rw [turn_waiting (serves.scope_eq ▸ hscope)]
    cases hfired : world.fired until? with
    | false => exact .asleep (.waiting serves soon) hfired
    | true => exact .woken serves hfired
  | decided allowed => exact .decided allowed

/-- **A step of its own** keeps the admission on course as well, if its scope is not over. -/
theorem OnCourse.turn (h : world.OnCourse scope plan stage) (hscope : world.ended scope = none) :
    (world.turn stage).1.OnCourse scope plan (world.turn stage).2 := by
  refine ⟨h.sound.turn stage, ?_⟩
  have hserves := fun {admission : Admission} (serves : world.Serves scope plan admission) =>
    serves.turn h.sound stage
  have hnow := world.now_turn stage
  have hadvances := h.advances hscope
  generalize (world.turn stage).2 = after at hadvances ⊢
  cases hadvances with
  | found serves => exact .trying serves
  | letThrough serves => exact .telling (hserves serves)
  | refused serves => exact .timing (hserves serves)
  | allowed allowed => exact .decided allowed
  | told serves keeps => exact .setting (hserves serves) (elapsed_reset_le keeps)
  | set serves short =>
    refine .waiting (hserves serves) fun hlatest => ?_
    rw [hnow] at hlatest ⊢
    exact ⟨_, after?_eq_some short hlatest, by omega⟩
  | woken serves => exact .trying (hserves serves)
  | asleep stands =>
    cases stands with
    | waiting serves soon => exact .waiting (hserves serves) (hnow ▸ soon)
  | decided allowed => exact .decided allowed

/-- An admission that is not over gets further in its next step, unless its timer has not fired. -/
theorem OnCourse.turn_eq_self (h : world.OnCourse scope plan stage)
    (hscope : world.ended scope = none) (hsame : (world.turn stage).2 = stage) :
    (∃ outcome, stage = .reached outcome) ∨
      ∃ admission until?, stage = .waiting admission until? ∧ world.fired until? = false := by
  have hadvances := h.advances hscope
  rw [hsame] at hadvances
  cases hadvances with
  | asleep stands fired => exact .inr ⟨_, _, rfl, fired⟩
  | decided allowed => exact .inl ⟨_, rfl⟩

/-! ## The promise -/

/-- Whether a limiter will have room for a unit at an instant, if nothing is recorded until then. -/
def HasRoom (world : World) (ref : LimiterRef) (instant : Int) : Prop :=
  ∀ limiter, world.limiter? ref = some limiter → 1 ≤ (limiter.window.advance instant).available

/-- The limiter that the admission asks. -/
def limiterOf : Stage → Option LimiterRef
  | .trying admission | .telling admission | .timing admission _ | .setting admission _
  | .waiting admission _ => some admission.limiter
  | .asking _ _ _ _ | .reached _ => none

/-- As long as nobody else is let through, the admission will not be refused. It has this promise
from when it was refused until it is let through. -/
def Promised (world : World) : Stage → Prop
  | .asking _ _ _ _ => False
  | .trying admission => world.HasRoom admission.limiter world.now
  | .setting admission delay => world.HasRoom admission.limiter (world.now + delay)
  | .waiting admission (some deadline) =>
    world.HasRoom admission.limiter (max world.now deadline)
  | .telling _ | .timing _ _ | .waiting _ none | .reached _ => True

theorem Keeps.hasRoom_iff {ref : LimiterRef} {window : Window}
    (h : world.Keeps ref plan window) (instant : Int) :
    world.HasRoom ref instant ↔ 1 ≤ (window.advance instant).available := by
  constructor
  · intro hroom
    exact hroom _ h.limiter?
  · intro hroom limiter hlimiter
    rw [h.limiter?, Option.some.injEq] at hlimiter
    subst hlimiter
    exact hroom

/-- A limiter that lets nobody through keeps its room. -/
theorem Serves.hasRoom_perform (h : world.Serves scope plan admission) (hsound : world.Sound)
    {deed : Deed} (hspared : recordedBy admission.limiter (world.recorded deed) = none)
    {instant later : Int} (hinstant : world.now ≤ instant) (hlater : instant ≤ later)
    (hroom : world.HasRoom admission.limiter instant) :
    (world.perform deed).HasRoom admission.limiter later := by
  obtain ⟨window, hkeeps⟩ := h.keeps
  obtain ⟨after, hafter, move⟩ := hkeeps.perform hsound deed
  rw [hspared] at move
  have hsame := (move.agrees hkeeps.start_le).available_eq (Int.le_trans hinstant hlater)
  rw [hkeeps.hasRoom_iff] at hroom
  rw [hafter.hasRoom_iff, hsame]
  exact Nat.le_trans hroom (window.available_advance_mono hlater)

/-- At the instant of the reset there is room. -/
theorem Keeps.room_at_reset {ref : LimiterRef} {window : Window} (h : world.Keeps ref plan window) :
    1 ≤ (window.advance
      (world.now + Time.elapsed world.now (world.reset window))).available := by
  have hfits : 1 ≤ window.plan.limit := window.plan.limit_pos
  have hle := Window.le_resetsAt (window.advance world.now) world.now 1
  have hreset : world.now + Time.elapsed world.now (world.reset window) = world.reset window := by
    rw [Time.elapsed, reset]
    omega
  rw [hreset]
  exact (Window.resetsAt_advance_le_iff h.withinLimit h.start_le hle hfits).mp (Int.le_refl _)

/-- **Others who are not let through leave the promise as it is.** -/
theorem promised_perform (h : world.OnCourse scope plan stage) {deed : Deed}
    (hspared : (limiterOf stage).bind (recordedBy · (world.recorded deed)) = none)
    (hpromised : world.Promised stage) : (world.perform deed).Promised stage := by
  have hnow := world.now_le_perform deed
  cases h.stands with
  | asking => exact hpromised
  | trying serves =>
    exact serves.hasRoom_perform h.sound hspared (Int.le_refl _) hnow hpromised
  | telling => trivial
  | timing => trivial
  | setting serves =>
    refine serves.hasRoom_perform h.sound hspared ?_ ?_ hpromised
    · omega
    · omega
  | @waiting admission until? serves =>
    cases until? with
    | none => trivial
    | some deadline =>
      refine serves.hasRoom_perform h.sound hspared ?_ ?_ hpromised
      · omega
      · omega
  | decided => trivial

/-- **The promise is kept**: an admission that has it is not refused in its next step, and has it
afterwards. -/
theorem promised_turn (h : world.OnCourse scope plan stage) (hscope : world.ended scope = none)
    (hpromised : world.Promised stage) :
    (world.turn stage).1.Promised (world.turn stage).2 ∧
      ((world.turn stage).2 = stage ∨
        ∀ admission permit, (world.turn stage).2 ≠ .timing admission permit) := by
  have hworld := world.turn_fst stage
  have hnow := world.now_turn stage
  have hturn := fun {ref : LimiterRef} {window : Window} (keeps : world.Keeps ref plan window) =>
    keeps.turn h.sound stage
  have hadvances := h.advances hscope
  generalize (world.turn stage).2 = after at hadvances ⊢
  generalize (world.turn stage).1 = other at hworld hnow hturn ⊢
  cases hadvances with
  | found => cases hpromised
  | letThrough => exact ⟨trivial, .inr nofun⟩
  | refused serves keeps noRoom => exact absurd ((keeps.hasRoom_iff _).mp hpromised) noRoom
  | allowed => exact ⟨trivial, .inr nofun⟩
  | @told admission window serves keeps =>
    obtain ⟨after, hafter, move⟩ := hturn keeps
    have hlater : world.now ≤ world.now + Time.elapsed world.now (world.reset window) := by omega
    refine ⟨?_, .inr nofun⟩
    rw [Promised, hafter.hasRoom_iff, hnow, (move.agrees keeps.start_le).available_eq hlater]
    exact keeps.room_at_reset
  | @set admission delay serves short =>
    obtain rfl : other = world := hworld
    refine ⟨?_, .inr nofun⟩
    cases hdeadline : Time.after? other.now delay with
    | none => trivial
    | some deadline =>
      rw [Time.after?] at hdeadline
      split at hdeadline <;> cases hdeadline
      rw [Promised, Int.max_eq_right (by omega)]
      exact hpromised
  | @woken admission until? serves fired =>
    obtain rfl : other = world := hworld
    refine ⟨?_, .inr nofun⟩
    cases until? with
    | none => cases fired
    | some deadline =>
      have hdeadline := Int.le_trans (Time.le_tick deadline) (of_decide_eq_true fired)
      rwa [Promised, Int.max_eq_left hdeadline] at hpromised
  | asleep =>
    obtain rfl : other = world := hworld
    exact ⟨hpromised, .inl rfl⟩
  | decided => exact ⟨trivial, .inl rfl⟩

end Course

end Throttle.World

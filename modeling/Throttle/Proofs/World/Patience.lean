import Throttle.Proofs.World.Onlooker

/-!
# Patience

A patient admission tries its limiter again and again, each time after it has waited for as long as
it was told. It is refused again only if it was overtaken. Nothing is said about when it takes its
steps, so nothing can be said about the instant at which it is over; but it is over as soon as it
was given enough of them, each after its timer had fired.

## Main definitions

* `World.round` — what others do for some time, and then a step of the admission.
* `World.WaitsUntil` — an admission that waits until an instant, if nobody competes with it.

## Main statements

* `OnCourse.steps_round_pos` — a round that is long enough gets the admission further.
* `letIn_patient` — an admission that nobody competes with.
* `patient_admission_progress` — a patient admission is refused a second time only if it was
  overtaken, and in the end it is allowed.
-/

namespace Throttle.World

section Rounds

variable {world : World} {scope : Scope} {plan : Plan} {stage : Stage}

/-! ## Rounds -/

/-- A round of a schedule: what others do, for some time, and then a step of the admission. -/
def round (others : List Occasion) : List Occasion := others ++ [.turn]

/-- **In a round that is long enough** the admission takes a step that gets it further. -/
theorem OnCourse.steps_round_pos (h : world.OnCourse scope plan stage) {others : List Occasion}
    (hlasts : world.Lasts scope stage (round others))
    (hlong : plan.interval + Time.millisecond ≤ lasting others)
    (hlatest : world.now + plan.interval ≤ Time.latest)
    (hstage : ∀ outcome, stage ≠ .reached outcome) :
    0 < steps (world.watch stage (round others)).2 := by
  by_contra hzero
  rw [round, watch_append, steps_append] at hzero
  have hnone := Nat.eq_zero_of_not_pos hzero
  have hlater := h.watch hlasts.front
  have hstill := h.stage_watch hlasts.front (Nat.eq_zero_of_add_eq_zero_right hnone)
  have hturn := hlater.stage_watch (hlasts.rest others) (Nat.eq_zero_of_add_eq_zero_left hnone)
  have hnow := world.now_watch stage others
  have hscope := (hlasts.rest others).now
  rw [hstill] at hturn hlater
  generalize (world.watch stage others).1.1 = later at *
  rcases hlater.turn_eq_self hscope hturn with ⟨outcome, hover⟩ | ⟨admission, until?, rfl, hfired⟩
  · exact hstage outcome hover
  · -- It waits for a timer that has fired by the end of the round.
    cases h.stands with
    | waiting serves soon =>
      obtain ⟨deadline, rfl, hdeadline⟩ := soon hlatest
      have htick := Time.tick_lt deadline
      have hlate : ¬Time.tick deadline ≤ later.now := of_decide_eq_false hfired
      rw [Time.millisecond] at hlong
      omega

/-- An admission that is not over has got further in every round. -/
theorem OnCourse.length_le_steps (h : world.OnCourse scope plan stage)
    {rounds : List (List Occasion)} (hlasts : world.Lasts scope stage (rounds.flatMap round))
    (hlong : ∀ others ∈ rounds, plan.interval + Time.millisecond ≤ lasting others)
    (hlatest : (world.watch stage (rounds.flatMap round)).1.1.now + plan.interval ≤ Time.latest)
    (hover : ∀ outcome, (world.watch stage (rounds.flatMap round)).1.2 ≠ .reached outcome) :
    rounds.length ≤ steps (world.watch stage (rounds.flatMap round)).2 := by
  induction rounds generalizing world stage with
  | nil => exact Nat.zero_le _
  | cons others rounds ih =>
    rw [List.flatMap_cons] at hlasts hlatest hover ⊢
    have hnow : world.now + plan.interval ≤ Time.latest := by
      rw [now_watch] at hlatest
      omega
    have hstage : ∀ outcome, stage ≠ .reached outcome := by
      rintro outcome rfl
      exact hover outcome (watch_reached ..)
    have hfirst := h.steps_round_pos hlasts.front (hlong _ List.mem_cons_self) hnow hstage
    rw [watch_append] at hlatest hover ⊢
    have hrest := ih (h.watch hlasts.front) (hlasts.rest (round others))
      (fun other hother => hlong other (List.mem_cons_of_mem _ hother)) hlatest hover
    rw [steps_append, List.length_cons]
    omega

end Rounds

/-! ## Nobody else -/

/-- The admission waits for room from the instant `reset` on, the one that its limiter has named. If
nobody else is let through, it goes on waiting until the first whole millisecond that is not before
this instant, and is allowed when it has come. -/
def WaitsUntil (world : World) (scope : Scope) (admission : Admission) (reset : Int) : Prop :=
  (∃ looked limiter, world.look admission.limiter = some (looked, limiter) ∧
    limiter.resetsAt Limiter.single world.now = reset) ∧
  world.now < reset ∧
  ∀ idle : List Deed, world.throughout (spares admission.limiter) idle = true →
    (world.performAll idle).ended scope = none →
    let later := world.performAll idle
    if Time.tick reset ≤ later.now then
      ∃ decision, (later.poll (.admission admission (some reset))).2 =
        .reached (.decided decision) ∧ decision.allowed = true
    else later.poll (.admission admission (some reset)) =
      (later, .waiting (.admission admission (some reset)))

/-- An admission that has found no room waits until there is some. -/
theorem waitsUntil_of_no_room {world other : World} {scope : Scope} {plan : Plan}
    {admission : Admission} {window after : Window}
    (hkeeps : world.Keeps admission.limiter plan window) (hadmission : admission.scope = scope)
    (hroom : ¬1 ≤ (window.advance world.now).available) (hsound : other.Sound)
    (hafter : other.Keeps admission.limiter plan after) (hnow : other.now = world.now)
    (hagrees : after.Agrees world.now window) :
    other.WaitsUntil scope admission (world.reset window) := by
  have hfits : 1 ≤ window.plan.limit := window.plan.limit_pos
  have hiff := fun later (hlater : world.now ≤ later) =>
    Window.resetsAt_advance_le_iff hkeeps.withinLimit hkeeps.start_le hlater hfits
  refine ⟨⟨_, _, look_of_limiter? hafter.limiter?, ?_⟩, ?_, fun idle hidle hscope => ?_⟩
  · exact reset_eq hkeeps hafter hnow hagrees
  · rw [hnow]
    exact Int.not_le.mp fun hle => hroom ((hiff world.now (Int.le_refl _)).mp hle)
  · obtain ⟨kept, hkept, hsame⟩ := hafter.idle hsound hidle
    have hlater := now_le_performAll other idle
    rw [hnow] at hlater
    rw [← hadmission] at hscope
    dsimp only
    rw [poll_admission hscope]
    by_cases hfired : Time.tick (world.reset window) ≤ (other.performAll idle).now
    · have hready := (hiff _ hlater).mp (Int.le_trans (Time.le_tick _) hfired)
      rw [← ((hsame.trans (hagrees.later hlater)).available_eq (Int.le_refl _))] at hready
      have htimer : (other.performAll idle).fired (some (world.reset window)) = true :=
        decide_eq_true hfired
      rw [if_pos hfired, if_pos htimer]
      exact attempt_of_room hkept (hsound.performAll idle) hscope hready
    · have htimer : ¬(other.performAll idle).fired (some (world.reset window)) = true := by
        simpa [fired] using hfired
      rw [if_neg hfired, if_neg htimer]

/-- **An admission that nobody competes with** is allowed at once, or when its timer has fired. -/
theorem letIn_patient {world : World} {scope : Scope} {index : Nat} {registry : Registry}
    (hsound : world.Sound) (hregistry : world.registryAt index = some registry)
    (hclock : registry.policy.clock = .system) (hscope : world.ended scope = none)
    (hlatest : world.now + registry.policy.plan.interval ≤ Time.latest) (key : String) :
    (∃ decision, (world.letIn index key scope true).2 = .reached (.decided decision) ∧
      decision.allowed = true) ∨
    ∃ after admission reset, world.letIn index key scope true =
        (after, .waiting (.admission admission (some reset))) ∧
      after.now = world.now ∧ after.WaitsUntil scope admission reset := by
  obtain ⟨asked, admission, hletIn, rfl, hpatient, hasked, hnow, hend, hkeeps⟩ :=
    letIn_eq_attempt hsound hregistry hclock hscope key true
  have hasksound : asked.Sound := hasked ▸ hsound.perform (.ask index key admission.scope)
  generalize (registry.window? key).getD (Window.fresh registry.policy.plan world.now) = window
    at hkeeps
  rw [hletIn]
  by_cases hroom : 1 ≤ (window.advance asked.now).available
  · exact .inl (attempt_of_room hkeeps hasksound hend hroom)
  · obtain ⟨hworld, hnone, hwaiting, -⟩ := attempt_of_no_room hkeeps hasksound hend hroom
    have hidle : asked.throughout (spares admission.limiter)
        [.use admission.limiter Limiter.single, .look admission.limiter] = true := by
      rw [throughout, spares, hnone]
      rfl
    obtain ⟨after, hafter, hagrees⟩ := hkeeps.idle hasksound hidle
    have hdone : (asked.performAll [.use admission.limiter Limiter.single,
        .look admission.limiter]).now = asked.now := by
      simp [now_perform, Deed.span]
    have hdelay : asked.now + Time.elapsed asked.now (asked.reset window) = asked.reset window := by
      have hle := Window.le_resetsAt (window.advance asked.now) asked.now 1
      rw [Time.elapsed, reset]
      omega
    rw [hdone] at hagrees
    refine .inr ⟨_, admission, asked.reset window, ?_, hdone.trans hnow,
      waitsUntil_of_no_room hkeeps rfl hroom (hasksound.performAll _) hafter hdone hagrees⟩
    refine Prod.ext hworld ((hwaiting hpatient).trans ?_)
    rw [after?_eq_some (elapsed_reset_le hkeeps) (hnow ▸ hlatest), hdelay]

/-- **A patient admission makes progress.** Whatever world it begins in, and whatever others do
meanwhile: between any two refusals somebody else is let through by its limiter, so it waits once
more at most than others are let through, and it can only end by being allowed. It does end if it is
given enough rounds, in each of which its timer has the time to fire. If nobody else is let through,
it is allowed at once or at the first whole millisecond from the reset on. -/
theorem patient_admission_progress (deeds : List Deed) (index : Nat) (registry : Registry)
    (key : String) (scope : Scope) (schedule : List Occasion)
    (hregistry : (initial.performAll deeds).registryAt index = some registry)
    (hclock : registry.policy.clock = .system)
    (hscope : (initial.performAll deeds).Lasts scope (.asking index key scope true) schedule) :
    let world := initial.performAll deeds
    let interval := registry.policy.plan.interval
    let course := world.watch (.asking index key scope true) schedule
    (∀ front mid back, course.2 = front ++ .refused :: (mid ++ .refused :: back) →
      .overtaken ∈ mid) ∧
    course.2.count .refused ≤ course.2.count .overtaken + 1 ∧
    (∀ outcome, course.1.2 = .reached outcome →
      ∃ decision, outcome = .decided decision ∧ decision.allowed = true) ∧
    (course.1.1.now + interval ≤ Time.latest → ∀ rounds : List (List Occasion),
      schedule = rounds.flatMap round →
      (∀ others ∈ rounds, interval + Time.millisecond ≤ lasting others) →
      4 * course.2.count .overtaken + 7 ≤ rounds.length →
      ∃ decision, course.1.2 = .reached (.decided decision) ∧ decision.allowed = true) ∧
    (world.now + interval ≤ Time.latest →
      (∃ decision, (world.letIn index key scope true).2 = .reached (.decided decision) ∧
        decision.allowed = true) ∨
      ∃ after admission reset, world.letIn index key scope true =
          (after, .waiting (.admission admission (some reset))) ∧
        after.now = world.now ∧ after.WaitsUntil scope admission reset) := by
  intro world interval course
  have hsound : world.Sound := sound_initial.performAll deeds
  have hcourse : world.OnCourse scope registry.policy.plan (.asking index key scope true) :=
    ⟨hsound, .asking hregistry hclock rfl⟩
  have hspaced := (hcourse.spaced_watch hscope).1
  have hcount : course.2.count .refused ≤ course.2.count .overtaken + 1 := count_refused_le hspaced
  have hallowed : ∀ outcome, course.1.2 = .reached outcome →
      ∃ decision, outcome = .decided decision ∧ decision.allowed = true := by
    intro outcome hreached
    have hstands := (hcourse.watch hscope).stands
    rw [show (world.watch _ schedule).1.2 = _ from hreached] at hstands
    cases hstands with
    | decided allowed => exact ⟨_, rfl, allowed⟩
  refine ⟨?_, hcount, hallowed, ?_, fun hlatest => ?_⟩
  · intro front mid back heq
    rw [show (world.watch _ schedule).2 = _ from heq] at hspaced
    exact overtaken_mem hspaced
  · intro hlatest rounds hrounds hlong henough
    by_contra hover
    have hnot : ∀ outcome, course.1.2 ≠ .reached outcome := by
      intro outcome hreached
      obtain ⟨decision, rfl, hyes⟩ := hallowed outcome hreached
      exact hover ⟨decision, hreached, hyes⟩
    have hsteps : steps course.2 + course.1.2.ahead ≤ 4 * course.2.count .refused + 3 :=
      hcourse.steps_watch hscope
    have hahead : 0 < course.1.2.ahead := by
      cases hstage : course.1.2 with
      | reached outcome => exact absurd hstage (hnot outcome)
      | asking _ _ _ _ | trying _ | telling _ | timing _ _ | setting _ _ | waiting _ _ =>
        simp [Stage.ahead]
    have hless : rounds.length ≤ steps course.2 := by
      subst hrounds
      exact hcourse.length_le_steps hscope hlong hlatest hnot
    omega
  · exact letIn_patient hsound hregistry hclock (Lasts.now hscope) hlatest key

/-- Two units are let through for somebody else, each just before the admission tries its limiter;
the second time the limiter has been forgotten in a sweep. The admission is refused twice and then
allowed. -/
theorem patient_admission_progress_overtaken_twice :
    let world := initial.performAll
      [.found .oneInThreeMillis .background Time.second, .ask 0 "k" .background]
    let pass : Occasion := .others (.pass (4 * Time.millisecond))
    let use : Occasion := .others (.use (.kept 0 0) Limiter.single)
    let rounds := [[pass], [pass, use], [pass], [pass], [pass, .others (.sweep 0)], [pass, use]] ++
      List.replicate 9 [pass]
    let course := world.watch (.asking 0 "k" .background true) (rounds.flatMap round)
    course.2 = [.moved, .overtaken, .refused, .moved, .moved, .moved, .overtaken, .refused, .moved,
      .moved, .moved, .moved, .moved] ∧
    ∃ decision, course.1.2 = .reached (.decided decision) ∧ decision.allowed = true := by
  intro world pass use rounds course
  have hremarks : course.2 = [.moved, .overtaken, .refused, .moved, .moved, .moved, .overtaken,
      .refused, .moved, .moved, .moved, .moved, .moved] := by decide +kernel
  have hscope : ∀ front ∈ (rounds.flatMap round).inits,
      (world.watch (.asking 0 "k" .background true) front).1.1.ended .background = none := by
    decide +kernel
  have hprogress := patient_admission_progress
    [.found .oneInThreeMillis .background Time.second, .ask 0 "k" .background] 0
    ⟨.oneInThreeMillis, [("k", 0)], #[Policy.oneInThreeMillis.make 0]⟩ "k" .background
    (rounds.flatMap round) (by decide +kernel) rfl
    fun front hfront => hscope front ((List.mem_inits _ _).mpr hfront)
  refine ⟨hremarks, hprogress.2.2.2.1 (by decide +kernel) rounds rfl (by decide +kernel) ?_⟩
  decide +kernel

end Throttle.World

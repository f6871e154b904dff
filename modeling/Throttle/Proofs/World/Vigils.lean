import Throttle.Proofs.World.Attempts
import Throttle.Proofs.World.Stops
import Throttle.Session.Run

/-!
# Waits of a session

In a session the clock jumps from timer to timer, and those who act meanwhile sleep until it is time
for them to. So a wait of a session is ended by timers only: its own, that of its scope's deadline,
or that of somebody who cancels the scope or one it was derived from. Timers fire at whole
milliseconds, and the clock keeps its place within the millisecond when it jumps. So whatever is due
at different whole milliseconds is seen apart, and what comes first is what the wait ends with.

## Main definitions

* `Ending`, `World.endings` — all that can end a wait, with what comes of the wait then.
* `World.finish` — something that was begun, to its end or until a limit.
* `World.Vigil` — how a wait goes on.
* `World.Awaits` — what ends a wait next.

## Main statements

* `World.Awaits.runOthers`, `World.Awaits.jump` — what ends a wait next goes on to do so.
* `World.Awaits.ends`, `World.finish_wait_of_first` — a wait is ended by what comes first.
* `Session.runWaiting_wait`, `Session.le_due_of_surround` — sessions wait in this way.
-/

namespace Throttle

/-- Something that can end a wait: when it comes, and what comes of the wait then. -/
structure Ending where
  instant : Int
  outcome : Outcome
deriving Repr, DecidableEq

namespace World

variable {world : World} {scope : Scope} {until? : Option Int} {actions : List Action} {limit : Int}

/-! ## How a wait goes on -/

/-- What ends a wait now, if anything does. -/
def outcome? (world : World) (scope : Scope) (until? : Option Int) : Option Outcome :=
  match world.scopes.noticed scope world.now with
  | some reason => some (.ended reason)
  | none => if world.fired until? then some .finished else none

theorem poll_wait (world : World) (scope : Scope) (until? : Option Int) :
    world.poll (.wait scope until?) =
      (world, ((world.outcome? scope until?).map Progress.reached).getD
        (.waiting (.wait scope until?))) := by
  rw [poll, outcome?]
  cases world.scopes.noticed scope world.now with
  | some reason => rfl
  | none => cases world.fired until? <;> rfl

theorem outcome?_eq_none_iff : world.outcome? scope until? = none ↔
    world.scopes.noticed scope world.now = none ∧ world.fired until? = false := by
  rw [outcome?]
  cases world.scopes.noticed scope world.now with
  | some reason => simp
  | none => simp

theorem outcome?_eq_finished_iff : world.outcome? scope until? = some .finished ↔
    world.scopes.noticed scope world.now = none ∧ world.fired until? = true := by
  rw [outcome?]
  cases world.scopes.noticed scope world.now with
  | some reason => simp
  | none => simp

/-- How a wait goes on: it is over when it is looked at, the waiting is given up, others end it, or
the clock jumps to the next timer. -/
inductive Vigil (scope : Scope) (until? : Option Int) (limit : Int) :
    World → List Action → World × Option Outcome → Prop
  | reached {world : World} {actions : List Action} {outcome : Outcome}
      (reached : world.outcome? scope until? = some outcome) :
      Vigil scope until? limit world actions (world, some outcome)
  | givenUp {world : World} {actions : List Action}
      (asleep : world.outcome? scope until? = none) (late : limit ≤ world.now) :
      Vigil scope until? limit world actions (world, none)
  | disturbed {world : World} {actions : List Action} {outcome : Outcome}
      (asleep : world.outcome? scope until? = none) (early : world.now < limit)
      (reached : (world.runOthers actions).1.outcome? scope until? = some outcome) :
      Vigil scope until? limit world actions ((world.runOthers actions).1, some outcome)
  | jumps {world : World} {actions : List Action} {result : World × Option Outcome}
      (asleep : world.outcome? scope until? = none) (early : world.now < limit)
      (still : (world.runOthers actions).1.outcome? scope until? = none)
      (rest : Vigil scope until? limit
        { (world.runOthers actions).1 with
          now := jump world.now (nextAlarm world.now limit
            ((world.runOthers actions).1.alarms (.wait scope until?)
              (world.runOthers actions).2)) }
        (world.runOthers actions).2 result) :
      Vigil scope until? limit world actions result

/-- **A waiting activity goes on like this.** -/
theorem vigil_carryOn (world : World) (scope : Scope) (until? : Option Int)
    (actions : List Action) (limit : Int) :
    Vigil scope until? limit world actions
      (world.carryOn (.wait scope until?) actions limit) := by
  generalize hleft : (limit - world.now).toNat = left
  induction left using Nat.strongRecOn generalizing world actions with
  | ind left ih =>
    rw [carryOn, poll_wait]
    cases hlook : world.outcome? scope until? with
    | some outcome => exact .reached hlook
    | none =>
      simp only [Option.map_none, Option.getD_none]
      by_cases hlimit : world.now < limit
      · rw [if_pos hlimit]
        simp only [poll_wait]
        cases hothers : (world.runOthers actions).1.outcome? scope until? with
        | some outcome => exact .disturbed hlook hlimit hothers
        | none =>
          simp only [Option.map_none, Option.getD_none]
          apply Vigil.jumps hlook hlimit hothers
          refine ih _ ?_ _ _ rfl
          have hlater := lt_jump (lt_nextAlarm
            ((world.runOthers actions).1.alarms (.wait scope until?)
              (world.runOthers actions).2) hlimit)
          simp only
          omega
      · rw [if_neg hlimit]
        exact .givenUp hlook (Int.not_lt.mp hlimit)


/-! ## What ends a wait -/

/-- All that can end a wait: the timer of its own deadline, the timer of its scope's deadline, and
what others will do to its scope. -/
def endings (world : World) (scope : Scope) (until? : Option Int) (actions : List Action) :
    List Ending :=
  (until?.map fun deadline => ⟨Time.tick deadline, .finished⟩).toList ++
    (scope.deadline.map fun deadline => ⟨Time.tick deadline, .ended .deadlineExceeded⟩).toList ++
    (actions.filter fun action => world.scopes.reaches scope action.effect).map
      fun action => ⟨Time.tick action.due, .ended .canceled⟩

theorem mem_endings {ending : Ending} : ending ∈ world.endings scope until? actions ↔
    (∃ deadline, until? = some deadline ∧ ending = ⟨Time.tick deadline, .finished⟩) ∨
    (∃ deadline, scope.deadline = some deadline ∧
      ending = ⟨Time.tick deadline, .ended .deadlineExceeded⟩) ∨
    ∃ action ∈ actions, world.scopes.reaches scope action.effect = true ∧
      ending = ⟨Time.tick action.due, .ended .canceled⟩ := by
  simp only [endings, List.mem_append, Option.mem_toList, Option.map_eq_some_iff, List.mem_map,
    List.mem_filter, or_assoc, and_assoc, @eq_comm _ _ ending]

/-- The timer of a wait is among what can end it. -/
theorem finished_mem_endings (world : World) (scope : Scope) (deadline : Int)
    (actions : List Action) :
    ⟨Time.tick deadline, .finished⟩ ∈ world.endings scope (some deadline) actions :=
  mem_endings.mpr (.inl ⟨deadline, rfl, rfl⟩)

theorem exists_tick_of_mem_endings {ending : Ending}
    (h : ending ∈ world.endings scope until? actions) :
    ∃ due, ending.instant = Time.tick due := by
  rcases mem_endings.mp h with ⟨due, -, rfl⟩ | ⟨due, -, rfl⟩ | ⟨action, -, -, rfl⟩
  · exact ⟨due, rfl⟩
  · exact ⟨due, rfl⟩
  · exact ⟨action.due, rfl⟩

/-- The clock has a timer for whatever can end a wait. -/
theorem instant_mem_alarms {ending : Ending} (h : ending ∈ world.endings scope until? actions) :
    ending.instant ∈ world.alarms (.wait scope until?) actions := by
  simp only [alarms, Activity.alarms, List.mem_append, Option.mem_toList, Option.map_eq_some_iff,
    List.mem_map]
  rcases mem_endings.mp h with ⟨due, hdue, rfl⟩ | ⟨due, hdue, rfl⟩ | ⟨action, hmem, -, rfl⟩
  · exact .inl (.inl (.inl ⟨due, hdue, rfl⟩))
  · exact .inl (.inl (.inr ⟨due, hdue, rfl⟩))
  · exact .inl (.inr ⟨action, hmem, rfl⟩)

theorem fired_iff : world.fired until? = true ↔
    ∃ deadline, until? = some deadline ∧ Time.tick deadline ≤ world.now := by
  cases until? with
  | none => simp [fired]
  | some deadline => simp [fired]

/-- Somebody whose scope was not cancelled is woken up by the timer of its deadline. -/
theorem noticed_eq_some_iff (hlive : world.scopes.isCancelled scope.node = false)
    {reason : EndReason} : world.scopes.noticed scope world.now = some reason ↔
      reason = .deadlineExceeded ∧
        ∃ deadline, scope.deadline = some deadline ∧ Time.tick deadline ≤ world.now := by
  rw [ScopeTree.noticed, hlive, if_neg Bool.false_ne_true]
  cases scope.deadline with
  | none => simp
  | some deadline => simp [eq_comm, and_comm]

/-- A wait in a scope that was not cancelled is ended by a timer that has fired. -/
theorem exists_ending (hlive : world.scopes.isCancelled scope.node = false) {outcome : Outcome}
    (h : world.outcome? scope until? = some outcome) (actions : List Action) :
    ∃ ending ∈ world.endings scope until? actions,
      ending.outcome = outcome ∧ ending.instant ≤ world.now := by
  cases hnoticed : world.scopes.noticed scope world.now with
  | some reason =>
    rw [outcome?, hnoticed] at h
    obtain rfl := Option.some.inj h
    obtain ⟨rfl, deadline, hdeadline, hle⟩ := (noticed_eq_some_iff hlive).mp hnoticed
    exact ⟨_, mem_endings.mpr (.inr (.inl ⟨deadline, hdeadline, rfl⟩)), rfl, hle⟩
  | none =>
    rw [outcome?, hnoticed] at h
    obtain ⟨hfired, houtcome⟩ := Option.ite_none_right_eq_some.mp h
    obtain rfl := Option.some.inj houtcome
    obtain ⟨deadline, rfl, hle⟩ := fired_iff.mp hfired
    exact ⟨_, mem_endings.mpr (.inl ⟨deadline, rfl, rfl⟩), rfl, hle⟩

/-- What others do now cannot end a wait any more. -/
theorem mem_endings_runOthers {ending : Ending} :
    ending ∈ (world.runOthers actions).1.endings scope until? (world.runOthers actions).2 ↔
      ending ∈ world.endings scope until? actions ∧
        (ending.outcome ≠ .ended .canceled ∨ world.now < ending.instant) := by
  simp only [mem_endings, snd_runOthers, reaches_runOthers, List.mem_filter, decide_eq_true_eq]
  constructor
  · rintro (⟨due, hdue, rfl⟩ | ⟨due, hdue, rfl⟩ | ⟨action, ⟨hmem, hlater⟩, hreaches, rfl⟩)
    · exact ⟨.inl ⟨due, hdue, rfl⟩, .inl (by simp)⟩
    · exact ⟨.inr (.inl ⟨due, hdue, rfl⟩), .inl (by simp)⟩
    · exact ⟨.inr (.inr ⟨action, hmem, hreaches, rfl⟩), .inr hlater⟩
  · rintro ⟨⟨due, hdue, rfl⟩ | ⟨due, hdue, rfl⟩ | ⟨action, hmem, hreaches, rfl⟩, hstays⟩
    · exact .inl ⟨due, hdue, rfl⟩
    · exact .inr (.inl ⟨due, hdue, rfl⟩)
    · have hlater : world.now < Time.tick action.due := by simpa using hstays
      exact .inr (.inr ⟨action, ⟨hmem, hlater⟩, hreaches, rfl⟩)

/-- What ends a wait next: it comes before everything else, and the clock has not come further than
the millisecond of its timer. -/
structure Awaits (world : World) (scope : Scope) (until? : Option Int) (actions : List Action)
    (first : Ending) : Prop where
  live : world.scopes.isCancelled scope.node = false
  mem : first ∈ world.endings scope until? actions
  first_lt : ∀ other ∈ world.endings scope until? actions,
    other ≠ first → first.instant < other.instant
  now_lt : world.now < first.instant + Time.millisecond

namespace Awaits

variable {first other : Ending} {outcome : Outcome}

/-- Nothing else has come yet. -/
theorem eq_of_le (h : world.Awaits scope until? actions first)
    (hother : other ∈ world.endings scope until? actions) (hle : other.instant ≤ world.now) :
    other = first := by
  by_contra hne
  have hlater := h.first_lt other hother hne
  have hnow := h.now_lt
  obtain ⟨due, hdue⟩ := exists_tick_of_mem_endings h.mem
  obtain ⟨otherDue, hotherDue⟩ := exists_tick_of_mem_endings hother
  rw [hdue, hotherDue] at hlater
  have hapart := Time.tick_add_le_tick hlater
  omega

theorem outcome_eq (h : world.Awaits scope until? actions first)
    (hover : world.outcome? scope until? = some outcome) :
    outcome = first.outcome ∧ first.instant ≤ world.now := by
  obtain ⟨ending, hending, rfl, hle⟩ := exists_ending h.live hover actions
  obtain rfl := h.eq_of_le hending hle
  exact ⟨rfl, hle⟩

/-- A wait that still goes on although its end has come is ended by what others do now. -/
theorem outcome_runOthers (h : world.Awaits scope until? actions first)
    (hasleep : world.outcome? scope until? = none) (hle : first.instant ≤ world.now) :
    (world.runOthers actions).1.outcome? scope until? = some first.outcome := by
  obtain ⟨hnoticed, hfired⟩ := outcome?_eq_none_iff.mp hasleep
  rcases mem_endings.mp h.mem with
    ⟨deadline, hdeadline, rfl⟩ | ⟨deadline, hdeadline, rfl⟩ | ⟨action, hmem, hreaches, rfl⟩
  · rw [fired_iff.mpr ⟨deadline, hdeadline, hle⟩] at hfired
    cases hfired
  · rw [(noticed_eq_some_iff h.live).mpr ⟨rfl, deadline, hdeadline, hle⟩] at hnoticed
    cases hnoticed
  · -- The action is among those that are done now.
    have hcancelled : (world.runOthers actions).1.scopes.isCancelled scope.node = true := by
      rw [isCancelled_runOthers, h.live, Bool.false_or, List.any_eq_true]
      exact ⟨action, List.mem_filter.mpr ⟨hmem, decide_eq_true hle⟩, hreaches⟩
    rw [outcome?, ScopeTree.noticed, if_pos hcancelled]

/-- What others do before the end comes leaves it to come. -/
theorem runOthers (h : world.Awaits scope until? actions first) (hlt : world.now < first.instant) :
    (world.runOthers actions).1.Awaits scope until? (world.runOthers actions).2 first where
  live := by
    rw [isCancelled_runOthers, h.live, Bool.false_or, List.any_eq_false]
    intro action haction hreaches
    obtain ⟨hmem, hdue⟩ := List.mem_filter.mp haction
    have hle : Time.tick action.due ≤ world.now := of_decide_eq_true hdue
    have hsame := h.eq_of_le (mem_endings.mpr (.inr (.inr ⟨action, hmem, hreaches, rfl⟩))) hle
    rw [← hsame] at hlt
    exact Int.not_le.mpr hlt hle
  mem := mem_endings_runOthers.mpr ⟨h.mem, .inr hlt⟩
  first_lt other hother hne := h.first_lt other (mem_endings_runOthers.mp hother).1 hne
  now_lt := by
    rw [now_runOthers]
    exact h.now_lt

/-- The clock does not jump past the end. -/
theorem jump (h : world.Awaits scope until? actions first) (hlt : world.now < first.instant)
    (limit : Int) :
    { world with
      now := World.jump world.now (nextAlarm world.now limit
        (world.alarms (.wait scope until?) actions)) }.Awaits scope until? actions first where
  live := h.live
  mem := h.mem
  first_lt := h.first_lt
  now_lt := by
    have hbefore := nextAlarm_le limit (instant_mem_alarms h.mem) hlt
    have hplace := Int.emod_lt_of_pos world.now (by decide : (0 : Int) < Time.millisecond)
    simp only [jump_eq]
    omega

/-- **A wait is ended by what comes first**, in the millisecond of its timer, unless it is given up
before. -/
theorem ends {patience : Int} {result : World × Option Outcome}
    (hvigil : Vigil scope until? (Time.tick patience) world actions result)
    (h : world.Awaits scope until? actions first) :
    result.2 = some first.outcome ∧
        result.1.now = max world.now (first.instant + world.now % Time.millisecond) ∨
      result.2 = none ∧ Time.tick patience ≤ first.instant := by
  obtain ⟨due, hdue⟩ := exists_tick_of_mem_endings h.mem
  have hwhole := Time.tick_mod due
  rw [← hdue] at hwhole
  induction hvigil with
  | @reached world actions outcome reached =>
    obtain ⟨rfl, hle⟩ := h.outcome_eq reached
    exact .inl ⟨rfl, eq_max_of_le hwhole hle⟩
  | @givenUp world actions asleep late =>
    refine .inr ⟨rfl, ?_⟩
    by_contra hlt
    rw [hdue] at hlt
    have hapart := Time.tick_add_le_tick (Int.not_le.mp hlt)
    have hnow := h.now_lt
    omega
  | @disturbed world actions outcome asleep early reached =>
    by_cases hle : first.instant ≤ world.now
    · rw [h.outcome_runOthers asleep hle] at reached
      refine .inl ⟨reached.symm, ?_⟩
      rw [now_runOthers]
      exact eq_max_of_le hwhole hle
    · -- What others did has ended nothing before its time.
      have hcome := ((h.runOthers (Int.not_le.mp hle)).outcome_eq reached).2
      rw [now_runOthers] at hcome
      exact absurd hcome hle
  | @jumps world actions result asleep early still rest ih =>
    by_cases hle : first.instant ≤ world.now
    · rw [h.outcome_runOthers asleep hle] at still
      cases still
    · have hlt := Int.not_le.mp hle
      have hothers := h.runOthers hlt
      have hnext := hothers.jump (by rwa [now_runOthers]) (Time.tick patience)
      rw [now_runOthers] at hnext
      rcases ih hnext with ⟨houtcome, hnow⟩ | hnone
      · -- The jump stops at a timer, no later than the end, and the clock keeps its place.
        have hmem := instant_mem_alarms hothers.mem
        have hbefore := nextAlarm_le (Time.tick patience) hmem hlt
        exact .inl ⟨houtcome, hnow.trans (max_jump (nextAlarm_mod _ _ _ _ _) hbefore hlt)⟩
      · exact .inr hnone

end Awaits

/-! ## Waits from their beginning -/

/-- Something that was begun, to its end or until `limit`. -/
def finish (begun : World × Progress) (actions : List Action) (limit : Int) :
    World × Option Outcome :=
  match begun.2 with
  | .reached outcome => (begun.1, some outcome)
  | .waiting activity => begun.1.carryOn activity actions limit

/-- Whoever's scope is over does not wait. -/
theorem wait_of_ended {reason : EndReason} (h : world.ended scope = some reason) (deadline : Int) :
    world.wait scope deadline = (world, .reached (.ended reason)) := by
  rw [wait, enterWait, h, settle]

/-- Whoever's scope is not over waits, be it for no time at all. -/
theorem finish_wait_eq (h : world.ended scope = none) (until? : Option Int)
    (actions : List Action) (limit : Int) :
    finish (world.settle (world.enterWait scope (.wait scope until?))) actions limit =
      world.carryOn (.wait scope until?) actions limit := by
  have hpoll := poll_wait world scope until?
  rw [enterWait, h, settle]
  cases hlook : world.outcome? scope until? with
  | some outcome =>
    rw [hlook] at hpoll
    rw [carryOn, hpoll]
    rfl
  | none =>
    rw [hlook] at hpoll
    rw [hpoll]
    rfl

/-- In a scope that is not over, nothing has come before but the timer of the wait itself. -/
theorem le_instant_of_ne (hended : world.ended scope = none)
    (hactions : ∀ action ∈ actions, world.now ≤ action.due) {deadline : Int} {ending : Ending}
    (hmem : ending ∈ world.endings scope (some deadline) actions)
    (hne : ending ≠ ⟨Time.tick deadline, .finished⟩) : world.now ≤ ending.instant := by
  rcases mem_endings.mp hmem with ⟨due, hdue, rfl⟩ | ⟨due, hdue, rfl⟩ | ⟨action, haction, -, rfl⟩
  · exact absurd (by rw [Option.some.inj hdue]) hne
  · have hlater : world.now < due := by
      apply Int.not_le.mp
      intro hle
      exact ScopeTree.ended_ne_none_iff.mpr (.inr ⟨due, hdue, hle⟩) hended
    exact Int.le_trans (Int.le_of_lt hlater) (Time.le_tick due)
  · exact Int.le_trans (hactions action haction) (Time.le_tick action.due)

/-- A wait whose timer has fired when it begins succeeds at once. -/
theorem carryOn_of_fired (hended : world.ended scope = none) {deadline : Int}
    (hdue : Time.tick deadline ≤ world.now) (actions : List Action) (limit : Int) :
    world.carryOn (.wait scope (some deadline)) actions limit = (world, some .finished) := by
  have hlook : world.outcome? scope (some deadline) = some .finished :=
    outcome?_eq_finished_iff.mpr ⟨noticed_eq_none hended, fired_iff.mpr ⟨deadline, rfl, hdue⟩⟩
  rw [carryOn, poll_wait, hlook]
  rfl

/-- **A wait in a scope that is not over is ended by what comes first**, if all that can end it is
due at different milliseconds, and at no other instant, unless it is given up before. -/
theorem finish_wait_of_first (hended : world.ended scope = none)
    (hactions : ∀ action ∈ actions, world.now ≤ action.due) {deadline : Int} {first : Ending}
    (hmem : first ∈ world.endings scope (some deadline) actions)
    (hfirst : ∀ other ∈ world.endings scope (some deadline) actions,
      other ≠ first → first.instant < other.instant) (patience : Int) :
    let told := finish (world.wait scope deadline) actions (Time.tick patience)
    told.2 = some first.outcome ∧
        told.1.now = max world.now (first.instant + world.now % Time.millisecond) ∨
      told.2 = none ∧ Time.tick patience ≤ first.instant := by
  intro told
  have htold : told = world.carryOn (.wait scope (some deadline)) actions (Time.tick patience) :=
    finish_wait_eq hended ..
  rw [htold]
  by_cases hdue : Time.tick deadline ≤ world.now
  · have hown := finished_mem_endings world scope deadline actions
    obtain rfl : first = ⟨Time.tick deadline, .finished⟩ := by
      by_contra hne
      have hearlier := hfirst _ hown (Ne.symm hne)
      have hlater := le_instant_of_ne hended hactions hmem hne
      exact Int.not_lt.mpr (Int.le_trans hdue hlater) hearlier
    rw [carryOn_of_fired hended hdue]
    exact .inl ⟨rfl, eq_max_of_le (Time.tick_mod deadline) hdue⟩
  · have hlive : world.scopes.isCancelled scope.node = false := by
      by_contra hcancelled
      exact ScopeTree.ended_ne_none_iff.mpr (.inl (by simpa using hcancelled)) hended
    have hnow : world.now ≤ first.instant := by
      by_cases heq : first = ⟨Time.tick deadline, .finished⟩
      · rw [heq]
        exact Int.le_of_lt (Int.not_le.mp hdue)
      · exact le_instant_of_ne hended hactions hmem heq
    have hpos : (0 : Int) < Time.millisecond := by decide
    have hawaits : world.Awaits scope (some deadline) actions first :=
      ⟨hlive, hmem, hfirst, by omega⟩
    exact hawaits.ends (vigil_carryOn ..)

end World

/-! ## Waits of a session -/

/-- What others do in a session comes no earlier than now. -/
theorem Session.le_due_of_surround {session : Session} {effects : List (Nat × NamedEffect)}
    {actions : List Action} (h : session.surround effects = some actions) :
    ∀ action ∈ actions, session.world.now ≤ action.due := by
  rw [surround] at h
  induction effects generalizing actions with
  | nil =>
    obtain rfl : actions = [] := by simpa using h.symm
    simp
  | cons effect effects ih =>
    rw [List.mapM_cons] at h
    obtain ⟨first, hfirst, h⟩ := Option.bind_eq_some_iff.mp h
    obtain ⟨rest, hrest, h⟩ := Option.bind_eq_some_iff.mp h
    obtain rfl := Option.some.inj h
    intro action haction
    rcases List.mem_cons.mp haction with rfl | haction
    · obtain ⟨after, effect⟩ := effect
      cases effect with
      | cancel name | advance name =>
        obtain ⟨_, -, heq⟩ := Option.bind_eq_some_iff.mp hfirst
        rw [← Option.some.inj heq]
        simp
    · exact ih hrest action haction

/-- **A wait that a session is asked for** is finished like this, until its patience ends. -/
theorem Session.runWaiting_wait (session : Session) (name : Option String) (deadline : Int)
    (surroundings : Surroundings) :
    session.runWaiting (.wait name deadline) surroundings =
      (session.scope? name).bind fun scope =>
        (session.surround surroundings.effects).map fun actions =>
          let told := World.finish (session.world.wait scope deadline) actions
            (Time.tick (session.world.now + surroundings.patience))
          ({ session with world := told.1 }, {
            result := resultOfOutcome told.2
            elapsed := some (Time.elapsed session.world.now told.1.now) }) := by
  cases hscope : session.scope? name with
  | none => simp [runWaiting, begin, hscope]
  | some scope =>
    cases hactions : session.surround surroundings.effects with
    | none => simp [runWaiting, begin, hscope, hactions]
    | some actions =>
      simp only [runWaiting, begin, hscope, hactions, World.finish, Option.bind_eq_bind,
        Option.bind_some, Option.map_some]
      cases (session.world.wait scope deadline).2 <;> rfl

end Throttle

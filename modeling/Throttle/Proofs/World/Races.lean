import Throttle.Proofs.World.Tasks
import Throttle.Proofs.World.Vigils

/-!
# What ends a wait

Three things can end a wait: its own timer, the timer of its scope's deadline, and the cancellation
of the scope or of one it was derived from. A cancellation comes at any instant, and the clock moves
on as it likes: when the wait is taken up the next time, more than one of them may have come. The
wait looks at its timer and at its scope in an order that nobody knows, and so it tells the outcome
of one that has come. If only one has, then this is the one that comes first of all. Within the scope
a cancellation goes before the deadline.

Whoever's scope is over when the wait begins does not wait at all, even if the deadline of the wait
has passed as well.

## Main definitions

* `Wait`, `Wait.turn` — a wait, and one step of it.
* `Wait.endings`, `Wait.come` — what ends a wait in a schedule, and what of it has come.
* `Wait.Lasts` — nobody takes the cancellation of the scope back.
* `Wait.WokenAt` — when the wait is taken up for the last time.

## Main statements

* `Wait.look_eq_none_iff`, `Wait.Tells.of_look` — what a wait finds when it is taken up.
* `Wait.follow_cases` — a wait goes on until something has come.
* `Wait.exists_course` — the waits of a session go on like this.
* `World.wait_races` — what becomes of a wait.
-/

namespace Throttle

/-- A wait until an instant, or until a scope is over. Without an instant only the scope ends it. -/
structure Wait where
  scope : Scope
  until? : Option Int
  /-- Whether the timer is looked at first, for each time that the wait is taken up. -/
  timerFirst : Nat → Bool

/-- What somebody else does on an occasion. -/
def Occasion.deed? : Occasion → Option Deed
  | .others deed => some deed
  | .turn => none

/-- What others do in a schedule. -/
def doings (schedule : List Occasion) : List Deed := schedule.filterMap Occasion.deed?

theorem doings_append (front back : List Occasion) :
    doings (front ++ back) = doings front ++ doings back := List.filterMap_append

/-! ## The instant of a cancellation -/

namespace World

/-- The world after what others do in a schedule. -/
def meanwhile (world : World) (schedule : List Occasion) : World :=
  world.performAll (doings schedule)

/-- A deed does not take the cancellation of a scope back. -/
def keepsCancelled (scope : Scope) (world : World) (deed : Deed) : Bool :=
  !world.scopes.isCancelled scope.node || (world.perform deed).scopes.isCancelled scope.node

/-- The instant at which a scope is found cancelled for the first time. -/
def cancelledAt? (scope : Scope) (world : World) : List Deed → Option Int
  | [] => if world.scopes.isCancelled scope.node then some world.now else none
  | deed :: deeds =>
    if world.scopes.isCancelled scope.node then some world.now
    else (world.perform deed).cancelledAt? scope deeds

variable {world : World} {scope : Scope} {instant : Int}

theorem cancelledAt?_of_isCancelled (h : world.scopes.isCancelled scope.node = true)
    (deeds : List Deed) : world.cancelledAt? scope deeds = some world.now := by
  cases deeds <;> rw [cancelledAt?, if_pos h]

theorem cancelledAt?_append (world : World) (scope : Scope) (front back : List Deed) :
    world.cancelledAt? scope (front ++ back) =
      (world.cancelledAt? scope front).or ((world.performAll front).cancelledAt? scope back) := by
  induction front generalizing world with
  | nil =>
    by_cases hcancelled : world.scopes.isCancelled scope.node = true
    · rw [List.nil_append, cancelledAt?_of_isCancelled hcancelled,
        cancelledAt?_of_isCancelled hcancelled, Option.some_or]
    · rw [List.nil_append, cancelledAt?, if_neg hcancelled, Option.none_or, performAll_nil]
  | cons deed front ih =>
    by_cases hcancelled : world.scopes.isCancelled scope.node = true
    · rw [cancelledAt?_of_isCancelled hcancelled, cancelledAt?_of_isCancelled hcancelled,
        Option.some_or]
    · rw [List.cons_append, cancelledAt?, if_neg hcancelled, cancelledAt?, if_neg hcancelled, ih,
        performAll_cons]

theorem le_cancelledAt? {deeds : List Deed} (h : world.cancelledAt? scope deeds = some instant) :
    world.now ≤ instant := by
  induction deeds generalizing world with
  | nil =>
    rw [cancelledAt?] at h
    obtain ⟨-, heq⟩ := Option.ite_none_right_eq_some.mp h
    exact Int.le_of_eq (Option.some.inj heq)
  | cons deed deeds ih =>
    rw [cancelledAt?] at h
    split at h
    · exact Int.le_of_eq (Option.some.inj h)
    · exact Int.le_trans (world.now_le_perform deed) (ih h)

theorem cancelledAt?_le {deeds : List Deed} (h : world.cancelledAt? scope deeds = some instant) :
    instant ≤ (world.performAll deeds).now := by
  induction deeds generalizing world with
  | nil =>
    rw [cancelledAt?] at h
    obtain ⟨-, heq⟩ := Option.ite_none_right_eq_some.mp h
    exact Int.le_of_eq (Option.some.inj heq).symm
  | cons deed deeds ih =>
    rw [cancelledAt?] at h
    split at h
    · rw [← Option.some.inj h]
      exact world.now_le_performAll _
    · exact ih h

/-- A cancellation that nobody takes back is found at the end. -/
theorem isSome_cancelledAt? {deeds : List Deed}
    (h : world.throughout (keepsCancelled scope) deeds = true) :
    (world.cancelledAt? scope deeds).isSome =
      (world.performAll deeds).scopes.isCancelled scope.node := by
  induction deeds generalizing world with
  | nil =>
    rw [cancelledAt?, performAll_nil]
    cases world.scopes.isCancelled scope.node <;> rfl
  | cons deed deeds ih =>
    rw [throughout, Bool.and_eq_true] at h
    rw [performAll_cons, ← ih h.2, cancelledAt?]
    split
    · rename_i hcancelled
      have hkeeps := h.1
      rw [keepsCancelled, hcancelled, Bool.not_true, Bool.false_or] at hkeeps
      rw [cancelledAt?_of_isCancelled hkeeps]
      rfl
    · rfl

end World

namespace Wait

/-! ## The steps of a wait -/

/-- How far a wait has come. -/
inductive Stage where
  /-- It has not asked yet whether its scope is over. -/
  | entering
  /-- It was taken up so many times and found nothing. -/
  | waiting (looks : Nat)
  | reached (outcome : Outcome)
deriving Repr, DecidableEq

/-- What has become of a wait, if it is over. -/
def Stage.outcome? : Stage → Option Outcome
  | .reached outcome => some outcome
  | .entering | .waiting _ => none

/-- What a wait finds when it is taken up. -/
def look (wait : Wait) (world : World) (looks : Nat) : Option Outcome :=
  let ended := (world.scopes.noticed wait.scope world.now).map Outcome.ended
  let fired := if world.fired wait.until? then some Outcome.finished else none
  if wait.timerFirst looks then fired.or ended else ended.or fired

/-- One step of a wait. -/
def turn (wait : Wait) (world : World) : Stage → World × Stage
  | .entering =>
    match world.ended wait.scope with
    | some reason => (world, .reached (.ended reason))
    | none => (world, .waiting 0)
  | .waiting looks =>
    match wait.look world looks with
    | some outcome => (world, .reached outcome)
    | none => (world, .waiting (looks + 1))
  | .reached outcome => (world, .reached outcome)

theorem turn_fst (wait : Wait) (world : World) (stage : Stage) :
    (wait.turn world stage).1 = world := by
  cases stage with
  | entering =>
    rw [turn]
    split <;> rfl
  | waiting looks =>
    rw [turn]
    split <;> rfl
  | reached outcome => rfl

/-- A wait as a task: it does nothing to the world. -/
def task (wait : Wait) : Task Stage := ⟨wait.turn, fun _ _ => none, wait.turn_fst⟩

@[simp] theorem turn_task (wait : Wait) : wait.task.turn = wait.turn := rfl

/-! ## What ends a wait in a schedule -/

/-- What ends a wait in a schedule, be it over before or not. -/
def endings (wait : Wait) (world : World) (schedule : List Occasion) : List Ending :=
  (wait.until?.map fun deadline => ⟨Time.tick deadline, .finished⟩).toList ++
    (wait.scope.deadline.map fun deadline =>
      ⟨Time.tick deadline, .ended .deadlineExceeded⟩).toList ++
    ((world.cancelledAt? wait.scope (doings schedule)).map fun instant =>
      ⟨instant, .ended .canceled⟩).toList

/-- What of this has come when the schedule is over. -/
def come (wait : Wait) (world : World) (schedule : List Occasion) : List Ending :=
  (wait.endings world schedule).filter fun ending =>
    ending.instant ≤ (world.meanwhile schedule).now

/-- Nobody takes the cancellation of the scope back. -/
def Lasts (wait : Wait) (world : World) (schedule : List Occasion) : Prop :=
  world.throughout (World.keepsCancelled wait.scope) (doings schedule) = true

instance (wait : Wait) (world : World) (schedule : List Occasion) :
    Decidable (wait.Lasts world schedule) :=
  inferInstanceAs (Decidable (_ = true))

/-- A wait is taken up for the last time after a part of the schedule: something has come by then, and
nothing had when it was taken up before. -/
structure WokenAt (wait : Wait) (world : World) (schedule front : List Occasion) : Prop where
  turn : front ++ [.turn] <+: schedule
  asleep : ∀ earlier, earlier ++ [.turn] <+: front → wait.come world earlier = []
  come : wait.come world front ≠ []

/-- What a wait can tell at the end of a schedule: the outcome of something that has come, which is
true then. A cancellation goes before the deadline of the scope. -/
structure Tells (wait : Wait) (world : World) (schedule : List Occasion) (ending : Ending) :
    Prop where
  mem : ending ∈ wait.come world schedule
  of_finished : ending.outcome = .finished →
    ∃ deadline, wait.until? = some deadline ∧ deadline ≤ (world.meanwhile schedule).now
  of_ended : ∀ reason, ending.outcome = .ended reason →
    (world.meanwhile schedule).ended wait.scope = some reason
  of_canceled : ∀ other ∈ wait.come world schedule, other.outcome = .ended .canceled →
    ending.outcome ≠ .ended .deadlineExceeded

variable {wait : Wait} {world : World} {schedule : List Occasion} {ending : Ending} {looks : Nat}
  {outcome : Outcome}

theorem Lasts.front {front back : List Occasion} (h : wait.Lasts world (front ++ back)) :
    wait.Lasts world front := by
  rw [Lasts, doings_append] at h
  exact World.throughout_front h

theorem mem_endings : ending ∈ wait.endings world schedule ↔
    (∃ deadline, wait.until? = some deadline ∧ ending = ⟨Time.tick deadline, .finished⟩) ∨
    (∃ deadline, wait.scope.deadline = some deadline ∧
      ending = ⟨Time.tick deadline, .ended .deadlineExceeded⟩) ∨
    ∃ instant, world.cancelledAt? wait.scope (doings schedule) = some instant ∧
      ending = ⟨instant, .ended .canceled⟩ := by
  simp only [endings, List.mem_append, Option.mem_toList, Option.map_eq_some_iff, or_assoc,
    @eq_comm _ _ ending]

theorem mem_come : ending ∈ wait.come world schedule ↔
    ending ∈ wait.endings world schedule ∧ ending.instant ≤ (world.meanwhile schedule).now := by
  rw [come, List.mem_filter, decide_eq_true_eq]

theorem finished_mem_come {deadline : Int} (h : wait.until? = some deadline)
    (hnow : Time.tick deadline ≤ (world.meanwhile schedule).now) :
    ⟨Time.tick deadline, .finished⟩ ∈ wait.come world schedule :=
  mem_come.mpr ⟨mem_endings.mpr (.inl ⟨deadline, h, rfl⟩), hnow⟩

theorem exceeded_mem_come {deadline : Int} (h : wait.scope.deadline = some deadline)
    (hnow : Time.tick deadline ≤ (world.meanwhile schedule).now) :
    ⟨Time.tick deadline, .ended .deadlineExceeded⟩ ∈ wait.come world schedule :=
  mem_come.mpr ⟨mem_endings.mpr (.inr (.inl ⟨deadline, h, rfl⟩)), hnow⟩

theorem canceled_mem_come {instant : Int}
    (h : world.cancelledAt? wait.scope (doings schedule) = some instant) :
    ⟨instant, .ended .canceled⟩ ∈ wait.come world schedule :=
  mem_come.mpr ⟨mem_endings.mpr (.inr (.inr ⟨instant, h, rfl⟩)), World.cancelledAt?_le h⟩

/-- **What has come first is all that comes first**: nothing comes later in the schedule that is due
earlier. -/
theorem instant_le_of_come {front : List Occasion} (hmem : ending ∈ wait.come world front)
    (honly : ∀ other ∈ wait.come world front, other = ending) (back : List Occasion) :
    ∀ other ∈ wait.endings world (front ++ back), ending.instant ≤ other.instant := by
  intro other hother
  by_cases hcome : other ∈ wait.come world front
  · rw [honly other hcome]
  · -- It has not come yet: it is due later than now, or it is a cancellation that comes later.
    have hnow := (mem_come.mp hmem).2
    have hlate : other ∈ wait.endings world front → (world.meanwhile front).now < other.instant :=
      fun hfront => Int.not_le.mp fun hle => hcome (mem_come.mpr ⟨hfront, hle⟩)
    rcases mem_endings.mp hother with hfinished | hexceeded | ⟨instant, hinstant, rfl⟩
    · have hlater := hlate (mem_endings.mpr (.inl hfinished))
      omega
    · have hlater := hlate (mem_endings.mpr (.inr (.inl hexceeded)))
      omega
    · rw [doings_append, World.cancelledAt?_append] at hinstant
      rcases Option.or_eq_some_iff.mp hinstant with hfront | ⟨-, hback⟩
      · have hlater := hlate (mem_endings.mpr (.inr (.inr ⟨instant, hfront, rfl⟩)))
        omega
      · exact Int.le_trans hnow (World.le_cancelledAt? hback)

/-! ## What a wait finds -/

theorem look_eq_none : wait.look world looks = none ↔
    world.scopes.noticed wait.scope world.now = none ∧ world.fired wait.until? = false := by
  rw [look]
  cases world.scopes.noticed wait.scope world.now <;> cases world.fired wait.until? <;>
    cases wait.timerFirst looks <;> simp

/-- A wait finds that its scope is over, or that its timer has fired. -/
theorem look_eq_some (h : wait.look world looks = some outcome) :
    (∃ reason, world.scopes.noticed wait.scope world.now = some reason ∧
      outcome = .ended reason) ∨ (world.fired wait.until? = true ∧ outcome = .finished) := by
  rw [look] at h
  cases hnoticed : world.scopes.noticed wait.scope world.now <;>
    cases hfired : world.fired wait.until? <;> cases hfirst : wait.timerFirst looks <;>
    simp_all

/-- A cancellation has come just if the scope is cancelled. -/
theorem exists_cancelledAt?_iff (h : wait.Lasts world schedule) :
    (∃ instant, world.cancelledAt? wait.scope (doings schedule) = some instant) ↔
      (world.meanwhile schedule).scopes.isCancelled wait.scope.node = true := by
  rw [← Option.isSome_iff_exists, World.isSome_cancelledAt? h]
  rfl

theorem noticed_of_isCancelled (h : world.scopes.isCancelled wait.scope.node = true) :
    world.scopes.noticed wait.scope world.now = some .canceled := by
  rw [ScopeTree.noticed, if_pos h]

/-- What has come is noticed. -/
theorem look_ne_none_of_mem_come (h : wait.Lasts world schedule)
    (hmem : ending ∈ wait.come world schedule) (looks : Nat) :
    wait.look (world.meanwhile schedule) looks ≠ none := by
  intro hlook
  obtain ⟨hnoticed, hfired⟩ := look_eq_none.mp hlook
  obtain ⟨hending, hnow⟩ := mem_come.mp hmem
  have hlive : (world.meanwhile schedule).scopes.isCancelled wait.scope.node = false := by
    by_contra hcancelled
    rw [noticed_of_isCancelled (by simpa using hcancelled)] at hnoticed
    cases hnoticed
  rcases mem_endings.mp hending with
    ⟨deadline, hdeadline, rfl⟩ | ⟨deadline, hdeadline, rfl⟩ | ⟨instant, hinstant, rfl⟩
  · rw [World.fired_iff.mpr ⟨deadline, hdeadline, hnow⟩] at hfired
    cases hfired
  · rw [(World.noticed_eq_some_iff hlive).mpr ⟨rfl, deadline, hdeadline, hnow⟩] at hnoticed
    cases hnoticed
  · rw [(exists_cancelledAt?_iff h).mp ⟨instant, hinstant⟩] at hlive
    cases hlive

/-- **A wait that is over tells what has come.** -/
theorem Tells.of_look (h : wait.Lasts world schedule)
    (hlook : wait.look (world.meanwhile schedule) looks = some outcome) :
    ∃ ending, wait.Tells world schedule ending ∧ ending.outcome = outcome := by
  rcases look_eq_some hlook with ⟨reason, hnoticed, rfl⟩ | ⟨hfired, rfl⟩
  · have hended : ∀ other, Outcome.ended reason = .ended other →
        (world.meanwhile schedule).ended wait.scope = some other := by
      rintro _ ⟨⟩
      exact ScopeTree.ended_of_noticed hnoticed
    by_cases hcancelled : (world.meanwhile schedule).scopes.isCancelled wait.scope.node = true
    · obtain rfl : .canceled = reason :=
        Option.some.inj ((noticed_of_isCancelled hcancelled).symm.trans hnoticed)
      obtain ⟨instant, hinstant⟩ := (exists_cancelledAt?_iff h).mpr hcancelled
      exact ⟨⟨instant, .ended .canceled⟩,
        ⟨canceled_mem_come hinstant, nofun, hended, fun _ _ _ => nofun⟩, rfl⟩
    · obtain ⟨rfl, deadline, hdeadline, hnow⟩ :=
        (World.noticed_eq_some_iff (Bool.eq_false_iff.mpr hcancelled)).mp hnoticed
      refine ⟨⟨Time.tick deadline, .ended .deadlineExceeded⟩,
        ⟨exceeded_mem_come hdeadline hnow, nofun, hended, fun other hother hcanceled => ?_⟩, rfl⟩
      -- No cancellation has come, or the scope would be cancelled.
      rcases mem_endings.mp (mem_come.mp hother).1 with
        ⟨_, -, rfl⟩ | ⟨_, -, rfl⟩ | ⟨instant, hinstant, rfl⟩
      · cases hcanceled
      · cases hcanceled
      · exact absurd ((exists_cancelledAt?_iff h).mp ⟨instant, hinstant⟩) hcancelled
  · obtain ⟨deadline, hdeadline, hnow⟩ := World.fired_iff.mp hfired
    refine ⟨⟨Time.tick deadline, .finished⟩,
      ⟨finished_mem_come hdeadline hnow, fun _ => ?_, nofun, fun _ _ _ => nofun⟩, rfl⟩
    exact ⟨deadline, hdeadline, Int.le_trans (Time.le_tick deadline) hnow⟩

/-- **A wait goes on just if nothing has come.** -/
theorem look_eq_none_iff (h : wait.Lasts world schedule) :
    wait.look (world.meanwhile schedule) looks = none ↔ wait.come world schedule = [] := by
  constructor
  · intro hlook
    by_contra hcome
    obtain ⟨ending, hmem⟩ := List.exists_mem_of_ne_nil _ hcome
    exact look_ne_none_of_mem_come h hmem looks hlook
  · intro hcome
    by_contra hlook
    obtain ⟨outcome, houtcome⟩ := Option.ne_none_iff_exists'.mp hlook
    obtain ⟨ending, htells, -⟩ := Tells.of_look h houtcome
    have hmem := htells.mem
    rw [hcome] at hmem
    exact List.not_mem_nil hmem

/-! ## How a wait goes on -/

theorem follow_fst (stage : Stage) :
    (wait.task.follow world stage schedule).1 = world.meanwhile schedule := by
  induction schedule generalizing world stage with
  | nil => rfl
  | cons occasion schedule ih =>
    rw [Task.follow_cons, ih]
    cases occasion with
    | others deed => rfl
    | turn =>
      rw [Task.happen, turn_task, turn_fst]
      rfl

/-- Nothing becomes of a wait any more that is over. -/
theorem follow_reached (outcome : Outcome) :
    (wait.task.follow world (.reached outcome) schedule).2 = .reached outcome := by
  induction schedule generalizing world with
  | nil => rfl
  | cons occasion schedule ih =>
    rw [Task.follow_cons]
    cases occasion <;> exact ih

theorem turn_waiting_of_none (h : wait.look world looks = none) :
    (wait.turn world (.waiting looks)).2 = .waiting (looks + 1) := by
  rw [turn, h]

theorem turn_waiting_of_some (h : wait.look world looks = some outcome) :
    (wait.turn world (.waiting looks)).2 = .reached outcome := by
  rw [turn, h]

/-- **A wait goes on until something has come.** Either this has never been so when it was taken up,
or there was a first time. -/
theorem follow_cases (h : wait.Lasts world schedule) (looks : Nat) :
    let told := (wait.task.follow world (.waiting looks) schedule).2
    ((∀ front, front ++ [.turn] <+: schedule → wait.come world front = []) ∧
        ∃ looks, told = .waiting looks) ∨
      ∃ front, wait.WokenAt world schedule front ∧
        ∃ ending, wait.Tells world front ending ∧ told = .reached ending.outcome := by
  intro told
  induction schedule using List.reverseRecOn with
  | nil =>
    refine .inl ⟨fun front hfront => ?_, looks, rfl⟩
    simp at hfront
  | append_singleton schedule occasion ih =>
    rcases ih h.front with ⟨hasleep, looks, hwaiting⟩ | ⟨front, hwoken, ending, htells, hover⟩
    · cases occasion with
      | others deed =>
        refine .inl ⟨fun front hfront => ?_, looks, ?_⟩
        · rcases List.prefix_concat_iff.mp hfront with heq | hfront
          · simp at heq
          · exact hasleep front hfront
        · simp only [told, Task.follow_others]
          exact hwaiting
      | turn =>
        simp only [told, Task.follow_turn, turn_task, follow_fst, hwaiting]
        cases hlook : wait.look (world.meanwhile schedule) looks with
        | none =>
          refine .inl ⟨fun front hfront => ?_, looks + 1, turn_waiting_of_none hlook⟩
          rcases List.prefix_concat_iff.mp hfront with heq | hfront
          · obtain rfl : front = schedule := (List.append_inj' heq rfl).1
            exact (look_eq_none_iff h.front).mp hlook
          · exact hasleep front hfront
        | some outcome =>
          obtain ⟨ending, htells, rfl⟩ := Tells.of_look h.front hlook
          refine .inr ⟨schedule, ⟨List.prefix_rfl, hasleep, ?_⟩, ending, htells,
            turn_waiting_of_some hlook⟩
          exact List.ne_nil_of_mem htells.mem
    · have hturn : front ++ [.turn] <+: schedule ++ [occasion] :=
        hwoken.turn.trans (List.prefix_append ..)
      refine .inr ⟨front, ⟨hturn, hwoken.asleep, hwoken.come⟩, ending, htells, ?_⟩
      simp only [told, Task.follow_append, hover]
      exact follow_reached ending.outcome

/-- A wait is not taken up any more once something has come. -/
theorem WokenAt.prefix_of_come {front look : List Occasion}
    (h : wait.WokenAt world schedule front) (hturn : look ++ [.turn] <+: schedule)
    (hcome : wait.come world look ≠ []) : front <+: look := by
  rcases List.prefix_or_prefix_of_prefix h.turn hturn with hle | hle
  · rcases List.prefix_concat_iff.mp hle with heq | hle
    · rw [(List.append_inj' heq rfl).1]
    · exact (List.prefix_append ..).trans hle
  · rcases List.prefix_concat_iff.mp hle with heq | hle
    · rw [(List.append_inj' heq rfl).1]
    · exact absurd (h.asleep look hle) hcome

theorem follow_of_ended {reason : EndReason} (h : world.ended wait.scope = some reason)
    (schedule : List Occasion) :
    (wait.task.follow world .entering (.turn :: schedule)).2 = .reached (.ended reason) := by
  rw [Task.follow_cons, Task.happen, turn_task, turn, h]
  exact follow_reached (.ended reason)

theorem follow_of_live (h : world.ended wait.scope = none) (schedule : List Occasion) :
    wait.task.follow world .entering (.turn :: schedule) =
      wait.task.follow world (.waiting 0) schedule := by
  rw [Task.follow_cons, Task.happen, turn_task, turn, h]

/-- A wait without an instant never succeeds. -/
theorem follow_ne_finished (h : wait.Lasts world schedule) (hnever : wait.until? = none) :
    (wait.task.follow world .entering (.turn :: schedule)).2 ≠ .reached .finished := by
  intro hfinished
  cases hended : world.ended wait.scope with
  | some reason =>
    rw [follow_of_ended hended] at hfinished
    cases hfinished
  | none =>
    rw [follow_of_live hended] at hfinished
    rcases follow_cases h 0 with ⟨-, looks, hwaiting⟩ | ⟨front, -, ending, htells, hover⟩
    · rw [hwaiting] at hfinished
      cases hfinished
    · rw [hover] at hfinished
      obtain ⟨deadline, hdeadline, -⟩ := htells.of_finished (Stage.reached.inj hfinished)
      rw [hnever] at hdeadline
      cases hdeadline

theorem eq_reached_of_outcome? {stage : Stage} (h : stage.outcome? = some outcome) :
    stage = .reached outcome := by
  cases stage with
  | entering => cases h
  | waiting looks => cases h
  | reached other => rw [Option.some.inj h]

/-! ## Waits of a session -/

/-- What others do when their timers fire is a deed. -/
theorem act_eq_perform (world : World) (actions : List Action) :
    (world.act actions).1 = world.perform (.rearrange (world.act actions).1.clocks
      (world.act actions).1.scopes world.tallies) := by
  rw [World.act_eq]
  dsimp only
  generalize actions.filter _ = fired
  induction fired generalizing world with
  | nil => rfl
  | cons action fired ih =>
    rw [List.foldl_cons, ih]
    cases action.effect <;> rfl

/-- What happens at an instant of a session: the wait is taken up, others act, and the wait is taken
up once more. -/
def round (world : World) (actions : List Action) : List Occasion :=
  [.turn,
    .others (.rearrange (world.act actions).1.clocks (world.act actions).1.scopes world.tallies),
    .others .runSweepers, .turn]

theorem meanwhile_round (world : World) (actions : List Action) :
    world.meanwhile (round world actions) = (world.runOthers actions).1 := by
  have hact := act_eq_perform world actions
  change (world.perform _).runSweepers = (world.act actions).1.runSweepers
  rw [← hact]

theorem Lasts.append {front back : List Occasion} (hfront : wait.Lasts world front)
    (hback : wait.Lasts (world.meanwhile front) back) : wait.Lasts world (front ++ back) := by
  rw [Lasts, doings_append]
  exact World.throughout_append hfront hback

/-- Whoever acts in a session takes no cancellation back. -/
theorem lasts_round (wait : Wait) (world : World) (actions : List Action) :
    wait.Lasts world (round world actions) := by
  have hact : (world.act actions).1.scopes = (world.runOthers actions).1.scopes := rfl
  have hkeeps : World.keepsCancelled wait.scope world (.rearrange (world.act actions).1.clocks
      (world.act actions).1.scopes world.tallies) = true := by
    rw [World.keepsCancelled, World.perform, hact, World.isCancelled_runOthers]
    cases world.scopes.isCancelled wait.scope.node <;> simp
  have hsweep : ∀ world : World, World.keepsCancelled wait.scope world .runSweepers = true := by
    intro world
    rw [World.keepsCancelled, World.perform, World.runSweepers]
    cases world.scopes.isCancelled wait.scope.node <;> rfl
  exact Bool.and_eq_true_iff.mpr ⟨hkeeps, Bool.and_eq_true_iff.mpr ⟨hsweep _, rfl⟩⟩

theorem lasts_pass (wait : Wait) (world : World) (span : Nat) :
    wait.Lasts world [.others (.pass span)] := by
  have hkeeps : World.keepsCancelled wait.scope world (.pass span) = true := by
    rw [World.keepsCancelled, World.perform]
    cases world.scopes.isCancelled wait.scope.node <;> rfl
  exact Bool.and_eq_true_iff.mpr ⟨hkeeps, rfl⟩

theorem follow_round (h : wait.look world looks = none) (actions : List Action) :
    wait.task.follow world (.waiting looks) (round world actions) =
      wait.turn (world.runOthers actions).1 (.waiting (looks + 1)) := by
  have hturn : wait.turn world (.waiting looks) = (world, .waiting (looks + 1)) := by
    rw [turn, h]
  rw [← meanwhile_round, round, Task.follow_cons, Task.happen, turn_task, hturn]
  rfl

/-- The waits of a session look at their scope first. -/
theorem look_of_scopeFirst (h : ∀ looks, wait.timerFirst looks = false) (world : World)
    (looks : Nat) : wait.look world looks = world.outcome? wait.scope wait.until? := by
  rw [look, World.outcome?, h]
  cases world.scopes.noticed wait.scope world.now <;> rfl

/-- **A wait of a session goes on like this**: in some schedule it comes to the same. -/
theorem exists_course_of_vigil (hfirst : ∀ looks, wait.timerFirst looks = false)
    {actions : List Action} {limit : Int} {result : World × Option Outcome}
    (hvigil : World.Vigil wait.scope wait.until? limit world actions result) (looks : Nat) :
    ∃ course, wait.Lasts world course ∧
      (wait.task.follow world (.waiting looks) course).1 = result.1 ∧
      (wait.task.follow world (.waiting looks) course).2.outcome? = result.2 := by
  induction hvigil generalizing looks with
  | @reached world actions outcome reached =>
    rw [← look_of_scopeFirst hfirst world looks] at reached
    refine ⟨[.turn], rfl, ?_, ?_⟩
    · rw [follow_fst]
      rfl
    · change (wait.turn world (.waiting looks)).2.outcome? = some outcome
      rw [turn_waiting_of_some reached, Stage.outcome?]
  | givenUp asleep late => exact ⟨[], rfl, rfl, rfl⟩
  | @disturbed world actions outcome asleep early reached =>
    rw [← look_of_scopeFirst hfirst _ looks] at asleep
    rw [← look_of_scopeFirst hfirst _ (looks + 1)] at reached
    refine ⟨round world actions, wait.lasts_round world actions, ?_, ?_⟩
    · rw [follow_fst, meanwhile_round]
    · rw [follow_round asleep, turn_waiting_of_some reached, Stage.outcome?]
  | @jumps world actions result asleep early still rest ih =>
    rw [← look_of_scopeFirst hfirst _ looks] at asleep
    rw [← look_of_scopeFirst hfirst _ (looks + 1)] at still
    obtain ⟨course, hlasts, hworld, houtcome⟩ := ih (looks + 2)
    generalize hnext : World.nextAlarm world.now limit _ = alarm at hlasts hworld houtcome
    let span := (World.jump world.now alarm - world.now).toNat
    have hlater : world.now < World.jump world.now alarm := by
      rw [← hnext]
      exact World.lt_jump (World.lt_nextAlarm _ early)
    have hpass : (world.runOthers actions).1.perform (.pass span) =
        { (world.runOthers actions).1 with now := World.jump world.now alarm } := by
      rw [World.perform, World.now_runOthers]
      congr 1
      omega
    rw [← hpass] at hlasts hworld houtcome
    have hfollow : wait.task.follow world (.waiting looks)
        (round world actions ++ (.others (.pass span) :: course)) =
        wait.task.follow ((world.runOthers actions).1.perform (.pass span))
          (.waiting (looks + 2)) course := by
      rw [Task.follow_append, follow_round asleep, turn, still]
      rfl
    refine ⟨round world actions ++ ([.others (.pass span)] ++ course), ?_, ?_, ?_⟩
    · apply (wait.lasts_round world actions).append
      rw [meanwhile_round]
      exact (wait.lasts_pass _ span).append hlasts
    · rw [← hworld, ← hfollow]
      rfl
    · rw [← houtcome, ← hfollow]
      rfl

/-- **A wait that a session begins** comes to the same as a wait in some schedule. -/
theorem exists_course (hfirst : ∀ looks, wait.timerFirst looks = false) (world : World)
    (actions : List Action) (limit : Int) :
    let told := World.finish
      (world.settle (world.enterWait wait.scope (.wait wait.scope wait.until?))) actions limit
    ∃ course, wait.Lasts world course ∧
      (wait.task.follow world .entering (.turn :: course)).1 = told.1 ∧
      (wait.task.follow world .entering (.turn :: course)).2.outcome? = told.2 := by
  intro told
  cases hended : world.ended wait.scope with
  | some reason =>
    have htold : told = (world, some (.ended reason)) := by
      simp only [told, World.enterWait, hended]
      rfl
    refine ⟨[], rfl, ?_, ?_⟩
    · rw [htold, follow_fst]
      rfl
    · rw [htold, follow_of_ended hended, Stage.outcome?]
  | none =>
    have htold : told = world.carryOn (.wait wait.scope wait.until?) actions limit :=
      World.finish_wait_eq hended ..
    obtain ⟨course, hlasts, hcourse⟩ :=
      exists_course_of_vigil hfirst (World.vigil_carryOn world _ _ actions limit) 0
    refine ⟨course, hlasts, ?_⟩
    rw [htold, follow_of_live hended]
    exact hcourse

end Wait

namespace World

/-- **What ends a wait.** Somebody waits for an instant in some scope, while others do what they
like, the clock moves on as it likes, and nobody takes a cancellation back. Whoever's scope is over
gets its reason at once, even if the instant has passed. Otherwise the wait goes on until it is taken
up and something that can end it has come: its timer, the timer of the scope's deadline, or a
cancellation, which comes at once. It tells the outcome of one that has come: success never before
the instant, and otherwise the reason that the scope gives just then. If no other has come, then this
is the one that comes first of all in the schedule. Waiting for a span is waiting for the instant
after the span, and if no clock can show this instant it never succeeds. The waits of a session are
such waits. -/
theorem wait_races (world : World) (wait : Wait) (schedule : List Occasion)
    (hlasts : wait.Lasts world schedule) :
    let told := (wait.task.follow world .entering (.turn :: schedule)).2
    (∀ reason, world.ended wait.scope = some reason →
      told = .reached (.ended reason) ∧
        ∀ deadline, world.wait wait.scope deadline = (world, .reached (.ended reason))) ∧
    (world.ended wait.scope = none →
      ((∀ front, front ++ [.turn] <+: schedule → wait.come world front = []) ∧
          ∃ looks, told = .waiting looks) ∨
        ∃ front, wait.WokenAt world schedule front ∧
          ∃ ending, wait.Tells world front ending ∧ told = .reached ending.outcome ∧
            ((∀ other ∈ wait.come world front, other = ending) →
              ∀ other ∈ wait.endings world schedule, ending.instant ≤ other.instant)) ∧
    (∀ span : Nat, wait.until? = Time.after? world.now span →
      (world.now + span ≤ Time.latest →
        wait.until? = some (world.now + span) ∧
          world.waitFor wait.scope span = world.wait wait.scope (world.now + span)) ∧
      (Time.latest < world.now + span →
        told ≠ .reached .finished ∧
          ∀ actions limit,
            (finish (world.waitFor wait.scope span) actions limit).2 ≠ some .finished)) ∧
    ((∀ looks, wait.timerFirst looks = false) →
      ∀ deadline actions limit, wait.until? = some deadline →
        ∃ course, wait.Lasts world course ∧
          (wait.task.follow world .entering (.turn :: course)).1 =
            (finish (world.wait wait.scope deadline) actions limit).1 ∧
          (wait.task.follow world .entering (.turn :: course)).2.outcome? =
            (finish (world.wait wait.scope deadline) actions limit).2) := by
  intro told
  refine ⟨fun reason hreason => ?_, fun hended => ?_, fun span hspan => ⟨?_, ?_⟩, ?_⟩
  · exact ⟨Wait.follow_of_ended hreason schedule, wait_of_ended hreason⟩
  · have hcases := Wait.follow_cases hlasts 0
    rw [← Wait.follow_of_live hended] at hcases
    rcases hcases with hasleep | ⟨front, hwoken, ending, htells, htold⟩
    · exact .inl hasleep
    · refine .inr ⟨front, hwoken, ending, htells, htold, fun honly => ?_⟩
      obtain ⟨back, hback⟩ := (List.prefix_append front [.turn]).trans hwoken.turn
      rw [← hback]
      exact Wait.instant_le_of_come htells.mem honly back
  · intro hshown
    rw [Time.after?, if_pos hshown] at hspan
    rw [waitFor, Time.after?, if_pos hshown]
    exact ⟨hspan, rfl⟩
  · intro hnever
    rw [Time.after?, if_neg (Int.not_le.mpr hnever)] at hspan
    refine ⟨Wait.follow_ne_finished hlasts hspan, fun actions limit hfinished => ?_⟩
    let polite : Wait := ⟨wait.scope, none, fun _ => false⟩
    obtain ⟨course, hcourse, -, houtcome⟩ :=
      @Wait.exists_course polite (fun _ => rfl) world actions limit
    rw [waitFor, Time.after?, if_neg (Int.not_le.mpr hnever)] at hfinished
    rw [hfinished] at houtcome
    exact Wait.follow_ne_finished hcourse rfl (Wait.eq_reached_of_outcome? houtcome)
  · intro hfirst deadline actions limit hdeadline
    have hcourse := Wait.exists_course hfirst world actions limit
    rw [hdeadline] at hcourse
    exact hcourse

/-- A scope is over at 7.5 milliseconds, and one that it was derived from is cancelled at 5.2. A wait
until 3.4 milliseconds that is taken up at 4.3 succeeds. One until 5.5 milliseconds is ended by the
cancellation. -/
theorem wait_races_cancelled_between :
    let outer := ScopeTree.initial.withCancel .background
    let scope := outer.1.withDeadline outer.2 7500000
    let world : World := { initial with now := 300000, scopes := scope.1 }
    let early := [.turn, .others (.pass 4000000)]
    let late := early ++ [.turn, .others (.pass 900000),
      .others (.rearrange #[] (scope.1.cancel outer.2) #[])]
    let schedule := late ++ [.turn]
    let told := fun wait : Wait => (wait.task.follow world .entering (.turn :: schedule)).2
    let short : Wait := ⟨scope.2, some 3400000, fun _ => true⟩
    let long : Wait := ⟨scope.2, some 5500000, fun _ => true⟩
    world.ended scope.2 = none ∧
      (short.Lasts world schedule ∧ told short = .reached .finished) ∧
      (long.Lasts world schedule ∧ told long = .reached (.ended .canceled)) := by
  intro outer scope world early late schedule told short long
  have hended : world.ended scope.2 = none := by decide +kernel
  have hshort : short.Lasts world schedule := by decide +kernel
  have hlong : long.Lasts world schedule := by decide +kernel
  refine ⟨hended, ⟨hshort, ?_⟩, ⟨hlong, ?_⟩⟩
  · obtain ⟨-, hraces, -⟩ := wait_races world short schedule hshort
    have hturn : early ++ [.turn] <+: schedule := ⟨_, rfl⟩
    have hcome : short.come world early ≠ [] := by decide +kernel
    have hall : ∀ front ∈ early.inits, ∀ ending ∈ short.come world front,
        ending.outcome = .finished := by decide +kernel
    rcases hraces hended with ⟨hasleep, -⟩ | ⟨front, hwoken, ending, htells, htold, -⟩
    · exact absurd (hasleep early hturn) hcome
    · have hfront := (List.mem_inits ..).mpr (hwoken.prefix_of_come hturn hcome)
      exact htold.trans (congrArg _ (hall front hfront ending htells.mem))
  · obtain ⟨-, hraces, -⟩ := wait_races world long schedule hlong
    have hturn : late ++ [.turn] <+: schedule := ⟨_, rfl⟩
    have hcome : long.come world late ≠ [] := by decide +kernel
    have hall : ∀ front ∈ late.inits, ∀ ending ∈ long.come world front,
        ending.outcome = .ended .canceled := by decide +kernel
    rcases hraces hended with ⟨hasleep, -⟩ | ⟨front, hwoken, ending, htells, htold, -⟩
    · exact absurd (hasleep late hturn) hcome
    · have hfront := (List.mem_inits ..).mpr (hwoken.prefix_of_come hturn hcome)
      exact htold.trans (congrArg _ (hall front hfront ending htells.mem))

/-- What comes first does not always win, for a wait is taken up later than its timer fires: in a
session at 4.3 milliseconds if the timer fires at 4. And if the clock jumps past the timer of a wait
at 6 and past that of its scope's deadline at 8, then it depends on the order in which the wait looks
at them what it tells. -/
theorem wait_races_two_at_once :
    (let world : World := { initial with now := 300000 }
     let told := finish (world.wait .background 3400000) [] 3600000000000
     Time.tick 3400000 = 4000000 ∧ told.2 = some .finished ∧ told.1.now = 4300000) ∧
    (let scope := ScopeTree.initial.withDeadline .background 7500000
     let world : World := { initial with scopes := scope.1 }
     let schedule := [.others (.pass 10000000), .turn]
     let told := fun timerFirst =>
       let wait : Wait := ⟨scope.2, some 5500000, fun _ => timerFirst⟩
       (wait.endings world schedule, (wait.task.follow world .entering (.turn :: schedule)).2)
     world.ended scope.2 = none ∧
       told true = ([⟨6000000, .finished⟩, ⟨8000000, .ended .deadlineExceeded⟩],
         .reached .finished) ∧
       told false = ([⟨6000000, .finished⟩, ⟨8000000, .ended .deadlineExceeded⟩],
         .reached (.ended .deadlineExceeded))) := by
  decide +kernel

end World

end Throttle

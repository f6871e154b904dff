import Throttle.Proofs.World.Limiters
import Throttle.Proofs.World.Stages

/-!
# Tasks

A task is done step by step, while others act in between. Whatever a schedule comes to, the deeds
that were done in it, by whomever, make up all that has become of the world. Those that the task has
done itself are told apart, because they say what it has spent.

## Main definitions

* `Occasion` — a deed of somebody else, or a step of the task.
* `Task` — something that is done step by step.
* `Task.follow`, `Task.notes` — what comes of a schedule, and what somebody notes about it.
* `Task.acts` — what is done in a schedule.
* `Task.spent` — what was let through for the task itself.
* `Task.Met` — in a schedule the task has taken a step of some kind.
* `admitting` — the admission of a key as a task.

## Main statements

* `Task.follow_fst` — nothing becomes of the world but through the acts.
* `Task.room_of_undisturbed` — a delay that a limiter on the system clock has named is long enough.
-/

namespace Throttle

/-- What happens while a task goes on: somebody else does something, or the task takes a step. -/
inductive Occasion where
  | others (deed : Deed)
  | turn
deriving Repr, DecidableEq

/-- How much time an occasion takes. -/
def Occasion.span : Occasion → Nat
  | .others deed => deed.span
  | .turn => 0

/-- How much time passes in a schedule. -/
def lasting (schedule : List Occasion) : Nat := (schedule.map Occasion.span).sum

/-- Something that is done step by step. A step does one deed at most. -/
structure Task (σ : Type) where
  turn : World → σ → World × σ
  /-- What the next step does to the world. -/
  deed? : World → σ → Option Deed
  turn_fst : ∀ world state, (turn world state).1 = (deed? world state).elim world world.perform

namespace Task

variable {σ : Type}

/-- A deed that was done in a schedule: whether by the task itself, and in which world. -/
structure Act where
  own : Bool
  world : World
  deed : Deed

/-- What was let through in an act. -/
def Act.recorded (act : Act) : Option (LimiterRef × Nat) := act.world.recorded act.deed

/-- What comes of an occasion. -/
def happen (task : Task σ) (world : World) (state : σ) : Occasion → World × σ
  | .others deed => (world.perform deed, state)
  | .turn => task.turn world state

/-- What is done on an occasion. -/
def act? (task : Task σ) (world : World) (state : σ) : Occasion → Option Act
  | .others deed => some ⟨false, world, deed⟩
  | .turn => (task.deed? world state).map fun deed => ⟨true, world, deed⟩

/-- What comes of a schedule. -/
def follow (task : Task σ) (world : World) (state : σ) : List Occasion → World × σ
  | [] => (world, state)
  | occasion :: schedule =>
    let met := task.happen world state occasion
    task.follow met.1 met.2 schedule

/-- What is noted in a schedule, when there is something to note about some occasions. -/
def notes {α : Type} (task : Task σ) (note? : World → σ → Occasion → Option α) (world : World)
    (state : σ) : List Occasion → List α
  | [] => []
  | occasion :: schedule =>
    let met := task.happen world state occasion
    (note? world state occasion).toList ++ task.notes note? met.1 met.2 schedule

/-- What is done in a schedule. -/
def acts (task : Task σ) (world : World) (state : σ) (schedule : List Occasion) : List Act :=
  task.notes task.act? world state schedule

/-- What was let through for the task itself: the limiters and the units. -/
def spent (task : Task σ) (world : World) (state : σ) (schedule : List Occasion) :
    List (LimiterRef × Nat) :=
  ((task.acts world state schedule).filter Act.own).filterMap Act.recorded

/-- Nobody else is let through by a limiter. -/
def Undisturbed (task : Task σ) (ref : LimiterRef) (world : World) (state : σ)
    (schedule : List Occasion) : Prop :=
  ∀ act ∈ task.acts world state schedule, act.own = false →
    World.spares ref act.world act.deed = true

/-- In a schedule the task has taken a step of some kind. -/
def Met (task : Task σ) (p : World → σ → Prop) (world : World) (state : σ)
    (schedule : List Occasion) : Prop :=
  ∃ front back, schedule = front ++ .turn :: back ∧
    p (task.follow world state front).1 (task.follow world state front).2

/-- Some steps that nothing comes between. -/
def turns (task : Task σ) (world : World) (state : σ) (more : Nat) : World × σ :=
  task.follow world state (List.replicate more .turn)

variable {α : Type} (task : Task σ) (note? : World → σ → Occasion → Option α) (world : World)
  (state : σ)

@[simp] theorem follow_nil : task.follow world state [] = (world, state) := rfl

theorem follow_cons (occasion : Occasion) (schedule : List Occasion) :
    task.follow world state (occasion :: schedule) =
      task.follow (task.happen world state occasion).1 (task.happen world state occasion).2
        schedule := rfl

@[simp] theorem notes_nil : task.notes note? world state [] = [] := rfl

theorem notes_cons (occasion : Occasion) (schedule : List Occasion) :
    task.notes note? world state (occasion :: schedule) =
      (note? world state occasion).toList ++
        task.notes note? (task.happen world state occasion).1 (task.happen world state occasion).2
          schedule := rfl

theorem follow_append (front back : List Occasion) :
    task.follow world state (front ++ back) =
      task.follow (task.follow world state front).1 (task.follow world state front).2 back := by
  induction front generalizing world state with
  | nil => rfl
  | cons occasion front ih => rw [List.cons_append, follow_cons, ih, follow_cons]

theorem notes_append (front back : List Occasion) :
    task.notes note? world state (front ++ back) = task.notes note? world state front ++
      task.notes note? (task.follow world state front).1 (task.follow world state front).2 back := by
  induction front generalizing world state with
  | nil => rfl
  | cons occasion front ih =>
    rw [List.cons_append, notes_cons, ih, notes_cons, follow_cons, List.append_assoc]

@[simp] theorem spent_nil : task.spent world state [] = [] := rfl

theorem spent_append (front back : List Occasion) :
    task.spent world state (front ++ back) = task.spent world state front ++
      task.spent (task.follow world state front).1 (task.follow world state front).2 back := by
  rw [spent, acts, notes_append, List.filter_append, List.filterMap_append]
  rfl

@[simp] theorem turns_zero : task.turns world state 0 = (world, state) := rfl

theorem turns_succ (more : Nat) :
    task.turns world state (more + 1) =
      task.turns (task.turn world state).1 (task.turn world state).2 more := rfl

theorem turns_add (first second : Nat) :
    task.turns world state (first + second) =
      task.turns (task.turns world state first).1 (task.turns world state first).2 second := by
  rw [turns, List.replicate_add, follow_append]
  rfl

theorem turns_eq_self {state : σ} (h : task.turn world state = (world, state)) (more : Nat) :
    task.turns world state more = (world, state) := by
  induction more with
  | zero => rfl
  | succ more ih => rw [turns_succ, h, ih]

/-! ## One more occasion -/

theorem follow_others (schedule : List Occasion) (deed : Deed) :
    task.follow world state (schedule ++ [.others deed]) =
      ((task.follow world state schedule).1.perform deed, (task.follow world state schedule).2) :=
  task.follow_append ..

theorem follow_turn (schedule : List Occasion) :
    task.follow world state (schedule ++ [.turn]) =
      task.turn (task.follow world state schedule).1 (task.follow world state schedule).2 :=
  task.follow_append ..

theorem spent_others (schedule : List Occasion) (deed : Deed) :
    task.spent world state (schedule ++ [.others deed]) = task.spent world state schedule := by
  rw [spent_append]
  exact List.append_nil _

theorem spent_turn (schedule : List Occasion) :
    task.spent world state (schedule ++ [.turn]) = task.spent world state schedule ++
      ((task.deed? (task.follow world state schedule).1
        (task.follow world state schedule).2).bind
          (task.follow world state schedule).1.recorded).toList := by
  rw [spent_append]
  congr 1
  rw [spent, acts, notes_cons, notes_nil, List.append_nil, act?]
  cases task.deed? (task.follow world state schedule).1 (task.follow world state schedule).2 with
  | none => rfl
  | some deed =>
    rw [Option.map_some, Option.bind_some, Option.toList_some]
    cases hrecorded : (task.follow world state schedule).1.recorded deed <;>
      simp [Act.recorded, hrecorded]

theorem not_met_nil (p : World → σ → Prop) : ¬task.Met p world state [] := by
  rintro ⟨front, back, heq, -⟩
  simp at heq

theorem met_others (p : World → σ → Prop) (schedule : List Occasion) (deed : Deed) :
    task.Met p world state (schedule ++ [.others deed]) ↔ task.Met p world state schedule := by
  constructor
  · rintro ⟨front, back, heq, hp⟩
    rcases List.eq_nil_or_concat back with rfl | ⟨back, last, rfl⟩
    · have hlast := congrArg List.getLast? heq
      simp at hlast
    · rw [List.concat_eq_append, ← List.cons_append, ← List.append_assoc] at heq
      exact ⟨front, back, (List.append_inj' heq rfl).1, hp⟩
  · rintro ⟨front, back, rfl, hp⟩
    exact ⟨front, back ++ [.others deed], by simp, hp⟩

theorem met_turn (p : World → σ → Prop) (schedule : List Occasion) :
    task.Met p world state (schedule ++ [.turn]) ↔ task.Met p world state schedule ∨
      p (task.follow world state schedule).1 (task.follow world state schedule).2 := by
  constructor
  · rintro ⟨front, back, heq, hp⟩
    rcases List.eq_nil_or_concat back with rfl | ⟨back, last, rfl⟩
    · obtain rfl : schedule = front := (List.append_inj' heq rfl).1
      exact .inr hp
    · rw [List.concat_eq_append, ← List.cons_append, ← List.append_assoc] at heq
      exact .inl ⟨front, back, (List.append_inj' heq rfl).1, hp⟩
  · rintro (⟨front, back, rfl, hp⟩ | hp)
    · exact ⟨front, back ++ [.turn], by simp, hp⟩
    · exact ⟨schedule, [], rfl, hp⟩

/-- A measure that no step lowers is not lower after more of a schedule. -/
theorem measure_le_follow {rank : σ → Nat}
    (hturn : ∀ world state, rank state ≤ rank (task.turn world state).2)
    (schedule : List Occasion) : rank state ≤ rank (task.follow world state schedule).2 := by
  induction schedule generalizing world state with
  | nil => exact Nat.le_refl _
  | cons occasion schedule ih =>
    rw [follow_cons]
    cases occasion with
    | others deed => exact ih _ _
    | turn => exact Nat.le_trans (hturn world state) (ih _ _)

/-! ## All that was done -/

/-- **Nothing becomes of the world but through the acts.** -/
theorem follow_fst (schedule : List Occasion) :
    (task.follow world state schedule).1 =
      world.performAll ((task.acts world state schedule).map Act.deed) := by
  induction schedule generalizing world state with
  | nil => rfl
  | cons occasion schedule ih =>
    rw [follow_cons, ih, acts, acts, notes_cons]
    cases occasion with
    | others deed => rfl
    | turn =>
      rw [happen, act?, turn_fst]
      cases task.deed? world state with
      | none => rfl
      | some deed => rfl

theorem regular_follow (h : world.Regular) (schedule : List Occasion) :
    (task.follow world state schedule).1.Regular := by
  rw [follow_fst]
  exact h.performAll _

/-- **Limiters are never lost** in a schedule, and they keep their plans. -/
theorem exists_limiter_follow (h : world.Sound) {ref : LimiterRef} {limiter : Limiter}
    (hfound : world.limiter? ref = some limiter) (schedule : List Occasion) :
    ∃ window, (task.follow world state schedule).1.limiter? ref = some { limiter with window } ∧
      window.plan = limiter.window.plan := by
  rw [follow_fst]
  exact h.exists_limiter hfound _

/-- What holds of every act holds throughout. -/
theorem throughout_acts {p : World → Deed → Bool} {schedule : List Occasion}
    (h : ∀ act ∈ task.acts world state schedule, p act.world act.deed = true) :
    world.throughout p ((task.acts world state schedule).map Act.deed) = true := by
  induction schedule generalizing world state with
  | nil => rfl
  | cons occasion schedule ih =>
    have hworld : (task.happen world state occasion).1 =
        world.performAll ((task.act? world state occasion).toList.map Act.deed) := by
      have hone := task.follow_fst world state [occasion]
      rwa [acts, notes_cons, notes_nil, List.append_nil] at hone
    rw [acts, notes_cons] at h ⊢
    rw [List.map_append]
    apply World.throughout_append
    · have hfirst := fun act hact => h act (List.mem_append_left _ hact)
      cases occasion with
      | others deed =>
        have hdeed := hfirst ⟨false, world, deed⟩ (by simp [act?])
        simpa [act?, World.throughout] using hdeed
      | turn =>
        rw [act?] at hfirst ⊢
        cases hnext : task.deed? world state with
        | none => rfl
        | some deed =>
          rw [hnext] at hfirst
          have hdeed := hfirst ⟨true, world, deed⟩ (by simp)
          simpa [World.throughout] using hdeed
    · rw [← hworld]
      exact ih _ _ fun act hact => h act (List.mem_append_right _ hact)

theorem Undisturbed.front {task : Task σ} {ref : LimiterRef} {world : World} {state : σ}
    {front back : List Occasion} (h : task.Undisturbed ref world state (front ++ back)) :
    task.Undisturbed ref world state front := by
  intro act hact
  apply h act
  rw [acts, notes_append]
  exact List.mem_append_left _ hact

/-- A task that has spent nothing has spared every limiter. -/
theorem spares_of_own {ref : LimiterRef} {schedule : List Occasion}
    (hspent : task.spent world state schedule = []) :
    ∀ act ∈ task.acts world state schedule, act.own = true →
      World.spares ref act.world act.deed = true := by
  intro act hact hown
  have hnone : act.world.recorded act.deed = none :=
    List.filterMap_eq_nil_iff.mp hspent act (List.mem_filter.mpr ⟨hact, hown⟩)
  rw [World.spares, hnone]
  rfl

/-- **A delay that a limiter on the system clock has named is long enough**: when it is over there
is room, if neither the task nor anybody else was let through meanwhile. -/
theorem room_of_undisturbed {ref : LimiterRef} {window : Window} {units : Nat}
    {schedule : List Occasion} (h : world.Regular)
    (hfound : world.limiter? ref = some ⟨.system, window⟩) (hunits : units ≤ window.plan.limit)
    (hspent : task.spent world state schedule = [])
    (hothers : task.Undisturbed ref world state schedule)
    (hlater : (window.advance world.now).resetsAt world.now units ≤
      (task.follow world state schedule).1.now) :
    ∃ after, (task.follow world state schedule).1.limiter? ref = some ⟨.system, after⟩ ∧
      units ≤ (after.advance (task.follow world state schedule).1.now).available := by
  rw [follow_fst] at hlater ⊢
  refine h.room_of_idle hfound hunits (task.throughout_acts world state ?_) hlater
  intro act hact
  cases hown : act.own with
  | true => exact task.spares_of_own world state hspent act hact hown
  | false => exact hothers act hact hown

end Task

/-- The admission of a key as a task. -/
def admitting : Task Stage := ⟨World.turn, World.deed?, World.turn_fst⟩

end Throttle

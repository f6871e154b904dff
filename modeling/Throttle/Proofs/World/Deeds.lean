import Throttle.Proofs.Registry.Step
import Throttle.World

/-!
# Deeds

Everything that programs, sweepers and clocks do to a world is a sequence of deeds, each done at
once. However the steps of many parties are interleaved, the outcome is a list of deeds.

## Main definitions

* `World.perform`, `World.performAll` — the world after a deed, and after a list of them.
* `World.recorded` — what a deed lets through, and by which limiter.
* `World.Sound` — what holds of every world that has come about by deeds.
* `World.Keeps` — the window of a limiter that a registry on the system clock has made.

## Main statements

* `step_perform` — what a deed makes of a registry on the system clock.
* `Sound.performAll` — every world that has come about by deeds is sound.
* `Keeps.perform` — what a deed makes of a limiter.
-/

namespace Throttle

/-- What is done in a world at once. -/
inductive Deed where
  /-- The system clock moves on. -/
  | pass (span : Nat)
  /-- Other manual clocks, scopes and tallies take the place of those that there are. -/
  | rearrange (clocks : Array Int) (scopes : ScopeTree) (tallies : Array Nat)
  | makeLoose (policy : Policy)
  | found (policy : Policy) (scope : Scope) (period : Nat)
  | abandon (registry : Nat)
  /-- Ask for the limiter of a key. -/
  | ask (registry : Nat) (key : String) (scope : Scope)
  | use (limiter : LimiterRef) (permit : Permit)
  /-- Ask a limiter about its room. -/
  | look (limiter : LimiterRef)
  | sweep (registry : Nat)
  | runSweepers
deriving Repr, DecidableEq

/-- How much time a deed takes. -/
def Deed.span : Deed → Nat
  | .pass span => span
  | _ => 0

/-- Whether a deed sweeps registries and does nothing else. -/
def Deed.isSweep : Deed → Bool
  | .sweep _ | .runSweepers => true
  | _ => false

namespace World

/-- The world after a deed. What names something that does not exist is not done. -/
def perform (world : World) : Deed → World
  | .pass span => { world with now := world.now + span }
  | .rearrange clocks scopes tallies => { world with clocks, scopes, tallies }
  | .makeLoose policy => (world.makeLoose policy).1
  | .found policy scope period => (world.found policy scope period).1
  | .abandon registry => world.abandon registry
  | .ask registry key scope =>
    match world.limiterFor registry key scope with
    | some (.ok (world, _)) => world
    | _ => world
  | .use limiter permit =>
    match world.use limiter permit with
    | some (world, _) => world
    | none => world
  | .look limiter =>
    match world.look limiter with
    | some (world, _) => world
    | none => world
  | .sweep registry => world.sweep registry
  | .runSweepers => world.runSweepers

/-- The world after one deed after the other. -/
def performAll (world : World) (deeds : List Deed) : World := deeds.foldl perform world

/-- The units that a deed lets through, and the limiter that does so. -/
def recorded (world : World) : Deed → Option (LimiterRef × Nat)
  | .use limiter permit =>
    match world.use limiter permit with
    | some (_, _, none) => some (limiter, permit.units)
    | _ => none
  | _ => none

/-- The units that were let through by a limiter. -/
def recordedBy (limiter : LimiterRef) (recorded : Option (LimiterRef × Nat)) : Option Nat :=
  recorded.bind fun entry => if entry.1 = limiter then some entry.2 else none

/-- What was let through by the limiters of a registry. -/
def recordedIn (index : Nat) : Option (LimiterRef × Nat) → Option (Nat × Nat)
  | some (.kept registry limiter, units) => if registry = index then some (limiter, units) else none
  | _ => none

/-- Whether a limiter lets nothing through in a deed. -/
def spares (limiter : LimiterRef) (world : World) (deed : Deed) : Bool :=
  (recordedBy limiter (world.recorded deed)).isNone

/-- Whether something holds of every one of some deeds, in the world in which it is done. -/
def throughout (p : World → Deed → Bool) (world : World) : List Deed → Bool
  | [] => true
  | deed :: deeds => p world deed && (world.perform deed).throughout p deeds

/-- The registry with an index. -/
def registryAt (world : World) (index : Nat) : Option Registry :=
  world.registries[index]?.map SweptRegistry.registry

@[simp] theorem performAll_nil (world : World) : world.performAll [] = world := rfl

@[simp] theorem performAll_cons (world : World) (deed : Deed) (deeds : List Deed) :
    world.performAll (deed :: deeds) = (world.perform deed).performAll deeds := rfl

theorem performAll_append (world : World) (front back : List Deed) :
    world.performAll (front ++ back) = (world.performAll front).performAll back :=
  List.foldl_append

theorem throughout_append {p : World → Deed → Bool} {world : World} {front back : List Deed}
    (hfront : world.throughout p front = true)
    (hback : (world.performAll front).throughout p back = true) :
    world.throughout p (front ++ back) = true := by
  induction front generalizing world with
  | nil => exact hback
  | cons deed front ih =>
    rw [throughout, Bool.and_eq_true] at hfront
    rw [List.cons_append, throughout, hfront.1]
    exact ih hfront.2 hback

theorem throughout_front {p : World → Deed → Bool} {world : World} {front back : List Deed}
    (h : world.throughout p (front ++ back) = true) : world.throughout p front = true := by
  induction front generalizing world with
  | nil => rfl
  | cons deed front ih =>
    rw [List.cons_append, throughout, Bool.and_eq_true] at h
    rw [throughout, h.1]
    exact ih h.2

theorem recordedAt_recordedIn (registry limiter : Nat) (recorded : Option (LimiterRef × Nat)) :
    Registry.recordedAt limiter (recordedIn registry recorded) =
      recordedBy (.kept registry limiter) recorded := by
  match recorded with
  | none => rfl
  | some (.loose index, units) => rfl
  | some (.kept other index, units) =>
    by_cases heq : other = registry
    · simp [recordedIn, recordedBy, Registry.recordedAt, heq]
    · simp [recordedIn, recordedBy, heq]

/-! ## Registries and limiters -/

section Views

variable {world : World} {index : Nat} {registry : Registry}

theorem limiter?_kept (world : World) (index limiter : Nat) :
    world.limiter? (.kept index limiter) =
      (world.registryAt index).bind fun registry => registry.limiters[limiter]? := by
  rw [limiter?, registryAt]
  cases world.registries[index]? <;> rfl

theorem registryAt_of_modify (world : World) {other : World} {place : Nat}
    {f : SweptRegistry → SweptRegistry}
    (h : other.registries = world.registries.modify place f) (index : Nat) :
    other.registryAt index =
      if place = index then (world.registries[index]?.map f).map SweptRegistry.registry
      else world.registryAt index := by
  rw [registryAt, registryAt, h, Array.getElem?_modify]
  split <;> rfl

theorem registryAt_putLimiter (world : World) (place limiter index : Nat) (put : Limiter) :
    (world.putLimiter (.kept place limiter) put).registryAt index =
      if place = index then (world.registryAt index).map fun registry => registry.put limiter put
      else world.registryAt index := by
  have hmodify : (world.putLimiter (.kept place limiter) put).registries =
      world.registries.modify place fun swept =>
        { swept with registry := swept.registry.put limiter put } := rfl
  rw [registryAt_of_modify world hmodify, registryAt, Option.map_map, Option.map_map]
  rfl

/-- A limiter is put back in its place after a move. -/
theorem step_putLimiter {ref : LimiterRef} {limiter : Limiter} {units? : Option Nat}
    {window : Window} (hregistry : world.registryAt index = some registry)
    (hsound : registry.Sound) (hfound : world.limiter? ref = some limiter)
    (hmove : Window.Move (world.read limiter.clock) limiter.window units? window) :
    ∃ after, (world.putLimiter ref { limiter with window }).registryAt index = some after ∧
      registry.Step (world.read registry.policy.clock) (recordedIn index (units?.map (ref, ·)))
        after := by
  cases ref with
  | loose place =>
    have hnone : recordedIn index (units?.map (LimiterRef.loose place, ·)) = none := by
      cases units? <;> rfl
    rw [hnone]
    exact ⟨registry, hregistry, .stay⟩
  | kept place number =>
    rw [registryAt_putLimiter]
    by_cases heq : place = index
    · subst heq
      rw [limiter?_kept, hregistry, Option.bind_some] at hfound
      rw [hsound.clock_eq number limiter hfound] at hmove
      have hsame : recordedIn place (units?.map (LimiterRef.kept place number, ·)) =
          units?.map (number, ·) := by
        cases units? <;> simp [recordedIn]
      rw [hsame, if_pos rfl, hregistry]
      exact ⟨_, rfl, .move hfound hmove⟩
    · have hnone : recordedIn index (units?.map (LimiterRef.kept place number, ·)) = none := by
        cases units? <;> simp [recordedIn, heq]
      rw [hnone, if_neg heq]
      exact ⟨registry, hregistry, .stay⟩

end Views

/-! ## Limiters that are put back -/

section Put

variable {world : World} {ref : LimiterRef}

theorem modify_eq_self {α : Type} {array : Array α} {index : Nat} {f : α → α}
    (h : ∀ value, array[index]? = some value → f value = value) :
    array.modify index f = array := by
  apply Array.ext_getElem?
  intro place
  rw [Array.getElem?_modify]
  split
  · rename_i heq
    subst heq
    cases hvalue : array[index]? with
    | none => rfl
    | some value => rw [Option.map_some, h value hvalue]
  · rfl

/-- Putting a limiter where it is changes nothing. -/
theorem putLimiter_eq_self {limiter : Limiter} (h : world.limiter? ref = some limiter) :
    world.putLimiter ref limiter = world := by
  cases ref with
  | loose index =>
    rw [putLimiter, modify_eq_self]
    intro other hother
    exact Option.some.inj (h.symm.trans hother)
  | kept registry index =>
    rw [putLimiter, modify_eq_self]
    intro swept hswept
    rw [limiter?, hswept] at h
    rw [Registry.put, modify_eq_self]
    intro other hother
    exact Option.some.inj (h.symm.trans hother)

theorem limiter?_putLimiter {limiter : Limiter} (h : world.limiter? ref = some limiter)
    (put : Limiter) : (world.putLimiter ref put).limiter? ref = some put := by
  cases ref with
  | loose index =>
    rw [limiter?] at h
    simp [putLimiter, limiter?, Array.getElem?_modify, h]
  | kept registry index =>
    rw [limiter?_kept] at h ⊢
    obtain ⟨found, hfound, hlimiter⟩ := Option.bind_eq_some_iff.mp h
    rw [registryAt_putLimiter, if_pos rfl, hfound, Option.map_some, Option.bind_some,
      Registry.limiters_put, if_pos rfl, hlimiter]
    rfl

theorem now_putLimiter (world : World) (ref : LimiterRef) (limiter : Limiter) :
    (world.putLimiter ref limiter).now = world.now := by
  cases ref <;> rfl

theorem ended_putLimiter (world : World) (ref : LimiterRef) (put : Limiter) (scope : Scope) :
    (world.putLimiter ref put).ended scope = world.ended scope := by
  cases ref <;> rfl

end Put

/-! ## One deed -/

section Perform

variable {world : World} {index : Nat} {registry : Registry}

/-- The outcome of asking for a key, written out. -/
theorem limiterFor_eq (world : World) (index : Nat) (key : String) (scope : Scope) :
    world.limiterFor index key scope = match world.ended scope with
      | some reason => some (.error reason)
      | none => world.registries[index]?.map fun swept =>
        let asked := swept.registry.limiterFor key (world.read swept.registry.policy.clock)
        .ok ({ (if swept.registry.limiters.size < asked.1.limiters.size
            then world.tally swept.registry.policy else world) with
          registries := world.registries.modify index fun swept =>
            { swept with registry := asked.1 } }, .kept index asked.2) := by
  rw [limiterFor]
  cases world.ended scope with
  | some reason => rfl
  | none => cases world.registries[index]? <;> rfl

/-- Who is handed a limiter finds it in a registry that was asked for it at its clock's reading. -/
theorem limiterFor_eq_ok {place : Nat} {key : String} {scope : Scope} {asked : World}
    {ref : LimiterRef} (h : world.limiterFor place key scope = some (.ok (asked, ref))) :
    world.ended scope = none ∧ asked.now = world.now ∧ asked.scopes = world.scopes ∧
    ∃ registry, world.registryAt place = some registry ∧
      ref = .kept place (registry.limiterFor key (world.read registry.policy.clock)).2 ∧
      ∀ index, asked.registryAt index =
        if place = index then
          some (registry.limiterFor key (world.read registry.policy.clock)).1
        else world.registryAt index := by
  rw [limiterFor_eq] at h
  cases hended : world.ended scope with
  | some reason => rw [hended] at h; cases h
  | none =>
    rw [hended] at h
    obtain ⟨swept, hswept, hasked⟩ := Option.map_eq_some_iff.mp h
    obtain ⟨hworld, rfl⟩ := Prod.mk.inj (Except.ok.inj hasked)
    have hmodify : asked.registries = world.registries.modify place fun other =>
        { other with registry := (swept.registry.limiterFor key
          (world.read swept.registry.policy.clock)).1 } := by rw [← hworld]
    refine ⟨rfl, ?_, ?_, swept.registry, ?_, rfl, fun index => ?_⟩
    · rw [← hworld]
      dsimp only
      split <;> rfl
    · rw [← hworld]
      dsimp only
      split <;> rfl
    · rw [registryAt, hswept]
      rfl
    · rw [registryAt_of_modify world hmodify]
      by_cases heq : place = index
      · rw [if_pos heq, if_pos heq, ← heq, hswept]
        rfl
      · rw [if_neg heq, if_neg heq]

theorem use_of_limiter? {ref : LimiterRef} {limiter : Limiter}
    (h : world.limiter? ref = some limiter) (permit : Permit) :
    world.use ref permit =
      some (world.putLimiter ref (limiter.use permit (world.read limiter.clock)).limiter,
        (limiter.use permit (world.read limiter.clock)).permit,
        (limiter.use permit (world.read limiter.clock)).refusal) := by
  rw [use, h]
  rfl

theorem use_of_limiter?_eq_none {ref : LimiterRef} (h : world.limiter? ref = none)
    (permit : Permit) : world.use ref permit = none := by
  rw [use, h]
  rfl

theorem look_of_limiter? {ref : LimiterRef} {limiter : Limiter}
    (h : world.limiter? ref = some limiter) :
    world.look ref = some (world.putLimiter ref (limiter.advance (world.read limiter.clock)),
      limiter.advance (world.read limiter.clock)) := by
  rw [look, h]
  rfl

theorem look_of_limiter?_eq_none {ref : LimiterRef} (h : world.limiter? ref = none) :
    world.look ref = none := by
  rw [look, h]
  rfl

theorem perform_use (world : World) (ref : LimiterRef) (permit : Permit) :
    world.perform (.use ref permit) = (world.limiter? ref).elim world fun limiter =>
      world.putLimiter ref (limiter.use permit (world.read limiter.clock)).limiter := by
  rw [perform]
  cases h : world.limiter? ref with
  | none => rw [use_of_limiter?_eq_none h, Option.elim_none]
  | some limiter => rw [use_of_limiter? h, Option.elim_some]

theorem perform_look (world : World) (ref : LimiterRef) :
    world.perform (.look ref) = (world.limiter? ref).elim world fun limiter =>
      world.putLimiter ref (limiter.advance (world.read limiter.clock)) := by
  rw [perform]
  cases h : world.limiter? ref with
  | none => rw [look_of_limiter?_eq_none h, Option.elim_none]
  | some limiter => rw [look_of_limiter? h, Option.elim_some]

/-- A deed takes its time and no more. -/
theorem now_perform (world : World) (deed : Deed) :
    (world.perform deed).now = world.now + deed.span := by
  have hsame : ∀ {other : World}, other.now = world.now → other.now = world.now + (0 : Nat) :=
    fun h => h.trans (Int.add_zero _).symm
  cases deed with
  | pass span => rfl
  | rearrange _ _ _ | makeLoose _ | found _ _ _ | abandon _ | sweep _ | runSweepers =>
    exact hsame rfl
  | ask place key scope =>
    refine hsame ?_
    rw [perform]
    split
    · rename_i hasked
      exact (limiterFor_eq_ok hasked).2.1
    · rfl
  | use ref permit =>
    rw [perform_use]
    cases world.limiter? ref with
    | none => exact hsame rfl
    | some limiter => exact hsame (now_putLimiter ..)
  | look ref =>
    rw [perform_look]
    cases world.limiter? ref with
    | none => exact hsame rfl
    | some limiter => exact hsame (now_putLimiter ..)

theorem now_le_perform (world : World) (deed : Deed) : world.now ≤ (world.perform deed).now := by
  rw [now_perform]
  omega

theorem now_le_performAll (world : World) (deeds : List Deed) :
    world.now ≤ (world.performAll deeds).now := by
  induction deeds generalizing world with
  | nil => exact Int.le_refl _
  | cons deed deeds ih => exact Int.le_trans (world.now_le_perform deed) (ih _)

end Perform

/-! ## What becomes of a registry -/

section Step

variable {world : World} {index : Nat} {registry : Registry}

theorem registryAt_found (hregistry : world.registryAt index = some registry) (policy : Policy)
    (scope : Scope) (period : Nat) :
    (world.found policy scope period).1.registryAt index = some registry := by
  obtain ⟨swept, hswept, rfl⟩ := Option.map_eq_some_iff.mp hregistry
  have hlt := (Array.getElem?_eq_some_iff.mp hswept).1
  rw [found, registryAt, Array.getElem?_push_lt hlt, ← Array.getElem?_eq_getElem hlt, hswept]
  rfl

theorem registryAt_abandon (world : World) (place index : Nat) :
    (world.abandon place).registryAt index = world.registryAt index := by
  have hmodify : (world.abandon place).registries = world.registries.modify place fun swept =>
      { swept with sweeper := { swept.sweeper with phase := .stopped } } := rfl
  rw [registryAt_of_modify world hmodify, Option.map_map]
  split <;> rfl

theorem step_ask (hregistry : world.registryAt index = some registry) (place : Nat) (key : String)
    (scope : Scope) :
    ∃ after, (world.perform (.ask place key scope)).registryAt index = some after ∧
      registry.Step (world.read registry.policy.clock) none after := by
  rw [perform]
  split
  · rename_i hasked
    obtain ⟨-, -, -, asked, hfound, -, hafter⟩ := limiterFor_eq_ok hasked
    rw [hafter]
    by_cases heq : place = index
    · obtain rfl : asked = registry := Option.some.inj (by rw [← hfound, heq, hregistry])
      rw [if_pos heq]
      exact ⟨_, rfl, .ask key⟩
    · rw [if_neg heq]
      exact ⟨registry, hregistry, .stay⟩
  · exact ⟨registry, hregistry, .stay⟩

theorem step_use (hregistry : world.registryAt index = some registry) (hsound : registry.Sound)
    (ref : LimiterRef) (permit : Permit) :
    ∃ after, (world.perform (.use ref permit)).registryAt index = some after ∧
      registry.Step (world.read registry.policy.clock)
        (recordedIn index (world.recorded (.use ref permit))) after := by
  rw [perform_use, recorded]
  cases hlimiter : world.limiter? ref with
  | none =>
    rw [use_of_limiter?_eq_none hlimiter]
    exact ⟨registry, hregistry, .stay⟩
  | some limiter =>
    rw [use_of_limiter? hlimiter, Option.elim_some]
    rcases limiter.use_cases permit (world.read limiter.clock) with
      ⟨-, huse⟩ | ⟨-, -, huse⟩ | ⟨-, hroom, huse⟩
    · rw [huse]
      exact step_putLimiter hregistry hsound hlimiter .stay
    · rw [huse]
      exact step_putLimiter hregistry hsound hlimiter .turn
    · rw [huse]
      exact step_putLimiter hregistry hsound hlimiter (.record hroom)

theorem step_look (hregistry : world.registryAt index = some registry) (hsound : registry.Sound)
    (ref : LimiterRef) : ∃ after, (world.perform (.look ref)).registryAt index = some after ∧
      registry.Step (world.read registry.policy.clock) none after := by
  rw [perform_look]
  cases hlimiter : world.limiter? ref with
  | none => exact ⟨registry, hregistry, .stay⟩
  | some limiter => exact step_putLimiter hregistry hsound hlimiter .turn

theorem registryAt_sweep (world : World) (place index : Nat) :
    (world.sweep place).registryAt index =
      if place = index then
        (world.registryAt index).map fun registry =>
          registry.sweep (world.read registry.policy.clock)
      else world.registryAt index := by
  have hmodify : (world.sweep place).registries = world.registries.modify place fun swept =>
      { swept with registry :=
        swept.registry.sweep (world.read swept.registry.policy.clock) } := rfl
  rw [registryAt_of_modify world hmodify, registryAt, Option.map_map, Option.map_map]
  rfl

/-- **What a sweep makes of a registry**, if it is swept at all. -/
theorem registryAt_perform_of_isSweep {deed : Deed} (hsweep : deed.isSweep = true)
    (hregistry : world.registryAt index = some registry) :
    (world.perform deed).registryAt index = some registry ∨
      (world.perform deed).registryAt index =
        some (registry.sweep (world.read registry.policy.clock)) := by
  cases deed with
  | sweep place =>
    rw [perform, registryAt_sweep, hregistry]
    split
    · exact .inr rfl
    · exact .inl rfl
  | runSweepers =>
    obtain ⟨swept, hswept, rfl⟩ := Option.map_eq_some_iff.mp hregistry
    rw [perform, runSweepers, registryAt, Array.getElem?_map, hswept, Option.map_some,
      Option.map_some, runSweeper]
    dsimp only
    split
    · exact .inl rfl
    · exact .inr rfl
  | _ => cases hsweep

theorem step_of_isSweep {deed : Deed} (hsweep : deed.isSweep = true)
    (hregistry : world.registryAt index = some registry) :
    ∃ after, (world.perform deed).registryAt index = some after ∧
      registry.Step (world.read registry.policy.clock) none after := by
  rcases registryAt_perform_of_isSweep hsweep hregistry with hstays | hswept
  · exact ⟨registry, hstays, .stay⟩
  · exact ⟨_, hswept, .sweep⟩

theorem frame_perform_of_isSweep {deed : Deed} (hsweep : deed.isSweep = true) (world : World) :
    (world.perform deed).now = world.now ∧ (world.perform deed).scopes = world.scopes := by
  cases deed with
  | sweep place => exact ⟨rfl, rfl⟩
  | runSweepers => exact ⟨rfl, rfl⟩
  | _ => cases hsweep

/-- **What a deed makes of a registry.** -/
theorem step_perform (hregistry : world.registryAt index = some registry)
    (hsound : registry.Sound) (deed : Deed) :
    ∃ after, (world.perform deed).registryAt index = some after ∧
      registry.Step (world.read registry.policy.clock) (recordedIn index (world.recorded deed))
        after := by
  cases deed with
  | pass span => exact ⟨registry, hregistry, .stay⟩
  | rearrange clocks scopes tallies => exact ⟨registry, hregistry, .stay⟩
  | makeLoose policy => exact ⟨registry, hregistry, .stay⟩
  | found policy scope period =>
    exact ⟨registry, registryAt_found hregistry policy scope period, .stay⟩
  | abandon place => exact ⟨registry, (registryAt_abandon ..).trans hregistry, .stay⟩
  | ask place key scope => exact step_ask hregistry place key scope
  | use ref permit => exact step_use hregistry hsound ref permit
  | look ref => exact step_look hregistry hsound ref
  | sweep place => exact step_of_isSweep rfl hregistry
  | runSweepers => exact step_of_isSweep rfl hregistry

/-- A registry that was not there before a deed is empty. -/
theorem eq_empty_of_perform (hnone : world.registryAt index = none) {deed : Deed}
    (hsome : (world.perform deed).registryAt index = some registry) :
    ∃ policy, registry = .empty policy := by
  have hput : ∀ (ref : LimiterRef) (limiter : Limiter),
      (world.putLimiter ref limiter).registryAt index = none := by
    intro ref limiter
    cases ref with
    | loose place => exact hnone
    | kept place number =>
      rw [registryAt_putLimiter, hnone]
      exact ite_self none
  cases deed with
  | pass span => cases hnone.symm.trans hsome
  | rearrange clocks scopes tallies => cases hnone.symm.trans hsome
  | makeLoose policy => cases hnone.symm.trans hsome
  | found policy scope period =>
    rw [perform, found, registryAt, Array.getElem?_push] at hsome
    split at hsome
    · exact ⟨policy, (Option.some.inj hsome).symm⟩
    · cases hnone.symm.trans hsome
  | abandon place => cases ((registryAt_abandon ..).trans hnone).symm.trans hsome
  | ask place key scope =>
    rw [perform] at hsome
    split at hsome
    · rename_i hasked
      obtain ⟨-, -, -, asked, hfound, -, hafter⟩ := limiterFor_eq_ok hasked
      have hne : place ≠ index := by
        rintro rfl
        cases hnone.symm.trans hfound
      rw [hafter, if_neg hne, hnone] at hsome
      cases hsome
    · cases hnone.symm.trans hsome
  | use ref permit =>
    rw [perform_use] at hsome
    cases hlimiter : world.limiter? ref with
    | none =>
      rw [hlimiter] at hsome
      cases hnone.symm.trans hsome
    | some limiter =>
      rw [hlimiter] at hsome
      cases (hput _ _).symm.trans hsome
  | look ref =>
    rw [perform_look] at hsome
    cases hlimiter : world.limiter? ref with
    | none =>
      rw [hlimiter] at hsome
      cases hnone.symm.trans hsome
    | some limiter =>
      rw [hlimiter] at hsome
      cases (hput _ _).symm.trans hsome
  | sweep place =>
    rw [perform, registryAt_sweep, hnone] at hsome
    split at hsome <;> cases hsome
  | runSweepers =>
    rw [perform, runSweepers, registryAt, Array.getElem?_map, Option.map_eq_none_iff.mp hnone]
      at hsome
    cases hsome

end Step

/-! ## Sound worlds -/

/-- What holds of every world that has come about by deeds: its registries are sound, and those on
the system clock are timely. -/
structure Sound (world : World) : Prop where
  registry : ∀ index registry, world.registryAt index = some registry → registry.Sound
  timely : ∀ index registry, world.registryAt index = some registry →
    registry.policy.clock = .system → registry.Timely world.now

theorem sound_initial : initial.Sound where
  registry := by simp [initial, registryAt]
  timely := by simp [initial, registryAt]

/-- A registry after a deed is empty, or it comes from one before the deed by a step. -/
theorem Sound.origin {world : World} (h : world.Sound) {deed : Deed} {index : Nat}
    {after : Registry} (hafter : (world.perform deed).registryAt index = some after) :
    (∃ policy, after = .empty policy) ∨
      ∃ before, world.registryAt index = some before ∧
        before.Step (world.read before.policy.clock) (recordedIn index (world.recorded deed))
          after := by
  cases hbefore : world.registryAt index with
  | none => exact .inl (eq_empty_of_perform hbefore hafter)
  | some before =>
    obtain ⟨found, hfound, step⟩ := step_perform hbefore (h.registry index before hbefore) deed
    obtain rfl := Option.some.inj (hfound.symm.trans hafter)
    exact .inr ⟨before, rfl, step⟩

theorem Sound.perform {world : World} (h : world.Sound) (deed : Deed) :
    (world.perform deed).Sound where
  registry index after hafter := by
    rcases h.origin hafter with ⟨policy, rfl⟩ | ⟨before, hbefore, step⟩
    · exact Registry.sound_empty policy
    · exact step.sound (h.registry index before hbefore)
  timely index after hafter hclock := by
    rcases h.origin hafter with ⟨policy, rfl⟩ | ⟨before, hbefore, step⟩
    · exact Registry.timely_empty policy _
    · rw [step.policy_eq] at hclock
      rw [hclock] at step
      have htimely := h.timely index before hbefore hclock
      exact (step.timely (h.registry index before hbefore).tidy htimely).later
        (world.now_le_perform deed)

/-- **Every world that has come about by deeds is sound.** -/
theorem Sound.performAll {world : World} (h : world.Sound) (deeds : List Deed) :
    (world.performAll deeds).Sound := by
  induction deeds generalizing world with
  | nil => exact h
  | cons deed deeds ih => exact ih (h.perform deed)

/-! ## Limiters on the system clock -/

/-- A limiter that was made by a registry on the system clock: its plan, and its window now. -/
structure Keeps (world : World) (ref : LimiterRef) (plan : Plan) (window : Window) : Prop where
  limiter? : world.limiter? ref = some ⟨.system, window⟩
  plan_eq : window.plan = plan
  start_le : window.start ≤ world.now
  withinLimit : window.WithinLimit
  /-- It is the limiter of a registry on the system clock. -/
  kept : ∃ index number registry, ref = .kept index number ∧
    world.registryAt index = some registry ∧ registry.policy.clock = .system

/-- Whoever has found a limiter in a registry on the system clock can rely on it. -/
theorem Sound.keeps {world : World} (h : world.Sound) {index number : Nat} {registry : Registry}
    {limiter : Limiter} (hregistry : world.registryAt index = some registry)
    (hclock : registry.policy.clock = .system)
    (hlimiter : registry.limiters[number]? = some limiter) :
    world.Keeps (.kept index number) registry.policy.plan limiter.window := by
  have hsound := h.registry index registry hregistry
  refine ⟨?_, hsound.tidy.plan_eq number limiter hlimiter,
    h.timely index registry hregistry hclock number limiter hlimiter,
    hsound.withinLimit number limiter hlimiter, index, number, registry, rfl, hregistry, hclock⟩
  rw [limiter?_kept, hregistry, Option.bind_some, hlimiter,
    ← (hsound.clock_eq number limiter hlimiter).trans hclock]

/-- **What a deed makes of a limiter.** -/
theorem Keeps.perform {world : World} {ref : LimiterRef} {plan : Plan} {window : Window}
    (h : world.Keeps ref plan window) (hsound : world.Sound) (deed : Deed) :
    ∃ after, (world.perform deed).Keeps ref plan after ∧
      Window.Move world.now window (recordedBy ref (world.recorded deed)) after := by
  obtain ⟨index, number, registry, rfl, hregistry, hclock⟩ := h.kept
  have hlimiter := h.limiter?
  rw [limiter?_kept, hregistry, Option.bind_some] at hlimiter
  obtain ⟨moved, hmoved, step⟩ := step_perform hregistry (hsound.registry _ _ hregistry) deed
  obtain ⟨after, hafter, move⟩ :=
    step.move_limiter (hsound.registry _ _ hregistry).tidy hlimiter
  rw [hclock, recordedAt_recordedIn] at move
  have hsystem : moved.policy.clock = .system := by rw [step.policy_eq, hclock]
  have hkeeps := (hsound.perform deed).keeps hmoved hsystem hafter
  rw [step.policy_eq, ← (hsound.registry _ _ hregistry).tidy.plan_eq _ _ hlimiter, h.plan_eq]
    at hkeeps
  exact ⟨after, hkeeps, move⟩

/-- **A limiter that lets nothing through** goes on to agree with what it was. -/
theorem Keeps.idle {world : World} {ref : LimiterRef} {plan : Plan} {window : Window}
    (h : world.Keeps ref plan window) (hsound : world.Sound) {deeds : List Deed}
    (hidle : world.throughout (spares ref) deeds = true) :
    ∃ after, (world.performAll deeds).Keeps ref plan after ∧
      after.Agrees (world.performAll deeds).now window := by
  induction deeds generalizing world window with
  | nil => exact ⟨window, h, .refl _ _⟩
  | cons deed deeds ih =>
    rw [throughout, Bool.and_eq_true] at hidle
    obtain ⟨moved, hmoved, move⟩ := h.perform hsound deed
    rw [Option.isNone_iff_eq_none.mp hidle.1] at move
    obtain ⟨after, hafter, hagrees⟩ := ih hmoved (hsound.perform deed) hidle.2
    have hnow := Int.le_trans (world.now_le_perform deed) (now_le_performAll _ deeds)
    exact ⟨after, hafter, hagrees.trans ((move.agrees h.start_le).later hnow)⟩

end World

end Throttle

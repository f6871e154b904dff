import Throttle.CommandLine.Program
import Throttle.Proofs.World.Tasks
import Throttle.Proofs.World.Verdicts

/-!
# Decisions about a batch

A clerk decides the keys in a batch of lines, one after the other: the clerk takes a line, goes
through the stages of its admission, and notes the decision. All of this happens at one instant, with
a registry that nobody has asked before, and between any two steps there may be sweeps.

Then every key is counted on its own: as often as the limit allows it is let through, and from then
on it is denied. A sweep makes no difference to a limiter that has let something through at this
instant. It does make one between the two steps with which a new key is entered and counted: the
limiter is forgotten, the clerk counts on it all the same, and the next line with this key is given
another one.

## Main definitions

* `Clerk`, `Clerk.turn` — how far the decisions about a batch have come, and one step.
* `Clerk.exposed` — a new key was entered and not counted yet.
* `Clerk.Sound` — what holds of the clerk and the world between any two steps.

## Main statements

* `Clerk.turns_answer`, `Clerk.ofLines_eq` — steps that nothing comes between, and a run of the
  program.
* `Clerk.Sound.turn`, `Clerk.Sound.sweep` — one more step, and one more sweep.
* `Clerk.decides_batch` — the decisions about a batch.
-/

namespace Throttle

/-- Usable settings allow as many units as they say. -/
theorem Settings.limit_of_check {settings : Settings} {plan : Plan}
    (h : settings.check = .ok plan) : plan.limit = settings.limiter.maxEvents.toNat := by
  have hplan : Plan.ofParameters settings.limiter.maxEvents settings.interval
      settings.limiter.segments = .ok plan := by
    rw [check, Settings.plan] at h
    split at h
    · cases h
    · rename_i found hfound
      split at h
      · cases h
      · cases h
        exact hfound
  rw [Plan.ofParameters] at hplan
  split_ifs at hplan
  cases hplan
  rfl

/-- Whoever decides the keys in a batch of lines. -/
structure Clerk where
  /-- The lines that are still to come. -/
  lines : List String
  /-- How far the admission of the key at hand has come, if there is one. -/
  stage? : Option Stage
  decisions : List Decision
deriving Repr, DecidableEq

namespace Clerk

open World

/-- A clerk who has not begun. -/
def new (lines : List String) : Clerk := ⟨lines, none, []⟩

/-- All lines have been dealt with. -/
def IsDone (clerk : Clerk) : Prop := clerk.lines = [] ∧ clerk.stage? = none

instance (clerk : Clerk) : Decidable clerk.IsDone := inferInstanceAs (Decidable (_ ∧ _))

/-- One step: take the next line, take a step of the admission at hand, or note how it was decided. A
clerk whose admission fails stops. -/
def turn (world : World) (clerk : Clerk) : World × Clerk :=
  match clerk.stage? with
  | none =>
    match clerk.lines with
    | [] => (world, clerk)
    | line :: lines =>
      (world, { clerk with
        lines
        stage? := (keyInLine? line).map (.asking keyRegistry · .background false) })
  | some (.reached outcome) =>
    match lineAnswer (some outcome) with
    | .decided decision =>
      (world, { clerk with stage? := none, decisions := clerk.decisions ++ [decision] })
    | _ => (world, { clerk with lines := [], stage? := none })
  | some stage => ((world.turn stage).1, { clerk with stage? := some (world.turn stage).2 })

/-- What the next step does to the world. -/
def deed? (world : World) (clerk : Clerk) : Option Deed := clerk.stage?.bind world.deed?

/-- The decisions about a batch as a task. -/
def task : Task Clerk where
  turn := turn
  deed? := deed?
  turn_fst world clerk := by
    obtain ⟨lines, stage?, decisions⟩ := clerk
    cases stage? with
    | none => cases lines <;> rfl
    | some stage =>
      cases stage with
      | reached outcome =>
        rw [turn]
        dsimp only
        split <;> rfl
      | asking _ _ _ _ | trying _ | telling _ | timing _ _ | setting _ _ | waiting _ _ =>
        exact world.turn_fst _

@[simp] theorem turn_task : task.turn = turn := rfl

/-! ## Steps that nothing comes between -/

/-- An admission that is not patient comes to an end at once, and its permit, which is new, is not
refused for having been used. -/
theorem exists_reached_letIn (world : World) (registry : Nat) (key : String) (scope : Scope) :
    ∃ outcome, (world.letIn registry key scope false).2 = .reached outcome ∧
      ∀ refusal, outcome ≠ .refused refusal := by
  rw [letIn]
  rcases world.limiterFor registry key scope with - | reason | ⟨asked, ref⟩
  · exact ⟨_, rfl, by simp⟩
  · exact ⟨_, rfl, by simp⟩
  · dsimp only
    rw [attempt]
    cases hlimiter : asked.limiter? ref with
    | none =>
      rw [use_of_limiter?_eq_none hlimiter]
      exact ⟨_, rfl, by simp⟩
    | some limiter =>
      rw [use_of_limiter? hlimiter]
      rcases limiter.use_cases Limiter.single (asked.read limiter.clock) with
        ⟨hused, -⟩ | ⟨-, -, huse⟩ | ⟨-, -, huse⟩
      · cases hused
      · rw [huse]
        dsimp only
        split
        · exact ⟨_, rfl, by simp⟩
        · exact ⟨_, rfl, by simp⟩
      · rw [huse]
        dsimp only
        split
        · exact ⟨_, rfl, by simp⟩
        · split
          · exact ⟨_, rfl, by simp⟩
          · exact ⟨_, rfl, by simp⟩

theorem turn_line (world : World) (line : String) (lines : List String)
    (decisions : List Decision) :
    turn world ⟨line :: lines, none, decisions⟩ = (world,
      ⟨lines, (keyInLine? line).map (.asking keyRegistry · .background false), decisions⟩) := rfl

theorem turn_of_open (stage : Stage) (hopen : ∀ outcome, stage ≠ .reached outcome)
    (world : World) (lines : List String) (decisions : List Decision) :
    turn world ⟨lines, some stage, decisions⟩ =
      ((world.turn stage).1, ⟨lines, some (world.turn stage).2, decisions⟩) := by
  cases stage with
  | reached outcome => exact absurd rfl (hopen outcome)
  | asking _ _ _ _ | trying _ | telling _ | timing _ _ | setting _ _ | waiting _ _ => rfl

/-- The clerk goes through the stages of an admission until it is over. -/
theorem exists_turns_of_reached {world after : World} {stage : Stage} {outcome : Outcome} {more : Nat}
    (h : world.turns stage more = (after, .reached outcome)) (lines : List String)
    (decisions : List Decision) :
    ∃ few, task.turns world ⟨lines, some stage, decisions⟩ few =
      (after, ⟨lines, some (.reached outcome), decisions⟩) := by
  induction more generalizing world stage with
  | zero =>
    cases h
    exact ⟨0, rfl⟩
  | succ more ih =>
    by_cases hopen : ∀ other, stage ≠ .reached other
    · obtain ⟨few, hfew⟩ := ih h
      refine ⟨few + 1, ?_⟩
      rw [Task.turns_succ, turn_task, turn_of_open stage hopen]
      exact hfew
    · obtain ⟨other, rfl⟩ := not_forall_not.mp hopen
      rw [turns_reached] at h
      cases h
      exact ⟨0, rfl⟩

/-- **Steps that nothing comes between** make up the answer to a line. -/
theorem turns_answer (world : World) (line : String) (lines : List String)
    (decisions : List Decision) :
    ∃ more, task.turns world ⟨line :: lines, none, decisions⟩ more =
      match world.answer false line with
      | (after, .passedOver) => (after, ⟨lines, none, decisions⟩)
      | (after, .decided decision) => (after, ⟨lines, none, decisions ++ [decision]⟩)
      | (after, _) => (after, ⟨[], none, decisions⟩) := by
  rw [answer, beginLine]
  cases hkey : keyInLine? line with
  | none =>
    refine ⟨1, ?_⟩
    rw [Task.turns_succ, turn_task, turn_line, hkey]
    rfl
  | some key =>
    obtain ⟨outcome, houtcome, -⟩ := exists_reached_letIn world keyRegistry key .background
    have hturns := letIn_eq_turns world keyRegistry key .background false
    rw [Reaches, houtcome] at hturns
    obtain ⟨few, hfew⟩ := exists_turns_of_reached
      (Prod.ext hturns.1 (Option.some.inj hturns.2).symm) lines decisions
    have hbegun : task.turns world ⟨line :: lines, none, decisions⟩ 1 =
        (world, ⟨lines, some (.asking keyRegistry key .background false), decisions⟩) := by
      rw [Task.turns_succ, turn_task, turn_line, hkey]
      rfl
    refine ⟨1 + few + 1, ?_⟩
    rw [Task.turns_add, Task.turns_add, hbegun, hfew, Option.map_some]
    generalize world.letIn keyRegistry key .background false = admitted at houtcome
    obtain ⟨after, progress⟩ := admitted
    subst houtcome
    rw [Task.turns_succ, Task.turns_zero, turn_task, turn]
    cases outcome <;> rfl

theorem answer_ne_failed (world : World) (line : String) (fault : Fault) :
    (world.answer false line).2 ≠ .failed fault := by
  rw [answer, beginLine]
  cases keyInLine? line with
  | none => nofun
  | some key =>
    obtain ⟨outcome, houtcome, hnot⟩ := exists_reached_letIn world keyRegistry key .background
    rw [Option.map_some]
    generalize world.letIn keyRegistry key .background false = admitted at houtcome
    obtain ⟨after, progress⟩ := admitted
    subst houtcome
    cases outcome with
    | refused refusal => exact absurd rfl (hnot refusal)
    | finished | ended _ | decided _ | lost => nofun

/-- **A run of the program** that waits for nobody reports what a clerk decides whom nothing comes
between. -/
theorem ofLines_eq (options : CommandLine.Options) (hwait : options.wait = false) (world : World)
    (lines : List (List UInt8)) (texts : List String)
    (hdecode : lines.map Text.decode = texts.map .ok) :
    ∃ more, let after := (task.turns world (new texts) more).2
      after.IsDone ∧ CommandLine.Transcript.ofLines options world lines =
        ⟨after.decisions.foldr (fun decision output => decision.report options.json ++ output) "",
          none⟩ := by
  suffices hrest : ∀ decisions, ∃ more news,
      let after := (task.turns world ⟨texts, none, decisions⟩ more).2
      after.IsDone ∧ after.decisions = decisions ++ news ∧
        CommandLine.Transcript.ofLines options world lines =
          ⟨news.foldr (fun decision output => decision.report options.json ++ output) "", none⟩ by
    obtain ⟨more, news, hdone, hnews, hall⟩ := hrest []
    exact ⟨more, hdone, by rw [new, hnews, List.nil_append, hall]⟩
  induction lines generalizing world texts with
  | nil =>
    intro decisions
    rw [List.map_nil, eq_comm, List.map_eq_nil_iff] at hdecode
    rw [hdecode]
    exact ⟨0, [], ⟨rfl, rfl⟩, (List.append_nil _).symm, rfl⟩
  | cons line lines ih =>
    intro decisions
    cases texts with
    | nil => simp at hdecode
    | cons text texts =>
      rw [List.map_cons, List.map_cons, List.cons.injEq] at hdecode
      obtain ⟨first, hfirst⟩ := turns_answer world text texts decisions
      have hfault := answer_ne_failed world text
      rw [CommandLine.Transcript.ofLines, hdecode.1, hwait]
      dsimp only
      generalize world.answer false text = answered at hfirst hfault
      obtain ⟨after, answered⟩ := answered
      cases answered with
      | passedOver =>
        obtain ⟨more, news, hrest⟩ := ih after texts hdecode.2 decisions
        refine ⟨first + more, news, ?_⟩
        rw [Task.turns_add, hfirst]
        exact hrest
      | decided decision =>
        obtain ⟨more, news, hdone, hnews, hall⟩ :=
          ih after texts hdecode.2 (decisions ++ [decision])
        refine ⟨first + more, decision :: news, ?_⟩
        rw [Task.turns_add, hfirst]
        refine ⟨hdone, ?_, ?_⟩
        · rw [hnews, List.append_assoc, List.singleton_append]
        · simp only [hall, List.foldr_cons]
          rfl
      | stopped =>
        refine ⟨first, [], ?_⟩
        rw [hfirst]
        exact ⟨⟨rfl, rfl⟩, (List.append_nil _).symm, rfl⟩
      | failed fault => exact absurd rfl (hfault fault)

/-! ## Sweeps between steps -/

/-- A new key was entered and not counted yet. -/
def exposed (clerk : Clerk) : Bool :=
  match clerk.stage? with
  | some (.trying admission) => admission.key ∉ clerk.decisions.map Decision.key
  | _ => false

/-- What others do, together with the clerk as it stands then. -/
def interruption? (_ : World) (clerk : Clerk) : Occasion → Option (Clerk × Deed)
  | .others deed => some (clerk, deed)
  | .turn => none

/-- In a schedule others do nothing but sweep, and not while the clerk is exposed. -/
def Swept (world : World) (clerk : Clerk) (schedule : List Occasion) : Prop :=
  ∀ met ∈ task.notes interruption? world clerk schedule,
    met.2.isSweep = true ∧ met.1.exposed = false

/-- How many steps there are to take at most. -/
def work (clerk : Clerk) : Nat :=
  5 * clerk.lines.length + match clerk.stage? with
    | some (.asking _ _ _ _) => 4
    | some (.trying _) => 3
    | some (.telling _) | some (.timing _ _) => 2
    | some (.reached _) => 1
    | some (.setting _ _) | some (.waiting _ _) | none => 0

/-- Where the clerk may stand, when some keys have been decided, the last one first: the stage, and
the key at hand. -/
inductive Stands (plan : Plan) (world : World) (seen : List String) :
    Option Stage → List String → Prop
  | free (tallies : world.Tallies plan seen seen) : Stands plan world seen none []
  | asking {key : String} (tallies : world.Tallies plan seen seen) :
      Stands plan world seen (some (.asking keyRegistry key .background false)) [key]
  | trying {admission : Admission}
      (attends : world.Attends plan (admission.key :: seen) seen admission) :
      Stands plan world seen (some (.trying admission)) [admission.key]
  | telling {admission : Admission}
      (attends : world.Attends plan (admission.key :: seen) (admission.key :: seen) admission)
      (room : seen.count admission.key < plan.limit) :
      Stands plan world seen (some (.telling admission)) [admission.key]
  | timing {admission : Admission}
      (attends : world.Attends plan (admission.key :: seen) (admission.key :: seen) admission)
      (full : ¬seen.count admission.key < plan.limit) :
      Stands plan world seen (some (.timing admission Limiter.single)) [admission.key]
  | reached {key : String} (tallies : world.Tallies plan (key :: seen) (key :: seen)) :
      Stands plan world seen
        (some (.reached (.decided (verdict plan key (seen.count key + 1))))) [key]

/-- **What holds between any two steps**, if `keys` are the keys in all lines: those that were
decided, the one at hand, and those that are still to come. -/
def Sound (plan : Plan) (keys : List String) (world : World) (clerk : Clerk) : Prop :=
  ∃ seen hand, Stands plan world seen clerk.stage? hand ∧ clerk.decisions = verdicts plan seen ∧
    seen.reverse ++ hand ++ clerk.lines.filterMap keyInLine? = keys

section Sound

variable {plan : Plan} {keys : List String} {world : World} {clerk : Clerk}

/-- **One more step.** -/
theorem Sound.turn (h : Sound plan keys world clerk) :
    Sound plan keys (turn world clerk).1 (turn world clerk).2 ∧
      (turn world clerk).2.work ≤ clerk.work - 1 := by
  obtain ⟨lines, stage?, decisions⟩ := clerk
  obtain ⟨seen, hand, hstands, hdecisions, hkeys⟩ := h
  dsimp only at hstands hdecisions hkeys
  cases hstands with
  | free tallies =>
    cases lines with
    | nil => exact ⟨⟨seen, [], .free tallies, hdecisions, hkeys⟩, Nat.le_refl _⟩
    | cons line lines =>
      rw [turn_line]
      cases hkey : keyInLine? line with
      | none =>
        rw [List.filterMap_cons_none hkey] at hkeys
        refine ⟨⟨seen, [], .free tallies, hdecisions, hkeys⟩, ?_⟩
        simp only [work, List.length_cons, Option.map_none]
        omega
      | some key =>
        rw [List.filterMap_cons_some hkey] at hkeys
        refine ⟨⟨seen, [key], .asking tallies, hdecisions, ?_⟩, ?_⟩
        · simpa using hkeys
        · simp only [work, List.length_cons, Option.map_some]
          omega
  | @asking key tallies =>
    obtain ⟨admission, hstage, rfl, hattends⟩ := tallies.turn_asking key id
    rw [turn_of_open (.asking keyRegistry admission.key .background false) nofun, hstage]
    exact ⟨⟨seen, _, .trying hattends, hdecisions, hkeys⟩, Nat.le_refl _⟩
  | @trying admission attends =>
    obtain ⟨hstage, hattends⟩ := attends.turn_trying
    rw [turn_of_open (.trying admission) nofun, hstage]
    split
    · rename_i hroom
      exact ⟨⟨seen, _, .telling hattends hroom, hdecisions, hkeys⟩, Nat.le_refl _⟩
    · rename_i hfull
      exact ⟨⟨seen, _, .timing hattends hfull, hdecisions, hkeys⟩, Nat.le_refl _⟩
  | @telling admission attends room =>
    have hstage := attends.turn_telling
    rw [List.count_cons_self] at hstage
    rw [turn_of_open (.telling admission) nofun, hstage (Nat.succ_le_of_lt room)]
    exact ⟨⟨seen, _, .reached attends.tallies, hdecisions, hkeys⟩, Nat.le_refl _⟩
  | @timing admission attends full =>
    have hstage := attends.turn_timing
    rw [List.count_cons_self] at hstage
    rw [turn_of_open (.timing admission Limiter.single) nofun,
      hstage (Nat.lt_succ_of_le (Nat.not_lt.mp full))]
    exact ⟨⟨seen, _, .reached attends.tallies, hdecisions, hkeys⟩, Nat.le_refl _⟩
  | @reached key tallies =>
    refine ⟨⟨key :: seen, [], .free tallies, ?_, ?_⟩, Nat.le_refl _⟩
    · exact congrArg (· ++ _) hdecisions
    · rw [List.reverse_cons, List.append_nil]
      exact hkeys

/-- **One more sweep.** -/
theorem Sound.sweep (h : Sound plan keys world clerk) (hcovered : clerk.exposed = false) {deed : Deed}
    (hsweep : deed.isSweep = true) : Sound plan keys (world.perform deed) clerk := by
  obtain ⟨lines, stage?, decisions⟩ := clerk
  obtain ⟨seen, hand, hstands, hdecisions, hkeys⟩ := h
  dsimp only at hstands hdecisions hkeys
  refine ⟨seen, hand, ?_, hdecisions, hkeys⟩
  cases hstands with
  | free tallies => exact .free (tallies.perform_sweep (List.Subset.refl _) hsweep)
  | asking tallies => exact .asking (tallies.perform_sweep (List.Subset.refl _) hsweep)
  | @trying admission attends =>
    -- The key has been decided before, so its limiter has counted it.
    have hseen : admission.key ∈ seen := by
      rw [exposed, hdecisions, map_key_verdicts] at hcovered
      simpa using hcovered
    exact .trying (attends.perform_sweep (List.cons_subset.mpr ⟨hseen, List.Subset.refl _⟩) hsweep)
  | telling attends room =>
    exact .telling (attends.perform_sweep (List.Subset.refl _) hsweep) room
  | timing attends full =>
    exact .timing (attends.perform_sweep (List.Subset.refl _) hsweep) full
  | reached tallies => exact .reached (tallies.perform_sweep (List.Subset.refl _) hsweep)

/-- A whole schedule. -/
theorem Sound.follow (h : Sound plan keys world clerk) {schedule : List Occasion}
    (hswept : Swept world clerk schedule) :
    let after := task.follow world clerk schedule
    Sound plan keys after.1 after.2 ∧ after.2.work ≤ clerk.work - schedule.count .turn := by
  induction schedule generalizing world clerk with
  | nil => exact ⟨h, Nat.le_refl _⟩
  | cons occasion schedule ih =>
    rw [Swept, Task.notes_cons] at hswept
    rw [Task.follow_cons]
    cases occasion with
    | others deed =>
      obtain ⟨hsweep, hcovered⟩ := hswept (clerk, deed) List.mem_cons_self
      have hrest := ih (h.sweep hcovered hsweep) fun met hmet =>
        hswept met (List.mem_cons_of_mem _ hmet)
      have hcount : (Occasion.others deed :: schedule).count .turn = schedule.count .turn :=
        List.count_cons_of_ne (by simp)
      rw [hcount]
      exact hrest
    | turn =>
      obtain ⟨hsound, hwork⟩ := h.turn
      obtain ⟨hafter, hless⟩ := ih hsound hswept
      refine ⟨hafter, Nat.le_trans hless ?_⟩
      rw [List.count_cons_self]
      omega

/-- A clerk with no work left has dealt with all lines. -/
theorem Sound.isDone (h : Sound plan keys world clerk) (hwork : clerk.work = 0) : clerk.IsDone := by
  obtain ⟨lines, stage?, decisions⟩ := clerk
  obtain ⟨seen, hand, hstands, -, -⟩ := h
  dsimp only at hstands
  cases hstands with
  | free tallies =>
    have hnone : lines = [] := by simpa [work] using hwork
    exact ⟨hnone, rfl⟩
  | asking | trying | telling | timing | reached => simp [work] at hwork

end Sound

/-- **Decisions about a batch.** Settings are in use that allow each key so many units in an interval.
A clerk decides the keys in some lines, all of it at one instant, with a registry that nobody has asked
before. Between any two steps of the clerk there may be sweeps, but not where a key has just been
entered for its first line and has not been counted yet.

As far as the clerk has come, there is one decision for every line with a key, in the order of the
lines, and none for a line without one. The n-th time that a key comes it is let through if that many
units are allowed, and told how many are left; else it is denied, with none left, and told to come back
when the newest segment has left the window. What other keys come does not matter. Five steps for each
line are enough to be done with all of them, and then the registry has a limiter for every key that
came, and for no other. -/
theorem decides_batch (settings : Settings) (plan : Plan) (hcheck : settings.check = .ok plan)
    (now : Int) (lines : List String) (schedule : List Occasion)
    (hswept : Swept { opening plan settings.cleanupPeriod with now } (new lines) schedule) :
    let most := settings.limiter.maxEvents.toNat
    let keys := lines.filterMap keyInLine?
    let after := task.follow { opening plan settings.cleanupPeriod with now } (new lines) schedule
    (∀ place decision, after.2.decisions[place]? = some decision →
      ∃ key, keys[place]? = some key ∧
        let nth := (keys.take (place + 1)).count key
        decision =
          if nth ≤ most then
            { key, allowed := true, limit := most, remaining := most - nth
              retryAfter := 0, waited := 0 }
          else
            { key, allowed := false, limit := most, remaining := 0
              retryAfter := wholeMillis (plan.width * plan.segments), waited := 0 }) ∧
    (5 * lines.length ≤ schedule.count .turn → after.2.IsDone) ∧
    (after.2.IsDone → after.2.decisions.length = keys.length ∧
      ∃ registry, after.1.registryAt keyRegistry = some registry ∧
        (registry.entries.map Prod.fst).Perm keys.dedup ∧ registry.size = keys.dedup.length) := by
  intro most keys after
  have hmost : plan.limit = most := Settings.limit_of_check hcheck
  have hnew : Sound plan keys { opening plan settings.cleanupPeriod with now } (new lines) :=
    ⟨[], [], .free (tallies_opening plan settings.cleanupPeriod now), rfl, rfl⟩
  obtain ⟨hsound, hwork⟩ := hnew.follow hswept
  obtain ⟨seen, hand, hstands, hdecisions, hkeys⟩ := id hsound
  change after.2.decisions = _ at hdecisions
  refine ⟨?_, ?_, ?_⟩
  · intro place decision hdecision
    rw [hdecisions, getElem?_verdicts] at hdecision
    obtain ⟨key, hkey, rfl⟩ := Option.map_eq_some_iff.mp hdecision
    have hlt := (List.getElem?_eq_some_iff.mp hkey).1
    have htake : keys.take (place + 1) = seen.reverse.take (place + 1) := by
      rw [← hkeys, List.append_assoc, List.take_append_of_le_length hlt]
    refine ⟨key, ?_, ?_⟩
    · rw [← hkeys, List.append_assoc, List.getElem?_append_left hlt, hkey]
    · rw [htake, verdict, hmost]
  · intro hmany
    have hnone : after.2.work = 0 := by
      have hall : (new lines).work = 5 * lines.length := rfl
      change after.2.work ≤ _ at hwork
      omega
    exact hsound.isDone hnone
  · intro hdone
    change Stands plan after.1 seen after.2.stage? hand at hstands
    change _ ++ after.2.lines.filterMap keyInLine? = keys at hkeys
    rw [hdone.2] at hstands
    cases hstands with
    | free tallies =>
      have hseen : seen.reverse = keys := by
        rw [← hkeys, hdone.1, List.filterMap_nil, List.append_nil, List.append_nil]
      obtain ⟨registry, hregistry, htallies⟩ := tallies.registry
      have hperm : (registry.entries.map Prod.fst).Perm keys.dedup :=
        htallies.keys.trans (hseen ▸ seen.reverse_perm.symm.dedup)
      refine ⟨?_, registry, hregistry, hperm, ?_⟩
      · rw [hdecisions, length_verdicts, ← hseen, List.length_reverse]
      · rw [Registry.size, ← hperm.length_eq, List.length_map]

/-- Two units are allowed. One key comes three times, with blanks around it, and another one once.
There are sweeps before the first line, after a key was counted, before one is counted again, and in
the end. -/
theorem decides_batch_third_is_denied :
    let settings : Settings := { limiter := { maxEvents := 2 } }
    let plan : Plan := ⟨2, 1000000000, 10, by decide, by decide, by decide, by decide⟩
    let sweep : Occasion := .others (.sweep keyRegistry)
    let steps (many : Nat) : List Occasion := .replicate many .turn
    let schedule := sweep :: steps 3 ++ sweep :: steps 10 ++ sweep :: steps 3 ++
      .others .runSweepers :: steps 12 ++ [sweep]
    let after := task.follow { opening plan settings.cleanupPeriod with now := -5 }
      (new [" a", " ", "b", "a\r", "a"]) schedule
    after.2.decisions = [⟨"a", true, 2, 1, 0, 0⟩, ⟨"b", true, 2, 1, 0, 0⟩, ⟨"a", true, 2, 0, 0, 0⟩,
      ⟨"a", false, 2, 0, 1000, 0⟩] ∧
    ∃ registry, after.1.registryAt keyRegistry = some registry ∧ registry.size = 2 := by
  intro settings plan sweep steps schedule after
  have hswept : Swept { opening plan settings.cleanupPeriod with now := -5 }
      (new [" a", " ", "b", "a\r", "a"]) schedule := by
    rw [Swept]
    decide +kernel
  obtain ⟨-, henough, hdone⟩ := decides_batch settings plan (by decide +kernel) (-5)
    [" a", " ", "b", "a\r", "a"] schedule hswept
  obtain ⟨-, registry, hregistry, -, hsize⟩ := hdone (henough (by decide +kernel))
  exact ⟨by decide +kernel, registry, hregistry, hsize.trans (by decide +kernel)⟩

/-- **A sweep can cost a key its first limiter.** One unit is allowed. The limiter of a new key is
forgotten between the two steps with which the key is entered and counted, and so its next line is let
through as well. -/
theorem decides_batch_second_is_allowed :
    let settings : Settings := { limiter := { maxEvents := 1 } }
    let plan : Plan := ⟨1, 1000000000, 10, by decide, by decide, by decide, by decide⟩
    let schedule : List Occasion := [.turn, .turn, .others (.sweep keyRegistry), .turn, .turn, .turn,
      .turn, .turn, .turn, .turn, .turn]
    let after := task.follow (opening plan settings.cleanupPeriod) (new ["k", "k"]) schedule
    settings.check = .ok plan ∧ after.2.IsDone ∧
      after.2.decisions = [⟨"k", true, 1, 0, 0, 0⟩, ⟨"k", true, 1, 0, 0, 0⟩] := by
  decide +kernel

end Clerk

end Throttle

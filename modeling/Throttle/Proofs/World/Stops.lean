import Throttle.Proofs.Scope.Ancestry
import Throttle.Timeline

/-!
# Where the clock stops

While somebody waits, the clock jumps from timer to timer. All timers fire at whole milliseconds. The
clock keeps its place within the millisecond when it jumps, and so two timers that fire at different
instants are seen apart. Where it stops, others first do what has come due: of all their actions only
cancellations matter to a scope, and only those of the scope and of the ones it was derived from.

## Main definitions

* `ScopeTree.reaches` — whether an effect ends a scope.

## Main statements

* `nextAlarm_le`, `nextAlarm_mem` — the clock jumps to a timer, and past none.
* `max_jump` — stops on the way do not change where the clock will be at an instant.
* `isCancelled_runOthers` — which scopes others cancel.
-/

namespace Throttle

/-! ## Timers -/

namespace Time

/-- Timers that fire at different instants do so a millisecond apart at least. -/
theorem tick_add_le_tick {s t : Int} (h : tick s < tick t) : tick s + millisecond ≤ tick t := by
  simp only [tick, millisecond] at h ⊢
  omega

theorem tick_mod (t : Int) : tick t % millisecond = 0 := by
  simp only [tick, millisecond]
  omega

end Time

namespace World

section Alarms

variable {now alarm : Int}

theorem nextAlarm_cons (now limit first : Int) (alarms : List Int) :
    nextAlarm now limit (first :: alarms) =
      nextAlarm now (if now < first then min first limit else limit) alarms := rfl

theorem nextAlarm_le_limit (now limit : Int) (alarms : List Int) :
    nextAlarm now limit alarms ≤ limit := by
  induction alarms generalizing limit with
  | nil => exact Int.le_refl limit
  | cons first alarms ih =>
    rw [nextAlarm_cons]
    apply Int.le_trans (ih _)
    split <;> omega

/-- The clock jumps past no timer. -/
theorem nextAlarm_le (limit : Int) {alarms : List Int} (hmem : alarm ∈ alarms)
    (hlt : now < alarm) : nextAlarm now limit alarms ≤ alarm := by
  induction alarms generalizing limit with
  | nil => cases hmem
  | cons first alarms ih =>
    rw [nextAlarm_cons]
    rcases List.mem_cons.mp hmem with rfl | hmem
    · apply Int.le_trans (nextAlarm_le_limit ..)
      rw [if_pos hlt]
      exact Int.min_le_left ..
    · exact ih _ hmem

/-- The clock jumps to a timer or to the limit. -/
theorem nextAlarm_mem (now limit : Int) (alarms : List Int) :
    nextAlarm now limit alarms ∈ limit :: alarms := by
  induction alarms generalizing limit with
  | nil => exact List.mem_cons_self
  | cons first alarms ih =>
    rw [nextAlarm_cons]
    rcases List.mem_cons.mp (ih (if now < first then min first limit else limit)) with heq | hmem
    · rw [heq]
      split
      · rcases Int.le_total first limit with hle | hle
        · rw [Int.min_eq_left hle]
          simp
        · rw [Int.min_eq_right hle]
          simp
      · simp
    · simp [hmem]

theorem jump_eq (now alarm : Int) : jump now alarm = alarm + now % Time.millisecond := by
  simp only [jump, Time.millisecond]
  omega

end Alarms

/-- All timers fire at whole milliseconds. -/
theorem exists_tick_of_mem_alarms {world : World} {activity : Activity} {actions : List Action}
    {alarm : Int} (h : alarm ∈ world.alarms activity actions) : ∃ due, alarm = Time.tick due := by
  simp only [alarms, List.mem_append, List.mem_map, List.mem_flatMap] at h
  rcases h with (h | ⟨action, -, rfl⟩) | ⟨swept, -, h⟩
  · cases activity with
    | pause until? =>
      simp only [Activity.alarms, Option.mem_toList, Option.map_eq_some_iff] at h
      obtain ⟨due, -, rfl⟩ := h
      exact ⟨due, rfl⟩
    | wait scope until? =>
      simp only [Activity.alarms, List.mem_append, Option.mem_toList, Option.map_eq_some_iff] at h
      rcases h with ⟨due, -, rfl⟩ | ⟨due, -, rfl⟩ <;> exact ⟨due, rfl⟩
    | admission admission until? =>
      simp only [Activity.alarms, List.mem_append, Option.mem_toList, Option.map_eq_some_iff] at h
      rcases h with ⟨due, -, rfl⟩ | ⟨due, -, rfl⟩ <;> exact ⟨due, rfl⟩
  · exact ⟨action.due, rfl⟩
  · rw [Sweeper.alarms] at h
    split at h
    · cases h
    · cases h
    · rename_i due _
      exact ⟨due, List.mem_singleton.mp h⟩
    · rename_i due _
      simp only [List.mem_cons, Option.mem_toList, Option.map_eq_some_iff] at h
      rcases h with rfl | ⟨deadline, -, rfl⟩
      · exact ⟨due, rfl⟩
      · exact ⟨deadline, rfl⟩

/-- The clock jumps to a whole millisecond. -/
theorem nextAlarm_mod (now patience : Int) (world : World) (activity : Activity)
    (actions : List Action) :
    nextAlarm now (Time.tick patience) (world.alarms activity actions) % Time.millisecond = 0 := by
  have hmem := nextAlarm_mem now (Time.tick patience) (world.alarms activity actions)
  rcases List.mem_cons.mp hmem with heq | hmem
  · rw [heq, Time.tick_mod]
  · obtain ⟨due, hdue⟩ := exists_tick_of_mem_alarms hmem
    rw [hdue, Time.tick_mod]

/-- The clock is where it will be at an instant that has come. -/
theorem eq_max_of_le {now instant : Int} (hwhole : instant % Time.millisecond = 0)
    (hle : instant ≤ now) : now = max now (instant + now % Time.millisecond) := by
  simp only [Time.millisecond] at hwhole ⊢
  omega

/-- A jump on the way to an instant does not change where the clock will be then. -/
theorem max_jump {now alarm instant : Int} (hwhole : alarm % Time.millisecond = 0)
    (hbefore : alarm ≤ instant) (hlt : now < instant) :
    max (jump now alarm) (instant + jump now alarm % Time.millisecond) =
      max now (instant + now % Time.millisecond) := by
  simp only [jump_eq, Time.millisecond] at hwhole ⊢
  omega

end World

/-! ## What others do -/

/-- Whether an effect ends a scope: it cancels it, or one that it was derived from. -/
def ScopeTree.reaches (tree : ScopeTree) (scope : Scope) : Effect → Bool
  | .cancel other => (tree.ancestry scope.node).contains other.node
  | .advance _ _ => false

namespace World

@[simp] theorem now_apply (world : World) (effect : Effect) :
    (world.apply effect).now = world.now := by
  cases effect <;> rfl

theorem ancestry_apply (world : World) (effect : Effect) (node : Nat) :
    (world.apply effect).scopes.ancestry node = world.scopes.ancestry node := by
  cases effect with
  | cancel other => exact ScopeTree.ancestry_cancel ..
  | advance clock span => rfl

theorem reaches_apply (world : World) (effect other : Effect) (scope : Scope) :
    (world.apply effect).scopes.reaches scope other = world.scopes.reaches scope other := by
  cases other with
  | cancel => rw [ScopeTree.reaches, ancestry_apply]; rfl
  | advance => rfl

/-- **An effect cancels the scopes that it reaches**, and no others. -/
theorem isCancelled_apply (world : World) (effect : Effect) (scope : Scope) :
    (world.apply effect).scopes.isCancelled scope.node =
      (world.scopes.isCancelled scope.node || world.scopes.reaches scope effect) := by
  cases effect with
  | advance clock span => exact (Bool.or_false _).symm
  | cancel other =>
    by_cases hlt : other.node < world.scopes.nodes.size
    · exact ScopeTree.isCancelled_cancel _ hlt scope.node
    · -- There is no such node: nothing is cancelled, and nobody was derived from it.
      have hnobody : other.node ∉ world.scopes.ancestry scope.node := by
        intro hmem
        exact hlt (ScopeTree.lt_size_of_mem_ancestry hmem)
      have hreaches : world.scopes.reaches scope (.cancel other) = false := by
        simpa [ScopeTree.reaches] using hnobody
      rw [apply, ScopeTree.cancel_of_le _ (Nat.not_lt.mp hlt), hreaches, Bool.or_false]

theorem isCancelled_foldl_apply (fired : List Action) (world : World) (scope : Scope) :
    (fired.foldl (fun world action => world.apply action.effect) world).scopes.isCancelled
        scope.node =
      (world.scopes.isCancelled scope.node ||
        fired.any fun action => world.scopes.reaches scope action.effect) := by
  induction fired generalizing world with
  | nil => simp
  | cons action fired ih =>
    rw [List.foldl_cons, ih, isCancelled_apply, List.any_cons, Bool.or_assoc]
    simp only [reaches_apply]

theorem reaches_foldl_apply (fired : List Action) (world : World) (scope : Scope)
    (effect : Effect) :
    (fired.foldl (fun world action => world.apply action.effect) world).scopes.reaches scope
      effect = world.scopes.reaches scope effect := by
  induction fired generalizing world with
  | nil => rfl
  | cons action fired ih => rw [List.foldl_cons, ih, reaches_apply]

theorem now_foldl_apply (fired : List Action) (world : World) :
    (fired.foldl (fun world action => world.apply action.effect) world).now = world.now := by
  induction fired generalizing world with
  | nil => rfl
  | cons action fired ih => rw [List.foldl_cons, ih, now_apply]

/-- The actions whose timers have fired are done, and those that have not are left. -/
theorem act_eq (world : World) (actions : List Action) :
    world.act actions =
      ((actions.filter fun action => Time.tick action.due ≤ world.now).foldl
        (fun world action => world.apply action.effect) world,
        actions.filter fun action => world.now < Time.tick action.due) := by
  rw [act, List.partition_eq_filter_filter]
  refine Prod.ext rfl (List.filter_congr fun action _ => ?_)
  by_cases hle : Time.tick action.due ≤ world.now
  · simp [hle, Int.not_lt.mpr hle]
  · simp [hle, Int.not_le.mp hle]

section Others

variable (world : World) (actions : List Action)

@[simp] theorem now_runOthers : (world.runOthers actions).1.now = world.now := by
  rw [runOthers, act_eq]
  exact now_foldl_apply ..

theorem snd_runOthers : (world.runOthers actions).2 =
    actions.filter fun action => world.now < Time.tick action.due := by
  rw [runOthers, act_eq]

theorem isCancelled_runOthers (scope : Scope) :
    (world.runOthers actions).1.scopes.isCancelled scope.node =
      (world.scopes.isCancelled scope.node ||
        (actions.filter fun action => Time.tick action.due ≤ world.now).any
          fun action => world.scopes.reaches scope action.effect) := by
  rw [runOthers, act_eq]
  exact isCancelled_foldl_apply ..

theorem reaches_runOthers (scope : Scope) (effect : Effect) :
    (world.runOthers actions).1.scopes.reaches scope effect =
      world.scopes.reaches scope effect := by
  rw [runOthers, act_eq]
  exact reaches_foldl_apply ..

end Others

end World

end Throttle

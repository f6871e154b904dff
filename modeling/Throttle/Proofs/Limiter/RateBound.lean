import Throttle.Proofs.Limiter.Desk

/-!
# The rate bound of a limiter

However its permits are used and whatever else it is asked in between, a limiter lets no more than
its limit through in any span of its reach, and no more than twice its limit in any interval. The
clock must not go back during the run. It may show less than it did when the limiter was made: until
it has caught up, the window takes it to stand still.
-/

namespace Throttle

/-! ## Readings from before the window -/

/-- A recording as a window sees it that did not exist before `opened`. -/
def Recording.late (opened : Int) (entry : Recording) : Recording :=
  ⟨max opened entry.instant, entry.units⟩

theorem unitsWhere_map_late (opened : Int) (ledger : List Recording) (p : Int → Bool) :
    unitsWhere (ledger.map (Recording.late opened)) p =
      unitsWhere ledger fun instant => p (max opened instant) := by
  induction ledger with
  | nil => rfl
  | cons entry ledger ih => rw [List.map_cons, unitsWhere_cons, unitsWhere_cons, ih]; rfl

theorem map_late_entries (opened now : Int) (recorded : Option Nat) :
    (Window.entries now recorded).map (Recording.late opened) =
      Window.entries (max opened now) recorded := by
  cases recorded <;> rfl

/-- Moving early recordings together does not hide that a span holds too much. -/
theorem Plan.Bounds.of_late {plan : Plan} {opened : Int} {ledger : List Recording}
    (h : plan.Bounds (ledger.map (Recording.late opened))) : plan.Bounds ledger := by
  intro start finish hspan
  have hmoved : unitsWithin ledger start finish ≤
      unitsWithin (ledger.map (Recording.late opened)) (max opened start) (max opened finish) := by
    rw [unitsWithin, unitsWithin, unitsWhere_map_late]
    refine unitsWhere_mono fun entry _ hin => ?_
    simp only [decide_eq_true_eq] at hin ⊢
    omega
  exact Nat.le_trans hmoved (h _ _ (by omega))

/-- At a reading from before its start a window stands as it does at its start. -/
theorem Window.advance_max {window : Window} {opened : Int} (h : opened ≤ window.start)
    (now : Int) : window.advance (max opened now) = window.advance now := by
  by_cases hnow : opened ≤ now
  · rw [Int.max_eq_right hnow]
  · have hpos := window.plan.width_pos
    rw [advance_eq_self (by omega), advance_eq_self (by omega)]

theorem Window.Move.late {window after : Window} {opened now : Int} {recorded : Option Nat}
    (m : Window.Move now window recorded after) (h : opened ≤ window.start) :
    Window.Move (max opened now) window recorded after := by
  cases m with
  | stay => exact .stay
  | turn => exact advance_max h now ▸ .turn
  | record room =>
    rw [← advance_max h now] at room ⊢
    exact .record room

/-! ## Runs -/

namespace Desk

/-- A desk that was opened at `opened` and has kept to its plan: the ledger holds what was let
through until the clock showed `last`. -/
structure Keeps (opened last : Int) (desk : Desk) (ledger : List Recording) : Prop where
  represents : desk.limiter.window.Represents (ledger.map (Recording.late opened))
  bounds : desk.limiter.window.plan.Bounds (ledger.map (Recording.late opened))
  withinLimit : desk.limiter.window.WithinLimit
  opened_le : opened ≤ desk.limiter.window.start
  start_le : desk.limiter.window.start ≤ max opened last

theorem keeps_opening (policy : Policy) (opened last : Int) :
    (opening policy opened).Keeps opened last [] where
  represents := by
    rw [opening, policy.make_eq]
    exact Window.represents_fresh rfl (by simp)
  bounds := Plan.bounds_nil _
  withinLimit := policy.withinLimit_make opened
  opened_le := Int.le_refl _
  start_le := Int.le_max_left _ _

/-- One call: what it lets through goes to the ledger. -/
theorem Keeps.serve {opened last now : Int} {desk : Desk} {ledger : List Recording}
    (h : desk.Keeps opened last ledger) (hnow : last ≤ now) (call : Call) :
    (desk.serve now call).1.Keeps opened now
      (ledger ++ Window.entries now (desk.serve now call).2.recorded) := by
  have hmove := (desk.move_serve now call).late h.opened_le
  have hstart : desk.limiter.window.start ≤ max opened now := by
    have := h.start_le
    omega
  constructor
  · rw [List.map_append, map_late_entries]
    exact h.represents.move h.withinLimit hstart hmove
  · rw [List.map_append, map_late_entries, plan_serve]
    exact h.represents.bounds_move h.withinLimit hstart h.bounds hmove
  · exact h.withinLimit.move hmove
  · exact Int.le_trans h.opened_le hmove.le_start
  · exact hmove.start_le hstart

theorem Keeps.run {opened last : Int} {desk : Desk} {ledger : List Recording}
    (h : desk.Keeps opened last ledger) (calls : List (Int × Call))
    (hcalls : (last :: readings calls).Pairwise (· ≤ ·)) :
    desk.limiter.window.plan.Bounds (ledger ++ recordings (desk.run calls).2) := by
  induction calls generalizing last desk ledger with
  | nil => simpa using h.bounds.of_late
  | cons event calls ih =>
    obtain ⟨now, call⟩ := event
    have hnow := (List.pairwise_cons.mp hcalls).1 now List.mem_cons_self
    have hrest := ih (h.serve hnow call) (List.pairwise_cons.mp hcalls).2
    rw [plan_serve, List.append_assoc] at hrest
    exact hrest

/-- **The rate bound of a limiter.** In a run of calls during which its clock does not go back, a
limiter lets through no more than its limit in a closed span of time that is no longer than all
segments but one, and no more than twice its limit in one that is no longer than the interval. -/
theorem unitsWithin_run_le (policy : Policy) (opened : Int) (calls : List (Int × Call))
    (hcalls : (readings calls).Pairwise (· ≤ ·)) (start finish : Int) :
    (finish - start ≤ ((policy.plan.segments - 1) * policy.plan.width : Nat) →
      unitsWithin (recordings ((opening policy opened).run calls).2) start finish
        ≤ policy.plan.limit) ∧
    (finish - start ≤ policy.plan.interval →
      unitsWithin (recordings ((opening policy opened).run calls).2) start finish
        ≤ 2 * policy.plan.limit) := by
  have hbounds : policy.plan.Bounds (recordings ((opening policy opened).run calls).2) := by
    -- Nothing is asked of the reading at which the limiter was made.
    obtain ⟨last, hlast⟩ := exists_reading_before hcalls
    exact (keeps_opening policy opened last).run calls hlast
  exact ⟨hbounds start finish, hbounds.twice⟩

/-- Both bounds are reached. A pair of units that is let through late in its segment is turned out
with the segment, seven nanoseconds later, and another pair takes its place. -/
theorem unitsWithin_run_two_pairs :
    let calls : List (Int × Call) :=
      [(2, .request 2), (2, .use 0), (5, .request 2), (8, .use 1), (9, .use 1)]
    let ledger := recordings ((opening .twoInTen 0).run calls).2
    (readings calls).Pairwise (· ≤ ·) ∧
      (unitsWithin ledger 2 8 = 2 ∧ unitsWithin ledger 2 8 ≤ 2) ∧
      (unitsWithin ledger 2 9 = 4 ∧ unitsWithin ledger 2 9 ≤ 2 * 2) := by
  refine ⟨by decide, ⟨by decide +kernel, ?_⟩, ⟨by decide +kernel, ?_⟩⟩
  · exact (unitsWithin_run_le .twoInTen 0 _ (by decide) 2 8).1 (by decide)
  · exact (unitsWithin_run_le .twoInTen 0 _ (by decide) 2 9).2 (by decide)

end Desk

end Throttle

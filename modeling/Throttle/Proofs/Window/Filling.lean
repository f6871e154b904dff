import Throttle.Proofs.Window.Reset

/-!
# Filling a window at one instant

A window that was made at an instant is filled at this instant, one unit at a time, until there is no
more room. All of its units are in the newest segment, so room comes back when this segment leaves the
window.

## Main definitions

* `Window.filled` — the window when some number of units were asked for.

## Main statements

* `Window.record_filled` — one more unit.
* `Window.resetsAt_filled` — when room comes back to a full window.
-/

namespace Throttle.Window

/-- The window that was made at `now`, when `asked` units were asked for: as many of them are recorded
as there is room for. -/
def filled (plan : Plan) (now : Int) (asked : Nat) : Window :=
  (fresh plan now).record (min asked plan.limit)

variable {plan : Plan} {now : Int} {asked : Nat}

@[simp] theorem plan_filled : (filled plan now asked).plan = plan := rfl

@[simp] theorem start_filled : (filled plan now asked).start = now := rfl

/-- At the instant at which it was made, looking at it changes nothing. -/
@[simp] theorem advance_filled : (filled plan now asked).advance now = filled plan now asked := by
  apply advance_eq_self
  have hwidth := plan.width_pos
  rw [start_filled, plan_filled]
  omega

@[simp] theorem total_filled : (filled plan now asked).total = min asked plan.limit := by
  have hzero : (fresh plan now).total = 0 := by rw [total_eq_left, left_fresh]
  have hfits : (fresh plan now).total + min asked plan.limit ≤ Count.largest := by
    have hlimit := plan.limit_le
    omega
  rw [filled, total_record hfits, hzero, Nat.zero_add]

@[simp] theorem available_filled : (filled plan now asked).available = plan.limit - asked := by
  rw [available, total_filled, plan_filled]
  omega

theorem one_le_available_filled_iff : 1 ≤ (filled plan now asked).available ↔ asked < plan.limit := by
  rw [available_filled]
  omega

/-! ## One unit after the other -/

theorem addNewest_addNewest (first second : Nat) (counts : List Nat) :
    addNewest second (addNewest first counts) = addNewest (first + second) counts := by
  fun_induction addNewest first counts with
  | case1 => rfl
  | case2 newest =>
    have hsum : Count.add (Count.add newest first) second = Count.add newest (first + second) := by
      simp only [Count.add]
      omega
    simp only [addNewest, hsum]
  | case3 count rest hrest ih =>
    have hmore : addNewest first rest ≠ [] := by
      intro hnil
      apply hrest
      rw [← List.length_eq_zero_iff, ← length_addNewest first rest, hnil]
      rfl
    rw [addNewest.eq_3 _ _ _ hmore, addNewest.eq_3 _ _ _ hrest, ih]

theorem record_record (window : Window) (first second : Nat) :
    (window.record first).record second = window.record (first + second) := by
  apply eq_of_counts_of_start
  · rfl
  · exact addNewest_addNewest first second window.counts
  · rfl

/-- Nothing was asked for yet. -/
theorem filled_zero : filled plan now 0 = fresh plan now := by
  have hnone : ∀ segments, addNewest 0 (List.replicate segments 0) = List.replicate segments 0 := by
    intro segments
    induction segments with
    | zero => rfl
    | succ segments ih =>
      cases segments with
      | zero => rfl
      | succ segments =>
        simp only [List.replicate_succ, addNewest] at ih ⊢
        rw [ih]
  apply eq_of_counts_of_start
  · rfl
  · simp only [filled, record, fresh, Nat.zero_min]
    exact hnone plan.segments
  · rfl

/-- **One more unit**, if there is room for it. -/
theorem record_filled (hroom : asked < plan.limit) :
    (filled plan now asked).record 1 = filled plan now (asked + 1) := by
  have hbefore : min asked plan.limit = asked := by omega
  have hafter : min (asked + 1) plan.limit = asked + 1 := by omega
  rw [filled, filled, record_record, hbefore, hafter]

/-- A full window stays as it is. -/
theorem filled_succ (hroom : plan.limit ≤ asked) :
    filled plan now (asked + 1) = filled plan now asked := by
  have hbefore : min asked plan.limit = plan.limit := by omega
  have hafter : min (asked + 1) plan.limit = plan.limit := by omega
  rw [filled, filled, hbefore, hafter]

/-! ## Full windows -/

theorem turnsToFree_addNewest {need units : Nat} (hneed : 0 < need) (hunits : need ≤ units)
    (hcount : units ≤ Count.largest) (segments : Nat) :
    turnsToFree need (addNewest units (List.replicate (segments + 1) 0)) = some (segments + 1) := by
  have hadd : Count.add 0 units = units := by
    simp only [Count.add]
    omega
  induction segments with
  | zero => simp [addNewest, turnsToFree, hadd, hunits]
  | succ segments ih =>
    have hless : ¬ need ≤ 0 := Nat.not_le.mpr hneed
    rw [List.replicate_succ, List.replicate_succ] at *
    simp only [addNewest, turnsToFree, hless, if_false, Nat.sub_zero]
    rw [ih]
    rfl

/-- **Room comes back to a full window** when the newest segment leaves it. -/
theorem resetsAt_filled (hfull : plan.limit ≤ asked) :
    (filled plan now asked).resetsAt now 1 = now + (plan.width * plan.segments : Nat) := by
  have havailable : (filled plan now asked).available = 0 := by
    rw [available_filled]
    omega
  have hunits : min asked plan.limit = plan.limit := by omega
  have hcounts : (filled plan now asked).counts =
      addNewest plan.limit (List.replicate plan.segments 0) := by
    simp only [filled, record, fresh, hunits]
  have hsegments : plan.segments - 1 + 1 = plan.segments := by
    have htwo := plan.two_le_segments
    omega
  have hturns := turnsToFree_addNewest Nat.one_pos plan.limit_pos plan.limit_le (plan.segments - 1)
  rw [hsegments] at hturns
  have helapsed : Time.elapsed now now = 0 := by simp [Time.elapsed]
  rw [resetsAt, havailable, hcounts, hturns, start_filled, helapsed]
  simp

end Throttle.Window

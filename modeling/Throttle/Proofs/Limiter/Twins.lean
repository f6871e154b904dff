import Throttle.Proofs.Limiter.Desk

/-!
# Limiters that decide alike

Two windows can count the same from some instant on although their segments do not start at the same
instants. While that is so, desks with such windows let the same through and tell of the same room;
only the instants that they announce may differ. It remains so while nothing is recorded. It remains
so after a recording if the segments in which it falls start at the same instant, and only then.

## Main definitions

* `Window.Twins` — two windows that count the same from now on.
* `Desk.Answer.decision` — an answer, unless it announces when there will be room.

## Main statements

* `Desk.serve_of_agrees` — desks that agree decide alike.
* `Window.Twins.move` — what keeps windows twins.
* `Window.Twins.exists_available_ne` — after a recording on different grids they are twins no more.
-/

namespace Throttle

/-! ## Deciding alike -/

theorem Limiter.use_of_available_eq {first second : Limiter} {now : Int}
    (h : (first.advance now).available = (second.advance now).available) (permit : Permit) :
    (first.use permit now).permit = (second.use permit now).permit ∧
      (first.use permit now).refusal = (second.use permit now).refusal := by
  by_cases hused : permit.used = true
  · rw [use, use, if_pos hused, if_pos hused]
    exact ⟨rfl, rfl⟩
  · rw [use, use, if_neg hused, if_neg hused]
    simp only [h]
    split <;> exact ⟨rfl, rfl⟩

namespace Desk

/-- An answer that is a decision: all answers are, but for those that announce when there will be
room. -/
def Answer.decision : Answer → Option Answer
  | .instant _ => none
  | .span _ => none
  | answer => some answer

theorem Answer.recorded_eq (answer : Answer) : answer.recorded = answer.decision.bind recorded := by
  cases answer <;> rfl

theorem ask_of_permits_eq {first second : Desk} (h : first.permits = second.permits) (now : Int)
    (number : Nat) {tell : Limiter → Permit → Answer}
    (htell : ∀ permit, (tell (first.limiter.advance now) permit).decision =
      (tell (second.limiter.advance now) permit).decision) :
    (first.ask now number tell).1.permits = (second.ask now number tell).1.permits ∧
      (first.ask now number tell).2.decision = (second.ask now number tell).2.decision := by
  rw [ask, ask, h]
  split
  · exact ⟨h, rfl⟩
  · exact ⟨rfl, htell _⟩

/-- **Desks that agree decide alike**, and their permits stay the same. -/
theorem serve_of_agrees {first second : Desk} {now : Int} (hpermits : first.permits = second.permits)
    (hagrees : first.limiter.window.Agrees now second.limiter.window) (call : Call) :
    (first.serve now call).1.permits = (second.serve now call).1.permits ∧
      (first.serve now call).2.decision = (second.serve now call).2.decision := by
  have hroom : (first.limiter.advance now).available = (second.limiter.advance now).available :=
    hagrees.available_eq (Int.le_refl now)
  cases call with
  | single => exact ⟨congrArg (· ++ [Limiter.single]) hpermits, rfl⟩
  | request units =>
    have hrequest : first.limiter.request units = second.limiter.request units := by
      rw [Limiter.request, Limiter.request, Limiter.limit, Limiter.limit, hagrees.plan_eq]
    rw [serve, serve, hrequest]
    split
    · exact ⟨hpermits, rfl⟩
    · exact ⟨congrArg (· ++ [_]) hpermits, rfl⟩
  | use number =>
    rw [serve, serve, hpermits]
    split
    · exact ⟨hpermits, rfl⟩
    · rename_i permit _
      obtain ⟨hpermit, hrefusal⟩ := Limiter.use_of_available_eq hroom permit
      exact ⟨congrArg (second.permits.set number) hpermit,
        congrArg (fun refusal => Answer.decision (.used permit.units refusal)) hrefusal⟩
  | allows number =>
    refine ask_of_permits_eq hpermits now number fun permit => ?_
    rw [Limiter.allows, Limiter.allows, hroom]
  | resetsAt number => exact ask_of_permits_eq hpermits now number fun _ => rfl
  | retryAfter number => exact ask_of_permits_eq hpermits now number fun _ => rfl
  | available ended =>
    cases ended with
    | none => exact ⟨hpermits, congrArg (fun room => Answer.decision (.room room)) hroom⟩
    | some reason => exact ⟨hpermits, rfl⟩

end Desk

/-! ## Twins -/

namespace Window

/-- Two windows that count the same from `now` on, on grids that may differ. -/
structure Twins (now : Int) (first second : Window) : Prop where
  agrees : first.Agrees now second
  start_le : first.start ≤ now ∧ second.start ≤ now
  withinLimit : first.WithinLimit ∧ second.WithinLimit

namespace Twins

variable {now : Int} {first second first' second' : Window}

theorem symm (h : first.Twins now second) : second.Twins now first :=
  ⟨h.agrees.symm, h.start_le.symm, h.withinLimit.symm⟩

theorem later {later : Int} (h : first.Twins now second) (hlater : now ≤ later) :
    first.Twins later second :=
  ⟨h.agrees.later hlater,
    ⟨Int.le_trans h.start_le.1 hlater, Int.le_trans h.start_le.2 hlater⟩, h.withinLimit⟩

theorem plan_eq (h : first.Twins now second) : first.plan = second.plan := h.agrees.plan_eq

/-- A window that counts nothing is a twin of a fresh one. -/
theorem of_total_eq_zero {window : Window} (hstart : window.start ≤ now)
    (hlimit : window.WithinLimit) (hempty : (window.advance now).total = 0) :
    window.Twins now (fresh window.plan now) where
  agrees := by
    refine ⟨rfl, fun later hlater turns => ?_⟩
    have hturns : window.turnsAt now ≤ window.turnsAt later + turns :=
      Nat.le_add_right_of_le (window.turnsAt_mono hlater)
    have hless := window.left_antitone hturns
    rw [← total_advance, hempty] at hless
    rw [left_advance, left_advance, left_fresh, Nat.le_zero.mp hless]
  start_le := ⟨hstart, Int.le_refl now⟩
  withinLimit := ⟨hlimit, withinLimit_fresh window.plan now⟩

/-- **What keeps windows twins**: what records nothing, and what records the same units on the same
grid. -/
theorem move {recorded : Option Nat} (h : first.Twins now second)
    (m : Move now first recorded first') (m' : Move now second recorded second')
    (hgrid : recorded = none ∨ (first.advance now).start = (second.advance now).start) :
    first'.Twins now second' where
  agrees := by
    cases hr : recorded with
    | none =>
      subst hr
      exact ((m.agrees h.start_le.1).trans h.agrees).trans (m'.agrees h.start_le.2).symm
    | some units =>
      subst hr
      have hsame := h.agrees.advance_eq (hgrid.resolve_left (Option.some_ne_none units))
      cases m
      cases m'
      rw [hsame]
      exact .refl _ _
  start_le := ⟨m.start_le h.start_le.1, m'.start_le h.start_le.2⟩
  withinLimit := ⟨h.withinLimit.1.move m, h.withinLimit.2.move m'⟩

/-- The windows after a recording, where the first one's segment started earlier. -/
theorem exists_available_ne_of_lt {units : Nat} (h : first.Twins now second) (hpos : 0 < units)
    (m : Move now first (some units) first') (m' : Move now second (some units) second')
    (hgrid : (first.advance now).start < (second.advance now).start) :
    ∃ later, now ≤ later ∧ (first'.advance later).available ≠ (second'.advance later).available := by
  have hplan : first'.plan = second'.plan := by rw [m.plan_eq, m'.plan_eq, h.plan_eq]
  have hlimit := h.withinLimit.2.move m'
  cases m with
  | record room =>
    cases m' with
    | record room' =>
      have hfits := (h.withinLimit.1.advance now).fits_count room
      have hfits' := (h.withinLimit.2.advance now).fits_count room'
      have hleft : ∀ turns, ((first.advance now).record units).left turns =
          ((second.advance now).record units).left turns := by
        intro turns
        rw [left_record hfits, left_record hfits', h.agrees.left_eq now (Int.le_refl now),
          plan_advance, plan_advance, h.plan_eq]
      have hstart := start_advance_le h.start_le.2
      have hend := first.lt_start_advance_add_width now
      obtain ⟨later, hlater, hless⟩ := exists_total_advance_lt hplan hleft hgrid
        (by rw [plan_record, plan_advance]; exact Int.lt_of_le_of_lt hstart hend)
        (by rw [total_record hfits]; omega)
      rw [plan_record, plan_advance] at hlater
      refine ⟨later, Int.le_trans (Int.le_of_lt hend) hlater, ?_⟩
      have hroom := hlimit.advance later
      rw [WithinLimit] at hroom
      rw [available, available]
      rw [plan_advance, hplan, ← plan_advance _ later]
      omega

/-- **After a recording on different grids the windows are twins no more**: at some later instant
there is more room in one of them. -/
theorem exists_available_ne {units : Nat} (h : first.Twins now second) (hpos : 0 < units)
    (m : Move now first (some units) first') (m' : Move now second (some units) second')
    (hgrid : (first.advance now).start ≠ (second.advance now).start) :
    ∃ later, now ≤ later ∧ (first'.advance later).available ≠ (second'.advance later).available := by
  rcases Int.lt_or_gt_of_ne hgrid with hlt | hgt
  · exact h.exists_available_ne_of_lt hpos m m' hlt
  · obtain ⟨later, hlater, hne⟩ := h.symm.exists_available_ne_of_lt hpos m' m hgt
    exact ⟨later, hlater, hne.symm⟩

end Twins

end Window

end Throttle

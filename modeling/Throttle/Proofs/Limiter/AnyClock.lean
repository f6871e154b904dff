import Throttle.Proofs.Limiter.Spending
import Throttle.Proofs.Window.Journal

/-!
# Whichever way the clock goes

A clock that is set by hand may go back, and then a window is looked at before it starts. Some of what
holds of a window does not depend on the clock at all: its numbers stay what they are, its newest segment
never starts earlier than before, whoever looks at it finds the present instant before the end of that
segment, looking takes nothing in, and what is recorded goes into the newest segment. A limiter records
only what it has found room for in the window that it has just turned, and so it never counts more than
its limit.

A window that is restarted is a new one. Its newest segment starts at the instant it is restarted at,
whenever the old one started.

## Main statements

* `Window.start_le_start_run` — the newest segment never starts earlier than before.
* `Desk.steady_under_any_clock` — the invariants of windows and limiters.
-/

namespace Throttle

namespace Window

/-! ## Any history -/

section History

variable (window : Window)

/-- A window counts no more than it did and what has been recorded since. -/
theorem total_run_le {history : List Operation}
    (hfits : window.total + unitsOf history ≤ Count.largest) :
    (window.run history).total ≤ window.total + unitsOf history := by
  induction history generalizing window with
  | nil => exact Nat.le_add_right _ _
  | cons operation history ih =>
    have hsplit : unitsOf (operation :: history) = operation.units + unitsOf history :=
      List.sum_cons
    have hfirst : window.total + operation.units ≤ Count.largest := by omega
    have hcounted := total_after_le hfirst
    have hrest := ih (window.after operation) (by omega)
    rw [run_cons]
    omega

/-- Only a window that is restarted may start earlier than before. -/
theorem start_le_start_after {operation : Operation} (h : ∀ now, operation ≠ .restart now) :
    window.start ≤ (window.after operation).start := by
  cases operation with
  | advance now | total now | available now | resetsAt now _ =>
    exact window.start_le_start_advance now
  | record units => exact Int.le_refl _
  | restart now => exact absurd rfl (h now)

/-- **The newest segment never starts earlier than before.** -/
theorem start_le_start_run {history : List Operation} (h : ∀ now, .restart now ∉ history) :
    window.start ≤ (window.run history).start := by
  induction history generalizing window with
  | nil => exact Int.le_refl _
  | cons operation history ih =>
    have hfirst : ∀ now, operation ≠ .restart now := by
      rintro now rfl
      exact h now List.mem_cons_self
    have hrest : ∀ now, .restart now ∉ history := fun now hmem => h now (List.mem_cons_of_mem _ hmem)
    exact Int.le_trans (window.start_le_start_after hfirst) (ih (window.after operation) hrest)

variable {operation : Operation} {now : Int}

/-- Whoever has looked at a window finds the present instant before the end of its newest segment. -/
theorem lt_start_after_add_width (h : operation.instant? = some now) :
    now < (window.after operation).start + window.plan.width := by
  cases operation with
  | record units => cases h
  | advance _ | total _ | available _ | resetsAt _ _ =>
    cases h
    exact window.lt_start_advance_add_width now
  | restart _ =>
    cases h
    have hwidth := window.plan.width_pos
    simp only [after, restarted_eq, start_fresh]
    omega

/-- Looking takes nothing in. -/
theorem total_after_le_of_instant (h : operation.instant? = some now) :
    (window.after operation).total ≤ window.total := by
  cases operation with
  | record units => cases h
  | advance _ | total _ | available _ | resetsAt _ _ =>
    cases h
    exact window.total_advance_le now
  | restart _ =>
    cases h
    rw [after, restarted_eq, total_eq_left, left_fresh]
    exact Nat.zero_le _

end History

end Window

namespace Desk

open Window in
/-- **Whichever way the clock goes.** A window is looked at and recorded in at any instants, in any order,
with units that together fit in a count. Its numbers and the number of its segments stay what they were,
and as long as it is not restarted its newest segment never starts earlier than before. Whenever it is
looked at, the present instant lies before its newest segment or in it, and no more is counted than
before. Whenever something is recorded, it is added to the newest count, and nothing else is changed.

A limiter that is asked anything at any readings has never counted more than its limit. -/
theorem steady_under_any_clock (plan : Plan) (opened : Int) :
    (∀ history later : List Operation, unitsOf (history ++ later) ≤ Count.largest →
      let window := (fresh plan opened).run history
      (window.run later).plan = plan ∧ (window.run later).counts.length = plan.segments ∧
      ((∀ now, .restart now ∉ later) → window.start ≤ (window.run later).start) ∧
      ∀ operation rest, later = operation :: rest →
        let next := window.after operation
        (∀ now ∈ operation.instant?,
          (now < next.start ∨ next.start ≤ now ∧ now - next.start < plan.width) ∧
          next.total ≤ window.total) ∧
        ∀ units, operation = .record units → next.start = window.start ∧
          ∃ older newest, window.counts = older ++ [newest] ∧
            next.counts = older ++ [newest + units]) ∧
    ∀ (clock : Clock) (tallies : List Nat) (stated : Int) (calls : List (Int × Call)),
      let window := ((opening ⟨.fresh plan stated, clock, tallies⟩ opened).run calls).1.limiter.window
      window.plan = plan ∧ window.total ≤ plan.limit := by
  constructor
  · intro history later hfits window
    have hplan : window.plan = plan := by simp [window]
    refine ⟨by rw [Window.plan_run, hplan], ?_, window.start_le_start_run, ?_⟩
    · rw [length_counts, Window.plan_run, hplan]
    · rintro operation rest rfl next
      have hsplit : unitsOf (history ++ operation :: rest) =
          unitsOf history + (operation.units + unitsOf rest) := by
        simp [unitsOf]
      have hempty : (fresh plan opened).total = 0 := by rw [total_eq_left, left_fresh]
      have htotal : window.total ≤ (fresh plan opened).total + unitsOf history :=
        total_run_le _ (by omega)
      constructor
      · intro now hnow
        have hend : now < next.start + window.plan.width := window.lt_start_after_add_width hnow
        rw [hplan] at hend
        exact ⟨by omega, window.total_after_le_of_instant hnow⟩
      · rintro units rfl
        obtain ⟨older, newest, hcounts⟩ := window.exists_newest
        have hunits : window.total + units ≤ Count.largest := by
          simp only [Operation.units] at hsplit
          omega
        exact ⟨rfl, older, newest, hcounts, counts_record hcounts hunits⟩
  · intro clock tallies stated calls window
    have hplan : window.plan = plan := Desk.plan_run _ calls
    have hlimit : window.WithinLimit := withinLimit_run (Policy.withinLimit_make _ opened) calls
    rw [WithinLimit, hplan] at hlimit
    exact ⟨hplan, hlimit⟩

/-- The window starts at 0 and is looked at at 7, then at 4, before its newest segment starts at 6. The
five units that are recorded then, where two are allowed, are added to the newest count. A limiter with
the same numbers counts no more than two, though its clock goes back just as far. -/
theorem steady_under_any_clock_goes_back :
    let plan : Plan := ⟨2, 10, 3, by decide, by decide, by decide, by decide⟩
    let window := (Window.fresh plan 0).run [.record 1, .available 7, .total 4]
    let recorded := window.after (.record 5)
    let looked := recorded.after (.resetsAt 4 2)
    let calls : List (Int × Call) :=
      [(7, .single), (7, .use 0), (4, .request 2), (4, .use 1), (4, .single), (4, .use 2)]
    (window.start = 6 ∧ window.counts = [1, 0, 0]) ∧ recorded.counts = [1, 0, 5] ∧
      (4 < looked.start ∨ looked.start ≤ 4 ∧ 4 - looked.start < plan.width) ∧
      looked.total ≤ recorded.total ∧
      ((opening ⟨.fresh plan 0, .manual 0, []⟩ 0).run calls).1.limiter.window.total ≤ 2 := by
  intro plan window recorded looked calls
  obtain ⟨hwindows, hlimiters⟩ := steady_under_any_clock plan 0
  obtain ⟨-, -, -, hrecord⟩ :=
    hwindows [.record 1, .available 7, .total 4] [.record 5] (by decide)
  obtain ⟨-, -, -, hlook⟩ :=
    hwindows [.record 1, .available 7, .total 4, .record 5] [.resetsAt 4 2] (by decide)
  obtain ⟨-, older, newest, hbefore, hafter⟩ := (hrecord _ _ rfl).2 5 rfl
  obtain ⟨hinstant, htotal⟩ := (hlook _ _ rfl).1 4 rfl
  have hcounts : window.counts = [1, 0] ++ [0] := by decide +kernel
  obtain ⟨rfl, hnewest⟩ := List.append_inj' (hbefore.symm.trans hcounts) rfl
  obtain rfl : newest = 0 := by simpa using hnewest
  exact ⟨by decide +kernel, hafter, hinstant, htotal, (hlimiters (.manual 0) [] 0 calls).2⟩

end Desk

end Throttle

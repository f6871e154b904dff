import Throttle.Proofs.Window.Account
import Throttle.Window.Operation

/-!
# How well a window counts

A window only knows in which segment something was recorded, so it cannot forget it after an exact
span. It forgets it late enough and early enough: whatever was recorded as long ago as all segments
but one is still counted, and nothing is counted any more that is as old as all segments together.
This is about any history of a window, also one that records more than the limit.

## Main definitions

* `Window.Journal` — what a history has recorded, and when the window was last looked at.
* `Window.Kept` — a window counts what its journal says, and was turned when it was last looked at.

## Main statements

* `Window.Kept.run` — every history keeps its window in accord with its journal.
* `Window.total_between` — the two bounds on what is counted.
-/

namespace Throttle.Window

/-- The instant that an operation names. -/
def Operation.instant? : Operation → Option Int
  | .advance now | .total now | .available now | .resetsAt now _ | .restart now => some now
  | .record _ => none

/-- The units that an operation records. -/
def Operation.units : Operation → Nat
  | .record units => units
  | _ => 0

/-- The instants that a history names, in order. -/
def instants (history : List Operation) : List Int := history.filterMap Operation.instant?

/-- All units that a history records. -/
def unitsOf (history : List Operation) : Nat := (history.map Operation.units).sum

/-- What was recorded in a window since it was made, and when it was last looked at. Recording names
no instant: it counts as done when the window was last looked at. -/
structure Journal where
  last : Int
  ledger : List Recording
deriving Repr, DecidableEq

namespace Journal

/-- The journal of a window that is made at an instant. -/
def opened (now : Int) : Journal := ⟨now, []⟩

/-- Enter an operation. A window that is restarted has no past. -/
def note (journal : Journal) : Operation → Journal
  | .advance now | .total now | .available now | .resetsAt now _ => { journal with last := now }
  | .record units => { journal with ledger := journal.ledger ++ [⟨journal.last, units⟩] }
  | .restart now => opened now

/-- Enter a history. -/
def noteAll (journal : Journal) (history : List Operation) : Journal := history.foldl note journal

end Journal

/-- A window that counts what its journal says and was turned when it was last looked at. -/
structure Kept (journal : Journal) (window : Window) : Prop where
  represents : window.Represents journal.ledger
  start_le : window.start ≤ journal.last
  last_lt : journal.last < window.start + window.plan.width

theorem kept_fresh (plan : Plan) (now : Int) : Kept (.opened now) (fresh plan now) where
  represents := represents_fresh rfl (by simp [Journal.opened])
  start_le := Int.le_refl now
  last_lt := by
    have hwidth := plan.width_pos
    simp only [Journal.opened, start_fresh, plan_fresh]
    omega

theorem Kept.advance {journal : Journal} {window : Window} (h : Kept journal window) {now : Int}
    (hnow : journal.last ≤ now) : Kept { journal with last := now } (window.advance now) where
  represents := h.represents.advance (Int.le_trans h.start_le hnow)
  start_le := start_advance_le (Int.le_trans h.start_le hnow)
  last_lt := by
    rw [plan_advance]
    exact window.lt_start_advance_add_width now

theorem Kept.record {journal : Journal} {window : Window} (h : Kept journal window) {units : Nat}
    (hfits : window.total + units ≤ Count.largest) :
    Kept { journal with ledger := journal.ledger ++ [⟨journal.last, units⟩] }
      (window.record units) where
  represents := h.represents.record h.start_le h.last_lt hfits
  start_le := h.start_le
  last_lt := h.last_lt

/-- One operation. -/
theorem Kept.after {journal : Journal} {window : Window} (h : Kept journal window)
    (operation : Operation) (hinstant : ∀ now ∈ operation.instant?, journal.last ≤ now)
    (hfits : window.total + operation.units ≤ Count.largest) :
    Kept (journal.note operation) (window.after operation) := by
  cases operation with
  | advance now => exact h.advance (hinstant now rfl)
  | total now => exact h.advance (hinstant now rfl)
  | available now => exact h.advance (hinstant now rfl)
  | record units => exact h.record hfits
  | resetsAt now units => exact h.advance (hinstant now rfl)
  | restart now =>
    rw [Window.after, restarted_eq]
    exact kept_fresh window.plan now

/-- Nothing but recording adds to what is counted. -/
theorem total_after_le {window : Window} {operation : Operation}
    (hfits : window.total + operation.units ≤ Count.largest) :
    (window.after operation).total ≤ window.total + operation.units := by
  have hturned : ∀ now, (window.advance now).total ≤ window.total := fun now => by
    rw [total_advance]
    exact window.left_antitone (Nat.zero_le _)
  cases operation with
  | advance now => exact hturned now
  | total now => exact hturned now
  | available now => exact hturned now
  | record units => exact Nat.le_of_eq (total_record hfits)
  | resetsAt now units => exact hturned now
  | restart now =>
    rw [Window.after, restarted_eq, total_eq_left, left_fresh]
    exact Nat.zero_le _

/-- In a history that does not go back, no operation comes before the last one that was noted. -/
theorem pairwise_note {journal : Journal} {operation : Operation} {history : List Operation}
    (h : (journal.last :: instants (operation :: history)).Pairwise (· ≤ ·)) :
    (∀ now ∈ operation.instant?, journal.last ≤ now) ∧
      ((journal.note operation).last :: instants history).Pairwise (· ≤ ·) := by
  cases operation with
  | record units => exact ⟨by simp [Operation.instant?], h⟩
  | advance now | total now | available now | resetsAt now _ | restart now =>
    obtain ⟨hfirst, hrest⟩ := List.pairwise_cons.mp h
    refine ⟨fun instant hinstant => ?_, hrest⟩
    obtain rfl := Option.some.inj hinstant
    exact hfirst _ List.mem_cons_self

/-- **Every history keeps its window in accord with its journal**, if it does not go back in time
and the units that it records fit in a count. -/
theorem Kept.run {journal : Journal} {window : Window} (h : Kept journal window)
    (history : List Operation) (hinstants : (journal.last :: instants history).Pairwise (· ≤ ·))
    (hfits : window.total + unitsOf history ≤ Count.largest) :
    Kept (journal.noteAll history) (window.run history) := by
  induction history generalizing journal window with
  | nil => exact h
  | cons operation history ih =>
    obtain ⟨hinstant, hrest⟩ := pairwise_note hinstants
    have hsplit : unitsOf (operation :: history) = operation.units + unitsOf history :=
      List.sum_cons
    have hfirst : window.total + operation.units ≤ Count.largest := by omega
    have hcounted := total_after_le hfirst
    exact ih (h.after operation hinstant hfirst) hrest (by omega)

/-! ## What is counted -/

/-- What was recorded as long ago as the plan's reach is counted. -/
theorem Kept.le_total {journal : Journal} {window : Window} (h : Kept journal window) :
    unitsWhere journal.ledger (fun instant => journal.last - instant ≤ window.plan.reach)
      ≤ window.total := by
  refine Nat.le_trans (unitsWhere_mono fun entry _ hrecent => ?_)
    (h.represents.unitsSince_le (journal.last - window.plan.reach) ?_)
  · simp only [decide_eq_true_eq] at hrecent ⊢
    omega
  · have hstart := h.start_le
    omega

/-- What is counted was recorded less than all segments together ago. -/
theorem Kept.total_le {journal : Journal} {window : Window} (h : Kept journal window) :
    window.total ≤ unitsWhere journal.ledger
      fun instant => journal.last - instant < (window.plan.segments * window.plan.width : Nat) := by
  have hlast := h.last_lt
  have hreach := window.plan.reach_add_width
  rw [total_eq_left, h.represents.left_eq]
  refine unitsWhere_mono fun entry _ hsince => ?_
  simp only [horizon, Nat.zero_mul, Nat.cast_zero, decide_eq_true_eq] at hsince ⊢
  omega

@[simp] theorem plan_run (window : Window) (history : List Operation) :
    (window.run history).plan = window.plan := by
  induction history generalizing window with
  | nil => rfl
  | cons operation history ih => rw [run_cons, ih, plan_after]

/-- **How well a window counts.** A window is looked at and recorded in, with instants that do not go
back and with units that together fit in a count. What it counts at an instant holds everything that
was recorded as long ago as all segments but one, and nothing that is as old as all segments, which
are no longer than the interval. It counts nothing if nothing was recorded for so long. -/
theorem total_between (plan : Plan) (opened now : Int) (history : List Operation)
    (hinstants : (opened :: instants history ++ [now]).Pairwise (· ≤ ·))
    (hfits : unitsOf history ≤ Count.largest) :
    let ledger := ((Journal.opened opened).noteAll history).ledger
    ∃ counted, ((fresh plan opened).run history).result (.total now) = .count counted ∧
      unitsWhere ledger (fun instant => now - instant ≤ ((plan.segments - 1) * plan.width : Nat))
        ≤ counted ∧
      counted ≤
        unitsWhere ledger (fun instant => now - instant < (plan.segments * plan.width : Nat)) ∧
      plan.segments * plan.width ≤ plan.interval ∧
      ((∀ entry ∈ ledger, entry.instant + (plan.segments * plan.width : Nat) ≤ now) →
        counted = 0) := by
  intro ledger
  -- Asking for the total is the last operation of the history.
  have hlast : ((Journal.opened opened).last :: instants (history ++ [.total now])).Pairwise
      (· ≤ ·) := by
    simpa [instants, Operation.instant?, Journal.opened] using hinstants
  have hunits : unitsOf (history ++ [.total now]) = unitsOf history := by
    simp [unitsOf, Operation.units]
  have hempty : (fresh plan opened).total = 0 := by
    rw [total_eq_left, left_fresh]
  have hkept := (kept_fresh plan opened).run (history ++ [.total now]) hlast (by omega)
  have hjournal : (Journal.opened opened).noteAll (history ++ [.total now]) = ⟨now, ledger⟩ := by
    rw [Journal.noteAll, List.foldl_append]
    rfl
  have hwindow : (fresh plan opened).run (history ++ [.total now]) =
      ((fresh plan opened).run history).advance now := by
    rw [run, List.foldl_append]
    rfl
  have hplan : (((fresh plan opened).run history).advance now).plan = plan := by simp
  rw [hjournal, hwindow] at hkept
  have hupper := hkept.total_le
  rw [hplan] at hupper
  refine ⟨_, rfl, ?_, hupper, plan.segments_mul_width_le, fun hold => ?_⟩
  · have hlower := hkept.le_total
    rwa [hplan] at hlower
  · rw [unitsWhere_eq_zero fun entry hentry => ?_] at hupper
    · exact Nat.le_zero.mp hupper
    · have := hold entry hentry
      simp only [decide_eq_false_iff_not]
      omega

/-- Five units are recorded when the window is made, although the limit is two, and one unit at 2. At
8 that unit has to be counted; the five may be and are, as their segment has not been turned out. At 9
the window counts nothing, though the unit of 2 is only seven nanoseconds old. -/
theorem total_between_at_eight_and_nine :
    let plan : Plan := ⟨2, 10, 3, by decide, by decide, by decide, by decide⟩
    let history : List Operation := [.record 5, .available 2, .record 1, .resetsAt 7 2]
    let window := (fresh plan 0).run history
    let ledger := ((Journal.opened 0).noteAll history).ledger
    ledger = [⟨0, 5⟩, ⟨2, 1⟩] ∧ plan.reach = 6 ∧
      (window.result (.total 8) = .count 6 ∧
        unitsWhere ledger (fun instant => 8 - instant ≤ plan.reach) ≤ 6 ∧
        6 ≤ unitsWhere ledger (fun instant => 8 - instant < (plan.segments * plan.width : Nat))) ∧
      window.result (.total 9) = .count 0 ∧
        unitsWhere ledger (fun instant => 9 - instant ≤ plan.reach) ≤ 0 := by
  intro plan history window ledger
  have height : window.result (.total 8) = .count 6 := by decide +kernel
  have hnine : window.result (.total 9) = .count 0 := by decide +kernel
  obtain ⟨_, hsix, hlower, hupper, -⟩ := total_between plan 0 8 history (by decide) (by decide)
  obtain ⟨_, hzero, hnone, -⟩ := total_between plan 0 9 history (by decide) (by decide)
  obtain rfl := Result.count.inj (height.symm.trans hsix)
  obtain rfl := Result.count.inj (hnine.symm.trans hzero)
  exact ⟨by decide, by decide, ⟨height, hlower, hupper⟩, hnine, hnone⟩

end Throttle.Window

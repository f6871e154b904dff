import Throttle.Proofs.Ledger
import Throttle.Proofs.Window.Turning

/-!
# Windows account for ledgers

A window has forgotten most of what was ever recorded. What it does count is exactly what the ledger
holds since the start of its oldest segment, and so it remains however often it is turned.

## Main definitions

* `Window.Represents` — the window counts what a ledger says it should.
* `Window.Move` — what an operation can make of a window, and what it records.

## Main statements

* `Represents.move` — every move keeps the window in accord with the ledger.
* `Represents.bounds_move` — a move records no more than the plan allows in its reach.
-/

namespace Throttle.Window

/-- The start of the oldest segment, after `turns` more turns. -/
def horizon (window : Window) (turns : Nat) : Int :=
  window.start + (turns * window.plan.width : Nat) - window.plan.reach

/-- What a window counts now, and after any number of further turns, is what the ledger holds since
the start of its oldest segment. -/
structure Represents (window : Window) (ledger : List Recording) : Prop where
  left_eq : ∀ turns, window.left turns = unitsSince ledger (window.horizon turns)
  before : ∀ entry ∈ ledger, entry.instant < window.start + window.plan.width

/-- What an operation at the reading `now` makes of a window, with the units it records. Units are
only recorded where there is room for them. -/
inductive Move (now : Int) (window : Window) : Option Nat → Window → Prop
  | stay : Move now window none window
  | turn : Move now window none (window.advance now)
  | record {units : Nat} (room : units ≤ (window.advance now).available) :
      Move now window (some units) ((window.advance now).record units)

/-- The ledger's entry for what was recorded at `now`. -/
def entries (now : Int) (recorded : Option Nat) : List Recording :=
  (recorded.map fun units => ⟨now, units⟩).toList

/-! ## The limit -/

/-- The window counts no more than its limit. -/
def WithinLimit (window : Window) : Prop := window.total ≤ window.plan.limit

theorem withinLimit_fresh (plan : Plan) (now : Int) : (fresh plan now).WithinLimit := by
  rw [WithinLimit, total_eq_left, left_fresh]
  exact Nat.zero_le _

theorem WithinLimit.advance {window : Window} (h : window.WithinLimit) (now : Int) :
    (window.advance now).WithinLimit := by
  rw [WithinLimit, total_advance, plan_advance]
  exact Nat.le_trans (window.left_antitone (Nat.zero_le _)) h

/-- Where there is room, the largest count is not reached. -/
theorem WithinLimit.fits {window : Window} (h : window.WithinLimit) {units : Nat}
    (room : units ≤ window.available) : window.total + units ≤ window.plan.limit := by
  simp only [WithinLimit, available] at h room
  omega

theorem WithinLimit.fits_count {window : Window} (h : window.WithinLimit) {units : Nat}
    (room : units ≤ window.available) : window.total + units ≤ Count.largest :=
  Nat.le_trans (h.fits room) window.plan.limit_le

theorem WithinLimit.record {window : Window} (h : window.WithinLimit) {units : Nat}
    (room : units ≤ window.available) : (window.record units).WithinLimit := by
  rw [WithinLimit, total_record (h.fits_count room), plan_record]
  exact h.fits room

theorem WithinLimit.move {now : Int} {window after : Window} {recorded : Option Nat}
    (h : window.WithinLimit) (m : Move now window recorded after) : after.WithinLimit := by
  cases m with
  | stay => exact h
  | turn => exact h.advance now
  | record room => exact (h.advance now).record room

/-! ## What moves leave alone -/

theorem Move.plan_eq {now : Int} {window after : Window} {recorded : Option Nat}
    (m : Move now window recorded after) : after.plan = window.plan := by
  cases m <;> simp

theorem Move.start_le {now : Int} {window after : Window} {recorded : Option Nat}
    (m : Move now window recorded after) (h : window.start ≤ now) : after.start ≤ now := by
  cases m with
  | stay => exact h
  | turn => exact start_advance_le h
  | record _ => exact start_advance_le h

theorem Move.le_start {now : Int} {window after : Window} {recorded : Option Nat}
    (m : Move now window recorded after) : window.start ≤ after.start := by
  cases m with
  | stay => exact Int.le_refl _
  | turn => exact window.start_le_start_advance now
  | record _ => exact window.start_le_start_advance now

/-- A move that records nothing leaves the window in agreement with what it was. -/
theorem Move.agrees {now : Int} {window after : Window} (m : Move now window none after)
    (h : window.start ≤ now) : after.Agrees now window := by
  cases m with
  | stay => exact .refl _ _
  | turn => exact agrees_advance h

/-! ## Representation -/

/-- After as many turns as there are segments nothing before the next segment's start is counted. -/
theorem horizon_segments (window : Window) :
    window.horizon window.plan.segments = window.start + window.plan.width := by
  have := window.plan.reach_add_width
  simp only [horizon]
  omega

theorem horizon_mono (window : Window) : Monotone window.horizon := by
  intro fewer more h
  have := Nat.mul_le_mul_right window.plan.width h
  simp only [horizon]
  omega

/-- A ledger that holds nothing since the start of the oldest segment is represented by an empty
window. -/
theorem represents_fresh {plan : Plan} {ledger : List Recording} {now : Int}
    (hempty : unitsSince ledger (now - plan.reach) = 0)
    (hbefore : ∀ entry ∈ ledger, entry.instant < now + plan.width) :
    (fresh plan now).Represents ledger where
  left_eq turns := by
    have hzero : (fresh plan now).horizon 0 = now - plan.reach := by simp [horizon]
    have hless := unitsSince_antitone ledger ((fresh plan now).horizon_mono (Nat.zero_le turns))
    rw [hzero, hempty] at hless
    rw [left_fresh, Nat.le_zero.mp hless]
  before := hbefore

theorem Represents.advance {window : Window} {ledger : List Recording}
    (h : window.Represents ledger) {now : Int} (hnow : window.start ≤ now) :
    (window.advance now).Represents ledger := by
  by_cases hi : window.plan.interval ≤ Time.elapsed window.start now
  · -- Starting afresh forgets only what lies before the new oldest segment.
    have hreach := window.plan.reach_add_width
    have hwhole := window.plan.segments_mul_width_le
    simp only [Time.elapsed] at hi
    have hold : ∀ entry ∈ ledger, entry.instant + window.plan.reach < now := fun entry he => by
      have := h.before entry he
      omega
    rw [advance_of_le (by simp only [Time.elapsed]; exact hi)]
    refine represents_fresh (unitsWhere_eq_zero fun entry he => decide_eq_false ?_) fun entry he => ?_
    · have := hold entry he
      omega
    · have := hold entry he
      omega
  · have hstart := start_advance_of_lt (Nat.not_le.mp hi)
    refine ⟨fun turns => ?_, fun entry he => ?_⟩
    · rw [left_advance, h.left_eq, horizon, horizon, hstart, plan_advance, Nat.add_mul]
      congr 1
      omega
    · have hbefore := h.before entry he
      rw [hstart, plan_advance]
      omega

theorem Represents.record {window : Window} {ledger : List Recording}
    (h : window.Represents ledger) {now : Int} (hstart : window.start ≤ now)
    (hend : now < window.start + window.plan.width) {units : Nat}
    (hfits : window.total + units ≤ Count.largest) :
    (window.record units).Represents (ledger ++ [⟨now, units⟩]) where
  left_eq turns := by
    have hcounted : window.horizon turns ≤ now ↔ turns < window.plan.segments := by
      constructor
      · intro hle
        by_contra hge
        have := window.horizon_mono (Nat.not_lt.mp hge)
        rw [horizon_segments] at this
        omega
      · intro hlt
        have := Nat.mul_le_mul_right window.plan.width (Nat.le_sub_one_of_lt hlt)
        simp only [horizon, Plan.reach]
        omega
    have hsame : (window.record units).horizon turns = window.horizon turns := rfl
    rw [left_record hfits, h.left_eq, hsame, unitsSince_append_singleton]
    simp only [hcounted]
  before entry he := by
    rcases List.mem_append.mp he with he | he
    · exact h.before entry he
    · rw [List.mem_singleton.mp he]
      exact hend

/-- **Every move keeps the window in accord with the ledger.** -/
theorem Represents.move {window after : Window} {ledger : List Recording} {now : Int}
    {recorded : Option Nat} (h : window.Represents ledger) (hlimit : window.WithinLimit)
    (hnow : window.start ≤ now) (m : Move now window recorded after) :
    after.Represents (ledger ++ entries now recorded) := by
  cases m with
  | stay => simpa [entries] using h
  | turn => simpa [entries] using h.advance hnow
  | record room =>
    have hend := window.lt_start_advance_add_width now
    rw [← plan_advance window now] at hend
    have hfits := (hlimit.advance now).fits_count room
    exact (h.advance hnow).record (start_advance_le hnow) hend hfits

/-- What is counted includes everything from as long ago as the plan's reach. -/
theorem Represents.unitsSince_le {window : Window} {ledger : List Recording}
    (h : window.Represents ledger) (start : Int) (hs : window.start ≤ start + window.plan.reach) :
    unitsSince ledger start ≤ window.total := by
  rw [total_eq_left, h.left_eq]
  refine unitsSince_antitone ledger ?_
  simp only [horizon]
  omega

/-- **A move records no more than the plan allows in its reach.** -/
theorem Represents.bounds_move {window after : Window} {ledger : List Recording} {now : Int}
    {recorded : Option Nat} (h : window.Represents ledger) (hlimit : window.WithinLimit)
    (hnow : window.start ≤ now) (hb : window.plan.Bounds ledger)
    (m : Move now window recorded after) :
    window.plan.Bounds (ledger ++ entries now recorded) := by
  cases m with
  | stay => simpa [entries] using hb
  | turn => simpa [entries] using hb
  | record room =>
    rename_i units
    intro start finish hspan
    change unitsWithin (ledger ++ [⟨now, units⟩]) start finish ≤ _
    rw [unitsWithin_append_singleton]
    by_cases hin : start ≤ now ∧ now ≤ finish
    · -- All that the span held before is still counted when the units are recorded.
      have hheld := unitsWithin_le_unitsSince ledger start finish
      have hstart := start_advance_le hnow
      have hcounted := (h.advance hnow).unitsSince_le start (by rw [plan_advance]; omega)
      have hfits := (hlimit.advance now).fits room
      rw [plan_advance] at hfits
      rw [if_pos hin]
      omega
    · rw [if_neg hin]
      exact hb start finish hspan

end Throttle.Window

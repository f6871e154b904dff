import Throttle.Proofs.Window.Looks
import Throttle.Proofs.Window.Reset

/-!
# What any window announces

`Window.resetsAt` is exact for a window that counts no more than its limit, looked at with a clock
that does not go back. Some of what it says holds of every window, also of one that counts more than
its limit or is looked at before its start: nobody is told to wait for longer than an interval, only
those wait who find too little room, and whoever needs more waits no less.

## Main definitions

* `Window.freeAfter` — for how long after the start of its newest segment a window has to be turned
  until there is room.

## Main statements

* `Window.resetsAt_le`, `Window.resetsAt_eq_now_iff`, `Window.resetsAt_mono` — about one window.
* `Window.run_announces` — about a window after any history.
-/

namespace Throttle.Window

/-! ## Counting off -/

section CountingOff

variable {need turns : Nat} {counts : List Nat}

/-- It takes a turn at least to free anything. -/
theorem turnsToFree_pos (h : turnsToFree need counts = some turns) : 0 < turns := by
  cases counts with
  | nil => simp [turnsToFree] at h
  | cons oldest rest =>
    rw [turnsToFree] at h
    split at h
    · simp only [Option.some.injEq] at h
      omega
    · obtain ⟨later, -, rfl⟩ := Option.map_eq_some_iff.mp h
      omega

theorem turnsToFree_le_length (h : turnsToFree need counts = some turns) :
    turns ≤ counts.length := by
  induction counts generalizing need turns with
  | nil => simp [turnsToFree] at h
  | cons oldest rest ih =>
    rw [turnsToFree] at h
    split at h
    · simp only [Option.some.injEq] at h
      simp [← h]
    · obtain ⟨later, hlater, rfl⟩ := Option.map_eq_some_iff.mp h
      have hrest := ih hlater
      simp only [List.length_cons]
      omega

/-- Where enough leaves the window for many, enough leaves it for fewer, and no later. -/
theorem exists_turnsToFree_le {more late : Nat} (hneed : 0 < need) (hless : need ≤ more)
    (h : turnsToFree more counts = some late) :
    ∃ early, turnsToFree need counts = some early ∧ early ≤ late := by
  have hfreed := (turnsToFree_le_iff (Nat.lt_of_lt_of_le hneed hless) h late).mp (Nat.le_refl late)
  have htotal := List.sum_take_add_sum_drop counts late
  have henough : need ≤ counts.sum := by omega
  obtain ⟨early, hearly⟩ := exists_turnsToFree hneed henough
  refine ⟨early, hearly, ?_⟩
  rw [turnsToFree_le_iff hneed hearly]
  omega

end CountingOff

/-! ## One window -/

section Window

variable (window : Window) {units more : Nat}

/-- How long after the start of its newest segment the window has room for some units for which it
has too little now. -/
def freeAfter (units : Nat) : Nat :=
  match turnsToFree (units - window.available) window.counts with
  | some turns => window.plan.width * turns
  | none => window.plan.interval

variable {window} in
theorem resetsAt_of_no_room (hroom : window.available < units) (now : Int) :
    window.resetsAt now units =
      now + ((window.freeAfter units - Time.elapsed window.start now : Nat) : Int) := by
  rw [resetsAt, if_neg (Nat.not_le.mpr hroom), freeAfter]
  cases turnsToFree (units - window.available) window.counts <;> rfl

/-- The newest segment has to be over, and an interval is enough. -/
theorem freeAfter_bounds (units : Nat) :
    window.plan.width ≤ window.freeAfter units ∧ window.freeAfter units ≤ window.plan.interval := by
  rw [freeAfter]
  split
  · rename_i turns hturns
    have hlength := turnsToFree_le_length hturns
    rw [window.length_counts] at hlength
    constructor
    · exact Nat.le_mul_of_pos_right window.plan.width (turnsToFree_pos hturns)
    · calc window.plan.width * turns
          ≤ window.plan.width * window.plan.segments := Nat.mul_le_mul_left _ hlength
        _ = window.plan.segments * window.plan.width := Nat.mul_comm _ _
        _ ≤ window.plan.interval := window.plan.segments_mul_width_le
  · exact ⟨window.plan.width_le_interval, Nat.le_refl _⟩

variable {window} in
theorem freeAfter_mono (hroom : window.available < units) (hless : units ≤ more) :
    window.freeAfter units ≤ window.freeAfter more := by
  have hneed : 0 < units - window.available := Nat.sub_pos_of_lt hroom
  have hmore : units - window.available ≤ more - window.available := Nat.sub_le_sub_right hless _
  cases hlate : turnsToFree (more - window.available) window.counts with
  | some late =>
    obtain ⟨early, hearly, hle⟩ := exists_turnsToFree_le hneed hmore hlate
    simp only [freeAfter, hlate, hearly]
    exact Nat.mul_le_mul_left _ hle
  | none =>
    have hinterval := (window.freeAfter_bounds units).2
    simpa only [freeAfter, hlate] using hinterval

/-- **Nobody is told to wait for longer than an interval.** -/
theorem resetsAt_le (now : Int) (units : Nat) :
    window.resetsAt now units ≤ now + window.plan.interval := by
  by_cases hroom : units ≤ window.available
  · rw [resetsAt_of_room hroom]
    omega
  · have hinterval := (window.freeAfter_bounds units).2
    rw [resetsAt_of_no_room (Nat.not_le.mp hroom)]
    omega

/-- **Only those wait who find too little room**, if the newest segment is not over yet. -/
theorem resetsAt_eq_now_iff {now : Int} (units : Nat)
    (hend : now < window.start + window.plan.width) :
    window.resetsAt now units = now ↔ units ≤ window.available := by
  constructor
  · intro hnow
    by_contra hroom
    have hwidth := (window.freeAfter_bounds units).1
    have hpos := window.plan.width_pos
    rw [resetsAt_of_no_room (Nat.not_le.mp hroom), Time.elapsed] at hnow
    omega
  · intro hroom
    exact resetsAt_of_room hroom now

/-- **Whoever needs more waits no less.** -/
theorem resetsAt_mono (now : Int) : Monotone (window.resetsAt now) := by
  intro units more hless
  by_cases hroom : units ≤ window.available
  · rw [resetsAt_of_room hroom]
    exact le_resetsAt window now more
  · have hfew := Nat.not_le.mp hroom
    have hlonger := freeAfter_mono hfew hless
    rw [resetsAt_of_no_room hfew, resetsAt_of_no_room (Nat.lt_of_lt_of_le hfew hless)]
    omega

end Window

/-! ## After any history -/

/-- Looks at one instant come to the same as one look at it, if there is any. -/
theorem advance_run_of_looks (window : Window) {now : Int} {looks : List Operation}
    (hlooks : ∀ look ∈ looks, look.isLook ∧ look.instant? = some now) :
    (window.run looks).advance now = window.advance now := by
  induction looks generalizing window with
  | nil => rfl
  | cons look looks ih =>
    obtain ⟨hlook, hinstant⟩ := hlooks look List.mem_cons_self
    have hafter : window.after look = window.advance now := by
      cases look with
      | record _ | restart _ => simp [Operation.isLook] at hlook
      | advance _ | total _ | available _ | resetsAt _ _ =>
        simp only [Operation.instant?, Option.some.injEq] at hinstant
        simp only [after, hinstant]
    have hself : now < (window.advance now).start + (window.advance now).plan.width := by
      rw [plan_advance]
      exact window.lt_start_advance_add_width now
    rw [run_cons, hafter, ih _ fun other hother => hlooks other (List.mem_cons_of_mem look hother)]
    exact advance_eq_self hself

/-- **What a window announces after any history**, with instants in any order and whatever was
recorded. Whoever looks at it at an instant is told how much room there is and, for any number of
units, when there will be room for them; it does not matter how often it is looked at then, or what
is asked first. The instant named lies within an interval from now. It is now just if there is room
already, and it is no earlier for more units. -/
theorem run_announces (plan : Plan) (opened now : Int) (history : List Operation) :
    let window := (fresh plan opened).run history
    ∃ (room : Nat) (reset : Nat → Int),
      (∀ looks : List Operation, (∀ look ∈ looks, look.isLook ∧ look.instant? = some now) →
        (window.run looks).result (.available now) = .count room ∧
        ∀ units, (window.run looks).result (.resetsAt now units) = .instant (reset units)) ∧
      (∀ units, now ≤ reset units ∧ reset units ≤ now + plan.interval ∧
        (reset units = now ↔ units ≤ room)) ∧
      ∀ units more, units ≤ more → reset units ≤ reset more := by
  intro window
  let turned := window.advance now
  have hplan : turned.plan = plan := by simp [turned, window]
  have hend : now < turned.start + turned.plan.width := by
    rw [plan_advance]
    exact window.lt_start_advance_add_width now
  refine ⟨turned.available, turned.resetsAt now, ?_, ?_, ?_⟩
  · intro looks hlooks
    have hturned := window.advance_run_of_looks hlooks
    constructor
    · rw [result, hturned]
    · intro units
      rw [result, hturned]
  · intro units
    have hinterval := turned.resetsAt_le now units
    rw [hplan] at hinterval
    exact ⟨le_resetsAt turned now units, hinterval, turned.resetsAt_eq_now_iff units hend⟩
  · intro units more hless
    exact turned.resetsAt_mono now hless

/-- Five units were recorded where two are allowed, and the window, which starts at 9, is looked at
before that, at 4. There is no room. A unit has to wait until all five have left, whatever was asked
for before, and six units, more than there can ever be room for, until the end of the interval. -/
theorem run_announces_before_start :
    let plan : Plan := ⟨2, 10, 3, by decide, by decide, by decide, by decide⟩
    let window := (fresh plan 0).run [.advance 9, .record 5]
    let looks : List Operation := [.resetsAt 4 6, .total 4]
    window.start = 9 ∧ (window.run looks).result (.available 4) = .count 0 ∧
      (window.run looks).result (.resetsAt 4 1) = .instant 13 ∧
      window.result (.resetsAt 4 6) = .instant 14 ∧
      (4 : Int) < 13 ∧ (13 : Int) ≤ 14 ∧ (14 : Int) ≤ 4 + plan.interval := by
  intro plan window looks
  obtain ⟨room, reset, htold, hreset, hmore⟩ := run_announces plan 0 4 [.advance 9, .record 5]
  obtain ⟨hroom, hnamed⟩ := htold looks (by decide)
  have hone : (window.run looks).result (.resetsAt 4 1) = .instant 13 := by decide +kernel
  have hsix : window.result (.resetsAt 4 6) = .instant 14 := by decide +kernel
  have hnone : (window.run looks).result (.available 4) = .count 0 := by decide +kernel
  have hthirteen : reset 1 = 13 := Result.instant.inj ((hnamed 1).symm.trans hone)
  have hfourteen : reset 6 = 14 := Result.instant.inj (((htold [] (by simp)).2 6).symm.trans hsix)
  have hzero : room = 0 := Result.count.inj (hroom.symm.trans hnone)
  refine ⟨by decide +kernel, hnone, hone, hsix, ?_, ?_, ?_⟩
  · obtain ⟨hle, -, hnow⟩ := hreset 1
    rw [hthirteen, hzero] at hnow
    omega
  · rw [← hthirteen, ← hfourteen]
    exact hmore 1 6 (by decide)
  · rw [← hfourteen]
    exact (hreset 6).2.1

end Throttle.Window

import Throttle.Proofs.Window.Journal
import Throttle.Proofs.Window.Reset

/-!
# Windows that count more than their limit

Nothing keeps a window from recording more than its limit. Its room is none then, as it would be if
just the limit were counted, and `Window.resetsAt` adds up what has to be turned out from there: it
leaves the excess over the limit out of account. So the instant that it names may come too early, when
the turns until then have not turned out the excess as well. It never comes too late.

## Main statements

* `Window.resetsAt_le_of_room` — no instant that is named comes too late.
* `Window.room_at_resetsAt_iff` — whether there is room at the instant that is named.
* `Window.run_room_at_reset_iff` — the same after any history.
* `Window.no_room_at_reset` — a window that names an instant at which there is no room.
-/

namespace Throttle.Window

section Window

variable {window : Window} {now later : Int} {units : Nat}

/-- Where there is room, no more than the limit is counted. -/
theorem excess_eq_zero (hpos : 0 < units) (hroom : units ≤ window.available) :
    window.excess = 0 := by
  simp only [available, excess] at hroom ⊢
  omega

/-- **No instant that is named comes too late**, whatever is counted. -/
theorem resetsAt_le_of_room (hstart : window.start ≤ now)
    (hend : now < window.start + window.plan.width) (hunits : units ≤ window.plan.limit)
    (hlater : now ≤ later) (hroom : units ≤ (window.advance later).available) :
    window.resetsAt now units ≤ later := by
  by_cases hless : window.available < units
  · obtain ⟨turns, -, heq, hiff⟩ := exists_resetsAt_eq hstart hend hunits hless
    have hfreed := (le_available_advance_iff hless later).mp hroom
    have hturns : turns ≤ window.turnsAt later := by
      rw [hiff]
      omega
    rw [heq]
    exact (le_turnsAt_iff (Int.le_trans hstart hlater) turns).mp hturns
  · rw [resetsAt_of_room (Nat.not_lt.mp hless)]
    exact hlater

/-- **Whether there is room at the instant that is named**: just if no number of turns turns out what is
missing, but not the excess with it. -/
theorem room_at_resetsAt_iff (hstart : window.start ≤ now)
    (hend : now < window.start + window.plan.width) (hpos : 0 < units)
    (hunits : units ≤ window.plan.limit) :
    units ≤ (window.advance (window.resetsAt now units)).available ↔
      ∀ turns, units - window.available ≤ (window.counts.take turns).sum →
        units - window.available + window.excess ≤ (window.counts.take turns).sum := by
  by_cases hless : window.available < units
  · obtain ⟨turns, -, heq, hiff⟩ := exists_resetsAt_eq hstart hend hunits hless
    have hfirst := (hiff turns).mp (Nat.le_refl turns)
    rw [le_available_advance_iff hless, heq, turnsAt_start_add]
    constructor
    · -- The instant is the first at which enough is turned out, and more turns free more.
      intro hfreed other hother
      have hmore := window.sum_take_mono ((hiff other).mpr hother)
      omega
    · intro hall
      exact hall turns hfirst
  · have hroom := Nat.not_lt.mp hless
    rw [resetsAt_of_room hroom, advance_eq_self hend, excess_eq_zero hpos hroom]
    apply iff_of_true hroom
    intro turns hturns
    exact hturns

end Window

/-- **When an announced instant can be relied on.** A window is looked at after any history, not before
it starts, and asked for the reset of no more units than its limit. Then nothing is recorded until the
instant that it names. There is room at that instant just if no number of turns turns out what is
missing, but not the excess over the limit with it. In particular there is room if the window counted no
more than its limit when it was asked. There is never room any earlier. -/
theorem run_room_at_reset_iff (plan : Plan) (opened now : Int) (history : List Operation)
    (units : Nat) (hnow : ((fresh plan opened).run history).start ≤ now) (hpos : 0 < units)
    (hunits : units ≤ plan.limit) :
    let window := (fresh plan opened).run history
    let looked := window.after (.resetsAt now units)
    ∃ reset room, window.result (.resetsAt now units) = .instant reset ∧ now ≤ reset ∧
      looked.result (.available reset) = .count room ∧
      (units ≤ room ↔ ∀ turns, units - looked.available ≤ (looked.counts.take turns).sum →
        units - looked.available + looked.excess ≤ (looked.counts.take turns).sum) ∧
      (looked.WithinLimit → units ≤ room) ∧
      ∀ later more, now ≤ later → looked.result (.available later) = .count more → units ≤ more →
        reset ≤ later := by
  intro window looked
  have hstart : looked.start ≤ now := start_advance_le hnow
  have hplan : looked.plan = plan := by
    simp only [looked, plan_after, window, plan_run, plan_fresh]
  have hend : now < looked.start + looked.plan.width := by
    have hlast := window.lt_start_advance_add_width now
    rwa [← plan_advance window now] at hlast
  have hlimit : units ≤ looked.plan.limit := by rwa [hplan]
  have hiff := room_at_resetsAt_iff hstart hend hpos hlimit
  refine ⟨looked.resetsAt now units, _, rfl, le_resetsAt looked now units, rfl, hiff, ?_, ?_⟩
  · intro hwithin
    rw [hiff, hwithin.excess_eq]
    intro turns hturns
    exact hturns
  · intro later more hlater htold hroom
    obtain rfl : (looked.advance later).available = more := Result.count.inj htold
    exact resetsAt_le_of_room hstart hend hlimit hlater hroom

/-- Six units are counted at 6, where four are allowed: three of them in the oldest segment, and three in
the newest one. Whoever asks for one unit is told 9, when the oldest segment is turned out, and there is
a unit then. Whoever asks for three is told 9 too, and finds fewer. -/
theorem run_room_at_reset_of_six :
    let plan : Plan := ⟨4, 10, 3, by decide, by decide, by decide, by decide⟩
    let window := (fresh plan 0).run [.record 3, .available 6, .record 3]
    window.start = 6 ∧ window.counts = [3, 0, 3] ∧ window.excess = 2 ∧
      window.result (.resetsAt 6 1) = .instant 9 ∧ window.result (.resetsAt 6 3) = .instant 9 ∧
      ∃ room, (window.advance 6).result (.available 9) = .count room ∧ 1 ≤ room ∧ ¬3 ≤ room := by
  intro plan window
  have hone : window.result (.resetsAt 6 1) = .instant 9 := by decide +kernel
  have hthree : window.result (.resetsAt 6 3) = .instant 9 := by decide +kernel
  have hlooked : ∀ units, window.after (.resetsAt 6 units) = window.advance 6 := fun _ => rfl
  have hcounts : (window.advance 6).counts = [3, 0, 3] := by decide +kernel
  have hnone : (window.advance 6).available = 0 := by decide +kernel
  have htwo : (window.advance 6).excess = 2 := by decide +kernel
  obtain ⟨_, room, hnamed, -, hroom, hiff, -⟩ := run_room_at_reset_iff plan 0 6
    [.record 3, .available 6, .record 3] 1 (by decide +kernel) (by decide) (by decide)
  obtain ⟨_, less, hnamed', -, hless, hiff', -⟩ := run_room_at_reset_iff plan 0 6
    [.record 3, .available 6, .record 3] 3 (by decide +kernel) (by decide) (by decide)
  obtain rfl := Result.instant.inj (hone.symm.trans hnamed)
  obtain rfl := Result.instant.inj (hthree.symm.trans hnamed')
  obtain rfl : room = less := Result.count.inj (hroom.symm.trans hless)
  rw [hlooked, hcounts, hnone, htwo] at hiff hiff'
  refine ⟨by decide +kernel, by decide +kernel, by decide +kernel, hone, hthree, room, hroom, ?_, ?_⟩
  · rw [hiff]
    intro turns hturns
    cases turns with
    | zero => simp at hturns
    | succ turns => simp
  · rw [hiff']
    intro hall
    have hfirst := hall 1 (by decide)
    simp at hfirst

/-- **A window that names an instant at which there is no room.** A unit was recorded at 0 and five more at
2, where two are allowed. At 2 the window names 4 for one unit; at 4 the five are still counted, and there
is no room. The first instant with room is 6. -/
theorem no_room_at_reset :
    let plan : Plan := ⟨2, 4, 2, by decide, by decide, by decide, by decide⟩
    let history : List Operation := [.record 1, .total 2, .record 5]
    let window := (fresh plan 0).run history
    let looked := window.after (.resetsAt 2 1)
    (0 :: instants history ++ [2]).Pairwise (· ≤ ·) ∧ unitsOf history ≤ Count.largest ∧
      window.start ≤ 2 ∧ 1 ≤ plan.limit ∧
      window.result (.resetsAt 2 1) = .instant 4 ∧ looked.result (.available 4) = .count 0 ∧
      ¬1 ≤ 0 ∧ looked.result (.available 5) = .count 0 ∧ looked.result (.available 6) = .count 2 := by
  decide +kernel

end Throttle.Window

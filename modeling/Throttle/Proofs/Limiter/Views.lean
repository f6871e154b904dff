import Throttle.Proofs.Limiter.Spending
import Throttle.Proofs.Limiter.Reset
import Throttle.Proofs.Window.Announcement

/-!
# Four views of one decision

Whether there is room for a permit can be learnt in four ways: one may ask whether it would be let
through, use it, ask from which instant on it can be used, and ask how long that takes. At one reading
of the clock all four tell the same, whichever way the clock went before and in whatever order they are
asked. Whoever finds too little room has to wait for some time, so nobody who waits for as long as he was
told comes back at the same reading.

## Main definitions

* `Desk.allAt` — calls that are all made at one reading.

## Main statements

* `Desk.run_allAt` — calls at one reading that let nothing through turn the window at most.
* `Desk.views_agree` — the four views agree.
-/

namespace Throttle.Desk

/-- Calls that are made one after the other at one reading. -/
def allAt (now : Int) (calls : List Call) : List (Int × Call) := calls.map fun call => (now, call)

/-- Calls at one reading that let nothing through turn the window at most, and leave every permit as it
was. -/
theorem run_allAt {desk : Desk} {now : Int} {calls : List Call}
    (hidle : recordings (desk.run (allAt now calls)).2 = []) {number : Nat} {permit : Permit}
    (hpermit : desk.permits[number]? = some permit) :
    (desk.run (allAt now calls)).1.limiter.window.advance now = desk.limiter.window.advance now ∧
      (desk.run (allAt now calls)).1.permits[number]? = some permit := by
  induction calls generalizing desk with
  | nil => exact ⟨rfl, hpermit⟩
  | cons call calls ih =>
    simp only [allAt, List.map_cons, run_cons] at hidle ⊢
    obtain ⟨hnone, hrest⟩ := recorded_eq_none hidle
    obtain ⟨hwindow, hkept⟩ := ih hrest (permit_serve hnone hpermit)
    refine ⟨hwindow.trans ?_, hkept⟩
    rcases desk.serve_cases now call with ⟨_, units, -, hused⟩ | ⟨-, hspares⟩
    · rw [hused] at hnone
      cases hnone
    · rcases hspares.window with hsame | hturned
      · rw [hsame]
      · rw [hturned]
        exact desk.limiter.window.advance_advance_self now

section Unused

variable {desk : Desk} {number units : Nat}

/-- What is answered about an unused permit, read off the window as it stands at the reading. -/
theorem serve_of_unused (h : desk.permits[number]? = some ⟨units, false⟩) (now : Int) :
    let window := desk.limiter.window.advance now
    (desk.serve now (.allows number)).2 = .flag (units ≤ window.available) ∧
      (desk.serve now (.use number)).2 =
        .used units (if units ≤ window.available then none else some .noRoom) ∧
      (desk.serve now (.resetsAt number)).2 = .instant (window.resetsAt now units) ∧
      (desk.serve now (.retryAfter number)).2 =
        .span (Time.elapsed now (window.resetsAt now units)) := by
  refine ⟨?_, serve_use_eq h now, ?_, ?_⟩
  · rw [serve, ask_eq h]
    rfl
  · rw [serve, ask_eq h]
    rfl
  · rw [serve, ask_eq h]
    rfl

end Unused

/-- **Four views of one decision agree.** A limiter has been asked for permits and permits have been used,
with a clock that goes forward and back, and a permit has not been used up. At any reading, whatever else
is asked and tried in vain at this reading before: the permit would be let through just if using it is let
through, just if the instant from which it can be used is the reading itself, and just if no time is left
until then. Otherwise its use finds too little room, and the instant is later than the reading. -/
theorem views_agree (policy : Policy) (opened now : Int) (history : List (Int × Call))
    (number units : Nat)
    (hpermit : ((opening policy opened).run history).1.permits[number]? = some ⟨units, false⟩) :
    let desk := ((opening policy opened).run history).1
    ∃ (room : Bool) (reset : Int) (span : Nat),
      (room = true ↔ reset = now) ∧ (room = true ↔ span = 0) ∧ (room = false → now < reset) ∧
      reset = now + span ∧
      ∀ calls : List Call, recordings (desk.run (allAt now calls)).2 = [] →
        let asked := (desk.run (allAt now calls)).1
        (asked.serve now (.allows number)).2 = .flag room ∧
          (asked.serve now (.use number)).2 =
            .used units (if room then none else some .noRoom) ∧
          (asked.serve now (.resetsAt number)).2 = .instant reset ∧
          (asked.serve now (.retryAfter number)).2 = .span span := by
  intro desk
  let window := desk.limiter.window.advance now
  have hend : now < window.start + window.plan.width := by
    rw [Window.plan_advance]
    exact desk.limiter.window.lt_start_advance_add_width now
  have hiff := window.resetsAt_eq_now_iff units hend
  have hle := Window.le_resetsAt window now units
  have hroom : decide (units ≤ window.available) = true ↔ window.resetsAt now units = now := by
    rw [decide_eq_true_iff, hiff]
  refine ⟨decide (units ≤ window.available), window.resetsAt now units,
    Time.elapsed now (window.resetsAt now units), hroom, ?_, ?_, ?_, ?_⟩
  · rw [hroom, Time.elapsed]
    omega
  · intro hnone
    have hlater : window.resetsAt now units ≠ now := by
      rw [Ne, ← hroom, hnone]
      simp
    omega
  · rw [Time.elapsed]
    omega
  · intro calls hidle asked
    obtain ⟨hwindow, hkept⟩ := run_allAt hidle hpermit
    have hanswers := serve_of_unused hkept now
    rw [hwindow] at hanswers
    simpa only [decide_eq_true_eq] using hanswers

/-- A unit was let through at 5, and the clock has gone back to 2. Of two permits that are left one is for
a pair, which finds too little room however often it is tried, and has to wait until 11; the other one is
for a single unit, for which there is room. -/
theorem views_agree_clock_goes_back :
    let history : List (Int × Call) :=
      [(5, .request 2), (5, .single), (5, .single), (5, .use 1)]
    let desk := ((opening .twoInTen 0).run history).1
    let calls : List Call := [.use 0, .available none, .allows 2]
    let asked := (desk.run (allAt 2 calls)).1
    (asked.serve 2 (.allows 0)).2 = .flag false ∧
      (asked.serve 2 (.use 0)).2 = .used 2 (some .noRoom) ∧
      (asked.serve 2 (.resetsAt 0)).2 = .instant 11 ∧
      (asked.serve 2 (.retryAfter 0)).2 = .span 9 ∧
      (asked.serve 2 (.use 2)).2 = .used 1 none ∧
      (asked.serve 2 (.resetsAt 2)).2 = .instant 2 ∧
      (asked.serve 2 (.retryAfter 2)).2 = .span 0 := by
  intro history desk calls asked
  have hidle : recordings (desk.run (allAt 2 calls)).2 = [] := by decide +kernel
  obtain ⟨room, reset, span, -, -, -, hspan, hpair⟩ :=
    views_agree .twoInTen 0 2 history 0 2 (by decide +kernel)
  obtain ⟨hallows, huse, hreset, hretry⟩ := hpair calls hidle
  have hnone : room = false := Answer.flag.inj (hallows.symm.trans (by decide +kernel))
  have heleven : reset = 11 := Answer.instant.inj (hreset.symm.trans (by decide +kernel))
  have hnine : span = 9 := by omega
  subst hnone heleven hnine
  obtain ⟨room, reset, span, hnow, hzero, -, -, hsingle⟩ :=
    views_agree .twoInTen 0 2 history 2 1 (by decide +kernel)
  obtain ⟨hallows', huse', hreset', hretry'⟩ := hsingle calls hidle
  have hsome : room = true := Answer.flag.inj (hallows'.symm.trans (by decide +kernel))
  rw [hnow.mp hsome] at hreset'
  rw [hzero.mp hsome] at hretry'
  rw [hsome] at huse'
  exact ⟨hallows, huse, hreset, hretry, huse', hreset', hretry'⟩

end Throttle.Desk

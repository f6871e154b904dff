import Throttle.Proofs.Limiter.Rush
import Throttle.Proofs.Window.Words

/-!
# Limiters in machine words

What is asked at a desk is served once more in the arithmetic of `Word`, where a result that does not fit
is `none`. A limiter that reads any clock, forwards or backwards, counts no more than its limit, which is a
count. So whatever is asked is answered, and the answer is the one that the desk gives that calculates
without bounds. The readings need only leave room for an interval after them, as the end of the interval
is an instant that may be announced.

## Main definitions

* `Limiter.use?` — use a permit, in words.
* `Desk.serve?`, `Desk.run?` — serve a call, and one call after the other, in words.

## Main statements

* `Desk.serve?_eq_some` — every call is answered.
* `Desk.run_stays_in_words` — what is calculated in any run, and that all of it fits.
-/

namespace Throttle

/-- What is counted within a limit is a count. -/
theorem Window.WithinLimit.total_le_largest {window : Window} (h : window.WithinLimit) :
    window.total ≤ Count.largest := Nat.le_trans h window.plan.limit_le

namespace Limiter

/-- Use a permit at the reading `now`. The room is found first, and what is left of it is told. -/
def use? (limiter : Limiter) (permit : Permit) (now : Int) : Option Use :=
  if permit.used then some ⟨limiter, permit, some .alreadyUsed⟩
  else do
    let window ← limiter.window.advance? now
    let available ← window.available?
    if available < permit.units then
      some ⟨{ limiter with window := window }, permit, some .noRoom⟩
    else
      let recorded ← window.record? permit.units
      let _left ← Word.sub? available permit.units
      some ⟨{ limiter with window := recorded }, { permit with used := true }, none⟩

/-- **A permit can be used**: its units are recorded only where there is room for them, and then all that
is counted is a count. -/
theorem use?_eq_some {limiter : Limiter} (hlimit : limiter.window.WithinLimit) {now : Int}
    (hnow : now ≤ Time.latest) (permit : Permit) :
    limiter.use? permit now = some (limiter.use permit now) := by
  have hturned := hlimit.advance now
  have hroom := Window.available?_eq_some hturned.total_le_largest
  have hlook := limiter.window.advance?_eq_some hnow
  rw [use?]
  rcases limiter.use_cases permit now with ⟨hused, huse⟩ | ⟨hused, hfew, huse⟩ | ⟨hused, hfits, huse⟩
  · rw [if_pos hused, huse]
  · have hfew' : (limiter.window.advance now).available < permit.units := hfew
    simp only [hused, Bool.false_eq_true, if_false, hlook, hroom, huse, hfew', if_true,
      Option.bind_eq_bind, Option.bind_some]
    rfl
  · have hfits' : permit.units ≤ (limiter.window.advance now).available := hfits
    have hrecord := Window.record?_eq_some (hturned.fits_count hfits')
    simp only [hused, Bool.false_eq_true, if_false, hlook, hroom, huse, Nat.not_lt.mpr hfits',
      hrecord, Word.sub?_eq_some hfits', Option.bind_eq_bind, Option.bind_some]

end Limiter

namespace Desk

/-- Ask about a permit. -/
def ask? (desk : Desk) (now : Int) (number : Nat) (tell : Limiter → Permit → Option Answer) :
    Option (Desk × Answer) :=
  match desk.permits[number]? with
  | none => some (desk, .unknown)
  | some permit => do
    let window ← desk.limiter.window.advance? now
    let limiter := { desk.limiter with window := window }
    let answer ← tell limiter permit
    some ({ desk with limiter := limiter }, answer)

/-- Serve a call at the reading `now`. Nothing is calculated to issue a permit. -/
def serve? (desk : Desk) (now : Int) : Call → Option (Desk × Answer)
  | .single => some (desk.serve now .single)
  | .request units => some (desk.serve now (.request units))
  | .use number =>
    match desk.permits[number]? with
    | none => some (desk, .unknown)
    | some permit => do
      let used ← desk.limiter.use? permit now
      some (⟨used.limiter, desk.permits.set number used.permit⟩, .used permit.units used.refusal)
  | .allows number => desk.ask? now number fun limiter permit => do
    let available ← limiter.window.available?
    some (.flag (permit.units ≤ available))
  | .resetsAt number => desk.ask? now number fun limiter permit => do
    let instant ← limiter.window.resetsAt? now permit.units
    some (.instant instant)
  | .retryAfter number => desk.ask? now number fun limiter permit => do
    let instant ← limiter.window.resetsAt? now permit.units
    some (.span (Time.elapsed now instant))
  | .available (some reason) => some (desk, .ended reason)
  | .available none => do
    let window ← desk.limiter.window.advance? now
    let available ← window.available?
    some ({ desk with limiter := { desk.limiter with window := window } }, .room available)

/-- Serve one call after the other. -/
def run? (desk : Desk) : List (Int × Call) → Option (Desk × List (Int × Answer))
  | [] => some (desk, [])
  | (now, call) :: calls => do
    let served ← desk.serve? now call
    let rest ← served.1.run? calls
    some (rest.1, (now, served.2) :: rest.2)

section Serve

variable {desk : Desk} {now : Int}

theorem ask?_eq_some (hnow : now ≤ Time.latest) (number : Nat)
    {tell : Limiter → Permit → Answer} {tell? : Limiter → Permit → Option Answer}
    (htell : ∀ permit, tell? (desk.limiter.advance now) permit =
      some (tell (desk.limiter.advance now) permit)) :
    desk.ask? now number tell? = some (desk.ask now number tell) := by
  rw [ask?, ask]
  cases desk.permits[number]? with
  | none => rfl
  | some permit =>
    have hlook := desk.limiter.window.advance?_eq_some hnow
    have hanswer := htell permit
    rw [Limiter.advance] at hanswer
    simp only [hlook, hanswer, Option.bind_eq_bind, Option.bind_some]
    rfl

/-- **Every call is answered**, at a desk whose window counts no more than its limit. -/
theorem serve?_eq_some (hsized : desk.limiter.window.plan.Sized)
    (hlimit : desk.limiter.window.WithinLimit)
    (hnow : now + desk.limiter.window.plan.interval ≤ Time.latest) (call : Call) :
    desk.serve? now call = some (desk.serve now call) := by
  have hshown : now ≤ Time.latest := by omega
  have hplan := desk.limiter.window.plan_advance now
  have htotal := (hlimit.advance now).total_le_largest
  have hroom := Window.available?_eq_some htotal
  have hreset : ∀ units, (desk.limiter.window.advance now).resetsAt? now units =
      some ((desk.limiter.window.advance now).resetsAt now units) :=
    Window.resetsAt?_eq_some (by rwa [hplan]) htotal (by rwa [hplan])
  cases call with
  | single | request units => rfl
  | use number =>
    rw [serve?, serve]
    cases desk.permits[number]? with
    | none => rfl
    | some permit =>
      simp only [Limiter.use?_eq_some hlimit hshown permit, Option.bind_eq_bind, Option.bind_some]
  | allows number =>
    rw [serve?, serve]
    refine ask?_eq_some hshown number fun permit => ?_
    change ((desk.limiter.window.advance now).available?).bind _ = _
    rw [hroom]
    rfl
  | resetsAt number | retryAfter number =>
    rw [serve?, serve]
    refine ask?_eq_some hshown number fun permit => ?_
    change ((desk.limiter.window.advance now).resetsAt? now permit.units).bind _ = _
    rw [hreset]
    rfl
  | available ended =>
    cases ended with
    | some reason => rfl
    | none =>
      rw [serve?, desk.limiter.window.advance?_eq_some hshown]
      simp only [hroom, Option.bind_eq_bind, Option.bind_some]
      rfl

end Serve

theorem run?_eq_some {desk : Desk} (hsized : desk.limiter.window.plan.Sized)
    (hlimit : desk.limiter.window.WithinLimit) {calls : List (Int × Call)}
    (hreadings : ∀ now ∈ readings calls, now + desk.limiter.window.plan.interval ≤ Time.latest) :
    desk.run? calls = some (desk.run calls) := by
  induction calls generalizing desk with
  | nil => rfl
  | cons event calls ih =>
    obtain ⟨now, call⟩ := event
    have hserve := serve?_eq_some hsized hlimit (hreadings now List.mem_cons_self) call
    have hplan := desk.plan_serve now call
    have hrest := ih (by rwa [hplan]) (hlimit.move (desk.move_serve now call)) (by
      rw [hplan]
      exact fun later hlater => hreadings later (List.mem_cons_of_mem now hlater))
    rw [run?, hserve]
    simp only [hrest, Option.bind_eq_bind, Option.bind_some]
    rfl

/-- **All that is calculated fits.** A limiter has a plan that was accepted. It is asked anything, at any
readings of its clock, forwards or backwards, that leave room for an interval after them.

Its interval is divided by a number that is not zero. Every call is answered, and answered as it is
without bounds. Wherever this leads, and at whatever reading the window is looked at next: every turn that
is made for it ends at an instant that is not later than the reading, and takes off no more than has
elapsed; what is counted is a count, also with any units that there is room for, and so is the newest of
the counts; what is left of the room, or missing from it, is not less than nothing; every segment has a
number, and the segments up to it are no longer than the interval; and every instant that is announced can
be shown, and lies within an interval. -/
theorem run_stays_in_words {limit : UInt64} {interval : Nat} {segments : UInt64} {plan : Plan}
    (hplan : Plan.ofParameters limit interval segments = .ok plan) (clock : Clock)
    (tallies : List Nat) (stated opened : Int) (calls : List (Int × Call))
    (hreadings : ∀ now ∈ readings calls, now + plan.interval ≤ Time.latest) :
    let desk := opening ⟨.fresh plan stated, clock, tallies⟩ opened
    Word.div? plan.interval plan.segments = some plan.width ∧
    desk.run? calls = some (desk.run calls) ∧
    ∀ now : Int, now + plan.interval ≤ Time.latest →
      let window := (desk.run calls).1.limiter.window
      let elapsed := Time.elapsed window.start now
      let looked := window.advance now
      window.advance? now = some looked ∧
      (∀ step, 0 < step → step ≤ elapsed / plan.width →
        step * plan.width ≤ elapsed ∧ (Window.turn^[step] window).start ≤ now) ∧
      looked.total? = some looked.total ∧ looked.total ≤ Count.largest ∧
      (∀ units ≤ looked.available, looked.record? units = some (looked.record units) ∧
        ∀ newest ∈ looked.counts.getLast?, newest + units ≤ Count.largest) ∧
      (∀ index < plan.segments,
        index + 1 ≤ Plan.mostSegments ∧ plan.width * (index + 1) ≤ plan.interval) ∧
      ∀ units, looked.resetsAt? now units = some (looked.resetsAt now units) ∧
        now ≤ looked.resetsAt now units ∧ looked.resetsAt now units ≤ now + plan.interval := by
  intro desk
  have hsized : plan.Sized := Plan.sized_of_ofParameters hplan
  have hlimit : desk.limiter.window.WithinLimit := Policy.withinLimit_make _ opened
  refine ⟨plan.div?_segments_eq_some, run?_eq_some hsized hlimit hreadings, ?_⟩
  intro now hnow window elapsed looked
  have hsame : window.plan = plan := desk.plan_run calls
  have hlooked : looked.plan = plan := (window.plan_advance now).trans hsame
  have hwithin : looked.WithinLimit := (withinLimit_run hlimit calls).advance now
  have htotal := hwithin.total_le_largest
  refine ⟨window.advance?_eq_some (by omega), ?_, Window.total?_eq_some htotal, htotal, ?_, ?_, ?_⟩
  · intro step hpos hstep
    rw [← hsame] at hstep ⊢
    exact Window.start_iterate_turn_le hpos hstep
  · intro units hunits
    have hfits := hwithin.fits_count hunits
    refine ⟨Window.record?_eq_some hfits, fun newest hnewest => ?_⟩
    have hcount : newest ≤ looked.total := List.single_le_sum (by simp) _ (List.mem_of_getLast? hnewest)
    omega
  · intro index hindex
    have hmost := hsized.segments_le
    exact ⟨by omega, plan.width_mul_le hindex⟩
  · intro units
    have hreset := Window.resetsAt?_eq_some (by rwa [hlooked]) htotal (by rwa [hlooked]) units
    have hinterval := looked.resetsAt_le now units
    rw [hlooked] at hinterval
    exact ⟨hreset, looked.le_resetsAt now units, hinterval⟩

/-- The largest limit and the longest interval, at the last reading that leaves room for it. The limit is
used up at once. A clock that goes back finds no room and names the last instant that can be shown, and so
does the clock at the last reading. -/
theorem run_stays_in_words_at_the_end :
    let plan : Plan :=
      ⟨Count.largest, Plan.longestInterval, 2, by decide, by decide, by decide, by decide⟩
    let last : Int := Time.latest - Plan.longestInterval
    let desk := opening ⟨.fresh plan 0, .manual 0, []⟩ last
    let calls : List (Int × Call) := [(last, .request Count.largest), (last, .use 0), (last, .single),
      (last - 7, .use 1), (last - 7, .retryAfter 1), (last, .resetsAt 1)]
    (desk.run? calls).map Prod.snd = some [(last, .issued), (last, .used Count.largest none),
        (last, .issued), (last - 7, .used 1 (some .noRoom)),
        (last - 7, .span Plan.longestInterval), (last, .instant Time.latest)] ∧
      ((desk.run calls).1.limiter.window.advance last).resetsAt? last 1 = some Time.latest ∧
      Time.latest ≤ last + plan.interval := by
  intro plan last desk calls
  have hplan : Plan.ofParameters 18446744073709551615 Plan.longestInterval 2 = .ok plan := rfl
  obtain ⟨-, hrun, hlook⟩ := run_stays_in_words hplan (.manual 0) [] 0 last calls (by decide +kernel)
  obtain ⟨-, -, -, -, -, -, hresets⟩ := hlook last (by decide +kernel)
  obtain ⟨hreset, -, hinterval⟩ := hresets 1
  have hlatest : ((desk.run calls).1.limiter.window.advance last).resetsAt last 1 = Time.latest := by
    decide +kernel
  rw [hlatest] at hreset hinterval
  refine ⟨?_, hreset, hinterval⟩
  rw [hrun]
  decide +kernel

end Desk

end Throttle

import Throttle.Proofs.Window.Walk
import Throttle.Proofs.Window.Announcement

/-!
# Windows in machine words

A machine keeps a count in a word of 64 bits and the number of a segment in one of 32, and the seconds of
a span or of an instant fill a word as well. Where a result does not fit the machine stops. Here what is
done to a window is done once more in arithmetic of this kind, one operation after the other: a sum, a
difference, a product or a quotient that does not fit is `none`, and so is everything that needs it. It is
shown that nothing is lost in this way, and that what comes out is what a window gives that calculates
without bounds.

Two operations are not of this kind. What is recorded and what has been freed is added up by `Count.add`,
which stays at the largest count. Recording is held to the exact sum here all the same. What has been
freed is not: it is shown to be exact.

## Main definitions

* `Word.add?`, `Word.sub?`, `Word.mul?`, `Word.div?` — arithmetic with an end.
* `Plan.Sized` — the numbers of a plan that was accepted.
* `Window.advance?`, `Window.available?`, `Window.record?`, `Window.resetsAt?` — a window in words.

## Main statements

* `Window.walk?_eq_some` — no turn goes past the present instant.
* `Window.agesOut?_eq` — no segment is asked for that has no number.
* `Window.resetsAt?_eq_some` — every instant that is announced can be shown.
-/

namespace Throttle

/-! ## Arithmetic with an end -/

namespace Word

/-- The sum, if it is at most `most`. -/
def add? (most m n : Nat) : Option Nat := if m + n ≤ most then some (m + n) else none

/-- What is left of `m` without `n`, if there is so much. -/
def sub? (m n : Nat) : Option Nat := if n ≤ m then some (m - n) else none

/-- The product, if it is at most `most`. -/
def mul? (most m n : Nat) : Option Nat := if m * n ≤ most then some (m * n) else none

/-- The quotient, if there is anything to divide by. -/
def div? (m n : Nat) : Option Nat := if n = 0 then none else some (m / n)

section Results

variable {most m n : Nat}

theorem add?_eq_some (h : m + n ≤ most) : add? most m n = some (m + n) := if_pos h

theorem sub?_eq_some (h : n ≤ m) : sub? m n = some (m - n) := if_pos h

theorem eq_sub_of_sub? {rest : Nat} (h : sub? m n = some rest) : rest = m - n :=
  (Option.some.inj (Option.ite_none_right_eq_some.mp h).2).symm

theorem mul?_eq_some (h : m * n ≤ most) : mul? most m n = some (m * n) := if_pos h

theorem div?_eq_some (h : 0 < n) : div? m n = some (m / n) := if_neg (Nat.ne_of_gt h)

/-- Adding up one number after the other fits just if the whole sum does. -/
theorem foldlM_add? (hm : m ≤ most) (numbers : List Nat) :
    numbers.foldlM (add? most) m = add? most m numbers.sum := by
  induction numbers generalizing m with
  | nil =>
    have hnil : m + [].sum ≤ most := hm
    exact (add?_eq_some hnil).symm
  | cons number numbers ih =>
    rw [List.foldlM_cons, List.sum_cons]
    by_cases hfits : m + number ≤ most
    · rw [add?_eq_some hfits]
      change numbers.foldlM (add? most) (m + number) = _
      rw [ih hfits, add?, add?, Nat.add_assoc]
    · have hwhole : ¬m + (number + numbers.sum) ≤ most := by omega
      rw [add?, if_neg hfits, add?, if_neg hwhole]
      rfl

end Results

end Word

/-- The longest span: its seconds fill a word. -/
def Time.longest : Nat := Count.largest * Time.second + (Time.second - 1)

theorem Time.after?_eq_some {t : Int} {span : Nat} (h : t + span ≤ Time.latest) :
    Time.after? t span = some (t + span) := if_pos h

namespace Plan

/-- The numbers of a plan that was accepted: its segments can be numbered, and its interval is not
longer than any that is asked for. -/
structure Sized (plan : Plan) : Prop where
  segments_le : plan.segments ≤ mostSegments
  interval_le : plan.interval ≤ longestInterval

theorem sized_of_ofParameters {limit : UInt64} {interval : Nat} {segments : UInt64} {plan : Plan}
    (h : ofParameters limit interval segments = .ok plan) : plan.Sized := by
  rw [ofParameters] at h
  split_ifs at h with _ _ hlong _ hmany
  cases h
  exact ⟨Nat.not_lt.mp hmany, Nat.not_lt.mp hlong⟩

/-- There is a segment to divide the interval by. -/
theorem div?_segments_eq_some (plan : Plan) : Word.div? plan.interval plan.segments = some plan.width :=
  Word.div?_eq_some (Nat.lt_of_lt_of_le Nat.two_pos plan.two_le_segments)

/-- The segments up to any one of them are together no longer than the interval. -/
theorem width_mul_le (plan : Plan) {number : Nat} (h : number ≤ plan.segments) :
    plan.width * number ≤ plan.interval :=
  calc plan.width * number
      ≤ plan.width * plan.segments := Nat.mul_le_mul_left _ h
    _ = plan.segments * plan.width := Nat.mul_comm _ _
    _ ≤ plan.interval := plan.segments_mul_width_le

end Plan

namespace Window

variable {window : Window} {now : Int} {units : Nat}

/-! ## Turning -/

/-- The walk of a window: a turn takes the start of the newest segment a width further, and a width off
what has elapsed. -/
def walk? (window : Window) (elapsed : Nat) : Option Window :=
  if window.plan.width ≤ elapsed then
    match Time.after? window.start window.plan.width,
      _hrest : Word.sub? elapsed window.plan.width with
    | some start, some rest => walk? { window.turn with start := start } rest
    | _, _ => none
  else some window
termination_by elapsed
decreasing_by
  have hwidth := window.plan.width_pos
  have hrest := Word.eq_sub_of_sub? _hrest
  omega

/-- The window as it stands at `now`, walked to if an interval has not passed. -/
def advance? (window : Window) (now : Int) : Option Window :=
  let elapsed := Time.elapsed window.start now
  if window.plan.interval ≤ elapsed then some (fresh window.plan now) else window.walk? elapsed

theorem walk?_of_lt {elapsed : Nat} (h : elapsed < window.plan.width) :
    window.walk? elapsed = some window := by
  rw [walk?, if_neg (Nat.not_le.mpr h)]

/-- **No turn goes past the present instant**, where all that has elapsed ends. -/
theorem walk?_eq_some {elapsed : Nat} (h : window.start + elapsed ≤ Time.latest) :
    window.walk? elapsed = some (window.walk elapsed).1 := by
  fun_induction walk window elapsed with
  | case1 window elapsed hle rest ih =>
    have hstart : Time.after? window.start window.plan.width = some window.turn.start :=
      Time.after?_eq_some (by omega)
    have hrest : Word.sub? elapsed window.plan.width = some (elapsed - window.plan.width) :=
      Word.sub?_eq_some hle
    have hnext : window.turn.start + (elapsed - window.plan.width : Nat) ≤ Time.latest := by
      rw [start_turn]
      omega
    rw [walk?, if_pos hle]
    split
    · rename_i start left hstart' hrest'
      obtain rfl := Option.some.inj (hstart.symm.trans hstart')
      obtain rfl := Option.some.inj (hrest.symm.trans hrest')
      exact ih hnext
    · rename_i hnone
      exact (hnone _ _ hstart hrest).elim
  | case2 window elapsed hlt => exact walk?_of_lt (Nat.not_le.mp hlt)

/-- **A window can be looked at at any instant that can be shown.** -/
theorem advance?_eq_some (window : Window) (h : now ≤ Time.latest) :
    window.advance? now = some (window.advance now) := by
  rw [advance?]
  by_cases hle : window.plan.interval ≤ Time.elapsed window.start now
  · rw [if_pos hle, advance_of_le hle]
  · have hlt := Nat.not_le.mp hle
    rw [if_neg hle, advance_eq_iterate_turn hlt]
    by_cases hstart : window.start ≤ now
    · have hend : window.start + (Time.elapsed window.start now : Nat) ≤ Time.latest := by
        rw [Time.elapsed]
        omega
      rw [walk?_eq_some hend, walk_eq]
      rfl
    · -- Nothing has elapsed for a window that is looked at before its start.
      have hnone : Time.elapsed window.start now = 0 := by
        rw [Time.elapsed]
        omega
      have hturns : window.turnsAt now = 0 := by rw [turnsAt, hnone, Nat.zero_div]
      rw [hnone, hturns, walk?_of_lt window.plan.width_pos]
      rfl

/-- **Every step of a walk**: as long as there is a turn to make there is enough left of what has elapsed,
and the turn does not take the newest segment past the present instant. -/
theorem start_iterate_turn_le {step : Nat} (hpos : 0 < step)
    (h : step ≤ Time.elapsed window.start now / window.plan.width) :
    step * window.plan.width ≤ Time.elapsed window.start now ∧
      (turn^[step] window).start ≤ now := by
  have hpassed : step * window.plan.width ≤ Time.elapsed window.start now :=
    (Nat.le_div_iff_mul_le window.plan.width_pos).mp h
  have hwidth : 0 < step * window.plan.width := Nat.mul_pos hpos window.plan.width_pos
  rw [Time.elapsed] at hpassed ⊢
  rw [start_iterate_turn]
  omega

/-! ## Counting and recording -/

/-- What the window counts, added up from the oldest count on. -/
def total? (window : Window) : Option Nat := window.counts.foldlM (Word.add? Count.largest) 0

/-- The room that is left. -/
def available? (window : Window) : Option Nat := do
  let total ← window.total?
  some (window.plan.limit - total)

/-- Record `units` in the newest segment, if its count has room for all of them. -/
def record? (window : Window) (units : Nat) : Option Window :=
  match window.counts.getLast? with
  | none => some window
  | some newest => do
    let sum ← Word.add? Count.largest newest units
    some {
      plan := window.plan
      counts := window.counts.dropLast ++ [sum]
      start := window.start
      length_counts := by
        have htwo := window.plan.two_le_segments
        have hlength := window.length_counts
        simp only [List.length_append, List.length_dropLast, List.length_singleton]
        omega }

theorem total?_eq_some (h : window.total ≤ Count.largest) : window.total? = some window.total := by
  have hsum : window.counts.sum = window.total := rfl
  rw [total?, Word.foldlM_add? (Nat.zero_le _), hsum, Word.add?_eq_some (by omega), Nat.zero_add]

theorem available?_eq_some (h : window.total ≤ Count.largest) :
    window.available? = some window.available := by
  rw [available?, total?_eq_some h]
  rfl

/-- **Recording is exact** as long as all that is counted then is a count. -/
theorem record?_eq_some (h : window.total + units ≤ Count.largest) :
    window.record? units = some (window.record units) := by
  obtain ⟨older, newest, hcounts⟩ := window.exists_newest
  have hlast : window.counts.getLast? = some newest := by rw [hcounts, List.getLast?_concat]
  have holder : window.counts.dropLast = older := by rw [hcounts, List.dropLast_concat]
  have hnewest : newest + units ≤ Count.largest := by
    rw [total_eq_left, left, List.drop_zero, hcounts, List.sum_append, List.sum_singleton] at h
    omega
  rw [record?, hlast]
  simp only [Word.add?_eq_some hnewest, Option.bind_eq_bind, Option.bind_some, Option.some.injEq]
  apply eq_of_counts_of_start
  · rfl
  · change window.counts.dropLast ++ [newest + units] = _
    rw [counts_record hcounts h, holder]
  · rfl

/-! ## Counting off -/

/-- The span from the start of the window until at least `need` units have left it, if they ever do, where
`freed` units leave it with the first `index` segments. -/
def agesOut? (width need : Nat) : Nat → Nat → List Nat → Option (Option Nat)
  | _, _, [] => some none
  | freed, index, count :: counts =>
    if need ≤ Count.add freed count then do
      let number ← Word.add? Plan.mostSegments index 1
      let span ← Word.mul? Time.longest width number
      some (some span)
    else agesOut? width need (Count.add freed count) (index + 1) counts

/-- The instant from which there is room for `units`. -/
def resetsAt? (window : Window) (now : Int) (units : Nat) : Option Int := do
  let available ← window.available?
  if units ≤ available then some now
  else
    let elapsed := Time.elapsed window.start now
    let need ← Word.sub? units available
    match ← agesOut? window.plan.width need 0 0 window.counts with
    | some span => Time.after? now (span - elapsed)
    | none => Time.after? now (window.plan.interval - elapsed)

/-- **No segment is asked for that has no number**, and no span that is too long. -/
theorem agesOut?_eq {width need freed index : Nat} {counts : List Nat} (hneed : freed < need)
    (hfreed : freed + counts.sum ≤ Count.largest)
    (hindex : index + counts.length ≤ Plan.mostSegments)
    (hspan : width * (index + counts.length) ≤ Time.longest) :
    agesOut? width need freed index counts =
      some ((turnsToFree (need - freed) counts).map fun turns => width * (index + turns)) := by
  induction counts generalizing freed index with
  | nil => rfl
  | cons count counts ih =>
    rw [List.sum_cons] at hfreed
    rw [List.length_cons] at hindex hspan
    have hadd : Count.add freed count = freed + count := Count.add_eq_of_le (by omega)
    rw [agesOut?, turnsToFree, hadd]
    by_cases henough : need ≤ freed + count
    · have hone : width * (index + 1) ≤ Time.longest :=
        Nat.le_trans (Nat.mul_le_mul_left _ (by omega)) hspan
      have hnumber : index + 1 ≤ Plan.mostSegments := by omega
      rw [if_pos henough, if_pos (by omega), Word.add?_eq_some hnumber]
      change (Word.mul? Time.longest width (index + 1)).bind _ = _
      rw [Word.mul?_eq_some hone]
      rfl
    · have hnext : index + 1 + counts.length = index + (counts.length + 1) := by omega
      have hrest := @ih (freed + count) (index + 1) (by omega) (by omega) (by omega) (by rwa [hnext])
      rw [if_neg henough, if_neg (by omega), hrest, Option.map_map, Nat.sub_sub]
      congr 2
      funext turns
      change width * (index + 1 + turns) = width * (index + (turns + 1))
      congr 1
      omega

/-- **Every instant that is announced can be shown**, as long as the end of the interval can be. -/
theorem resetsAt?_eq_some (hsized : window.plan.Sized) (htotal : window.total ≤ Count.largest)
    (hnow : now + window.plan.interval ≤ Time.latest) (units : Nat) :
    window.resetsAt? now units = some (window.resetsAt now units) := by
  have hlatest : window.resetsAt now units ≤ Time.latest :=
    Int.le_trans (window.resetsAt_le now units) hnow
  have hlongest : Plan.longestInterval ≤ Time.longest := by decide
  have hinterval := hsized.interval_le
  have hspan : window.plan.width * (0 + window.counts.length) ≤ Time.longest := by
    have hwhole := window.plan.width_mul_le (Nat.le_refl window.plan.segments)
    rw [Nat.zero_add, window.length_counts]
    omega
  have hnumbers : 0 + window.counts.length ≤ Plan.mostSegments := by
    rw [Nat.zero_add, window.length_counts]
    exact hsized.segments_le
  have hsum : 0 + window.counts.sum ≤ Count.largest := by
    rw [Nat.zero_add]
    exact htotal
  rw [resetsAt?, available?_eq_some htotal]
  rw [resetsAt] at hlatest ⊢
  simp only [Option.bind_eq_bind, Option.bind_some]
  by_cases hroom : units ≤ window.available
  · rw [if_pos hroom, if_pos hroom]
  · have hneed : 0 < units - window.available := Nat.sub_pos_of_lt (Nat.not_le.mp hroom)
    rw [if_neg hroom] at hlatest
    rw [if_neg hroom, if_neg hroom, Word.sub?_eq_some (Nat.le_of_not_le hroom), Option.bind_some,
      agesOut?_eq hneed hsum hnumbers hspan, Option.bind_some, Nat.sub_zero]
    cases hturns : turnsToFree (units - window.available) window.counts with
    | none =>
      simp only [hturns] at hlatest
      exact Time.after?_eq_some hlatest
    | some turns =>
      simp only [hturns] at hlatest
      simp only [Option.map_some, Nat.zero_add]
      exact Time.after?_eq_some hlatest

end Window

end Throttle

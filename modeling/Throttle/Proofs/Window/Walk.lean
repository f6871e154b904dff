import Throttle.Proofs.Window.Turning

/-!
# Walking a window turn by turn

`Window.advance` makes all turns of a window at once, and starts afresh when an interval has passed.
Here the turns are made one after the other, for as long as a whole width is left of what has elapsed.
The two are compared: within an interval they come to the same window. After that they count the same,
which is nothing, but the walk keeps to the grid of the segments, while the window that starts afresh
leaves it.

The segments together may be shorter than the interval, as nanoseconds that the division leaves over
belong to no segment. So a walk may take more turns than there are segments before the interval is
over, and nearly twice as many if a segment is a nanosecond long.

## Main definitions

* `Window.turn` — one turn.
* `Window.walk` — the window after all turns that have come, and their number.

## Main statements

* `Window.walk_eq` — the number of turns is a quotient.
* `Window.counts_iterate_turn`, `Window.start_iterate_turn` — the window after any number of turns.
* `Plan.turns_le` — how many turns there are within an interval.
* `Window.advance_walks` — looking at a window and walking it.
-/

namespace Throttle

/-- Within an interval there are fewer turns than twice the segments, by two at least. -/
theorem Plan.turns_le (plan : Plan) {elapsed : Nat} (h : elapsed < plan.interval) :
    elapsed / plan.width ≤ 2 * plan.segments - 2 := by
  have htwo := plan.two_le_segments
  have hwidth := plan.width_pos
  -- The rest of the division of the interval is less than one nanosecond for each segment.
  have hinterval := Nat.div_add_mod plan.interval plan.segments
  have hrest := Nat.mod_lt plan.interval (Nat.lt_of_lt_of_le Nat.two_pos htwo)
  change plan.segments * plan.width + _ = _ at hinterval
  have hmore : plan.segments - 1 ≤ (plan.segments - 1) * plan.width :=
    Nat.le_mul_of_pos_right _ hwidth
  have hsum : plan.segments * plan.width + (plan.segments - 1) * plan.width =
      (2 * plan.segments - 1) * plan.width := by
    rw [← Nat.add_mul]
    congr 1
    omega
  have hlt : elapsed / plan.width < 2 * plan.segments - 1 := by
    rw [Nat.div_lt_iff_lt_mul hwidth]
    omega
  omega

namespace Window

/-- One turn: the oldest count is dropped, an empty one is added, and the newest segment starts a
width later. -/
def turn (window : Window) : Window where
  plan := window.plan
  counts := window.counts.tail ++ [0]
  start := window.start + window.plan.width
  length_counts := by
    have htwo := window.plan.two_le_segments
    have hlength := window.length_counts
    simp only [List.length_append, List.length_tail, List.length_singleton]
    omega

/-- The window after all turns that come within `elapsed`, and how many there are. A turn is made as
long as a whole width is left, and takes it off. -/
def walk (window : Window) (elapsed : Nat) : Window × Nat :=
  if window.plan.width ≤ elapsed then
    let rest := window.turn.walk (elapsed - window.plan.width)
    (rest.1, rest.2 + 1)
  else (window, 0)
termination_by elapsed
decreasing_by
  have hwidth := window.plan.width_pos
  omega

@[simp] theorem plan_turn (window : Window) : window.turn.plan = window.plan := rfl

@[simp] theorem start_turn (window : Window) :
    window.turn.start = window.start + window.plan.width := rfl

@[simp] theorem counts_turn (window : Window) :
    window.turn.counts = window.counts.tail ++ [0] := rfl

section Turns

variable (window : Window)

@[simp] theorem plan_iterate_turn (turns : Nat) : (turn^[turns] window).plan = window.plan := by
  induction turns with
  | zero => rfl
  | succ turns ih => rw [Function.iterate_succ_apply', plan_turn, ih]

/-- Every turn takes the newest segment a width further. -/
theorem start_iterate_turn (turns : Nat) :
    (turn^[turns] window).start = window.start + (turns * window.plan.width : Nat) := by
  induction turns with
  | zero => simp
  | succ turns ih =>
    rw [Function.iterate_succ_apply', start_turn, ih, plan_iterate_turn, Nat.succ_mul]
    push_cast
    omega

/-- **After some turns** as many counts are gone, and as many empty ones have come. -/
theorem counts_iterate_turn (turns : Nat) :
    (turn^[turns] window).counts = window.counts.drop (min turns window.plan.segments) ++
      List.replicate (min turns window.plan.segments) 0 := by
  have hlength := window.length_counts
  induction turns with
  | zero => simp
  | succ turns ih =>
    rw [Function.iterate_succ_apply', counts_turn, ih]
    by_cases hlt : turns < window.plan.segments
    · -- A count of the window goes.
      have hdrop : window.counts.drop turns ≠ [] := by
        intro hnil
        have hle := List.drop_eq_nil_iff.mp hnil
        omega
      rw [Nat.min_eq_left (Nat.le_of_lt hlt), Nat.min_eq_left (Nat.succ_le_of_lt hlt),
        List.tail_append_of_ne_nil hdrop, List.tail_drop, List.append_assoc,
        ← List.replicate_succ']
    · -- All counts of the window are gone already, and an empty one goes.
      have hle := Nat.not_lt.mp hlt
      have htwo := window.plan.two_le_segments
      have hnil : window.counts.drop window.plan.segments = [] := by
        rw [← hlength, List.drop_length]
      rw [Nat.min_eq_right hle, Nat.min_eq_right (Nat.le_succ_of_le hle), hnil, List.nil_append,
        List.tail_replicate, ← List.replicate_succ']
      congr 1
      omega

/-- **A walk makes as many turns as widths have passed.** -/
theorem walk_eq (elapsed : Nat) :
    window.walk elapsed = (turn^[elapsed / window.plan.width] window, elapsed / window.plan.width) := by
  fun_induction walk window elapsed with
  | case1 window elapsed hle rest ih =>
    have hdiv : elapsed / window.plan.width =
        (elapsed - window.plan.width) / window.plan.width + 1 :=
      Nat.div_eq_sub_div window.plan.width_pos hle
    simp only [rest, ih, plan_turn, hdiv, Function.iterate_succ_apply]
  | case2 window elapsed hlt =>
    rw [Nat.div_eq_of_lt (Nat.not_le.mp hlt)]
    rfl

end Turns

/-! ## Looking and walking -/

/-- Within an interval the two come to the same. -/
theorem advance_eq_iterate_turn {window : Window} {now : Int}
    (h : Time.elapsed window.start now < window.plan.interval) :
    window.advance now = turn^[window.turnsAt now] window := by
  have hlength := window.length_counts
  apply eq_of_counts_of_start
  · rw [plan_advance, plan_iterate_turn]
  · rw [counts_advance_of_lt h, counts_iterate_turn, List.length_drop, hlength]
    by_cases hlt : window.turnsAt now < window.plan.segments
    · rw [Nat.min_eq_left (Nat.le_of_lt hlt)]
      congr 2
      omega
    · have hle := Nat.not_lt.mp hlt
      rw [Nat.min_eq_right hle, List.drop_eq_nil_of_le (by omega),
        List.drop_eq_nil_of_le (by omega)]
      congr 2
      omega
  · rw [start_advance_of_lt h, start_iterate_turn]

/-- **Looking at a window is walking it, with a short cut.** The window is looked at when it has
started. The walk ends after as many turns as whole widths have passed.

Within an interval the window that is looked at is the one that is walked to, and the counts slide as
often as turns are made: at most twice as often as there are segments, less two. The oldest counts are
gone, empty ones have come in their place, and the newest segment starts as many widths later.

After an interval the two count the same, which is nothing at all. The walk ends with a segment in which
the present instant lies, and the window that is looked at has its newest segment start there.

In both cases the present instant lies in the newest segment. -/
theorem advance_walks (window : Window) (now : Int) (hnow : window.start ≤ now) :
    let width := window.plan.width
    let segments := window.plan.segments
    let elapsed := Time.elapsed window.start now
    let turns := elapsed / width
    let walked := window.walk elapsed
    let looked := window.advance now
    walked = (turn^[turns] window, turns) ∧
      (elapsed < window.plan.interval →
        looked = walked.1 ∧ (slide width elapsed window.counts 0).2 = turns ∧
        turns ≤ 2 * segments - 2 ∧
        looked.counts =
          window.counts.drop (min turns segments) ++ List.replicate (min turns segments) 0 ∧
        looked.start = window.start + (turns * width : Nat)) ∧
      (window.plan.interval ≤ elapsed →
        looked.counts = walked.1.counts ∧ (∀ count ∈ walked.1.counts, count = 0) ∧
        now - width < walked.1.start ∧ walked.1.start ≤ now ∧ looked.start = now) ∧
      looked.start ≤ now ∧ now - looked.start < width := by
  intro width segments elapsed turns walked looked
  have hwalked : walked = (turn^[turns] window, turns) := window.walk_eq elapsed
  have hstart : walked.1.start = window.start + (turns * width : Nat) := by
    rw [hwalked]
    exact window.start_iterate_turn turns
  refine ⟨hwalked, ?_, ?_, start_advance_le hnow, ?_⟩
  · intro hlt
    have hlooked : looked = turn^[turns] window := advance_eq_iterate_turn hlt
    refine ⟨by rw [hlooked, hwalked], ?_, window.plan.turns_le hlt, ?_, ?_⟩
    · rw [slide_eq window.plan.width_pos, Nat.zero_add]
    · rw [hlooked]
      exact window.counts_iterate_turn turns
    · rw [hlooked]
      exact window.start_iterate_turn turns
  · intro hle
    have hturns : segments ≤ turns := segments_le_turnsAt hle
    have hnil : window.counts.drop segments = [] :=
      List.drop_eq_nil_of_le (Nat.le_of_eq window.length_counts)
    have hempty : walked.1.counts = List.replicate segments 0 := by
      rw [hwalked, counts_iterate_turn, Nat.min_eq_right hturns, hnil, List.nil_append]
    have hlooked : looked = fresh window.plan now := advance_of_le hle
    refine ⟨?_, ?_, ?_, ?_, ?_⟩
    · rw [hlooked, hempty]
      rfl
    · intro count hcount
      rw [hempty] at hcount
      exact List.eq_of_mem_replicate hcount
    · have hlast := window.lt_turnsAt_mul_width now
      rw [hstart]
      change now < window.start + (turns * width : Nat) + width at hlast
      omega
    · rw [hstart]
      exact turnsAt_mul_width_le hnow
    · rw [hlooked]
      rfl
  · have hlast := window.lt_start_advance_add_width now
    change now < looked.start + width at hlast
    omega

/-- Three segments of a nanosecond each in an interval of five. At 4 there are four turns, as many as
there can be, one more than there are segments; at 5 the window starts afresh, where the walk would
make one turn more. -/
theorem advance_walks_four_turns :
    let window := (fresh ⟨2, 5, 3, by decide, by decide, by decide, by decide⟩ 0).record 2
    window.counts = [0, 0, 2] ∧
      (window.walk 4).2 = 4 ∧ 4 ≤ 2 * window.plan.segments - 2 ∧
      window.advance 4 = (window.walk 4).1 ∧ (window.advance 4).counts = [0, 0, 0] ∧
      (window.advance 5).counts = (window.walk 5).1.counts ∧
      (window.advance 5).start = 5 ∧ (window.walk 5).1 = turn^[5] window := by
  intro window
  have hfour : Time.elapsed window.start 4 = 4 ∧ 4 / window.plan.width = 4 := by decide
  have hfive : Time.elapsed window.start 5 = 5 ∧ 5 / window.plan.width = 5 := by decide
  obtain ⟨hwalked, hwithin, -⟩ := advance_walks window 4 (by decide)
  obtain ⟨hfurther, -, hafter, -⟩ := advance_walks window 5 (by decide)
  simp only [hfour] at hwalked hwithin
  simp only [hfive] at hfurther hafter
  obtain ⟨hsame, -, hturns, hcounts, -⟩ := hwithin (by decide)
  obtain ⟨hnothing, -, -, -, hstart⟩ := hafter (by decide)
  refine ⟨by decide, congrArg Prod.snd hwalked, hturns, hsame, ?_, hnothing, hstart,
    congrArg Prod.fst hfurther⟩
  rw [hcounts]
  decide

end Window

end Throttle

import Throttle.Proofs.Window.Journal

/-!
# Looking at a window again and again

Whoever looks at a window turns it, and a window that was not looked at for a whole interval starts
afresh when it is. So the path by which a window comes to stand as it does may leave its traces: its
newest segment may start at one instant or another. What it counts depends on the last of the instants
at which it was looked at, and on nothing else about them; neither their number nor their order
matters, and they may lie before the start of the window. This is about every window, whatever was
recorded in it.

## Main definitions

* `Window.Operation.isLook` — an operation that looks at a window and records nothing.
* `Window.lookAll` — the window after looks at some instants.

## Main statements

* `Window.agrees_lookAll` — a window that is looked at goes on to count what it would have counted.
* `Window.advance_lookAll` — within an interval of its start not even its segments tell how often it
  was looked at.
* `Window.run_looks` — what is counted depends on the latest look only.
-/

namespace Throttle.Window

/-- An operation that only looks at the window. -/
def Operation.isLook : Operation → Bool
  | .advance _ | .total _ | .available _ | .resetsAt _ _ => true
  | .record _ | .restart _ => false

/-- The window after looks at some instants, one after the other. -/
def lookAll (window : Window) (looked : List Int) : Window := looked.foldl advance window

@[simp] theorem lookAll_nil (window : Window) : window.lookAll [] = window := rfl

@[simp] theorem lookAll_cons (window : Window) (now : Int) (looked : List Int) :
    window.lookAll (now :: looked) = (window.advance now).lookAll looked := rfl

@[simp] theorem plan_lookAll (window : Window) (looked : List Int) :
    (window.lookAll looked).plan = window.plan := by
  induction looked generalizing window with
  | nil => rfl
  | cons now looked ih => rw [lookAll_cons, ih, plan_advance]

/-- What a look is for makes no difference to the window. -/
theorem run_eq_lookAll (window : Window) {looks : List Operation}
    (hlooks : ∀ look ∈ looks, look.isLook) : window.run looks = window.lookAll (instants looks) := by
  induction looks generalizing window with
  | nil => rfl
  | cons look looks ih =>
    have hlook := hlooks look List.mem_cons_self
    have hothers := fun other hother => hlooks other (List.mem_cons_of_mem look hother)
    cases look with
    | advance now => exact ih (window.advance now) hothers
    | total now => exact ih (window.advance now) hothers
    | available now => exact ih (window.advance now) hothers
    | resetsAt now _ => exact ih (window.advance now) hothers
    | record _ => simp [Operation.isLook] at hlook
    | restart _ => simp [Operation.isLook] at hlook

/-! ## Two looks -/

/-- A window that was looked at agrees with itself as it was, also if it was looked at before its
start. -/
theorem agrees_look (window : Window) (now : Int) : (window.advance now).Agrees now window := by
  by_cases h : window.start ≤ now
  · exact agrees_advance h
  · have hwidth := window.plan.width_pos
    rw [advance_eq_self (by omega)]
    exact .refl now window

/-- **Within an interval of the start an earlier look leaves no trace at all.** -/
theorem advance_advance_of_lt {window : Window} {s t : Int} (hs : s ≤ t)
    (ht : t < window.start + window.plan.interval) :
    (window.advance s).advance t = window.advance t := by
  by_cases hstart : window.start ≤ s
  · have hearly : Time.elapsed window.start s < window.plan.interval := by
      simp only [Time.elapsed]; omega
    have hlate : Time.elapsed window.start t < window.plan.interval := by
      simp only [Time.elapsed]; omega
    have hmid := start_advance_of_lt hearly
    have hrest : Time.elapsed (window.advance s).start t < (window.advance s).plan.interval := by
      rw [plan_advance]
      have := window.start_le_start_advance s
      simp only [Time.elapsed]; omega
    have hturns := turnsAt_advance_of_lt hstart hs hearly
    apply ((agrees_look window s).later hs).advance_eq
    rw [start_advance_of_lt hrest, start_advance_of_lt hlate, hmid, plan_advance, ← hturns,
      Nat.add_mul]
    push_cast
    omega
  · have hwidth := window.plan.width_pos
    have hearly : s < window.start + window.plan.width := by omega
    rw [advance_eq_self hearly]

/-! ## Any number of looks -/

section Looks

variable (window : Window) {looked : List Int}

theorem start_le_start_lookAll (looked : List Int) :
    window.start ≤ (window.lookAll looked).start := by
  induction looked generalizing window with
  | nil => simp
  | cons now looked ih =>
    have hfirst := window.start_le_start_advance now
    have hrest := ih (window.advance now)
    rw [lookAll_cons]
    omega

/-- The window has been turned as far as every look has asked for, and looking at it again at one of
these instants changes nothing. -/
theorem advance_lookAll_of_mem {now : Int} (hnow : now ∈ looked) :
    (window.lookAll looked).advance now = window.lookAll looked := by
  induction looked generalizing window with
  | nil => simp at hnow
  | cons first looked ih =>
    rw [lookAll_cons]
    rcases List.mem_cons.mp hnow with rfl | hnow
    · apply advance_eq_self
      have hlt := window.lt_start_advance_add_width now
      have hle := (window.advance now).start_le_start_lookAll looked
      simp only [plan_lookAll, plan_advance]
      omega
    · exact ih (window.advance first) hnow

/-- **A window that is looked at goes on to count what it would have counted.** -/
theorem agrees_lookAll {now : Int} (hnow : ∀ instant ∈ looked, instant ≤ now) :
    (window.lookAll looked).Agrees now window := by
  induction looked generalizing window with
  | nil => exact .refl now window
  | cons first looked ih =>
    rw [List.forall_mem_cons] at hnow
    rw [lookAll_cons]
    have hfirst := (agrees_look window first).later hnow.1
    exact (ih (window.advance first) hnow.2).trans hfirst

/-- **Within an interval of the start no number of looks leaves a trace.** -/
theorem advance_lookAll {now : Int} (hnow : ∀ instant ∈ looked, instant ≤ now)
    (hlt : now < window.start + window.plan.interval) :
    (window.lookAll looked).advance now = window.advance now := by
  induction looked generalizing window with
  | nil => simp
  | cons first looked ih =>
    rw [List.forall_mem_cons] at hnow
    have hstart := window.start_le_start_advance first
    have hlater : now < (window.advance first).start + (window.advance first).plan.interval := by
      rw [plan_advance]
      omega
    rw [lookAll_cons, ih (window.advance first) hnow.2 hlater]
    exact advance_advance_of_lt hnow.1 hlt

/-- After any looks the window counts what it counts if it is looked at once, at the latest instant. -/
theorem counts_lookAll {latest : Int} (hlatest : looked.max? = some latest) :
    (window.lookAll looked).counts = (window.advance latest).counts := by
  obtain ⟨hmem, hmost⟩ := List.max?_eq_some_iff.mp hlatest
  have hagrees := agrees_lookAll window hmost
  rw [← advance_lookAll_of_mem window hmem]
  apply eq_of_sum_drop
  · simp [length_counts]
  · exact hagrees.left_eq latest (Int.le_refl latest)

theorem total_lookAll {latest : Int} (hlatest : looked.max? = some latest) :
    (window.lookAll looked).total = window.left (window.turnsAt latest) := by
  rw [total, counts_lookAll window hlatest, ← total_advance, total]

/-- One more look is the latest one, or it is not. -/
theorem max?_concat {latest : Int} (hlatest : looked.max? = some latest) (now : Int) :
    (looked ++ [now]).max? = some (max latest now) := by
  obtain ⟨hmem, hmost⟩ := List.max?_eq_some_iff.mp hlatest
  rw [List.max?_eq_some_iff]
  constructor
  · rcases max_choice latest now with hmax | hmax
    · rw [hmax]
      exact List.mem_append_left [now] hmem
    · simp [hmax]
  · intro instant hinstant
    rcases List.mem_append.mp hinstant with hinstant | hinstant
    · exact le_max_of_le_left (hmost instant hinstant)
    · rw [List.mem_singleton.mp hinstant]
      exact le_max_right latest now

end Looks

/-- **What is counted depends on the latest look only.** A window is looked at any number of times, at
instants in any order. Then it counts, segment by segment, what it counts if it is looked at once, at
the latest of these instants. If that is within an interval of the window's start, the window is the
same altogether. Whoever asks for the total afterwards is told what the window, had nobody looked at
it before, would tell at the later one of this instant and his own. And with later looks no more is
counted. -/
theorem run_looks (window : Window) (looks : List Operation) (latest : Int)
    (hlooks : ∀ look ∈ looks, look.isLook) (hlatest : (instants looks).max? = some latest) :
    (window.run looks).counts = (window.advance latest).counts ∧
      (latest < window.start + window.plan.interval →
        window.run looks = window.advance latest) ∧
      (∀ now, (window.run looks).result (.total now) =
        window.result (.total (max latest now))) ∧
      ∀ (others : List Operation) (later : Int), (∀ look ∈ others, look.isLook) →
        (instants others).max? = some later → latest ≤ later →
        (window.run others).total ≤ (window.run looks).total := by
  rw [run_eq_lookAll window hlooks]
  generalize instants looks = looked at hlatest
  obtain ⟨hmem, hmost⟩ := List.max?_eq_some_iff.mp hlatest
  refine ⟨counts_lookAll window hlatest, ?_, ?_, ?_⟩
  · intro hlt
    rw [← advance_lookAll_of_mem window hmem]
    exact advance_lookAll window hmost hlt
  · intro now
    -- Asking for the total is one more look.
    have hwindow : (window.lookAll looked).advance now = window.lookAll (looked ++ [now]) := by
      simp [lookAll]
    have htotal := total_lookAll window (max?_concat hlatest now)
    simp only [result, hwindow, htotal, total_advance]
  · intro others later hothers hlater hle
    rw [run_eq_lookAll window hothers, total_lookAll window hlatest, total_lookAll window hlater]
    apply window.left_antitone
    exact window.turnsAt_mono hle

/-- Two units were recorded at 0. The window is looked at with a clock that goes back, and comes to
count nothing at 11 by turns, with a segment that starts at 9. Looked at just once it starts afresh at
11. -/
theorem run_looks_back_and_forth :
    let window := (fresh ⟨2, 10, 3, by decide, by decide, by decide, by decide⟩ 0).record 2
    let looks : List Operation := [.available 7, .total (-4), .resetsAt 11 1, .advance 3]
    let fewer : List Operation := [.resetsAt 8 2, .total 1]
    (window.run looks).counts = (window.advance 11).counts ∧
      (window.run looks).start = 9 ∧ (window.advance 11).start = 11 ∧
      window.run fewer = window.advance 8 ∧ (window.advance 8).start = 6 ∧
      (window.run looks).total ≤ (window.run fewer).total ∧ (window.run fewer).total = 2 := by
  intro window looks fewer
  obtain ⟨hcounts, -⟩ := run_looks window looks 11 (by decide) (by decide)
  obtain ⟨-, hsame, -, hless⟩ := run_looks window fewer 8 (by decide) (by decide)
  refine ⟨hcounts, by decide +kernel, by decide +kernel, hsame (by decide), by decide +kernel, ?_,
    by decide +kernel⟩
  exact hless looks 11 (by decide) (by decide) (by decide)

end Throttle.Window
